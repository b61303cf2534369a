import DataPlane.Spec.Ledger
import DataPlane.Ref.MemoryLimiter

/-!
# What a minute is supposed to hold

The limits are per minute, and a reservation belongs to the minute its call
read from the clock, however late it is admitted or settled. The history
keeps every admission with that minute; `totalIn` adds up what a key's
admissions of one minute count for. The limiter itself has no such memory: it
has one window for each key.

Two systems of calls are audited in this way. In the first one the calls come
one after the other and settlements are among them. In the second only
reserves are made, but each reads the clock first and gets the lock later, and
the lock is given out in any order.
-/

namespace DataPlane.Spec

open DataPlane DataPlane.Ref

/-- An admitted reserve. -/
structure Admitted where
  id : Uuid
  apiKey : String
  minute : Nat
  promptTokens : Nat
  reserved : Nat
  outcome : Outcome
  deriving DecidableEq

/-- What it counts for: one request, its prompt, and of the generated tokens
what was reserved until it is known how many were used. -/
def Admitted.weight (a : Admitted) : Dimension → Nat
  | .requests => 1
  | .prompt => a.promptTokens
  | .generated =>
      match a.outcome with
      | .unsettled => a.reserved
      | .reconciled actual => min a.reserved actual
      | .cancelled => 0

/-- What it counts for in a minute of an API key. -/
def Admitted.share (a : Admitted) (apiKey : String) (minute : Nat)
    (d : Dimension) : Nat :=
  if a.apiKey = apiKey ∧ a.minute = minute then a.weight d else 0

/-- What all admissions count for in a minute of an API key. -/
def totalIn (d : Dimension) (history : List Admitted) (apiKey : String)
    (minute : Nat) : Nat :=
  (history.map (·.share apiKey minute d)).sum

/-- Settle the admission if it is the one named and is not settled yet. -/
def Admitted.settle (id : Uuid) (o : Outcome) (a : Admitted) : Admitted :=
  if a.id = id ∧ a.outcome = .unsettled then { a with outcome := o } else a

section History

variable {history : List Admitted} {a : Admitted} {id : Uuid} {o : Outcome}

@[simp] theorem totalIn_nil (d : Dimension) (apiKey : String) (minute : Nat) :
    totalIn d [] apiKey minute = 0 := rfl

@[simp] theorem totalIn_cons (d : Dimension) (apiKey : String) (minute : Nat) :
    totalIn d (a :: history) apiKey minute =
      a.share apiKey minute d + totalIn d history apiKey minute := by
  simp [totalIn]

@[simp] theorem totalIn_append (d : Dimension) (history' : List Admitted)
    (apiKey : String) (minute : Nat) :
    totalIn d (history ++ history') apiKey minute =
      totalIn d history apiKey minute + totalIn d history' apiKey minute := by
  simp [totalIn]

/-- A minute nothing was admitted in holds nothing. -/
theorem totalIn_eq_zero {apiKey : String} {minute : Nat}
    (h : ∀ a ∈ history, a.apiKey = apiKey → a.minute ≠ minute) (d : Dimension) :
    totalIn d history apiKey minute = 0 := by
  induction history with
  | nil => rfl
  | cons a history ih =>
      have ha : ¬ (a.apiKey = apiKey ∧ a.minute = minute) :=
        fun hx => h a List.mem_cons_self hx.1 hx.2
      rw [totalIn_cons, Admitted.share, if_neg ha,
        ih fun x hx => h x (List.mem_cons_of_mem a hx)]

theorem share_le_totalIn (h : a ∈ history) (apiKey : String) (minute : Nat)
    (d : Dimension) : a.share apiKey minute d ≤ totalIn d history apiKey minute := by
  obtain ⟨l, r, rfl⟩ := List.append_of_mem h
  simp only [totalIn_append, totalIn_cons]
  omega

@[simp] theorem Admitted.settle_id : (a.settle id o).id = a.id := by
  unfold Admitted.settle; split <;> rfl

@[simp] theorem Admitted.settle_apiKey : (a.settle id o).apiKey = a.apiKey := by
  unfold Admitted.settle; split <;> rfl

@[simp] theorem Admitted.settle_minute : (a.settle id o).minute = a.minute := by
  unfold Admitted.settle; split <;> rfl

/-- A history with no unsettled admission of that name is left as it is. -/
theorem map_settle_of_settled
    (h : ∀ a ∈ history, a.id = id → a.outcome ≠ .unsettled) :
    history.map (Admitted.settle id o) = history := by
  conv_rhs => rw [← List.map_id history]
  refine List.map_congr_left fun a ha => ?_
  exact if_neg fun hx => h a ha hx.1 hx.2

/-- Where the name is used once, settling it changes the share of that one
admission and nothing else. -/
theorem totalIn_map_settle (ha : a ∈ history) (hopen : a.outcome = .unsettled)
    (hnd : (history.map (·.id)).Nodup) (d : Dimension) (apiKey : String)
    (minute : Nat) :
    totalIn d (history.map (Admitted.settle a.id o)) apiKey minute +
        a.share apiKey minute d =
      totalIn d history apiKey minute +
        ({ a with outcome := o } : Admitted).share apiKey minute d := by
  obtain ⟨l, r, rfl⟩ := List.append_of_mem ha
  rw [List.map_append, List.map_cons, List.nodup_append, List.nodup_cons] at hnd
  have hl : ∀ x ∈ l, x.id = a.id → x.outcome ≠ .unsettled := by
    intro x hx hid
    exact absurd hid (hnd.2.2 _ (List.mem_map_of_mem hx) _ (by simp))
  have hr : ∀ x ∈ r, x.id = a.id → x.outcome ≠ .unsettled := by
    intro x hx hid
    exact absurd (hid ▸ List.mem_map_of_mem hx) hnd.2.1.1
  have hself : a.settle a.id o = { a with outcome := o } := if_pos ⟨rfl, hopen⟩
  simp only [List.map_append, List.map_cons, map_settle_of_settled hl,
    map_settle_of_settled hr, hself, totalIn_append, totalIn_cons]
  omega

end History

/-! ## Calls one after the other -/

/-- A call, or the passage of time. -/
inductive LimiterCall
  | tick (ms : Nat)
  | reserve (id : Uuid) (check : QuotaCheck)
  | reconcile (id : Uuid) (actual : Nat)
  | cancel (id : Uuid)
  deriving DecidableEq

/-- The limiter, the clock its calls read, and the audit. -/
structure LimiterState where
  unixMs : Nat
  limiter : InMemoryQuotaLimiter
  drawn : List Uuid
  history : List Admitted

/-- A new limiter. -/
def LimiterState.init (limits : QuotaLimits) (unixMs : Nat) : LimiterState :=
  ⟨unixMs, .new limits, [], []⟩

/-- The history after a reserve that read this minute. -/
def recordReserve {α β : Type} (history : List Admitted) (minute : Nat)
    (id : Uuid) (check : QuotaCheck) (result : Except α β) : List Admitted :=
  match result with
  | .ok _ =>
      history ++ [⟨id, check.apiKey, minute, check.promptTokens,
        check.reservedGeneratedTokens, .unsettled⟩]
  | .error _ => history

/-- One call. The id of a reservation is drawn at random, so it has not been
drawn before. -/
def limiterStep (s : LimiterState) : LimiterCall → Option LimiterState
  | .tick ms => some { s with unixMs := s.unixMs + ms }
  | .reserve id check =>
      if id ∈ s.drawn then none
      else
        let minute := epochMinute s.unixMs
        let (result, limiter) := s.limiter.reserve minute id check
        some { s with
          limiter := limiter
          drawn := id :: s.drawn
          history := recordReserve s.history minute id check result }
  | .reconcile id actual =>
      some { s with
        limiter := (s.limiter.reconcile id actual).2
        history := s.history.map (Admitted.settle id (.reconciled actual)) }
  | .cancel id =>
      some { s with
        limiter := (s.limiter.cancel id).2
        history := s.history.map (Admitted.settle id .cancelled) }

/-! ## Reserves at the same time -/

/-- A call that has read the clock and waits for the lock. -/
structure Waiting where
  minute : Nat
  check : QuotaCheck
  deriving DecidableEq, Repr

/-- Time passes, a call begins, or one gets the lock. -/
inductive ConcurrentStep
  | tick (ms : Nat)
  /-- A call begins and reads the minute. -/
  | start (check : QuotaCheck)
  /-- The waiting call at a position gets the lock. -/
  | enter (position : Nat) (id : Uuid)
  deriving DecidableEq

/-- The limiter, and the calls that wait for its lock. -/
structure ConcurrentState where
  unixMs : Nat
  limiter : InMemoryQuotaLimiter
  waiting : List Waiting
  drawn : List Uuid
  history : List Admitted

/-- A new limiter, and nobody waits. -/
def ConcurrentState.init (limits : QuotaLimits) (unixMs : Nat) :
    ConcurrentState :=
  ⟨unixMs, .new limits, [], [], []⟩

/-- One of these, if it can happen. -/
def concurrentStep (s : ConcurrentState) :
    ConcurrentStep → Option ConcurrentState
  | .tick ms => some { s with unixMs := s.unixMs + ms }
  | .start check =>
      some { s with waiting := s.waiting ++ [⟨epochMinute s.unixMs, check⟩] }
  | .enter position id =>
      match s.waiting[position]? with
      | none => none
      | some call =>
          if id ∈ s.drawn then none
          else
            let (result, limiter) := s.limiter.reserve call.minute id call.check
            some { s with
              limiter := limiter
              waiting := s.waiting.eraseIdx position
              drawn := id :: s.drawn
              history :=
                recordReserve s.history call.minute id call.check result }

end DataPlane.Spec
