import DataPlane.Lib.Run
import DataPlane.Proofs.MemoryLimiter
import DataPlane.Spec.Windows

/-!
# The minutes of the in-memory limiter

The limiter has one window for each key and the history has every minute, so
the invariant says what the window stands for: its counters are the totals of
the minute it is at. A reserve keeps that up as long as it does not start a
minute over that already holds something. Calls that come one after the other
never do, because the clock does not go back; calls that wait for the lock
after they have read the clock can.

A settlement breaks it in another way. The refund goes into the window the key
has by then, and when that has moved on to another minute the refund makes
room there for tokens that were never given back.

In both cases the condition under which the limits do hold is exactly that
the step keeps the counters equal to the totals.
-/

namespace DataPlane.Proofs

open DataPlane DataPlane.Lib DataPlane.Ref DataPlane.Spec
open InMemoryQuotaLimiter (currentWindow)

/-! ## Windows and their totals -/

/-- The counters of a window are the totals of its minute, and no total is
over its limit. -/
structure Booked (limiter : InMemoryQuotaLimiter) (history : List Admitted) :
    Prop where
  within : Within limiter
  counted : ∀ {key w}, limiter.state key = some w → ∀ d,
    countOf w d = totalIn d history key w.windowStartEpochMinute
  bounded : ∀ key minute d,
    totalIn d history key minute ≤ limitOf limiter.limits d

theorem booked_new (limits : QuotaLimits) : Booked (.new limits) [] where
  within := by intro key w d hw; cases hw
  counted := by intro key w hw; cases hw
  bounded := by intro key minute d; exact Nat.zero_le _

/-- The minute is the one the key's window is at, or nothing has been admitted
in it. -/
def Continues (limiter : InMemoryQuotaLimiter) (history : List Admitted)
    (key : String) (minute : Nat) : Prop :=
  (limiter.state key).map (·.windowStartEpochMinute) = some minute ∨
    ∀ a ∈ history, a.apiKey = key → a.minute ≠ minute

instance (limiter : InMemoryQuotaLimiter) (history : List Admitted)
    (key : String) (minute : Nat) :
    Decidable (Continues limiter history key minute) :=
  inferInstanceAs (Decidable (_ ∨ _))

variable {limiter : InMemoryQuotaLimiter} {history : List Admitted}

/-- The window a reserve works on stands for its minute. -/
theorem Booked.currentWindow {key : String} {minute : Nat}
    (hI : Booked limiter history) (hc : Continues limiter history key minute)
    (d : Dimension) :
    countOf (currentWindow (limiter.state key) minute) d =
      totalIn d history key minute := by
  by_cases h : ∀ w, limiter.state key = some w →
      w.windowStartEpochMinute ≠ minute
  · rw [countOf_currentWindow_of_ne h]
    rcases hc with hat | hempty
    · obtain ⟨w, hw, hstart⟩ := Option.map_eq_some_iff.mp hat
      exact absurd hstart (h w hw)
    · rw [totalIn_eq_zero hempty]
  · obtain ⟨w, hw, hstart⟩ : ∃ w, limiter.state key = some w ∧
        w.windowStartEpochMinute = minute := by
      by_contra hnone
      exact h fun w hw hs => hnone ⟨w, hw, hs⟩
    rw [hw, currentWindow_of_start hstart, hI.counted hw, hstart]

/-- An admission adds what was asked to the minute that was read. -/
theorem totalIn_admitted (history : List Admitted) (id : Uuid)
    (check : QuotaCheck) (minute : Nat) (key : String) (m : Nat)
    (d : Dimension) :
    totalIn d (history ++ [⟨id, check.apiKey, minute, check.promptTokens,
        check.reservedGeneratedTokens, .unsettled⟩]) key m =
      totalIn d history key m +
        if check.apiKey = key ∧ minute = m then askedOf check d else 0 := by
  rw [totalIn_append, totalIn_cons, totalIn_nil, Nat.add_zero]
  cases d <;> rfl

theorem booked_reserve (id : Uuid) {check : QuotaCheck} {minute : Nat}
    (hI : Booked limiter history)
    (hc : Continues limiter history check.apiKey minute) :
    Booked (limiter.reserve minute id check).2
      (recordReserve history minute id check
        (limiter.reserve minute id check).1) := by
  have hwithin := within_reserve hI.within minute id check
  have hcur := hI.currentWindow hc
  rcases reserve_cases hI.within minute id check with
    ⟨e, he⟩ | ⟨hfit, q, _, _, hq⟩
  · rw [he] at hwithin ⊢
    refine ⟨hwithin, ?_, hI.bounded⟩
    intro key w hw d
    dsimp only [recordReserve] at hw ⊢
    by_cases hk : key = check.apiKey
    · subst hk
      rw [Function.update_self] at hw
      cases hw
      rw [hcur, currentWindow_start]
    · rw [Function.update_of_ne hk] at hw
      exact hI.counted hw d
  · rw [hq] at hwithin ⊢
    refine ⟨hwithin, ?_, ?_⟩
    · intro key w hw d
      dsimp only [recordReserve] at hw ⊢
      rw [totalIn_admitted]
      by_cases hk : key = check.apiKey
      · subst hk
        rw [Function.update_self] at hw
        cases hw
        rw [countOf_chargeWindow, hcur, chargeWindow_start, currentWindow_start,
          if_pos ⟨rfl, rfl⟩]
      · rw [Function.update_of_ne hk] at hw
        rw [hI.counted hw d, if_neg fun hx => hk hx.1.symm, Nat.add_zero]
    · intro key m d
      dsimp only [recordReserve]
      rw [totalIn_admitted]
      have hold := hI.bounded key m d
      split
      · next hx =>
          obtain ⟨rfl, rfl⟩ := hx
          have := hfit d
          rw [hcur] at this
          omega
      · omega

theorem reserve_limits (hI : Within limiter) (minute : Nat) (id : Uuid)
    (check : QuotaCheck) :
    (limiter.reserve minute id check).2.limits = limiter.limits := by
  rcases reserve_cases hI minute id check with ⟨e, he⟩ | ⟨_, q, _, _, hq⟩
  · rw [he]
  · rw [hq]

/-! ## Reserves at the same time -/

/-- A call that gets the lock finds the window at the minute it read, or is
the first of its minute to be admitted. -/
def EntersInOrder (s : ConcurrentState) : ConcurrentStep → Prop
  | .enter position _ =>
      ∀ call ∈ s.waiting[position]?,
        Continues s.limiter s.history call.check.apiKey call.minute
  | _ => True

instance (s : ConcurrentState) (l : ConcurrentStep) :
    Decidable (EntersInOrder s l) :=
  match l with
  | .enter position _ =>
      inferInstanceAs (Decidable (∀ call ∈ s.waiting[position]?,
        Continues s.limiter s.history call.check.apiKey call.minute))
  | .tick _ | .start _ => isTrue trivial

theorem concurrent_booked {s t : ConcurrentState} {l : ConcurrentStep}
    (hI : Booked s.limiter s.history) (hok : EntersInOrder s l)
    (h : concurrentStep s l = some t) :
    Booked t.limiter t.history ∧ t.limiter.limits = s.limiter.limits := by
  cases l with
  | tick ms => cases h; exact ⟨hI, rfl⟩
  | start check => cases h; exact ⟨hI, rfl⟩
  | enter position id =>
      simp only [concurrentStep] at h
      split at h
      · cases h
      · next call hcall =>
          split at h
          · cases h
          · cases h
            exact ⟨booked_reserve id hI (hok call hcall),
              reserve_limits hI.within _ _ _⟩

/-- In every run of concurrent reserves in which no call starts a minute over
that its key has already been admitted in, the admissions of every key and
minute stay within all three limits. -/
theorem concurrent_within_limits (limits : QuotaLimits) (start : Nat)
    (s : ConcurrentState)
    (h : Run concurrentStep EntersInOrder (.init limits start) s)
    (key : String) (minute : Nat) (d : Dimension) :
    totalIn d s.history key minute ≤ limitOf limits d := by
  have hI : Booked s.limiter s.history ∧ s.limiter.limits = limits := by
    refine h.invariant
      (I := fun s => Booked s.limiter s.history ∧ s.limiter.limits = limits)
      ⟨booked_new limits, rfl⟩ ?_
    intro s t l hI hok hstep
    obtain ⟨hbooked, hlimits⟩ := concurrent_booked hI.1 hok hstep
    exact ⟨hbooked, hlimits.trans hI.2⟩
  rw [← hI.2]
  exact hI.1.bounded key minute d

/-- Two calls of one minute and one of the next, in the order of their
readings: the second is refused, the third is admitted. -/
def enteredInOrder : List ConcurrentStep :=
  [.start ⟨"key", 10, 10⟩, .start ⟨"key", 10, 10⟩, .enter 0 (endingIn 'a'),
    .tick 60000, .enter 0 (endingIn 'b'), .start ⟨"key", 10, 10⟩,
    .enter 0 (endingIn 'c')]

theorem concurrent_within_limits_entered :
    ∃ s, Run concurrentStep EntersInOrder (.init ⟨1, 100, 100⟩ 0) s ∧
      s.history.map (·.minute) = [0, 1] ∧
      totalIn .requests s.history "key" 0 ≤ 1 := by
  obtain ⟨s, hrun, hs⟩ := run_of_exec_map concurrentStep EntersInOrder
    (fun s l => decide (EntersInOrder s l)) (.init ⟨1, 100, 100⟩ 0) enteredInOrder
    (fun s => s.history.map (·.minute)) (b := [0, 1])
    (fun _ _ hok => of_decide_eq_true hok) (by decide)
  exact ⟨s, hrun, hs,
    concurrent_within_limits ⟨1, 100, 100⟩ 0 s hrun "key" 0 .requests⟩

/-- The same three calls, but the third gets the lock before the second: the
window moves on to the next minute and back, and the minute that has admitted
its one request admits another. -/
theorem concurrent_exceeds_limit :
    ∃ s, Run concurrentStep (fun _ _ => True) (.init ⟨1, 100, 100⟩ 0) s ∧
      totalIn .requests s.history "key" 0 = 2 ∧
      ¬ totalIn .requests s.history "key" 0 ≤ 1 := by
  obtain ⟨s, hrun, hs⟩ := run_of_exec_map concurrentStep (fun _ _ => True)
    (fun _ _ => true) (.init ⟨1, 100, 100⟩ 0)
    [.start ⟨"key", 10, 10⟩, .start ⟨"key", 10, 10⟩, .tick 60000,
      .start ⟨"key", 10, 10⟩, .enter 0 (endingIn 'a'),
      .enter 1 (endingIn 'c'), .enter 0 (endingIn 'b')]
    (fun s => totalIn .requests s.history "key" 0) (b := 2)
    (fun _ _ _ => trivial) (by decide)
  exact ⟨s, hrun, hs, by omega⟩

/-! ## Calls one after the other -/

/-- The refund of a settlement, if there is one, goes into a window that is
still at the minute of the reservation, or in which there is nothing to take
it from. -/
def RefundsInTime (s : LimiterState) (id : Uuid) (actual : Nat) : Prop :=
  ∀ a ∈ s.history, a.id = id → a.outcome = .unsettled → actual < a.reserved →
    ∀ w ∈ s.limiter.state a.apiKey,
      w.windowStartEpochMinute = a.minute ∨ w.generatedTokensReserved = 0

/-- A settlement that refunds does so within its minute, or finds nothing
reserved. -/
def SettlesInTime (s : LimiterState) : LimiterCall → Prop
  | .reconcile id actual => RefundsInTime s id actual
  | .cancel id => RefundsInTime s id 0
  | _ => True

instance (s : LimiterState) (id : Uuid) (actual : Nat) :
    Decidable (RefundsInTime s id actual) :=
  inferInstanceAs (Decidable (∀ a ∈ s.history, a.id = id →
    a.outcome = .unsettled → actual < a.reserved →
    ∀ w ∈ s.limiter.state a.apiKey,
      w.windowStartEpochMinute = a.minute ∨ w.generatedTokensReserved = 0))

instance (s : LimiterState) (l : LimiterCall) : Decidable (SettlesInTime s l) :=
  match l with
  | .reconcile id actual => inferInstanceAs (Decidable (RefundsInTime s id actual))
  | .cancel id => inferInstanceAs (Decidable (RefundsInTime s id 0))
  | .tick _ | .reserve _ _ => isTrue trivial

/-- The windows do not run ahead of the clock and do not fall behind the
history. -/
structure Tracked (state : String → Option WindowCounters)
    (history : List Admitted) (minute : Nat) : Prop where
  past : ∀ {a}, a ∈ history → ∃ w, state a.apiKey = some w ∧
    a.minute ≤ w.windowStartEpochMinute
  clock : ∀ {key w}, state key = some w → w.windowStartEpochMinute ≤ minute

/-- The reservations are the admissions that have not been settled. -/
structure Linked
    (reservations : Uuid → Option InMemoryQuotaLimiter.QuotaReservation)
    (history : List Admitted) (drawn : List Uuid) : Prop where
  known : ∀ {id q}, reservations id = some q →
    ∃ a ∈ history, a.id = id ∧ a.outcome = .unsettled ∧
      a.apiKey = q.apiKey ∧ a.reserved = q.reservedGeneratedTokens
  unsettled : ∀ {a}, a ∈ history → a.outcome = .unsettled →
    reservations a.id ≠ none
  distinct : (history.map (·.id)).Nodup
  drawn : ∀ {a}, a ∈ history → a.id ∈ drawn

theorem epochMinute_mono {t t' : Nat} (h : t ≤ t') :
    epochMinute t ≤ epochMinute t' := by
  unfold epochMinute
  omega

/-- The clock does not go back, so a minute is not started over. -/
theorem Tracked.continues {minute : Nat}
    (hI : Tracked limiter.state history minute) (key : String) :
    Continues limiter history key minute := by
  by_cases h : ∀ a ∈ history, a.apiKey = key → a.minute ≠ minute
  · exact .inr h
  · obtain ⟨a, ha, hkey, hmin⟩ : ∃ a ∈ history, a.apiKey = key ∧
        a.minute = minute := by
      by_contra hnone
      exact h fun a ha hk hm => hnone ⟨a, ha, hk, hm⟩
    obtain ⟨w, hw, hle⟩ := hI.past ha
    have hclock := hI.clock hw
    refine .inl ?_
    rw [← hkey, hw, Option.map_some]
    congr 1
    omega

/-! ### A reserve -/

theorem Tracked.update {state : String → Option WindowCounters} {minute : Nat}
    (hI : Tracked state history minute) (key : String) {w : WindowCounters}
    (hw : w.windowStartEpochMinute = minute) :
    Tracked (Function.update state key (some w)) history minute where
  past := by
    intro a ha
    obtain ⟨w', hw', hle⟩ := hI.past ha
    by_cases hk : a.apiKey = key
    · have := hI.clock hw'
      exact ⟨w, by rw [hk, Function.update_self], by omega⟩
    · exact ⟨w', by rw [Function.update_of_ne hk, hw'], hle⟩
  clock := by
    intro key' w' hw'
    by_cases hk : key' = key
    · subst hk
      rw [Function.update_self] at hw'
      cases hw'
      exact hw.le
    · rw [Function.update_of_ne hk] at hw'
      exact hI.clock hw'

theorem Tracked.append {state : String → Option WindowCounters} {minute : Nat}
    (hI : Tracked state history minute) {a : Admitted}
    (ha : ∃ w, state a.apiKey = some w ∧ a.minute ≤ w.windowStartEpochMinute) :
    Tracked state (history ++ [a]) minute where
  past := by
    intro x hx
    rcases List.mem_append.mp hx with hx | hx
    · exact hI.past hx
    · rw [List.mem_singleton.mp hx]
      exact ha
  clock := hI.clock

/-- A freshly drawn id is not in the history. -/
theorem distinct_admit {drawn : List Uuid} {a : Admitted}
    (hnd : (history.map (·.id)).Nodup)
    (hdrawn : ∀ {x}, x ∈ history → x.id ∈ drawn) (hfresh : a.id ∉ drawn) :
    ((history ++ [a]).map (·.id)).Nodup := by
  rw [List.map_append, List.nodup_append]
  refine ⟨hnd, List.nodup_singleton _, ?_⟩
  intro x hx y hy
  obtain ⟨b, hb, rfl⟩ := List.mem_map.mp hx
  rw [List.map_singleton, List.mem_singleton] at hy
  rw [hy]
  exact fun he => hfresh (he ▸ hdrawn hb)

theorem Linked.admit {drawn : List Uuid} {id : Uuid} {a : Admitted}
    {q : InMemoryQuotaLimiter.QuotaReservation}
    (hI : Linked limiter.reservations history drawn) (hfresh : id ∉ drawn)
    (hid : a.id = id) (hopen : a.outcome = .unsettled)
    (hkey : a.apiKey = q.apiKey)
    (hgen : a.reserved = q.reservedGeneratedTokens) :
    Linked (Function.update limiter.reservations id (some q)) (history ++ [a])
      (id :: drawn) where
  known := by
    intro id' q' hq'
    by_cases he : id' = id
    · subst he
      rw [Function.update_self] at hq'
      cases hq'
      exact ⟨a, by simp, hid, hopen, hkey, hgen⟩
    · rw [Function.update_of_ne he] at hq'
      obtain ⟨x, hx, hrest⟩ := hI.known hq'
      exact ⟨x, List.mem_append_left _ hx, hrest⟩
  unsettled := by
    intro x hx hxo
    rcases List.mem_append.mp hx with hx | hx
    · have hne : x.id ≠ id := fun he => hfresh (he ▸ hI.drawn hx)
      rw [Function.update_of_ne hne]
      exact hI.unsettled hx hxo
    · rw [List.mem_singleton.mp hx, hid, Function.update_self]
      exact Option.some_ne_none q
  distinct := distinct_admit hI.distinct hI.drawn (hid ▸ hfresh)
  drawn := by
    intro x hx
    rcases List.mem_append.mp hx with hx | hx
    · exact List.mem_cons_of_mem id (hI.drawn hx)
    · rw [List.mem_singleton.mp hx, hid]
      exact List.mem_cons_self

/-- What the history, the windows, the reservations and the clock have to do
with each other. -/
structure Audited (s : LimiterState) : Prop where
  booked : Booked s.limiter s.history
  tracked : Tracked s.limiter.state s.history (epochMinute s.unixMs)
  linked : Linked s.limiter.reservations s.history s.drawn

theorem audited_init (limits : QuotaLimits) (start : Nat) :
    Audited (.init limits start) where
  booked := booked_new limits
  tracked :=
    { past := by intro a ha; cases ha
      clock := by intro key w hw; cases hw }
  linked :=
    { known := by intro id q hq; cases hq
      unsettled := by intro a ha; cases ha
      distinct := List.nodup_nil
      drawn := by intro a ha; cases ha }

theorem Audited.tick {s : LimiterState} (hI : Audited s) (ms : Nat) :
    Audited { s with unixMs := s.unixMs + ms } where
  booked := hI.booked
  tracked :=
    ⟨hI.tracked.past, fun hw => (hI.tracked.clock hw).trans
      (epochMinute_mono (Nat.le_add_right s.unixMs ms))⟩
  linked := hI.linked

/-- A reserve leaves its window at the minute it read. -/
theorem tracked_reserve {minute : Nat} (hI : Within limiter)
    (htracked : Tracked limiter.state history minute) (id : Uuid)
    (check : QuotaCheck) :
    Tracked (limiter.reserve minute id check).2.state
      (recordReserve history minute id check
        (limiter.reserve minute id check).1) minute := by
  rcases reserve_cases hI minute id check with ⟨e, he⟩ | ⟨_, q, _, _, hq⟩
  · rw [he]
    exact htracked.update check.apiKey currentWindow_start
  · rw [hq]
    have hstart := @chargeWindow_currentWindow_start
      (limiter.state check.apiKey) minute check
    refine (htracked.update check.apiKey hstart).append ?_
    exact ⟨_, Function.update_self .., hstart.symm.le⟩

theorem Audited.reserve {s : LimiterState} {id : Uuid} {check : QuotaCheck}
    (hI : Audited s) (hfresh : id ∉ s.drawn) :
    Audited { s with
      limiter := (s.limiter.reserve (epochMinute s.unixMs) id check).2
      drawn := id :: s.drawn
      history := recordReserve s.history (epochMinute s.unixMs) id check
        (s.limiter.reserve (epochMinute s.unixMs) id check).1 } := by
  have hbooked := booked_reserve id hI.booked
    (hI.tracked.continues check.apiKey)
  refine ⟨hbooked, tracked_reserve hI.booked.within hI.tracked id check, ?_⟩
  dsimp only
  rcases reserve_cases hI.booked.within (epochMinute s.unixMs) id check with
    ⟨e, he⟩ | ⟨_, q, hkey, hgen, hq⟩
  · rw [he]
    exact ⟨hI.linked.known, hI.linked.unsettled, hI.linked.distinct,
      fun ha => List.mem_cons_of_mem id (hI.linked.drawn ha)⟩
  · rw [hq]
    exact hI.linked.admit hfresh rfl rfl hkey.symm hgen.symm

/-! ### A settlement -/

/-- An outcome that leaves the admission at this many generated tokens. -/
def LeavesAt (o : Outcome) (actual : Nat) : Prop :=
  o ≠ .unsettled ∧ ∀ (a : Admitted) (d : Dimension),
    ({ a with outcome := o } : Admitted).weight d =
      match d with
      | .requests => 1
      | .prompt => a.promptTokens
      | .generated => min a.reserved actual

theorem leavesAt_reconciled (actual : Nat) :
    LeavesAt (.reconciled actual) actual := by
  refine ⟨by simp, ?_⟩
  intro a d
  cases d <;> rfl

theorem leavesAt_cancelled : LeavesAt .cancelled 0 := by
  refine ⟨by simp, ?_⟩
  intro a d
  cases d <;> simp [Admitted.weight]

/-- What a settlement does to the totals: the refund is taken from the
generated tokens of the admission's own minute. -/
theorem totalIn_settled {a : Admitted} {o : Outcome} {actual : Nat}
    (ho : LeavesAt o actual) (ha : a ∈ history)
    (hopen : a.outcome = .unsettled) (hnd : (history.map (·.id)).Nodup)
    (d : Dimension) (key : String) (minute : Nat) :
    totalIn d (history.map (Admitted.settle a.id o)) key minute +
        (if a.apiKey = key ∧ a.minute = minute ∧ d = .generated then
          a.reserved - actual else 0) =
      totalIn d history key minute := by
  have hmove := totalIn_map_settle (o := o) ha hopen hnd d key minute
  have hpart := share_le_totalIn ha key minute d
  have hnew := ho.2 a d
  simp only [Admitted.share] at hmove hpart
  by_cases hx : a.apiKey = key ∧ a.minute = minute
  · rw [if_pos hx] at hmove hpart
    rw [if_pos (by exact hx), hnew] at hmove
    cases d with
    | requests => simp only [Admitted.weight] at hmove; simp; omega
    | prompt => simp only [Admitted.weight] at hmove; simp; omega
    | generated =>
        simp only [Admitted.weight, hopen] at hmove hpart
        rw [if_pos ⟨hx.1, hx.2, rfl⟩]
        omega
  · rw [if_neg hx, if_neg (by exact hx)] at hmove
    rw [if_neg fun h => hx ⟨h.1, h.2.1⟩]
    omega

/-- Settling changes no id. -/
theorem map_settle_id (history : List Admitted) (id : Uuid) (o : Outcome) :
    (history.map (Admitted.settle id o)).map (·.id) = history.map (·.id) := by
  rw [List.map_map]
  exact List.map_congr_left fun a _ => Admitted.settle_id

/-- Settling leaves the admissions of other names alone. -/
theorem mem_map_settle_of_ne {a : Admitted} {id : Uuid} {o : Outcome}
    (ha : a ∈ history) (hne : a.id ≠ id) :
    a ∈ history.map (Admitted.settle id o) :=
  List.mem_map.mpr ⟨a, ha, if_neg fun hx => hne hx.1⟩

theorem Linked.settle {drawn : List Uuid} {id : Uuid} {o : Outcome}
    (hI : Linked limiter.reservations history drawn) (ho : o ≠ .unsettled) :
    Linked (Function.update limiter.reservations id none)
      (history.map (Admitted.settle id o)) drawn where
  known := by
    intro id' q hq
    by_cases he : id' = id
    · rw [he, Function.update_self] at hq
      cases hq
    · rw [Function.update_of_ne he] at hq
      obtain ⟨a, ha, hid, hrest⟩ := hI.known hq
      exact ⟨a, mem_map_settle_of_ne ha (hid ▸ he), hid, hrest⟩
  unsettled := by
    intro x hx hxo
    obtain ⟨a, ha, rfl⟩ := List.mem_map.mp hx
    unfold Admitted.settle at hxo ⊢
    split at hxo
    · exact absurd hxo ho
    · next hne =>
        rw [if_neg hne, Function.update_of_ne fun he => hne ⟨he, hxo⟩]
        exact hI.unsettled ha hxo
  distinct := by
    rw [map_settle_id]
    exact hI.distinct
  drawn := by
    intro x hx
    obtain ⟨a, ha, rfl⟩ := List.mem_map.mp hx
    rw [Admitted.settle_id]
    exact hI.drawn ha

theorem Tracked.settle {state : String → Option WindowCounters} {minute : Nat}
    (hI : Tracked state history minute) {key : String} {w : WindowCounters}
    (hw : state key = some w) (refund : Nat) (id : Uuid) (o : Outcome) :
    Tracked (Function.update state key (some (refundWindow w refund)))
      (history.map (Admitted.settle id o)) minute where
  past := by
    intro x hx
    obtain ⟨a, ha, rfl⟩ := List.mem_map.mp hx
    rw [Admitted.settle_apiKey, Admitted.settle_minute]
    obtain ⟨w', hw', hle⟩ := hI.past ha
    by_cases hk : a.apiKey = key
    · rw [hk] at hw' ⊢
      rw [hw] at hw'
      cases hw'
      exact ⟨_, Function.update_self .., hle⟩
    · exact ⟨w', by rw [Function.update_of_ne hk, hw'], hle⟩
  clock := by
    intro key' w' hw'
    by_cases hk : key' = key
    · subst hk
      rw [Function.update_self] at hw'
      cases hw'
      rw [refundWindow_start]
      exact hI.clock hw
    · rw [Function.update_of_ne hk] at hw'
      exact hI.clock hw'

/-- The refund keeps the counters equal to the totals if it goes into the
minute it came from, or if nothing can be taken from the window it goes
into. -/
theorem Booked.settle {a : Admitted} {o : Outcome} {actual : Nat}
    {w : WindowCounters}
    {reservations : Uuid → Option InMemoryQuotaLimiter.QuotaReservation}
    (hI : Booked limiter history) (ho : LeavesAt o actual) (ha : a ∈ history)
    (hopen : a.outcome = .unsettled) (hnd : (history.map (·.id)).Nodup)
    (hw : limiter.state a.apiKey = some w)
    (htime : actual < a.reserved → w.windowStartEpochMinute = a.minute ∨
      w.generatedTokensReserved = 0) :
    Booked
      ⟨limiter.limits, Function.update limiter.state a.apiKey
        (some (refundWindow w (a.reserved - actual))), reservations⟩
      (history.map (Admitted.settle a.id o)) where
  within := by
    refine hI.within.update (fun d => ?_) _
    exact (countOf_refundWindow_le w _ d).trans (hI.within _ w d hw)
  counted := by
    intro key w' hw' d
    have hmove := totalIn_settled ho ha hopen hnd d key
      w'.windowStartEpochMinute
    dsimp only at hw'
    by_cases hk : key = a.apiKey
    · subst hk
      rw [Function.update_self] at hw'
      cases hw'
      have hcount := hI.counted hw d
      rw [refundWindow_start] at hmove ⊢
      rw [← hcount] at hmove
      cases d with
      | requests => simpa [countOf, refundWindow] using hmove.symm
      | prompt => simpa [countOf, refundWindow] using hmove.symm
      | generated =>
          simp only [countOf, refundWindow, true_and, and_true] at hmove ⊢
          split at hmove
          · omega
          · next hne =>
              have : actual < a.reserved → w.generatedTokensReserved = 0 :=
                fun hlt => (htime hlt).resolve_left fun h => hne h.symm
              omega
    · rw [Function.update_of_ne hk] at hw'
      rw [if_neg fun hx => hk hx.1.symm] at hmove
      rw [hI.counted hw' d]
      omega
  bounded := by
    intro key minute d
    have hmove := totalIn_settled ho ha hopen hnd d key minute
    have hold := hI.bounded key minute d
    dsimp only
    omega

theorem Audited.settle {s : LimiterState} {id : Uuid} {o : Outcome}
    {actual : Nat} (hI : Audited s) (ho : LeavesAt o actual)
    (htime : RefundsInTime s id actual) :
    Audited { s with
      limiter := (s.limiter.reconcile id actual).2
      history := s.history.map (Admitted.settle id o) } := by
  cases hq : s.limiter.reservations id with
  | none =>
      have hsame : s.history.map (Admitted.settle id o) = s.history := by
        refine map_settle_of_settled fun a ha hid hopen => ?_
        exact hI.linked.unsettled ha hopen (hid ▸ hq)
      rw [reconcile_unknown hq, hsame]
      exact hI
  | some q =>
      obtain ⟨a, ha, hid, hopen, hkey, hgen⟩ := hI.linked.known hq
      obtain ⟨w, hw, _⟩ := hI.tracked.past ha
      rw [reconcile_known hq (hkey ▸ hw) actual, ← hkey, ← hgen]
      have htime' := fun hlt => htime a ha hid hopen hlt w hw
      subst hid
      exact
        { booked := hI.booked.settle ho ha hopen hI.linked.distinct hw htime'
          tracked := hI.tracked.settle hw _ _ _
          linked := hI.linked.settle ho.1 }

theorem reconcile_limits (id : Uuid) (actual : Nat) :
    (limiter.reconcile id actual).2.limits = limiter.limits := by
  unfold InMemoryQuotaLimiter.reconcile
  split
  · rfl
  · dsimp only
    split
    · rfl
    · split <;> rfl

theorem audited_step {s t : LimiterState} {l : LimiterCall} (hI : Audited s)
    (hok : SettlesInTime s l) (h : limiterStep s l = some t) :
    Audited t ∧ t.limiter.limits = s.limiter.limits := by
  cases l with
  | tick ms => cases h; exact ⟨hI.tick ms, rfl⟩
  | reserve id check =>
      simp only [limiterStep] at h
      split at h
      · cases h
      · next hfresh =>
          cases h
          exact ⟨hI.reserve hfresh, reserve_limits hI.booked.within _ _ _⟩
  | reconcile id actual =>
      cases h
      exact ⟨hI.settle (leavesAt_reconciled actual) hok, reconcile_limits id _⟩
  | cancel id =>
      cases h
      exact ⟨hI.settle leavesAt_cancelled hok, reconcile_limits id 0⟩

/-- In every sequential run whose refunds are made in time, what the
admissions of every key and minute count for stays within the limit of
generated tokens. -/
theorem sequential_within_limit (limits : QuotaLimits) (start : Nat)
    (s : LimiterState)
    (h : Run limiterStep SettlesInTime (.init limits start) s)
    (key : String) (minute : Nat) :
    totalIn .generated s.history key minute ≤
      limits.generatedTokensPerMinute := by
  have hI : Audited s ∧ s.limiter.limits = limits := by
    refine h.invariant (I := fun s => Audited s ∧ s.limiter.limits = limits)
      ⟨audited_init limits start, rfl⟩ ?_
    intro s t l hI hok hstep
    obtain ⟨haudited, hlimits⟩ := audited_step hI.1 hok hstep
    exact ⟨haudited, hlimits.trans hI.2⟩
  have hbound := hI.1.booked.bounded key minute .generated
  rw [hI.2] at hbound
  exact hbound

/-- A reservation settled within its minute, one settled after the window has
moved on but with nothing to refund, and a cancelled one. -/
def refundedInTime : List LimiterCall :=
  [.reserve (endingIn 'a') ⟨"key", 10, 40⟩, .reconcile (endingIn 'a') 12,
    .reserve (endingIn 'b') ⟨"key", 10, 38⟩, .tick 60000,
    .reserve (endingIn 'c') ⟨"key", 10, 50⟩,
    .reconcile (endingIn 'b') 40, .cancel (endingIn 'c')]

theorem sequential_within_limit_refunded :
    ∃ s, Run limiterStep SettlesInTime (.init ⟨10, 100, 50⟩ 0) s ∧
      s.history.map (·.minute) = [0, 0, 1] ∧
      totalIn .generated s.history "key" 0 ≤ 50 := by
  obtain ⟨s, hrun, hs⟩ := run_of_exec_map limiterStep SettlesInTime
    (fun s l => decide (SettlesInTime s l)) (.init ⟨10, 100, 50⟩ 0) refundedInTime
    (fun s => s.history.map (·.minute)) (b := [0, 0, 1])
    (fun _ _ hok => of_decide_eq_true hok) (by decide)
  exact ⟨s, hrun, hs,
    sequential_within_limit ⟨10, 100, 50⟩ 0 s hrun "key" 0⟩

/-- A refund that comes a minute late: the forty tokens of the first minute
are given out again in the second, on top of its own fifty. -/
theorem sequential_exceeds_limit :
    ∃ s, Run limiterStep (fun _ _ => True) (.init ⟨10, 100, 50⟩ 0) s ∧
      totalIn .generated s.history "key" 1 = 90 ∧
      ¬ totalIn .generated s.history "key" 1 ≤ 50 := by
  obtain ⟨s, hrun, hs⟩ := run_of_exec_map limiterStep (fun _ _ => True)
    (fun _ _ => true) (.init ⟨10, 100, 50⟩ 0)
    [.reserve (endingIn 'a') ⟨"key", 10, 40⟩, .tick 60000,
      .reserve (endingIn 'b') ⟨"key", 10, 50⟩,
      .reconcile (endingIn 'a') 0,
      .reserve (endingIn 'c') ⟨"key", 10, 40⟩]
    (fun s => totalIn .generated s.history "key" 1) (b := 90)
    (fun _ _ _ => trivial) (by decide)
  exact ⟨s, hrun, hs, by omega⟩

end DataPlane.Proofs
