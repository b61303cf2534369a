import DataPlane.Ref.Quota
import Mathlib.Data.List.Nodup

/-!
# What the quota is supposed to count

The ledger is the quota as its owner would keep it: for every bucket, the
reservations admitted since the bucket was opened, each with what it asked
for and how it ended. It knows nothing of counters, hashes or scripts. A
reservation can be settled while it has not expired, and only the first
settlement counts; `total` is what the ledger says a counter should read.

The lemmas are the bookkeeping a settlement needs: one charge of a bucket is
changed, and the totals move by exactly the difference of its weights.
-/

namespace DataPlane.Spec

open DataPlane.Ref

/-- How a reservation ended, as far as it has. -/
inductive Outcome
  | unsettled
  | reconciled (actual : Nat)
  | cancelled
  deriving DecidableEq, Repr

/-- One admitted reservation. -/
structure Charge where
  id : String
  prompt : Nat
  reserved : Nat
  expiresAt : Nat
  outcome : Outcome
  deriving DecidableEq, Repr

/-- What a reservation counts for in each dimension: nothing once cancelled,
and no more generated tokens than it turned out to use once reconciled. A
reservation nobody settled in time keeps counting in full. -/
def Charge.weight (c : Charge) : Dimension → Nat
  | .requests =>
      match c.outcome with
      | .cancelled => 0
      | _ => 1
  | .prompt =>
      match c.outcome with
      | .cancelled => 0
      | _ => c.prompt
  | .generated =>
      match c.outcome with
      | .unsettled => c.reserved
      | .reconciled actual => min c.reserved actual
      | .cancelled => 0

/-- What the counter of a dimension should read. -/
def total (d : Dimension) (cs : List Charge) : Nat :=
  (cs.map (·.weight d)).sum

/-- A bucket: the digest of an API key and a minute. -/
abbrev Bucket : Type := String × Nat

/-- The charges of every bucket since it was last opened. -/
abbrev Ledger : Type := Bucket → List Charge

/-- A charge that can still be settled. -/
def Charge.Open (c : Charge) (now : Nat) : Prop :=
  c.outcome = .unsettled ∧ now < c.expiresAt

instance (c : Charge) (now : Nat) : Decidable (c.Open now) :=
  inferInstanceAs (Decidable (c.outcome = .unsettled ∧ now < c.expiresAt))

/-- Settle the charge if it is the one named and is still open. -/
def Charge.settle (id : String) (now : Nat) (o : Outcome) (c : Charge) :
    Charge :=
  if c.id = id ∧ c.Open now then { c with outcome := o } else c

/-- Record an admission; the first one after the bucket's counters were gone
opens it anew. -/
def Ledger.admit (L : Ledger) (b : Bucket) (fresh : Bool) (c : Charge) :
    Ledger :=
  Function.update L b (if fresh then [c] else L b ++ [c])

/-- Settle a reservation, wherever it was admitted. -/
def Ledger.settle (L : Ledger) (id : String) (now : Nat) (o : Outcome) :
    Ledger :=
  fun b => (L b).map (Charge.settle id now o)

@[simp] theorem Charge.settle_id (id : String) (now : Nat) (o : Outcome)
    (c : Charge) : (c.settle id now o).id = c.id := by
  unfold Charge.settle; split <;> rfl

@[simp] theorem Charge.settle_expiresAt (id : String) (now : Nat) (o : Outcome)
    (c : Charge) : (c.settle id now o).expiresAt = c.expiresAt := by
  unfold Charge.settle; split <;> rfl

theorem Charge.settle_of_ne {id : String} {now : Nat} {o : Outcome} {c : Charge}
    (h : ¬ (c.id = id ∧ c.Open now)) : c.settle id now o = c := by
  rw [Charge.settle, if_neg h]

theorem Charge.settle_self {now : Nat} {o : Outcome} {c : Charge}
    (h : c.Open now) : c.settle c.id now o = { c with outcome := o } := by
  rw [Charge.settle, if_pos ⟨rfl, h⟩]

@[simp] theorem total_nil (d : Dimension) : total d [] = 0 := rfl

@[simp] theorem total_append (d : Dimension) (cs cs' : List Charge) :
    total d (cs ++ cs') = total d cs + total d cs' := by
  simp [total]

@[simp] theorem total_cons (d : Dimension) (c : Charge) (cs : List Charge) :
    total d (c :: cs) = c.weight d + total d cs := by
  simp [total]

theorem weight_le_total {d : Dimension} {c : Charge} {cs : List Charge}
    (h : c ∈ cs) : c.weight d ≤ total d cs := by
  obtain ⟨l, r, rfl⟩ := List.append_of_mem h
  simp only [total_append, total_cons]
  omega

/-- Settling weighs no more than before: a settlement only ever refunds. -/
theorem Charge.weight_settled_le {c : Charge} {o : Outcome} (d : Dimension)
    (h : c.outcome = .unsettled) :
    ({ c with outcome := o } : Charge).weight d ≤ c.weight d := by
  cases d <;> cases o <;> simp [Charge.weight, h]

/-- A bucket with no open charge of that name is left as it is. -/
theorem map_settle_eq_self {id : String} {now : Nat} {o : Outcome}
    {cs : List Charge} (h : ∀ c ∈ cs, c.id = id → ¬ c.Open now) :
    cs.map (Charge.settle id now o) = cs := by
  conv_rhs => rw [← List.map_id cs]
  refine List.map_congr_left fun c hc => ?_
  exact Charge.settle_of_ne fun hx => h c hc hx.1 hx.2

/-- Where the name is used once, settling it moves a total by the difference
of the charge's weights. -/
theorem total_map_settle {now : Nat} {o : Outcome} {c : Charge}
    {cs : List Charge} (hc : c ∈ cs) (hopen : c.Open now)
    (hnd : (cs.map (·.id)).Nodup) (d : Dimension) :
    total d (cs.map (Charge.settle c.id now o)) + c.weight d =
      total d cs + ({ c with outcome := o } : Charge).weight d := by
  obtain ⟨l, r, rfl⟩ := List.append_of_mem hc
  have hl : ∀ x ∈ l, x.id = c.id → ¬ x.Open now := by
    intro x hx hid
    rw [List.map_append, List.map_cons, List.nodup_append] at hnd
    exact absurd hid (hnd.2.2 _ (List.mem_map_of_mem hx) _ (by simp))
  have hr : ∀ x ∈ r, x.id = c.id → ¬ x.Open now := by
    intro x hx hid
    rw [List.map_append, List.map_cons, List.nodup_append,
      List.nodup_cons] at hnd
    exact absurd (hid ▸ List.mem_map_of_mem hx) hnd.2.1.1
  simp only [List.map_append, List.map_cons, map_settle_eq_self hl,
    map_settle_eq_self hr, Charge.settle_self hopen, total_append, total_cons]
  omega

theorem map_settle_ids {id : String} {now : Nat} {o : Outcome}
    {cs : List Charge} :
    (cs.map (Charge.settle id now o)).map (·.id) = cs.map (·.id) := by
  simp

/-- Settling a bucket never raises a total. -/
theorem total_map_settle_le {id : String} {now : Nat} {o : Outcome}
    (d : Dimension) (cs : List Charge) :
    total d (cs.map (Charge.settle id now o)) ≤ total d cs := by
  induction cs with
  | nil => exact Nat.le_refl _
  | cons c cs ih =>
      have hw : (c.settle id now o).weight d ≤ c.weight d := by
        unfold Charge.settle
        split
        · next h => exact Charge.weight_settled_le d h.2.1
        · exact Nat.le_refl _
      simp only [List.map_cons, total_cons]
      omega

/-! ## Auditing a run of quota calls

The calls themselves are the code's: a state is the clock and the keyspace,
and a step is one script. Next to it the audit keeps the ledger, and the list
of the settlements that found their reservation still in status `reserved`.
Neither is read by the code. -/

/-- One call, or the passage of time. Time stands still within a script. -/
inductive QuotaCall
  | tick (ms : Nat)
  | reserve (id apiKey : String) (unixMs promptTokens generatedTokens : Nat)
  | reconcile (id : String) (actual : Nat)
  | cancel (id : String)
  deriving DecidableEq, Repr

/-- The quota keyspace and its audit. -/
structure QuotaState where
  now : Nat
  db : QuotaDb
  /-- The reservation ids drawn so far. -/
  drawn : List String
  ledger : Ledger
  /-- The settlements that took effect, newest first. -/
  settlements : List String

/-- An empty keyspace at some time. -/
def QuotaState.empty (now : Nat) : QuotaState :=
  ⟨now, ⟨fun _ => none, fun _ => none⟩, [], fun _ => [], []⟩

/-- The status guard both settling scripts start with. -/
def isReserved (db : QuotaDb) (now : Nat) (id : String) : Bool :=
  match db.reservations.get now id with
  | none => false
  | some hash => hash.status = some .reserved

/-- Enter an admitted reservation into the ledger. -/
def recordAdmission (sha256 : String → String) (s : QuotaState)
    (id apiKey : String) (unixMs promptTokens generatedTokens : Nat) : Ledger :=
  s.ledger.admit (sha256 apiKey, unixMs / 60000)
    (s.db.counters.get s.now
      (counterKey sha256 apiKey (unixMs / 60000) .requests)).isNone
    ⟨id, promptTokens, generatedTokens, s.now + reservationTtlMs, .unsettled⟩

/-- Note a settlement that will get past the status guard. -/
def recordSettlement (s : QuotaState) (id : String) : List String :=
  if isReserved s.db s.now id then id :: s.settlements else s.settlements

/-- One step. The id of a reservation is a UUID drawn for it, so it has not
been drawn before. -/
def quotaStep (sha256 : String → String) (limits : QuotaLimits)
    (s : QuotaState) : QuotaCall → Option QuotaState
  | .tick ms => some { s with now := s.now + ms }
  | .reserve id apiKey unixMs promptTokens generatedTokens =>
      if id ∈ s.drawn then none
      else
        match reserveQuota sha256 limits s.db s.now id unixMs apiKey
            promptTokens generatedTokens with
        | (.ok _, db) =>
            some { s with
              db := db
              drawn := id :: s.drawn
              ledger := recordAdmission sha256 s id apiKey unixMs
                promptTokens generatedTokens }
        | (.error _, db) => some { s with db := db, drawn := id :: s.drawn }
  | .reconcile id actual =>
      some { s with
        db := (reconcileQuota s.db s.now id actual).2
        ledger := s.ledger.settle id s.now (.reconciled actual)
        settlements := recordSettlement s id }
  | .cancel id =>
      some { s with
        db := cancelQuota s.db s.now id
        ledger := s.ledger.settle id s.now .cancelled
        settlements := recordSettlement s id }

end DataPlane.Spec
