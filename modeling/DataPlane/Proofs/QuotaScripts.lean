import DataPlane.Spec.Ledger

/-!
# What the quota scripts can do

One inversion or equation for each script. A reserve is refused and changes
nothing, or all three tests were passed and the charge was made. A settlement
of a reservation that is not in status `reserved` changes nothing; of one that
is, it moves the counters and leaves the hash in its final status.
-/

namespace DataPlane.Proofs

open DataPlane.Lib DataPlane.Ref DataPlane.Spec

/-- The counter key of a bucket. -/
def keyOf (b : Bucket) (d : Dimension) : CounterKey := ⟨b.1, b.2, d⟩

@[simp] theorem keyOf_inj {b b' : Bucket} {d d' : Dimension} :
    keyOf b d = keyOf b' d' ↔ b = b' ∧ d = d' := by
  simp [keyOf, Prod.ext_iff, and_assoc]

/-- A limit by dimension. -/
def limitOf (limits : QuotaLimits) : Dimension → Nat
  | .requests => limits.requestsPerMinute
  | .prompt => limits.promptTokensPerMinute
  | .generated => limits.generatedTokensPerMinute

/-- Limits that a double holds exactly. -/
def Exact (limits : QuotaLimits) : Prop :=
  ∀ d, limitOf limits d < Binary64.bound

/-! ## What the commands do to the counters -/

section Commands

variable {counters : Keyspace CounterKey Int} {now : Nat} {b : Bucket}

@[simp] theorem live_incrBy_self (k : CounterKey) (n : Int) :
    (incrBy counters now k n).live now k =
      some ⟨(counters.get now k).getD 0 + n,
        (counters.live now k).bind (·.deadline)⟩ := by
  simp [incrBy]

@[simp] theorem live_incrBy_ne {k k' : CounterKey} (t : Nat) (n : Int)
    (h : k' ≠ k) :
    (incrBy counters now k n).live t k' = counters.live t k' := by
  simp [incrBy, h]

@[simp] theorem live_decrBy_self (k : CounterKey) (n : Int) :
    (decrBy counters now k n).live now k =
      some ⟨(counters.get now k).getD 0 - n,
        (counters.live now k).bind (·.deadline)⟩ := by
  simp [decrBy]

@[simp] theorem live_decrBy_ne {k k' : CounterKey} (t : Nat) (n : Int)
    (h : k' ≠ k) :
    (decrBy counters now k n).live t k' = counters.live t k' := by
  simp [decrBy, h]

/-- What a reserve adds in each dimension. -/
def increment (promptAdd generatedAdd : Int) : Dimension → Int
  | .requests => 1
  | .prompt => promptAdd
  | .generated => generatedAdd

theorem filter_alive_renewed (v : Int) :
    (some (⟨v, some (now + reservationTtlMs)⟩ : Timed Int)).filter
      (·.alive now) = some ⟨v, some (now + reservationTtlMs)⟩ := by
  simp [Timed.alive, reservationTtlMs]

theorem live_chargeCounters (promptAdd generatedAdd : Int) (d : Dimension) :
    (chargeCounters counters now (keyOf b .requests) (keyOf b .prompt)
      (keyOf b .generated) promptAdd generatedAdd).live now (keyOf b d) =
      some ⟨(counters.get now (keyOf b d)).getD 0 +
          increment promptAdd generatedAdd d,
        some (now + reservationTtlMs)⟩ := by
  cases d <;>
    simp [chargeCounters, Keyspace.get, increment, filter_alive_renewed]

theorem live_chargeCounters_ne (promptAdd generatedAdd : Int) (t : Nat)
    {k : CounterKey} (h : ∀ d, k ≠ keyOf b d) :
    (chargeCounters counters now (keyOf b .requests) (keyOf b .prompt)
      (keyOf b .generated) promptAdd generatedAdd).live t k =
      counters.live t k := by
  simp [chargeCounters, h]

end Commands

/-- What a reserve asks for, by dimension. -/
def amount (promptTokens generatedTokens : Nat) : Dimension → Nat
  | .requests => 1
  | .prompt => promptTokens
  | .generated => generatedTokens

theorem increment_eq (promptTokens generatedTokens : Nat) (d : Dimension) :
    increment (Binary64.round promptTokens) (Binary64.round generatedTokens) d =
      Binary64.round (amount promptTokens generatedTokens d) := by
  cases d
  · exact (Binary64.round_of_lt (z := 1) (by decide) (by decide)).symm
  · rfl
  · rfl

/-- A test of the script, read in exact arithmetic. -/
theorem exceeds_iff {limits : QuotaLimits} (hl : Exact limits) {db : QuotaDb}
    {now : Nat} {b : Bucket} {d : Dimension} {n p g : Nat}
    (hval : (db.counters.get now (keyOf b d)).getD 0 = n)
    (hn : n ≤ limitOf limits d) :
    Binary64.round (limitOf limits d) <
        Binary64.round (readCounter db now (keyOf b d) +
          increment (Binary64.round p) (Binary64.round g) d) ↔
      limitOf limits d < n + amount p g d := by
  have hlim := hl d
  rw [readCounter, hval, increment_eq,
    Binary64.round_of_lt (z := (limitOf limits d : Int)) (by omega) (by omega),
    Binary64.round_of_lt (z := (n : Int)) (by omega) (by omega),
    Binary64.limit_lt_round_add (by omega) (by omega)]
  omega

/-! ## What a reserve can do

Either it is refused and nothing changes, or all three tests were passed and
the charge was made. -/

section Reserve

variable {sha256 : String → String} {limits : QuotaLimits} {db db' : QuotaDb}
  {now unixMs promptTokens generatedTokens : Nat} {id apiKey : String}

/-- The keyspace after an admitted reserve. -/
def admittedDb (db : QuotaDb) (now : Nat) (b : Bucket) (id : String)
    (promptAdd generatedAdd : Int) : QuotaDb :=
  ⟨chargeCounters db.counters now (keyOf b .requests) (keyOf b .prompt)
      (keyOf b .generated) promptAdd generatedAdd,
    (db.reservations.put now id
      (reservedHash (db.reservations.get now id) (keyOf b .requests)
        (keyOf b .prompt) (keyOf b .generated) promptAdd generatedAdd)).expire
      now id reservationTtlMs⟩

theorem reserveQuota_error {e : QuotaError}
    (h : reserveQuota sha256 limits db now id unixMs apiKey promptTokens
      generatedTokens = (.error e, db')) : db' = db := by
  unfold reserveQuota reserveQuotaLua at h
  dsimp only at h
  split_ifs at h <;> simp at h <;> exact h.2.symm

theorem reserveQuota_ok {q : QuotaReservation}
    (h : reserveQuota sha256 limits db now id unixMs apiKey promptTokens
      generatedTokens = (.ok q, db')) :
    (∀ d, Binary64.round (readCounter db now
        (keyOf (sha256 apiKey, unixMs / 60000) d) +
          increment (Binary64.round promptTokens)
            (Binary64.round generatedTokens) d) ≤
        Binary64.round (limitOf limits d)) ∧
      db' = admittedDb db now (sha256 apiKey, unixMs / 60000) id
        (Binary64.round promptTokens) (Binary64.round generatedTokens) := by
  unfold reserveQuota reserveQuotaLua at h
  dsimp only at h
  split_ifs at h with h1 h2 h3
  · simp at h
  · simp at h
  · simp at h
  · simp only [Prod.mk.injEq] at h
    refine ⟨?_, h.2.symm⟩
    intro d
    cases d
    · exact not_lt.mp h1
    · exact not_lt.mp h2
    · exact not_lt.mp h3

/-- The reservation goes by the id that was drawn for it. -/
theorem reserveQuota_id {q : QuotaReservation}
    (h : reserveQuota sha256 limits db now id unixMs apiKey promptTokens
      generatedTokens = (.ok q, db')) : q.id = id := by
  unfold reserveQuota reserveQuotaLua at h
  dsimp only at h
  split_ifs at h <;> simp at h
  rw [← h.1]

end Reserve

/-! ## The settling scripts -/

theorem isReserved_iff {db : QuotaDb} {now : Nat} {id : String} :
    isReserved db now id = true ↔
      ∃ cell, db.reservations.live now id = some cell ∧
        cell.value.status = some .reserved := by
  simp only [isReserved, Keyspace.get]
  cases db.reservations.live now id with
  | none => simp
  | some cell => simp

/-- Time does not make a settled or expired reservation reserved again. -/
theorem isReserved_of_le {db : QuotaDb} {now later : Nat} {id : String}
    (hle : now ≤ later) (h : isReserved db later id = true) :
    isReserved db now id = true := by
  obtain ⟨cell, hc, hs⟩ := isReserved_iff.mp h
  exact isReserved_iff.mpr ⟨cell, Keyspace.live_of_le hle hc, hs⟩

theorem reconcileQuota_idle {db : QuotaDb} {now : Nat} {id : String}
    (h : isReserved db now id = false) (actual : Nat) :
    reconcileQuota db now id actual = (0, db) := by
  unfold isReserved at h
  unfold reconcileQuota reconcileQuotaLua
  cases hg : db.reservations.get now id with
  | none => simp
  | some r =>
      rw [hg] at h
      simp [decide_eq_false_iff_not.mp h]

theorem cancelQuota_idle {db : QuotaDb} {now : Nat} {id : String}
    (h : isReserved db now id = false) : cancelQuota db now id = db := by
  unfold isReserved at h
  unfold cancelQuota cancelQuotaLua
  cases hg : db.reservations.get now id with
  | none => simp
  | some r =>
      rw [hg] at h
      simp [decide_eq_false_iff_not.mp h]

/-- What a reconcile of a reserved reservation leaves behind. -/
theorem reconcileQuota_reserved {db : QuotaDb} {now : Nat} {id : String}
    {r : Reservation} (hr : db.reservations.get now id = some r)
    (hst : r.status = some .reserved) (actual : Nat) :
    ∃ refund, refund =
        max (Binary64.round (Binary64.round (r.generated.getD 0) -
          Binary64.round actual)) 0 ∧
      (reconcileQuota db now id actual).2 =
        ⟨refundGenerated db.counters now r.generatedKey refund,
          db.reservations.put now id
            { r with
              status := some .reconciled
              actualGenerated := some (Binary64.round actual)
              refunded := some refund }⟩ := by
  refine ⟨_, rfl, ?_⟩
  unfold reconcileQuota reconcileQuotaLua
  simp [hr, hst]

theorem cancelQuota_reserved {db : QuotaDb} {now : Nat} {id : String}
    {r : Reservation} (hr : db.reservations.get now id = some r)
    (hst : r.status = some .reserved) :
    cancelQuota db now id =
      ⟨refundAll db.counters now r (Binary64.round (r.prompt.getD 0))
          (Binary64.round (r.generated.getD 0)),
        db.reservations.put now id { r with status := some .cancelled }⟩ := by
  unfold cancelQuota cancelQuotaLua
  simp [hr, hst]

/-! A settlement takes one reservation out of status `reserved` and no script
but a reserve of the same id puts one there. -/

theorem isReserved_put (db : QuotaDb) (now : Nat) (id id' : String)
    (counters : Keyspace CounterKey Int) {r : Reservation}
    (h : r.status ≠ some .reserved) :
    isReserved ⟨counters, db.reservations.put now id' r⟩ now id =
      (isReserved db now id && decide (id ≠ id')) := by
  rcases eq_or_ne id id' with rfl | hne
  · simp [isReserved, Keyspace.get, h]
  · simp [isReserved, Keyspace.get, hne]

theorem isReserved_reconcileQuota (db : QuotaDb) (now : Nat)
    (id id' : String) (actual : Nat) :
    isReserved (reconcileQuota db now id' actual).2 now id =
      (isReserved db now id && decide (id ≠ id')) := by
  cases h : isReserved db now id' with
  | false =>
      rw [reconcileQuota_idle h]
      rcases eq_or_ne id id' with rfl | hne <;> simp [*]
  | true =>
      obtain ⟨cell, hcell, hst⟩ := isReserved_iff.mp h
      obtain ⟨refund, _, hdb⟩ := reconcileQuota_reserved
        (Keyspace.get_eq_some.mpr ⟨cell, hcell, rfl⟩) hst actual
      rw [hdb]
      exact isReserved_put db now id id' _ (by simp)

theorem isReserved_cancelQuota (db : QuotaDb) (now : Nat) (id id' : String) :
    isReserved (cancelQuota db now id') now id =
      (isReserved db now id && decide (id ≠ id')) := by
  cases h : isReserved db now id' with
  | false =>
      rw [cancelQuota_idle h]
      rcases eq_or_ne id id' with rfl | hne <;> simp [*]
  | true =>
      obtain ⟨cell, hcell, hst⟩ := isReserved_iff.mp h
      rw [cancelQuota_reserved (Keyspace.get_eq_some.mpr ⟨cell, hcell, rfl⟩) hst]
      exact isReserved_put db now id id' _ (by simp)

theorem get_admittedDb (db : QuotaDb) (now : Nat) (b : Bucket) (id : String)
    (promptAdd generatedAdd : Int) :
    (admittedDb db now b id promptAdd generatedAdd).reservations.get now id =
      some (reservedHash (db.reservations.get now id) (keyOf b .requests)
        (keyOf b .prompt) (keyOf b .generated) promptAdd generatedAdd) := by
  simp [admittedDb, Keyspace.get, Timed.alive, reservationTtlMs]

/-- A reserve touches no reservation but its own. -/
theorem live_admittedDb_ne {db : QuotaDb} {now : Nat} {b : Bucket}
    {id i : String} (prompt generated : Int) (h : i ≠ id) :
    (admittedDb db now b id prompt generated).reservations.live now i =
      db.reservations.live now i := by
  simp [admittedDb, h]

theorem isReserved_admittedDb_ne {db : QuotaDb} {now : Nat} {b : Bucket}
    {id i : String} (prompt generated : Int) (h : i ≠ id) :
    isReserved (admittedDb db now b id prompt generated) now i =
      isReserved db now i := by
  unfold isReserved Keyspace.get
  rw [live_admittedDb_ne prompt generated h]

theorem isReserved_reserveQuota {sha256 : String → String}
    {limits : QuotaLimits} {db db' : QuotaDb} {now unixMs p g : Nat}
    {id id' apiKey : String} {res : Except QuotaError QuotaReservation}
    (h : reserveQuota sha256 limits db now id' unixMs apiKey p g = (res, db'))
    (hne : id ≠ id') : isReserved db' now id = isReserved db now id := by
  cases res with
  | error e => rw [reserveQuota_error h]
  | ok q =>
      rw [(reserveQuota_ok h).2]
      exact isReserved_admittedDb_ne _ _ hne

/-- The digests of the two keys that the examples use. -/
def sampleDigest (apiKey : String) : String :=
  if apiKey = "alpha" then
    "8ed3f6ad685b959ead7022518e1af76c" ++
      "d816f8e8ec7ccdda1ed4018e8f2223f8"
  else if apiKey = "beta" then
    "f44e64e75f3948e9f73f8dfa94721c4c" ++
      "e8cbb4f265c4790c702b2d41cfbf2753"
  else ""

end DataPlane.Proofs
