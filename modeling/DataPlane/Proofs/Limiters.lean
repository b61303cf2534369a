import DataPlane.Lib.Machine
import DataPlane.Proofs.MemoryLimiter
import Mathlib.Algebra.BigOperators.Group.Finset.Basic

/-!
# Two limiters, one answer

Within one minute the limiter in memory and the quota scripts cannot be told
apart by their answers. Both make the decision `firstExceeded`, the first on
its window and the second on the counters of a bucket; a settled reservation
is gone from one map and marked in the other.

Two things have to be seen to. The scripts count in doubles, so the limits
have to be small enough to be counted exactly. And the limiter in memory
subtracts a refund only down to zero, where `DECRBY` would go below: that
never happens, because the counter of a window is at least the sum of the
reservations that are still open, whichever of them one picks.
-/

namespace DataPlane.Proofs

open DataPlane DataPlane.Lib DataPlane.Ref DataPlane.Spec
open InMemoryQuotaLimiter (currentWindow)

/-! ## The scripts in exact arithmetic -/

/-- The error a script's refusal is turned into. -/
def refusalIn : Dimension → QuotaError
  | .requests => .requests
  | .prompt => .promptTokens
  | .generated => .generatedTokens

section Script

variable {sha256 : String → String} {limits : QuotaLimits} {db : QuotaDb}
  {now unixMs p g : Nat} {id apiKey : String} {value : Dimension → Nat}

/-- The three tests of the script, on counters that are within the limits. -/
theorem script_tests (hl : Exact limits)
    (hval : ∀ d, (db.counters.get now
      (keyOf (sha256 apiKey, unixMs / 60000) d)).getD 0 = value d)
    (hle : ∀ d, value d ≤ limitOf limits d) (p g : Nat) :
    (Binary64.round (readCounter db now
        (counterKey sha256 apiKey (unixMs / 60000) .requests) + 1) >
        Binary64.round limits.requestsPerMinute ↔
      limitOf limits .requests < value .requests + amount p g .requests) ∧
    (Binary64.round (readCounter db now
        (counterKey sha256 apiKey (unixMs / 60000) .prompt) +
          Binary64.round p) >
        Binary64.round limits.promptTokensPerMinute ↔
      limitOf limits .prompt < value .prompt + amount p g .prompt) ∧
    (Binary64.round (readCounter db now
        (counterKey sha256 apiKey (unixMs / 60000) .generated) +
          Binary64.round g) >
        Binary64.round limits.generatedTokensPerMinute ↔
      limitOf limits .generated < value .generated + amount p g .generated) := by
  have htest := fun d =>
    exceeds_iff (p := p) (g := g) hl (hval d) (hle d)
  refine ⟨?_, ?_, ?_⟩
  · simpa only [keyOf, counterKey, limitOf, increment] using htest .requests
  · simpa only [keyOf, counterKey, limitOf, increment] using htest .prompt
  · simpa only [keyOf, counterKey, limitOf, increment] using htest .generated

theorem reserveQuota_refused (hl : Exact limits)
    (hval : ∀ d, (db.counters.get now
      (keyOf (sha256 apiKey, unixMs / 60000) d)).getD 0 = value d)
    (hle : ∀ d, value d ≤ limitOf limits d) {d : Dimension}
    (h : firstExceeded limits value (amount p g) = some d) :
    reserveQuota sha256 limits db now id unixMs apiKey p g =
      (.error (refusalIn d), db) := by
  obtain ⟨t1, t2, t3⟩ := script_tests hl hval hle p g
  unfold reserveQuota reserveQuotaLua
  dsimp only
  unfold firstExceeded at h
  split_ifs at h with h1 h2 h3
  · cases h
    rw [if_pos (t1.mpr h1)]
    rfl
  · cases h
    rw [if_neg (t1.not.mpr h1), if_pos (t2.mpr h2)]
    rfl
  · cases h
    rw [if_neg (t1.not.mpr h1), if_neg (t2.not.mpr h2), if_pos (t3.mpr h3)]
    rfl

/-- What a script's reply says is left over of a limit. -/
theorem round_remaining {limit count add : Nat} (hl : limit < Binary64.bound)
    (h : count + add ≤ limit) :
    Binary64.round (Binary64.round (Binary64.round limit -
        Binary64.round count) - Binary64.round add) =
      ((limit - (count + add) : Nat) : Int) := by
  rw [Binary64.round_of_lt (z := (limit : Int)) (by omega) (by omega),
    Binary64.round_of_lt (z := (count : Int)) (by omega) (by omega),
    Binary64.round_of_lt (z := (add : Int)) (by omega) (by omega),
    Binary64.round_of_lt (z := (limit : Int) - count) (by omega) (by omega),
    Binary64.round_of_lt (by omega) (by omega)]
  omega

theorem reserveQuota_admitted (hl : Exact limits)
    (hval : ∀ d, (db.counters.get now
      (keyOf (sha256 apiKey, unixMs / 60000) d)).getD 0 = value d)
    (hle : ∀ d, value d ≤ limitOf limits d)
    (h : firstExceeded limits value (amount p g) = none) :
    reserveQuota sha256 limits db now id unixMs apiKey p g =
      (.ok ⟨id, limits.requestsPerMinute - (value .requests + 1),
          limits.promptTokensPerMinute - (value .prompt + p),
          limits.generatedTokensPerMinute - (value .generated + g)⟩,
        admittedDb db now (sha256 apiKey, unixMs / 60000) id
          (Binary64.round p) (Binary64.round g)) := by
  have hfit := firstExceeded_eq_none.mp h
  obtain ⟨t1, t2, t3⟩ := script_tests hl hval hle p g
  have hleft : ∀ d, Binary64.round (Binary64.round (Binary64.round
      (limitOf limits d) - readCounter db now
        (keyOf (sha256 apiKey, unixMs / 60000) d)) -
        Binary64.round (amount p g d)) =
      ((limitOf limits d - (value d + amount p g d) : Nat) : Int) := by
    intro d
    rw [readCounter, hval d]
    exact round_remaining (hl d) (hfit d)
  have r1 := hleft .requests
  have r2 := hleft .prompt
  have r3 := hleft .generated
  have hone : Binary64.round ((amount p g .requests : Nat) : Int) = 1 :=
    Binary64.round_of_lt (z := 1) (by decide) (by decide)
  rw [hone] at r1
  unfold reserveQuota reserveQuotaLua
  dsimp only
  rw [if_neg (t1.not.mpr (not_lt.mpr (hfit .requests))),
    if_neg (t2.not.mpr (not_lt.mpr (hfit .prompt))),
    if_neg (t3.not.mpr (not_lt.mpr (hfit .generated)))]
  show ((.ok ⟨id, Int.toNat _, Int.toNat _, Int.toNat _⟩ :
    Except QuotaError QuotaReservation), _) = _
  simp only [keyOf, limitOf, amount] at r1 r2 r3
  simp only [counterKey, r1, r2, r3, Int.toNat_natCast]
  rfl

end Script

/-- A refund of nothing and a refund of something, in one equation. -/
theorem get_refundGenerated (counters : Keyspace CounterKey Int) (now : Nat)
    (k k' : CounterKey) (refund : Nat) :
    ((refundGenerated counters now (some k) refund).get now k').getD 0 =
      (counters.get now k').getD 0 - if k' = k then (refund : Int) else 0 := by
  simp only [refundGenerated]
  split
  · by_cases hk : k' = k
    · subst hk
      simp [Keyspace.get]
    · simp [Keyspace.get, hk]
  · next hzero =>
      have : (refund : Int) = 0 := by omega
      simp [this]

theorem reconcileQuota_open {db : QuotaDb} {now : Nat} {id : String}
    {r : Reservation} {k : CounterKey} {n : Nat}
    (hr : db.reservations.get now id = some r)
    (hst : r.status = some .reserved) (hgen : r.generated = some (n : Int))
    (hkey : r.generatedKey = some k) (hn : n < Binary64.bound) (actual : Nat) :
    ∃ r' : Reservation, r'.status = some .reconciled ∧
      reconcileQuota db now id actual = (n - actual,
        ⟨refundGenerated db.counters now (some k) ((n - actual : Nat) : Int),
          db.reservations.put now id r'⟩) := by
  have hrefund : max (Binary64.round (Binary64.round (n : Int) -
      Binary64.round actual)) 0 = ((n - actual : Nat) : Int) := by
    rw [Binary64.round_of_lt (z := (n : Int)) (by omega) (by omega),
      Binary64.max_round_sub (by omega)]
    omega
  refine ⟨{ r with
    status := some .reconciled
    actualGenerated := some (Binary64.round actual)
    refunded := some ((n - actual : Nat) : Int) }, rfl, ?_⟩
  unfold reconcileQuota reconcileQuotaLua
  simp only [hr, hst, hgen, hkey, Option.getD_some, hrefund, ne_eq,
    not_true_eq_false, if_false, Int.toNat_natCast]

/-! ## The calls of one minute -/

/-- What both limiters are asked. -/
inductive MinuteOp
  | reserve (check : QuotaCheck)
  | reconcile (actual : Nat)
  deriving DecidableEq, Repr

/-- A call both limiters get: the time of the broker, the clock the caller
reads, the reservation it draws or settles, and what is to be done. -/
structure MinuteCall where
  now : Nat
  unixMs : Nat
  id : Uuid
  op : MinuteOp
  deriving DecidableEq

/-- An answer, as either of the two gives it. -/
inductive MinuteAnswer
  | admitted (remainingRequests remainingPrompt remainingGenerated : Nat)
  | exceeded (d : Dimension)
  | refunded (amount : Nat)
  | failed
  deriving DecidableEq, Repr

/-- The limiter in memory serving a call. A reservation it does not know is
the same as nothing to refund. -/
def memoryServe (limiter : InMemoryQuotaLimiter) (c : MinuteCall) :
    MinuteAnswer × InMemoryQuotaLimiter :=
  match c.op with
  | .reserve check =>
      match limiter.reserve (epochMinute c.unixMs) c.id check with
      | (.ok q, limiter) =>
          (.admitted q.remainingRequests q.remainingPromptTokens
            q.remainingGeneratedTokens, limiter)
      | (.error e, limiter) =>
          (match exceededBy e with
            | some d => .exceeded d
            | none => .failed, limiter)
  | .reconcile actual =>
      match limiter.reconcile c.id actual with
      | (.ok amount, limiter) => (.refunded amount, limiter)
      | (.error .reservationNotFound, limiter) => (.refunded 0, limiter)
      | (.error _, limiter) => (.failed, limiter)

/-- The quota scripts serving a call. -/
def scriptServe (sha256 : String → String) (limits : QuotaLimits)
    (db : QuotaDb) (c : MinuteCall) : MinuteAnswer × QuotaDb :=
  match c.op with
  | .reserve check =>
      match reserveQuota sha256 limits db c.now c.id.text c.unixMs check.apiKey
          check.promptTokens check.reservedGeneratedTokens with
      | (.ok q, db) =>
          (.admitted q.remainingRequests q.remainingPromptTokens
            q.remainingGeneratedTokens, db)
      | (.error .requests, db) => (.exceeded .requests, db)
      | (.error .promptTokens, db) => (.exceeded .prompt, db)
      | (.error .generatedTokens, db) => (.exceeded .generated, db)
      | (.error (.broker _), db) => (.failed, db)
  | .reconcile actual =>
      let (amount, db) := reconcileQuota db c.now c.id.text actual
      (.refunded amount, db)

/-! ## What the counters of a minute are worth -/

/-- What is reserved under an id. -/
def reservedOf (limiter : InMemoryQuotaLimiter) (id : Uuid) : Nat :=
  ((limiter.reservations id).map (·.reservedGeneratedTokens)).getD 0

/-- However many open reservations of a key one takes together, the key has
been charged for all of them. -/
def Backed (limiter : InMemoryQuotaLimiter) (minute : Nat) : Prop :=
  ∀ (key : String) (ids : Finset Uuid),
    (∀ id ∈ ids, ∃ q, limiter.reservations id = some q ∧ q.apiKey = key) →
    ∑ id ∈ ids, reservedOf limiter id ≤ countIn limiter minute key .generated

section Count

variable {limits : QuotaLimits} {state : String → Option WindowCounters}
  {reservations : Uuid → Option InMemoryQuotaLimiter.QuotaReservation}
  {limiter : InMemoryQuotaLimiter} {minute : Nat} {key : String}
  {w : WindowCounters}

theorem state_update_exists {key' : String}
    (h : ∃ w, state key' = some w) :
    ∃ w', Function.update state key (some w) key' = some w' := by
  obtain ⟨w', hw'⟩ := h
  by_cases hk : key' = key
  · rw [hk]
    exact ⟨w, Function.update_self ..⟩
  · exact ⟨w', by rw [Function.update_of_ne hk, hw']⟩

theorem reservedOf_update_ne {id id' : Uuid} (h : id' ≠ id)
    (q : Option InMemoryQuotaLimiter.QuotaReservation) :
    reservedOf ⟨limits, state, Function.update limiter.reservations id q⟩ id' =
      reservedOf limiter id' := by
  simp only [reservedOf, Function.update_of_ne h]

/-- The reservations of a set the changed one is not in are as they were. -/
theorem sum_reservedOf_update {id : Uuid} {ids : Finset Uuid} (hid : id ∉ ids)
    (limits : QuotaLimits) (state : String → Option WindowCounters)
    (q : Option InMemoryQuotaLimiter.QuotaReservation) :
    ∑ id' ∈ ids, reservedOf
        ⟨limits, state, Function.update limiter.reservations id q⟩ id' =
      ∑ id' ∈ ids, reservedOf limiter id' :=
  Finset.sum_congr rfl fun _ h =>
    reservedOf_update_ne (ne_of_mem_of_not_mem h hid) q

theorem reservations_of_update {id : Uuid} {ids : Finset Uuid} (hid : id ∉ ids)
    {q : Option InMemoryQuotaLimiter.QuotaReservation}
    (hids : ∀ id' ∈ ids, ∃ q', Function.update limiter.reservations id q id' =
      some q' ∧ q'.apiKey = key) :
    ∀ id' ∈ ids, ∃ q', limiter.reservations id' = some q' ∧
      q'.apiKey = key := by
  intro id' h
  obtain ⟨q', hq', hkey⟩ := hids id' h
  rw [Function.update_of_ne (ne_of_mem_of_not_mem h hid)] at hq'
  exact ⟨q', hq', hkey⟩

/-- A new reservation comes with its own charge. -/
theorem Backed.admit (hI : Backed limiter minute) {id : Uuid}
    {q : InMemoryQuotaLimiter.QuotaReservation} (hkey : q.apiKey = key)
    (hw : w.windowStartEpochMinute = minute)
    (hcount : countOf w .generated =
      countIn limiter minute key .generated + q.reservedGeneratedTokens) :
    Backed ⟨limiter.limits, Function.update limiter.state key (some w),
      Function.update limiter.reservations id (some q)⟩ minute := by
  intro key' ids hids
  by_cases hid : id ∈ ids
  · obtain ⟨q', hq', hk'⟩ := hids id hid
    dsimp only at hq'
    rw [Function.update_self] at hq'
    cases hq'
    have hkk : key' = key := hk'.symm.trans hkey
    subst hkk
    have hnot := Finset.notMem_erase id ids
    have hrest := hI key' (ids.erase id) (reservations_of_update hnot
      fun id' h => hids id' (Finset.mem_of_mem_erase h))
    have hself : reservedOf ⟨limiter.limits, Function.update limiter.state key'
        (some w), Function.update limiter.reservations id (some q)⟩ id =
        q.reservedGeneratedTokens := by
      simp [reservedOf]
    rw [← Finset.add_sum_erase ids _ hid, hself, sum_reservedOf_update hnot,
      countIn_update_self hw, hcount]
    omega
  · rw [sum_reservedOf_update hid]
    refine (hI key' ids (reservations_of_update hid hids)).trans ?_
    by_cases hk : key' = key
    · subst hk
      rw [countIn_update_self hw, hcount]
      exact Nat.le_add_right _ _
    · rw [countIn_update_ne hk]

/-- A settled reservation takes at most its own charge with it. -/
theorem Backed.settle (hI : Backed limiter minute) {id : Uuid}
    {q : InMemoryQuotaLimiter.QuotaReservation} {refund : Nat}
    (hq : limiter.reservations id = some q)
    (hw : w.windowStartEpochMinute = minute)
    (hstate : limiter.state q.apiKey = some w)
    (hrefund : refund ≤ q.reservedGeneratedTokens) :
    Backed ⟨limiter.limits, Function.update limiter.state q.apiKey
        (some (refundWindow w refund)),
      Function.update limiter.reservations id none⟩ minute := by
  intro key' ids hids
  have hid : id ∉ ids := by
    intro hid
    obtain ⟨q', hq', _⟩ := hids id hid
    dsimp only at hq'
    rw [Function.update_self] at hq'
    cases hq'
  have hold := reservations_of_update hid hids
  rw [sum_reservedOf_update hid]
  by_cases hk : key' = q.apiKey
  · subst hk
    -- The settled reservation together with the others was backed before.
    have hall := hI q.apiKey (insert id ids) fun id' h => by
      rcases Finset.mem_insert.mp h with rfl | h
      · exact ⟨q, hq, rfl⟩
      · exact hold id' h
    have hself : reservedOf limiter id = q.reservedGeneratedTokens := by
      simp [reservedOf, hq]
    rw [Finset.sum_insert hid, hself, countIn, hstate,
      currentWindow_of_start hw] at hall
    rw [countIn_update_self (w := refundWindow w refund) hw]
    simp only [countOf, refundWindow] at hall ⊢
    omega
  · rw [countIn_update_ne hk]
    exact hI key' ids hold

end Count

/-! ## Nothing expires within the minute -/

section Lasting

variable {T now : Nat} {db : QuotaDb}

theorem lasts_admittedDb (hc : Keyspace.LastsUntil T db.counters)
    (hr : Keyspace.LastsUntil T db.reservations)
    (ht : T ≤ now + reservationTtlMs) (b : Bucket) (id : String)
    (p g : Int) :
    Keyspace.LastsUntil T (admittedDb db now b id p g).counters ∧
      Keyspace.LastsUntil T (admittedDb db now b id p g).reservations := by
  refine ⟨?_, (hr.put now id _).expire id ht⟩
  exact (((((hc.put now _ _).put now _ _).put now _ _).expire _ ht).expire
    _ ht).expire _ ht

theorem lasts_reconcileQuota (now : Nat)
    (hc : Keyspace.LastsUntil T db.counters)
    (hr : Keyspace.LastsUntil T db.reservations) (id : String) (actual : Nat) :
    Keyspace.LastsUntil T (reconcileQuota db now id actual).2.counters ∧
      Keyspace.LastsUntil T (reconcileQuota db now id actual).2.reservations := by
  unfold reconcileQuota reconcileQuotaLua
  cases db.reservations.get now id with
  | none => exact ⟨hc, hr⟩
  | some r =>
      dsimp only
      split
      · exact ⟨hc, hr⟩
      · refine ⟨?_, hr.put now id _⟩
        unfold refundGenerated
        split
        · split
          · exact hc.put now _ _
          · exact hc
        · exact hc

theorem isReserved_lasts (hr : Keyspace.LastsUntil T db.reservations)
    {t : Nat} (ht : t < T) (hnow : now < T) (id : String) :
    isReserved db t id = isReserved db now id := by
  unfold isReserved
  rw [hr.get ht hnow]

end Lasting

/-! ## The simulation -/

/-- What the two limiters have in common during a minute that starts at `t₀`
on the broker's clock: the same counters for every key in use, the same open
reservations, and nothing that expires before the minute is over. -/
structure Alike (sha256 : String → String) (limits : QuotaLimits)
    (keys : Set String) (minute t₀ : Nat) (limiter : InMemoryQuotaLimiter)
    (db : QuotaDb) : Prop where
  limits_eq : limiter.limits = limits
  within : Within limiter
  minute_eq : ∀ {key w}, limiter.state key = some w →
    w.windowStartEpochMinute = minute
  counters : ∀ {key}, key ∈ keys → ∀ d,
    (db.counters.get t₀ (keyOf (sha256 key, minute) d)).getD 0 =
      countIn limiter minute key d
  lasts : Keyspace.LastsUntil (t₀ + 60000) db.counters ∧
    Keyspace.LastsUntil (t₀ + 60000) db.reservations
  opened : ∀ {id q}, limiter.reservations id = some q →
    q.apiKey ∈ keys ∧ (∃ w, limiter.state q.apiKey = some w) ∧
      ∃ r, db.reservations.get t₀ id.text = some r ∧
        r.status = some .reserved ∧
        r.generated = some (q.reservedGeneratedTokens : Int) ∧
        r.generatedKey = some (keyOf (sha256 q.apiKey, minute) .generated)
  closed : ∀ {id}, limiter.reservations id = none →
    isReserved db t₀ id.text = false
  backed : Backed limiter minute

section Simulation

variable {sha256 : String → String} {limits : QuotaLimits} {keys : Set String}
  {minute t₀ now : Nat} {limiter : InMemoryQuotaLimiter} {db : QuotaDb}

theorem alike_new : Alike sha256 limits keys minute t₀ (.new limits) .empty where
  limits_eq := rfl
  within := by intro key w d hw; cases hw
  minute_eq := by intro key w hw; cases hw
  counters := by
    intro key _ d
    rw [countIn, countOf_currentWindow_of_ne (fun w hw => by cases hw)]
    rfl
  lasts := by constructor <;> intro k c hc <;> cases hc
  opened := by intro id q hq; cases hq
  closed := by intro id _; rfl
  backed := by
    intro key ids hids
    have hempty : ids = ∅ := by
      refine Finset.eq_empty_of_forall_notMem fun id hid => ?_
      obtain ⟨q, hq, _⟩ := hids id hid
      cases hq
    rw [hempty]
    exact Nat.zero_le _

theorem Alike.count_le (hI : Alike sha256 limits keys minute t₀ limiter db)
    (key : String) (d : Dimension) :
    countIn limiter minute key d ≤ limitOf limits d := by
  rw [← hI.limits_eq]
  exact hI.within.currentWindow key minute d

/-- The counters a script reads while the minute lasts. -/
theorem Alike.counters_at (hI : Alike sha256 limits keys minute t₀ limiter db)
    (hnow : now < t₀ + 60000) {key : String} (hk : key ∈ keys)
    (d : Dimension) :
    (db.counters.get now (keyOf (sha256 key, minute) d)).getD 0 =
      countIn limiter minute key d := by
  rw [hI.lasts.1.get hnow (Nat.lt_add_of_pos_right (by omega))]
  exact hI.counters hk d

/-- A refused reserve opens a window, which changes no count. -/
theorem Alike.refuse (hI : Alike sha256 limits keys minute t₀ limiter db)
    (key : String) :
    Alike sha256 limits keys minute t₀
      { limiter with
        state := Function.update limiter.state key
          (some (currentWindow (limiter.state key) minute)) } db := by
  have hcount : ∀ key' d, countIn
      { limiter with
        state := Function.update limiter.state key
          (some (currentWindow (limiter.state key) minute)) } minute key' d =
      countIn limiter minute key' d := by
    intro key' d
    by_cases hk : key' = key
    · subst hk
      exact countIn_update_self currentWindow_start d
    · exact countIn_update_ne hk d
  refine ⟨hI.limits_eq, ?_, ?_, ?_, hI.lasts, ?_, hI.closed, ?_⟩
  · exact hI.within.update (hI.within.currentWindow key minute) _
  · intro key' w hw
    exact state_update_start currentWindow_start hI.minute_eq hw
  · intro key' hk' d
    rw [hcount]
    exact hI.counters hk' d
  · intro id q hq
    obtain ⟨hkey, hstate, hhash⟩ := hI.opened hq
    exact ⟨hkey, state_update_exists hstate, hhash⟩
  · intro key' ids hids
    rw [hcount]
    exact hI.backed key' ids hids

/-- The counters after an admission, for every key in use. -/
theorem Alike.admit_counters
    (hI : Alike sha256 limits keys minute t₀ limiter db) (hl : Exact limits)
    (hinj : Set.InjOn sha256 keys) (hnow : now < t₀ + 60000)
    {check : QuotaCheck} (hkey : check.apiKey ∈ keys)
    (hfit : ∀ d, countIn limiter minute check.apiKey d + askedOf check d ≤
      limitOf limits d) (id : String) {key : String} (hk : key ∈ keys)
    (d : Dimension) :
    ((admittedDb db now (sha256 check.apiKey, minute) id
        (Binary64.round check.promptTokens)
        (Binary64.round check.reservedGeneratedTokens)).counters.get now
          (keyOf (sha256 key, minute) d)).getD 0 =
      countIn limiter minute key d +
        if key = check.apiKey then (askedOf check d : Int) else 0 := by
  have hold := hI.counters_at hnow hk d
  by_cases he : key = check.apiKey
  · subst he
    have hsmall : Binary64.round (askedOf check d : Int) = askedOf check d := by
      have := hfit d
      have := hl d
      exact Binary64.round_of_lt (by omega) (by omega)
    rw [if_pos rfl, ← hold, Keyspace.get, admittedDb, live_chargeCounters,
      increment_eq]
    simp only [Option.map_some, Option.getD_some]
    exact congrArg _ hsmall
  · have hne : ∀ d', keyOf (sha256 key, minute) d ≠
        keyOf (sha256 check.apiKey, minute) d' := by
      intro d' heq
      exact he (hinj hk hkey (congrArg Prod.fst (keyOf_inj.mp heq).1))
    rw [if_neg he, add_zero, ← hold, Keyspace.get, admittedDb,
      live_chargeCounters_ne _ _ _ hne]
    rfl

/-- A reservation that a call does not touch is open in both as it was. -/
theorem Alike.opened_kept (hI : Alike sha256 limits keys minute t₀ limiter db)
    (hnow : now < t₀ + 60000) {db' : QuotaDb}
    (hlasts : Keyspace.LastsUntil (t₀ + 60000) db'.reservations) {id : Uuid}
    {q : InMemoryQuotaLimiter.QuotaReservation}
    (hq : limiter.reservations id = some q)
    (hsame : db'.reservations.get now id.text = db.reservations.get now id.text)
    (key : String) (w : WindowCounters) :
    q.apiKey ∈ keys ∧
      (∃ w', Function.update limiter.state key (some w) q.apiKey = some w') ∧
      ∃ r, db'.reservations.get t₀ id.text = some r ∧
        r.status = some .reserved ∧
        r.generated = some (q.reservedGeneratedTokens : Int) ∧
        r.generatedKey = some (keyOf (sha256 q.apiKey, minute) .generated) := by
  have ht₀ : t₀ < t₀ + 60000 := by omega
  obtain ⟨hk, hstate, r, hr, hrest⟩ := hI.opened hq
  refine ⟨hk, state_update_exists hstate, r, ?_, hrest⟩
  rw [hlasts.get ht₀ hnow, hsame, ← hI.lasts.2.get ht₀ hnow, hr]

/-- The counts after a charge, for every key. -/
theorem countIn_charge (check : QuotaCheck)
    (reservations : Uuid → Option InMemoryQuotaLimiter.QuotaReservation)
    (key : String) (d : Dimension) :
    countIn ⟨limiter.limits, Function.update limiter.state check.apiKey
        (some (chargeWindow (currentWindow (limiter.state check.apiKey) minute)
          check)), reservations⟩ minute key d =
      countIn limiter minute key d +
        if key = check.apiKey then askedOf check d else 0 := by
  by_cases hk : key = check.apiKey
  · subst hk
    rw [countIn_update_self (w := chargeWindow _ check) currentWindow_start,
      countOf_chargeWindow, if_pos rfl]
    rfl
  · rw [countIn_update_ne hk, if_neg hk, Nat.add_zero]

theorem Alike.admit (hI : Alike sha256 limits keys minute t₀ limiter db)
    (hl : Exact limits) (hinj : Set.InjOn sha256 keys)
    (hnow : t₀ ≤ now ∧ now < t₀ + 60000) {check : QuotaCheck}
    (hkey : check.apiKey ∈ keys)
    (hfit : ∀ d, countIn limiter minute check.apiKey d + askedOf check d ≤
      limitOf limits d) (id : Uuid)
    {q : InMemoryQuotaLimiter.QuotaReservation} (hqkey : q.apiKey = check.apiKey)
    (hqgen : q.reservedGeneratedTokens = check.reservedGeneratedTokens) :
    Alike sha256 limits keys minute t₀
      ⟨limiter.limits, Function.update limiter.state check.apiKey
          (some (chargeWindow (currentWindow (limiter.state check.apiKey) minute)
            check)),
        Function.update limiter.reservations id (some q)⟩
      (admittedDb db now (sha256 check.apiKey, minute) id.text
        (Binary64.round check.promptTokens)
        (Binary64.round check.reservedGeneratedTokens)) := by
  have hstart : (chargeWindow (currentWindow (limiter.state check.apiKey) minute)
      check).windowStartEpochMinute = minute := currentWindow_start
  have hend : t₀ + 60000 ≤ now + reservationTtlMs := by
    unfold reservationTtlMs
    omega
  have hlasts := lasts_admittedDb hI.lasts.1 hI.lasts.2 hend
    (sha256 check.apiKey, minute) id.text (Binary64.round check.promptTokens)
    (Binary64.round check.reservedGeneratedTokens)
  have ht₀ : t₀ < t₀ + 60000 := by omega
  refine ⟨hI.limits_eq, ?_, ?_, ?_, hlasts, ?_, ?_, ?_⟩
  · refine hI.within.update (fun d => ?_) _
    rw [countOf_chargeWindow, hI.limits_eq]
    exact hfit d
  · intro key w hw
    exact state_update_start hstart hI.minute_eq hw
  · intro key hk d
    rw [hlasts.1.get ht₀ hnow.2,
      hI.admit_counters hl hinj hnow.2 hkey hfit id.text hk d,
      countIn_charge]
    push_cast
    rfl
  · intro id' q' hq'
    dsimp only at hq' ⊢
    by_cases he : id' = id
    · subst he
      rw [Function.update_self] at hq'
      cases hq'
      rw [hlasts.2.get ht₀ hnow.2, get_admittedDb, hqkey, hqgen]
      refine ⟨hkey, ⟨_, Function.update_self ..⟩, _, rfl, rfl, ?_, rfl⟩
      have hsmall := hfit .generated
      have hbound := hl .generated
      exact congrArg some (Binary64.round_of_lt (by omega)
        (by simp only [askedOf, amount] at hsmall; omega))
    · rw [Function.update_of_ne he] at hq'
      have hne : id'.text ≠ id.text := fun h => he (Uuid.text_inj h)
      refine hI.opened_kept hnow.2 hlasts.2 hq' ?_ _ _
      rw [Keyspace.get, live_admittedDb_ne _ _ hne]
      rfl
  · intro id' hid'
    dsimp only at hid'
    have he : id' ≠ id := by
      rintro rfl
      rw [Function.update_self] at hid'
      cases hid'
    rw [Function.update_of_ne he] at hid'
    rw [isReserved_lasts hlasts.2 ht₀ hnow.2, isReserved_admittedDb_ne _ _
      fun h => he (Uuid.text_inj h), isReserved_lasts hI.lasts.2 hnow.2 ht₀]
    exact hI.closed hid'
  · refine hI.backed.admit hqkey hstart ?_
    rw [countOf_chargeWindow, hqgen]
    rfl

theorem Alike.settle (hI : Alike sha256 limits keys minute t₀ limiter db)
    (hl : Exact limits) (hinj : Set.InjOn sha256 keys)
    (hnow : now < t₀ + 60000) {id : Uuid}
    {q : InMemoryQuotaLimiter.QuotaReservation}
    (hq : limiter.reservations id = some q) (actual : Nat) :
    ∃ w, limiter.state q.apiKey = some w ∧
      (reconcileQuota db now id.text actual).1 =
        q.reservedGeneratedTokens - actual ∧
      Alike sha256 limits keys minute t₀
        ⟨limiter.limits, Function.update limiter.state q.apiKey
            (some (refundWindow w (q.reservedGeneratedTokens - actual))),
          Function.update limiter.reservations id none⟩
        (reconcileQuota db now id.text actual).2 := by
  obtain ⟨hkey, ⟨w, hw⟩, r, hr, hst, hgen, hgk⟩ := hI.opened hq
  have ht₀ : t₀ < t₀ + 60000 := by omega
  have hstart := hI.minute_eq hw
  -- The reservation alone is backed by its key's counter.
  have hback : q.reservedGeneratedTokens ≤ w.generatedTokensReserved := by
    have := hI.backed q.apiKey {id} fun id' h => by
      rw [Finset.mem_singleton.mp h]
      exact ⟨q, hq, rfl⟩
    rw [Finset.sum_singleton, countIn, hw, currentWindow_of_start hstart] at this
    simpa [reservedOf, hq, countOf] using this
  have hsmall : q.reservedGeneratedTokens < Binary64.bound := by
    have hle := hI.within q.apiKey w .generated hw
    have hlt := hl .generated
    rw [hI.limits_eq] at hle
    simp only [countOf] at hle
    omega
  rw [hI.lasts.2.get ht₀ hnow] at hr
  have hlasts := lasts_reconcileQuota now hI.lasts.1 hI.lasts.2 id.text actual
  obtain ⟨r', hst', hrec⟩ := reconcileQuota_open hr hst hgen hgk hsmall actual
  rw [hrec] at hlasts ⊢
  refine ⟨w, hw, rfl, hI.limits_eq, ?_, ?_, ?_, hlasts, ?_, ?_, ?_⟩
  · refine hI.within.update (fun d => ?_) _
    exact (countOf_refundWindow_le w _ d).trans (hI.within q.apiKey w d hw)
  · intro key w' hw'
    exact state_update_start (w := refundWindow w _) hstart hI.minute_eq hw'
  · intro key hk d
    rw [hlasts.1.get ht₀ hnow, get_refundGenerated, hI.counters_at hnow hk d]
    by_cases he : key = q.apiKey
    · subst he
      rw [countIn_update_self (w := refundWindow w _) hstart, countIn, hw,
        currentWindow_of_start hstart]
      cases d <;> simp [countOf, refundWindow]
      omega
    · rw [countIn_update_ne he, if_neg, sub_zero]
      intro heq
      exact he (hinj hk hkey (congrArg Prod.fst (keyOf_inj.mp heq).1))
  · intro id' q' hq'
    dsimp only at hq' ⊢
    have he : id' ≠ id := by
      rintro rfl
      rw [Function.update_self] at hq'
      cases hq'
    rw [Function.update_of_ne he] at hq'
    have hne : id'.text ≠ id.text := fun h => he (Uuid.text_inj h)
    refine hI.opened_kept hnow hlasts.2 hq' ?_ _ _
    rw [Keyspace.get, Keyspace.live_put_ne _ _ _ _ hne]
    rfl
  · intro id' hid'
    dsimp only at hid'
    rw [isReserved_lasts hlasts.2 ht₀ hnow,
      isReserved_put db now id'.text id.text _ (by simp [hst'])]
    by_cases he : id' = id
    · subst he
      simp
    · rw [Function.update_of_ne he] at hid'
      rw [isReserved_lasts hI.lasts.2 hnow ht₀, hI.closed hid']
      rfl
  · exact hI.backed.settle hq hstart hw (Nat.sub_le _ _)

/-- One call, served by both. -/
theorem Alike.serve (hI : Alike sha256 limits keys minute t₀ limiter db)
    (hl : Exact limits) (hinj : Set.InjOn sha256 keys) {c : MinuteCall}
    (hminute : c.unixMs / 60000 = minute)
    (hnow : t₀ ≤ c.now ∧ c.now < t₀ + 60000)
    (hkeys : ∀ check, c.op = .reserve check → check.apiKey ∈ keys) :
    (memoryServe limiter c).1 = (scriptServe sha256 limits db c).1 ∧
      Alike sha256 limits keys minute t₀ (memoryServe limiter c).2
        (scriptServe sha256 limits db c).2 := by
  unfold memoryServe scriptServe
  cases hop : c.op with
  | reserve check =>
      have hkey := hkeys check hop
      have hval : ∀ d, (db.counters.get c.now
          (keyOf (sha256 check.apiKey, c.unixMs / 60000) d)).getD 0 =
          countIn limiter minute check.apiKey d := by
        intro d
        rw [hminute]
        exact hI.counters_at hnow.2 hkey d
      have hle := hI.count_le check.apiKey
      have hepoch : epochMinute c.unixMs = minute := by
        unfold epochMinute
        omega
      dsimp only
      rw [hepoch]
      cases hdec : firstExceeded limits (countIn limiter minute check.apiKey)
          (askedOf check) with
      | some d =>
          obtain ⟨e, he, hdim⟩ := reserve_refused c.id rfl
            (hI.within.currentWindow check.apiKey minute)
            (by rw [hI.limits_eq]; exact hdec)
          rw [he, reserveQuota_refused hl hval hle hdec]
          dsimp only
          rw [hdim]
          refine ⟨?_, ?_⟩
          · cases d <;> rfl
          · cases d <;> exact hI.refuse check.apiKey
      | none =>
          rw [reserve_admitted rfl (by rw [hI.limits_eq]; exact hdec),
            reserveQuota_admitted hl hval hle hdec, hminute]
          refine ⟨?_, hI.admit hl hinj hnow hkey
            (firstExceeded_eq_none.mp hdec) c.id rfl rfl⟩
          simp only [reservationFor, countOf_chargeWindow, hI.limits_eq]
          rfl
  | reconcile actual =>
      dsimp only
      cases hq : limiter.reservations c.id with
      | none =>
          have hidle : isReserved db c.now c.id.text = false := by
            rw [isReserved_lasts hI.lasts.2 hnow.2
              (Nat.lt_add_of_pos_right (by omega : 0 < 60000))]
            exact hI.closed hq
          rw [reconcile_unknown hq, reconcileQuota_idle hidle]
          exact ⟨rfl, hI⟩
      | some q =>
          obtain ⟨w, hw, hanswer, hnext⟩ := hI.settle hl hinj hnow.2 hq actual
          rw [reconcile_known hq hw, hanswer]
          exact ⟨rfl, hnext⟩

end Simulation

/-- The API keys that reserve something in a list of calls. -/
def keysOf (calls : List MinuteCall) : Set String :=
  {key | ∃ c ∈ calls, ∃ check, c.op = .reserve check ∧ check.apiKey = key}

/-- For all limits a double holds exactly and every sequence of calls within
one minute, on the caller's clock and on the broker's, the limiter in memory
and the scripts, both started empty, give the same answers call by call. The
digests of the keys in use are taken not to collide. -/
theorem limiters_agree (sha256 : String → String) (limits : QuotaLimits)
    (hl : Exact limits) (calls : List MinuteCall) (minute t₀ : Nat)
    (hminute : ∀ c ∈ calls, c.unixMs / 60000 = minute)
    (hnow : ∀ c ∈ calls, t₀ ≤ c.now ∧ c.now < t₀ + 60000)
    (hinj : Set.InjOn sha256 (keysOf calls)) :
    answers memoryServe (.new limits) calls =
      answers (scriptServe sha256 limits) .empty calls := by
  have hsame : List.Forall₂ (· = ·) (answers memoryServe (.new limits) calls)
      (answers (scriptServe sha256 limits) .empty calls) := by
    refine answers_forall₂ (Alike sha256 limits (keysOf calls) minute t₀)
      (· ∈ calls) ?_ alike_new (fun _ hc => hc)
    intro limiter db c hc hI
    exact hI.serve hl hinj (hminute c hc) (hnow c hc)
      fun check hop => ⟨c, hc, check, hop, rfl⟩
  rwa [List.forall₂_eq_eq_eq] at hsame

/-- Two keys within one minute: an admission, a refusal, a reconcile that
gives tokens back, a second one of the same reservation, and one that used more
than it had reserved. -/
def oneMinute : List MinuteCall :=
  [⟨500, 60000, endingIn 'a', .reserve ⟨"alpha", 10, 40⟩⟩,
    ⟨600, 60100, endingIn 'b', .reserve ⟨"beta", 20, 30⟩⟩,
    ⟨700, 60200, endingIn 'c', .reserve ⟨"alpha", 10, 20⟩⟩,
    ⟨800, 60300, endingIn 'a', .reconcile 15⟩,
    ⟨900, 60400, endingIn 'a', .reconcile 0⟩,
    ⟨1000, 60500, endingIn 'c', .reserve ⟨"alpha", 10, 20⟩⟩,
    ⟨60400, 119900, endingIn 'b', .reconcile 70⟩]

theorem limiters_agree_oneMinute :
    answers memoryServe (.new ⟨10, 100, 50⟩) oneMinute =
        answers (scriptServe sampleDigest ⟨10, 100, 50⟩) .empty oneMinute ∧
      answers memoryServe (.new ⟨10, 100, 50⟩) oneMinute =
        [.admitted 9 90 10, .admitted 9 80 20, .exceeded .generated,
          .refunded 25, .refunded 0, .admitted 8 80 15, .refunded 0] := by
  have hl : Exact ⟨10, 100, 50⟩ := by intro d; cases d <;> decide
  have hused : ∀ c ∈ oneMinute, ∀ check, c.op = .reserve check →
      check.apiKey = "alpha" ∨ check.apiKey = "beta" := by
    intro c hc check hop
    simp only [oneMinute, List.mem_cons, List.not_mem_nil, or_false] at hc
    rcases hc with rfl | rfl | rfl | rfl | rfl | rfl | rfl <;> cases hop <;>
      simp
  have hinj : Set.InjOn sampleDigest (keysOf oneMinute) := by
    rintro _ ⟨c, hc, check, hop, rfl⟩ _ ⟨c', hc', check', hop', rfl⟩ heq
    rcases hused c hc check hop with h | h <;>
      rcases hused c' hc' check' hop' with h' | h' <;>
      rw [h, h'] at heq ⊢ <;> exact absurd heq (by decide)
  exact ⟨limiters_agree sampleDigest ⟨10, 100, 50⟩ hl oneMinute 1 500
    (by decide) (by decide) hinj, by decide⟩

end DataPlane.Proofs
