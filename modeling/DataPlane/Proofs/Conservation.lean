import DataPlane.Lib.Run
import DataPlane.Proofs.QuotaScripts

/-!
# The counters read what the ledger says

Every quota script keeps the keyspace and the ledger in step. Two facts carry
the proof. The three counters of a bucket live and die together, because they
are only ever created and renewed by a reserve that touches all three. And
the counters outlive every reservation that could still refund them: a reserve
gives all four keys the same time to live and later reserves only move the
counters' deadline further out, so no refund can find its counter gone.

With these a settlement is a subtraction from counters that are there, made at
most once, because the status field it is guarded by is left `reserved` by
nobody but the reserve that drew the id.
-/

namespace DataPlane.Proofs

open DataPlane.Lib DataPlane.Ref DataPlane.Spec

/-! ## The invariant -/

/-- The status field of a reservation with a given outcome. -/
def statusOf : Outcome → ReservationStatus
  | .unsettled => .reserved
  | .reconciled _ => .reconciled
  | .cancelled => .cancelled

theorem statusOf_eq_reserved {o : Outcome} :
    statusOf o = .reserved ↔ o = .unsettled := by
  cases o <;> simp [statusOf]

/-- A hash describes a charge of a bucket. -/
structure Describes (b : Bucket) (c : Charge) (r : Reservation) : Prop where
  status : r.status = some (statusOf c.outcome)
  requestsKey : r.requestsKey = some (keyOf b .requests)
  promptKey : r.promptKey = some (keyOf b .prompt)
  generatedKey : r.generatedKey = some (keyOf b .generated)
  prompt : r.prompt = some (c.prompt : Int)
  generated : r.generated = some (c.reserved : Int)

/-- No counter of the bucket exists, and nothing in its ledger can still be
settled. -/
def BucketDead (s : QuotaState) (b : Bucket) : Prop :=
  (∀ d, s.db.counters.live s.now (keyOf b d) = none) ∧
    ∀ c ∈ s.ledger b, c.expiresAt ≤ s.now

/-- All three counters exist, read what the ledger says, and share a deadline
no reservation of the bucket outlives. -/
def BucketLive (s : QuotaState) (b : Bucket) : Prop :=
  ∃ deadline,
    (∀ d, s.db.counters.live s.now (keyOf b d) =
      some ⟨(total d (s.ledger b) : Int), some deadline⟩) ∧
    ∀ c ∈ s.ledger b, c.expiresAt ≤ deadline

/-- Keyspace and ledger agree. -/
structure Conserved (limits : QuotaLimits) (s : QuotaState) : Prop where
  bucket : ∀ b, BucketDead s b ∨ BucketLive s b
  within : ∀ b d, total d (s.ledger b) ≤ limitOf limits d
  horizon : ∀ {b c}, c ∈ s.ledger b → c.expiresAt ≤ s.now + reservationTtlMs
  drawn : ∀ {b c}, c ∈ s.ledger b → c.id ∈ s.drawn
  ids : ∀ b, ((s.ledger b).map (·.id)).Nodup
  apart : ∀ {b b' c c'}, c ∈ s.ledger b → c' ∈ s.ledger b' → c.id = c'.id →
    b = b'
  backed : ∀ {b c}, c ∈ s.ledger b → s.now < c.expiresAt →
    ∃ r, s.db.reservations.live s.now c.id = some ⟨r, some c.expiresAt⟩ ∧
      Describes b c r
  known : ∀ {id cell}, s.db.reservations.live s.now id = some cell →
    id ∈ s.drawn
  charged : ∀ {id}, isReserved s.db s.now id = true →
    ∃ b c, c ∈ s.ledger b ∧ c.id = id ∧ c.Open s.now
  once : s.settlements.Nodup
  settled : ∀ id ∈ s.settlements,
    id ∈ s.drawn ∧ isReserved s.db s.now id = false

theorem conserved_empty (limits : QuotaLimits) (now : Nat) :
    Conserved limits (.empty now) where
  bucket b := .inl ⟨fun _ => rfl, by intro c hc; cases hc⟩
  within b d := Nat.zero_le _
  horizon hc := by cases hc
  drawn hc := by cases hc
  ids b := List.nodup_nil
  apart hc := by cases hc
  backed hc := by cases hc
  known h := by cases h
  charged h := by cases h
  once := List.nodup_nil
  settled id hid := by cases hid

/-- While a charge is open its bucket is live. -/
theorem Conserved.live_of_open {limits : QuotaLimits} {s : QuotaState}
    (hI : Conserved limits s) {b : Bucket} {c : Charge} (hc : c ∈ s.ledger b)
    (hopen : c.Open s.now) : BucketLive s b := by
  rcases hI.bucket b with hdead | hlive
  · have := hdead.2 c hc
    have := hopen.2
    omega
  · exact hlive

/-! ## Time -/

theorem tick_bucket {s : QuotaState} {b : Bucket} (ms : Nat)
    (h : BucketDead s b ∨ BucketLive s b) :
    BucketDead { s with now := s.now + ms } b ∨
      BucketLive { s with now := s.now + ms } b := by
  rcases h with ⟨hnone, hexp⟩ | ⟨deadline, hlive, hexp⟩
  · refine .inl ⟨fun d => ?_, fun c hc => ?_⟩
    · cases hcell : s.db.counters.live (s.now + ms) (keyOf b d) with
      | none => rfl
      | some cell =>
          have := Keyspace.live_of_le (Nat.le_add_right s.now ms) hcell
          rw [hnone d] at this
          cases this
    · exact (hexp c hc).trans (Nat.le_add_right _ _)
  · have hcell : ∀ d, s.db.counters (keyOf b d) =
        some ⟨(total d (s.ledger b) : Int), some deadline⟩ :=
      fun d => (Keyspace.live_eq_some.mp (hlive d)).1
    rcases Nat.lt_or_ge (s.now + ms) deadline with hlt | hge
    · refine .inr ⟨deadline, fun d => ?_, hexp⟩
      exact Keyspace.live_eq_some.mpr ⟨hcell d, by simp [Timed.alive, hlt]⟩
    · refine .inl ⟨fun d => ?_, fun c hc => (hexp c hc).trans hge⟩
      show s.db.counters.live (s.now + ms) (keyOf b d) = none
      rw [Keyspace.live, hcell d]
      simp [Timed.alive, hge]

theorem tick_conserved {limits : QuotaLimits} {s : QuotaState} (ms : Nat)
    (hI : Conserved limits s) : Conserved limits { s with now := s.now + ms } where
  bucket b := tick_bucket ms (hI.bucket b)
  within := hI.within
  horizon {b c} hc := by
    have := hI.horizon hc
    dsimp only
    omega
  drawn := hI.drawn
  ids := hI.ids
  apart := hI.apart
  backed {b c} hc hlt := by
    dsimp only at hlt
    obtain ⟨r, hr, hd⟩ := hI.backed hc (by omega)
    refine ⟨r, ?_, hd⟩
    exact Keyspace.live_eq_some.mpr
      ⟨(Keyspace.live_eq_some.mp hr).1, by simp [Timed.alive, hlt]⟩
  known h := hI.known (Keyspace.live_of_le (Nat.le_add_right _ _) h)
  charged {id} h := by
    obtain ⟨b, c, hc, hid, hopen⟩ :=
      hI.charged (isReserved_of_le (Nat.le_add_right _ _) h)
    obtain ⟨cell, hcell, _⟩ := isReserved_iff.mp h
    obtain ⟨r, hr, _⟩ := hI.backed hc hopen.2
    -- The reservation is alive at the later time, and its deadline is the
    -- charge's own.
    have hsame := Keyspace.live_of_le (Nat.le_add_right s.now ms) hcell
    rw [← hid, hr] at hsame
    injection hsame with hsame
    have halive := (Keyspace.live_eq_some.mp hcell).2
    rw [← hsame] at halive
    refine ⟨b, c, hc, hid, hopen.1, ?_⟩
    simpa [Timed.alive] using halive
  once := hI.once
  settled id hid := by
    refine ⟨(hI.settled id hid).1, ?_⟩
    have hold := (hI.settled id hid).2
    cases hnew : isReserved s.db (s.now + ms) id with
    | false => rfl
    | true =>
        rw [isReserved_of_le (Nat.le_add_right _ _) hnew] at hold
        cases hold

/-! ## Settlements

A settlement of a reservation that is not in status `reserved` finds no open
charge either, so both sides stand still. Otherwise one charge of one bucket
changes, and the counters of that bucket move by the difference. -/

theorem isReserved_of_open {limits : QuotaLimits} {s : QuotaState}
    (hI : Conserved limits s) {b : Bucket} {c : Charge} (hc : c ∈ s.ledger b)
    (hopen : c.Open s.now) : isReserved s.db s.now c.id = true := by
  obtain ⟨r, hr, hd⟩ := hI.backed hc hopen.2
  exact isReserved_iff.mpr ⟨_, hr, by rw [hd.status, hopen.1]; rfl⟩

theorem settle_eq_self {limits : QuotaLimits} {s : QuotaState}
    (hI : Conserved limits s) {id : String}
    (h : isReserved s.db s.now id = false) (o : Outcome) :
    s.ledger.settle id s.now o = s.ledger := by
  funext b
  refine map_settle_eq_self fun c hc hid hopen => ?_
  have := isReserved_of_open hI hc hopen
  rw [hid, h] at this
  cases this

theorem idle_conserved {limits : QuotaLimits} {s : QuotaState}
    (hI : Conserved limits s) {id : String}
    (h : isReserved s.db s.now id = false) (o : Outcome) :
    Conserved limits
      { s with
        ledger := s.ledger.settle id s.now o
        settlements := recordSettlement s id } := by
  rw [settle_eq_self hI h, recordSettlement, h]
  exact hI

/-- The counters after a settlement of charge `c` of bucket `b` as `o`. -/
structure Refunded (counters counters' : Keyspace CounterKey Int) (now : Nat)
    (b : Bucket) (c : Charge) (o : Outcome) : Prop where
  self : ∀ d cell, counters.live now (keyOf b d) = some cell →
    counters'.live now (keyOf b d) =
      some ⟨cell.value - c.weight d +
        ({ c with outcome := o } : Charge).weight d, cell.deadline⟩
  other : ∀ k, (∀ d, k ≠ keyOf b d) → counters'.live now k = counters.live now k

theorem mem_settle {L : Ledger} {id : String} {now : Nat} {o : Outcome}
    {b : Bucket} {x : Charge} (h : x ∈ L.settle id now o b) :
    ∃ c ∈ L b, x = c.settle id now o := by
  obtain ⟨c, hc, rfl⟩ := List.mem_map.mp h
  exact ⟨c, hc, rfl⟩

theorem settle_bucket {limits : QuotaLimits} {s : QuotaState}
    (hI : Conserved limits s) {b : Bucket} {c : Charge} (hc : c ∈ s.ledger b)
    (hopen : c.Open s.now) {o : Outcome} {db' : QuotaDb}
    (href : Refunded s.db.counters db'.counters s.now b c o)
    (settlements : List String) (b' : Bucket) :
    BucketDead { s with
        db := db'
        ledger := s.ledger.settle c.id s.now o
        settlements := settlements } b' ∨
      BucketLive { s with
        db := db'
        ledger := s.ledger.settle c.id s.now o
        settlements := settlements } b' := by
  have hexp : ∀ {t}, (∀ x ∈ s.ledger b', x.expiresAt ≤ t) →
      ∀ x ∈ s.ledger.settle c.id s.now o b', x.expiresAt ≤ t := by
    intro t ht x hx
    obtain ⟨y, hy, rfl⟩ := mem_settle hx
    rw [Charge.settle_expiresAt]
    exact ht y hy
  by_cases hb : b' = b
  · subst hb
    obtain ⟨deadline, hlive, hbound⟩ := hI.live_of_open hc hopen
    refine .inr ⟨deadline, fun d => ?_, hexp hbound⟩
    rw [href.self d _ (hlive d)]
    have htot := total_map_settle (o := o) hc hopen (hI.ids b') d
    simp only [Option.some.injEq, Timed.mk.injEq, and_true]
    show _ = (total d ((s.ledger b').map (Charge.settle c.id s.now o)) : Int)
    omega
  · have hkeys : ∀ d, db'.counters.live s.now (keyOf b' d) =
        s.db.counters.live s.now (keyOf b' d) :=
      fun d => href.other _ (by simp [hb])
    have hsame : s.ledger.settle c.id s.now o b' = s.ledger b' :=
      map_settle_eq_self fun x hx hid _ => hb (hI.apart hx hc hid)
    rcases hI.bucket b' with ⟨hnone, hold⟩ | ⟨deadline, hlive, hold⟩
    · exact .inl ⟨fun d => (hkeys d).trans (hnone d), hexp hold⟩
    · refine .inr ⟨deadline, fun d => ?_, hexp hold⟩
      dsimp only
      rw [hkeys d, hlive d, hsame]

theorem settle_backed {limits : QuotaLimits} {s : QuotaState}
    (hI : Conserved limits s) {b : Bucket} {c : Charge} (hc : c ∈ s.ledger b)
    (hopen : c.Open s.now) {o : Outcome} {r' : Reservation}
    (hr' : Describes b { c with outcome := o } r') {b' : Bucket} {x : Charge}
    (hx : x ∈ s.ledger.settle c.id s.now o b') (hlt : s.now < x.expiresAt) :
    ∃ r, (s.db.reservations.put s.now c.id r').live s.now x.id =
        some ⟨r, some x.expiresAt⟩ ∧ Describes b' x r := by
  obtain ⟨y, hy, rfl⟩ := mem_settle hx
  rw [Charge.settle_expiresAt] at hlt
  rw [Charge.settle_id, Charge.settle_expiresAt]
  by_cases hid : y.id = c.id
  · -- The one charge that was settled.
    have hb : b' = b := hI.apart hy hc hid
    subst hb
    have hyc : y = c := List.inj_on_of_nodup_map (hI.ids b') hy hc hid
    subst hyc
    obtain ⟨r, hr, _⟩ := hI.backed hc hopen.2
    rw [Charge.settle_self hopen]
    refine ⟨r', ?_, hr'⟩
    rw [Keyspace.live_put_self, hr]
    rfl
  · rw [Charge.settle_of_ne fun h => hid h.1]
    obtain ⟨ry, hry, hdy⟩ := hI.backed hy hlt
    exact ⟨ry, (Keyspace.live_put_ne _ _ _ _ hid).trans hry, hdy⟩

theorem settle_conserved {limits : QuotaLimits} {s : QuotaState}
    (hI : Conserved limits s) {b : Bucket} {c : Charge} (hc : c ∈ s.ledger b)
    (hopen : c.Open s.now) {o : Outcome} (ho : o ≠ .unsettled) {db' : QuotaDb}
    (href : Refunded s.db.counters db'.counters s.now b c o)
    {r' : Reservation}
    (hres : db'.reservations = s.db.reservations.put s.now c.id r')
    (hr' : Describes b { c with outcome := o } r') :
    Conserved limits
      { s with
        db := db'
        ledger := s.ledger.settle c.id s.now o
        settlements := c.id :: s.settlements } := by
  have hstatus : r'.status ≠ some .reserved := by
    rw [hr'.status]
    intro hst
    injection hst with hst
    exact ho (statusOf_eq_reserved.mp hst)
  have hreserved : ∀ id, isReserved db' s.now id =
      (isReserved s.db s.now id && decide (id ≠ c.id)) := by
    intro id
    have hdb : db' = ⟨db'.counters, s.db.reservations.put s.now c.id r'⟩ := by
      rw [← hres]
    rw [hdb]
    exact isReserved_put s.db s.now id c.id _ hstatus
  exact
    { bucket := settle_bucket hI hc hopen href _
      within := fun b' d => (total_map_settle_le d _).trans (hI.within b' d)
      horizon := by
        intro b' x hx
        obtain ⟨y, hy, rfl⟩ := mem_settle hx
        rw [Charge.settle_expiresAt]
        exact hI.horizon hy
      drawn := by
        intro b' x hx
        obtain ⟨y, hy, rfl⟩ := mem_settle hx
        rw [Charge.settle_id]
        exact hI.drawn hy
      ids := by
        intro b'
        show (((s.ledger b').map _).map _).Nodup
        rw [map_settle_ids]
        exact hI.ids b'
      apart := by
        intro b₁ b₂ x y hx hy hid
        obtain ⟨x', hx', rfl⟩ := mem_settle hx
        obtain ⟨y', hy', rfl⟩ := mem_settle hy
        rw [Charge.settle_id, Charge.settle_id] at hid
        exact hI.apart hx' hy' hid
      backed := by
        intro b' x hx hlt
        dsimp only
        rw [hres]
        exact settle_backed hI hc hopen hr' hx hlt
      known := by
        intro id cell hcell
        by_cases hid : id = c.id
        · rw [hid]
          exact hI.drawn hc
        · dsimp only at hcell
          rw [hres, Keyspace.live_put_ne _ _ _ _ hid] at hcell
          exact hI.known hcell
      charged := by
        intro id h
        rw [hreserved, Bool.and_eq_true, decide_eq_true_eq] at h
        obtain ⟨b', y, hy, hid, hyopen⟩ := hI.charged h.1
        refine ⟨b', y, ?_, hid, hyopen⟩
        refine List.mem_map.mpr ⟨y, hy, Charge.settle_of_ne fun hx => h.2 ?_⟩
        rw [← hid, hx.1]
      once := by
        refine List.nodup_cons.mpr ⟨fun hmem => ?_, hI.once⟩
        have hnot := (hI.settled _ hmem).2
        rw [isReserved_of_open hI hc hopen] at hnot
        cases hnot
      settled := by
        intro id hmem
        rw [hreserved]
        rcases List.mem_cons.mp hmem with rfl | hmem
        · exact ⟨hI.drawn hc, by simp⟩
        · obtain ⟨hdrawn, hnot⟩ := hI.settled id hmem
          exact ⟨hdrawn, by rw [hnot]; rfl⟩ }

/-- What an open charge asked for fits in a double. -/
theorem Conserved.amounts_exact {limits : QuotaLimits} (hl : Exact limits)
    {s : QuotaState} (hI : Conserved limits s) {b : Bucket} {c : Charge}
    (hc : c ∈ s.ledger b) (hopen : c.Open s.now) :
    c.prompt < Binary64.bound ∧ c.reserved < Binary64.bound := by
  have hbelow : ∀ d, c.weight d < Binary64.bound := fun d =>
    lt_of_le_of_lt ((weight_le_total hc).trans (hI.within b d)) (hl d)
  have hp := hbelow .prompt
  have hg := hbelow .generated
  simp only [Charge.weight, hopen.1] at hp hg
  exact ⟨hp, hg⟩

theorem refunded_generated {limits : QuotaLimits} (hl : Exact limits)
    {s : QuotaState} (hI : Conserved limits s) {b : Bucket} {c : Charge}
    (hc : c ∈ s.ledger b) (hopen : c.Open s.now) {r : Reservation}
    (hd : Describes b c r) {actual : Nat} {refund : Int}
    (hrefund : refund = max (Binary64.round (Binary64.round
      (r.generated.getD 0) - Binary64.round actual)) 0) :
    Refunded s.db.counters
      (refundGenerated s.db.counters s.now r.generatedKey refund)
      s.now b c (.reconciled actual) := by
  have hres := (hI.amounts_exact hl hc hopen).2
  rw [hd.generated, Option.getD_some,
    Binary64.round_of_lt (z := (c.reserved : Int)) (by omega) (by omega),
    Binary64.max_round_sub (by omega)] at hrefund
  have hun := hopen.1
  rw [hd.generatedKey]
  constructor
  · intro d cell hcell
    have hget : s.db.counters.get s.now (keyOf b d) = some cell.value := by
      simp [Keyspace.get, hcell]
    simp only [refundGenerated]
    split
    · next hpos =>
        cases d with
        | generated =>
            rw [live_decrBy_self, hcell, hget]
            simp only [Charge.weight, hun, Option.getD_some,
              Option.bind_some, Option.some.injEq, Timed.mk.injEq, and_true]
            omega
        | requests | prompt =>
            rw [live_decrBy_ne _ _ (by simp), hcell]
            simp [Charge.weight, hun]
    · next hzero =>
        -- Nothing is left over: the charge weighs what it weighed.
        have hmin : min c.reserved actual = c.reserved := by omega
        rw [hcell]
        cases d <;> simp [Charge.weight, hun, hmin]
  · intro k hk
    simp only [refundGenerated]
    split
    · exact live_decrBy_ne _ _ (hk _)
    · rfl

theorem refunded_all {limits : QuotaLimits} (hl : Exact limits)
    {s : QuotaState} (hI : Conserved limits s) {b : Bucket} {c : Charge}
    (hc : c ∈ s.ledger b) (hopen : c.Open s.now) {r : Reservation}
    (hd : Describes b c r) :
    Refunded s.db.counters
      (refundAll s.db.counters s.now r (Binary64.round (r.prompt.getD 0))
        (Binary64.round (r.generated.getD 0)))
      s.now b c .cancelled := by
  obtain ⟨hp, hg⟩ := hI.amounts_exact hl hc hopen
  have hun := hopen.1
  rw [hd.prompt, hd.generated, Option.getD_some, Option.getD_some,
    Binary64.round_of_lt (z := (c.prompt : Int)) (by omega) (by omega),
    Binary64.round_of_lt (z := (c.reserved : Int)) (by omega) (by omega)]
  simp only [refundAll, hd.requestsKey, hd.promptKey, hd.generatedKey]
  constructor
  · intro d cell hcell
    cases d <;> simp [Keyspace.get, hcell, Charge.weight, hun]
  · intro k hk
    simp [hk]

/-- An open charge's hash, as the settling scripts read it. -/
theorem Conserved.reserved_hash {limits : QuotaLimits} {s : QuotaState}
    (hI : Conserved limits s) {b : Bucket} {c : Charge} (hc : c ∈ s.ledger b)
    (hopen : c.Open s.now) :
    ∃ r, s.db.reservations.get s.now c.id = some r ∧ Describes b c r ∧
      r.status = some .reserved := by
  obtain ⟨r, hr, hd⟩ := hI.backed hc hopen.2
  refine ⟨r, by simp [Keyspace.get, hr], hd, ?_⟩
  rw [hd.status, hopen.1]
  rfl

theorem reconcile_conserved {limits : QuotaLimits} (hl : Exact limits)
    {s : QuotaState} (hI : Conserved limits s) (id : String) (actual : Nat) :
    Conserved limits
      { s with
        db := (reconcileQuota s.db s.now id actual).2
        ledger := s.ledger.settle id s.now (.reconciled actual)
        settlements := recordSettlement s id } := by
  cases h : isReserved s.db s.now id with
  | false =>
      rw [reconcileQuota_idle h]
      exact idle_conserved hI h _
  | true =>
      obtain ⟨b, c, hc, rfl, hopen⟩ := hI.charged h
      obtain ⟨r, hr, hd, hst⟩ := hI.reserved_hash hc hopen
      obtain ⟨refund, hrefund, hdb⟩ := reconcileQuota_reserved hr hst actual
      rw [recordSettlement, if_pos h, hdb]
      exact settle_conserved hI hc hopen (by simp)
        (refunded_generated hl hI hc hopen hd hrefund) rfl
        ⟨rfl, hd.requestsKey, hd.promptKey, hd.generatedKey, hd.prompt,
          hd.generated⟩

theorem cancel_conserved {limits : QuotaLimits} (hl : Exact limits)
    {s : QuotaState} (hI : Conserved limits s) (id : String) :
    Conserved limits
      { s with
        db := cancelQuota s.db s.now id
        ledger := s.ledger.settle id s.now .cancelled
        settlements := recordSettlement s id } := by
  cases h : isReserved s.db s.now id with
  | false =>
      rw [cancelQuota_idle h]
      exact idle_conserved hI h _
  | true =>
      obtain ⟨b, c, hc, rfl, hopen⟩ := hI.charged h
      obtain ⟨r, hr, hd, hst⟩ := hI.reserved_hash hc hopen
      rw [recordSettlement, if_pos h, cancelQuota_reserved hr hst]
      exact settle_conserved hI hc hopen (by simp)
        (refunded_all hl hI hc hopen hd) rfl
        ⟨rfl, hd.requestsKey, hd.promptKey, hd.generatedKey, hd.prompt,
          hd.generated⟩

/-! ## Admissions -/

/-- The charges an admission is added to: none if it opens the bucket. -/
def standing (s : QuotaState) (b : Bucket) : List Charge :=
  if (s.db.counters.get s.now (keyOf b .requests)).isNone then []
  else s.ledger b

theorem standing_subset {s : QuotaState} {b : Bucket} {c : Charge}
    (h : c ∈ standing s b) : c ∈ s.ledger b := by
  unfold standing at h
  split at h
  · cases h
  · exact h

theorem Conserved.counter_standing {limits : QuotaLimits} {s : QuotaState}
    (hI : Conserved limits s) (b : Bucket) (d : Dimension) :
    (s.db.counters.get s.now (keyOf b d)).getD 0 = total d (standing s b) := by
  rcases hI.bucket b with ⟨hnone, _⟩ | ⟨deadline, hlive, _⟩
  · simp [standing, Keyspace.get, hnone]
  · simp [standing, Keyspace.get, hlive]

theorem Conserved.standing_le {limits : QuotaLimits} {s : QuotaState}
    (hI : Conserved limits s) (b : Bucket) (d : Dimension) :
    total d (standing s b) ≤ limitOf limits d := by
  unfold standing
  split
  · exact Nat.zero_le _
  · exact hI.within b d

/-- The script's tests, read in exact arithmetic. -/
theorem Conserved.admitted_le {limits : QuotaLimits} (hl : Exact limits)
    {s : QuotaState} (hI : Conserved limits s) {b : Bucket}
    {promptTokens generatedTokens : Nat} {d : Dimension}
    (h : Binary64.round (readCounter s.db s.now (keyOf b d) +
        increment (Binary64.round promptTokens)
          (Binary64.round generatedTokens) d) ≤
      Binary64.round (limitOf limits d)) :
    total d (standing s b) + amount promptTokens generatedTokens d ≤
      limitOf limits d := by
  exact not_lt.mp ((exceeds_iff hl (hI.counter_standing b d)
    (hI.standing_le b d)).not.mp (not_lt.mpr h))

/-- The charge an admission enters. -/
def newCharge (s : QuotaState) (id : String)
    (promptTokens generatedTokens : Nat) : Charge :=
  ⟨id, promptTokens, generatedTokens, s.now + reservationTtlMs, .unsettled⟩

theorem newCharge_weight (s : QuotaState) (id : String)
    (promptTokens generatedTokens : Nat) (d : Dimension) :
    (newCharge s id promptTokens generatedTokens).weight d =
      amount promptTokens generatedTokens d := by
  cases d <;> rfl

theorem admit_eq (s : QuotaState) (b : Bucket) (c : Charge) :
    s.ledger.admit b (s.db.counters.get s.now (keyOf b .requests)).isNone c =
      Function.update s.ledger b (standing s b ++ [c]) := by
  unfold Ledger.admit standing
  split <;> simp

theorem mem_admitted {s : QuotaState} {b b' : Bucket} {c x : Charge}
    (h : x ∈ Function.update s.ledger b (standing s b ++ [c]) b') :
    x ∈ s.ledger b' ∨ (b' = b ∧ x = c) := by
  by_cases hb : b' = b
  · subst hb
    rw [Function.update_self, List.mem_append, List.mem_singleton] at h
    exact h.imp standing_subset fun hx => ⟨rfl, hx⟩
  · rw [Function.update_of_ne hb] at h
    exact .inl h

theorem admit_bucket {limits : QuotaLimits} {s : QuotaState}
    (hI : Conserved limits s) {b : Bucket} {id : String}
    {promptTokens generatedTokens : Nat}
    (hp : promptTokens < Binary64.bound) (hg : generatedTokens < Binary64.bound)
    (drawn : List String) (b' : Bucket) :
    let s' : QuotaState := { s with
      db := admittedDb s.db s.now b id (Binary64.round promptTokens)
        (Binary64.round generatedTokens)
      drawn := drawn
      ledger := Function.update s.ledger b
        (standing s b ++ [newCharge s id promptTokens generatedTokens]) }
    BucketDead s' b' ∨ BucketLive s' b' := by
  intro s'
  by_cases hb : b' = b
  · subst hb
    refine .inr ⟨s.now + reservationTtlMs, fun d => ?_, fun c hc => ?_⟩
    · have hamount : Binary64.round (amount promptTokens generatedTokens d) =
          (amount promptTokens generatedTokens d : Int) := by
        refine Binary64.round_of_lt (by omega) ?_
        cases d
        · show ((1 : Nat) : Int) < _
          decide
        · show (promptTokens : Int) < _
          omega
        · show (generatedTokens : Int) < _
          omega
      show (chargeCounters _ _ _ _ _ _ _).live s.now _ = _
      rw [live_chargeCounters, hI.counter_standing, increment_eq, hamount]
      simp [s', newCharge_weight]
    · rcases mem_admitted hc with hold | ⟨_, rfl⟩
      · exact hI.horizon hold
      · exact Nat.le_refl _
  · have hkeys : ∀ d, s'.db.counters.live s'.now (keyOf b' d) =
        s.db.counters.live s.now (keyOf b' d) :=
      fun d => live_chargeCounters_ne _ _ _ (by simp [hb])
    have hsame : s'.ledger b' = s.ledger b' := Function.update_of_ne hb _ _
    rcases hI.bucket b' with ⟨hnone, hold⟩ | ⟨deadline, hlive, hold⟩
    · exact .inl ⟨fun d => (hkeys d).trans (hnone d), by rwa [hsame]⟩
    · refine .inr ⟨deadline, fun d => ?_, by rwa [hsame]⟩
      rw [hkeys d, hlive d, hsame]

theorem admitted_ids {limits : QuotaLimits} {s : QuotaState}
    (hI : Conserved limits s) {b : Bucket} {id : String}
    (hfresh : id ∉ s.drawn) (promptTokens generatedTokens : Nat)
    (b' : Bucket) :
    ((Function.update s.ledger b (standing s b ++
      [newCharge s id promptTokens generatedTokens]) b').map (·.id)).Nodup := by
  by_cases hb : b' = b
  · subst hb
    have hst : ((standing s b').map (·.id)).Nodup := by
      unfold standing
      split
      · exact List.nodup_nil
      · exact hI.ids b'
    simp only [Function.update_self, List.map_append, List.map_cons,
      List.map_nil]
    refine List.nodup_append.mpr ⟨hst, List.nodup_singleton _, ?_⟩
    intro x hx y hy
    obtain ⟨c, hc, rfl⟩ := List.mem_map.mp hx
    rw [List.mem_singleton.mp hy]
    intro hid
    apply hfresh
    rw [show id = c.id from hid.symm]
    exact hI.drawn (standing_subset hc)
  · simpa [hb] using hI.ids b'

/-- The bucket of an open charge exists, so a reserve drops nothing from
it. -/
theorem open_admitted {limits : QuotaLimits} {s : QuotaState}
    (hI : Conserved limits s) {b b' : Bucket} {c x : Charge}
    (hc : c ∈ s.ledger b') (hopen : c.Open s.now) :
    c ∈ Function.update s.ledger b (standing s b ++ [x]) b' := by
  by_cases hb : b' = b
  · subst hb
    obtain ⟨deadline, hlive, _⟩ := hI.live_of_open hc hopen
    have hstanding : standing s b' = s.ledger b' := by
      simp [standing, Keyspace.get, hlive]
    simp [hstanding, hc]
  · simp [hb, hc]

theorem reserve_conserved {limits : QuotaLimits} {s : QuotaState}
    (hI : Conserved limits s) {b : Bucket} {id : String}
    (hfresh : id ∉ s.drawn) {promptTokens generatedTokens : Nat}
    (hp : promptTokens < Binary64.bound) (hg : generatedTokens < Binary64.bound)
    (hle : ∀ d, total d (standing s b) +
      amount promptTokens generatedTokens d ≤ limitOf limits d) :
    Conserved limits
      { s with
        db := admittedDb s.db s.now b id (Binary64.round promptTokens)
          (Binary64.round generatedTokens)
        drawn := id :: s.drawn
        ledger := Function.update s.ledger b
          (standing s b ++ [newCharge s id promptTokens generatedTokens]) } := by
  have hself : (admittedDb s.db s.now b id (Binary64.round promptTokens)
      (Binary64.round generatedTokens)).reservations.live s.now id =
      some ⟨reservedHash (s.db.reservations.get s.now id) (keyOf b .requests)
        (keyOf b .prompt) (keyOf b .generated) (Binary64.round promptTokens)
        (Binary64.round generatedTokens), some (s.now + reservationTtlMs)⟩ := by
    simp [admittedDb, Timed.alive, reservationTtlMs]
  have hapart : ∀ {b' c}, c ∈ s.ledger b' → c.id ≠ id := by
    rintro b' c hc rfl
    exact hfresh (hI.drawn hc)
  exact
    { bucket := admit_bucket hI hp hg _
      within := by
        intro b' d
        by_cases hb : b' = b
        · subst hb
          simpa [newCharge_weight] using hle d
        · simpa [hb] using hI.within b' d
      horizon := by
        intro b' c hc
        rcases mem_admitted hc with hold | ⟨_, rfl⟩
        · exact hI.horizon hold
        · exact Nat.le_refl _
      drawn := by
        intro b' c hc
        rcases mem_admitted hc with hold | ⟨_, rfl⟩
        · exact List.mem_cons_of_mem _ (hI.drawn hold)
        · exact List.mem_cons_self
      ids := admitted_ids hI hfresh promptTokens generatedTokens
      apart := by
        intro b₁ b₂ x y hx hy hid
        rcases mem_admitted hx with hx' | ⟨rfl, rfl⟩ <;>
          rcases mem_admitted hy with hy' | ⟨rfl, rfl⟩
        · exact hI.apart hx' hy' hid
        · exact absurd hid (hapart hx')
        · exact absurd hid.symm (hapart hy')
        · rfl
      backed := by
        intro b' c hc hlt
        rcases mem_admitted hc with hold | ⟨rfl, rfl⟩
        · obtain ⟨r, hr, hd⟩ := hI.backed hold hlt
          exact ⟨r, (live_admittedDb_ne _ _ (hapart hold)).trans hr, hd⟩
        · refine ⟨_, hself, rfl, rfl, rfl, rfl, ?_, ?_⟩
          · exact congrArg some (Binary64.round_of_lt (by omega) (by omega))
          · exact congrArg some (Binary64.round_of_lt (by omega) (by omega))
      known := by
        intro i cell hcell
        by_cases hi : i = id
        · exact hi ▸ List.mem_cons_self
        · exact List.mem_cons_of_mem _
            (hI.known ((live_admittedDb_ne _ _ hi).symm.trans hcell))
      charged := by
        intro i h
        by_cases hi : i = id
        · refine ⟨b, newCharge s id promptTokens generatedTokens, by simp,
            hi.symm, rfl, ?_⟩
          show s.now < s.now + reservationTtlMs
          simp [reservationTtlMs]
        · rw [isReserved_admittedDb_ne _ _ hi] at h
          obtain ⟨b', c, hc, hid, hopen⟩ := hI.charged h
          exact ⟨b', c, open_admitted hI hc hopen, hid, hopen⟩
      once := hI.once
      settled := by
        intro i hi
        obtain ⟨hdrawn, hold⟩ := hI.settled i hi
        have hne : i ≠ id := by
          rintro rfl
          exact hfresh hdrawn
        refine ⟨List.mem_cons_of_mem _ hdrawn, ?_⟩
        rw [isReserved_admittedDb_ne _ _ hne]
        exact hold }

/-- A refused reserve only used up an id. -/
theorem refused_conserved {limits : QuotaLimits} {s : QuotaState}
    (hI : Conserved limits s) (id : String) :
    Conserved limits { s with drawn := id :: s.drawn } where
  bucket := hI.bucket
  within := hI.within
  horizon := hI.horizon
  drawn hc := List.mem_cons_of_mem _ (hI.drawn hc)
  ids := hI.ids
  apart := hI.apart
  backed := hI.backed
  known h := List.mem_cons_of_mem _ (hI.known h)
  charged := hI.charged
  once := hI.once
  settled i hi := ⟨List.mem_cons_of_mem _ (hI.settled i hi).1, (hI.settled i hi).2⟩

theorem quotaStep_conserved {sha256 : String → String} {limits : QuotaLimits}
    (hl : Exact limits) {s t : QuotaState} {l : QuotaCall}
    (hI : Conserved limits s) (h : quotaStep sha256 limits s l = some t) :
    Conserved limits t := by
  cases l with
  | tick ms =>
      injection h with h
      subst h
      exact tick_conserved ms hI
  | reconcile id actual =>
      injection h with h
      subst h
      exact reconcile_conserved hl hI id actual
  | cancel id =>
      injection h with h
      subst h
      exact cancel_conserved hl hI id
  | reserve id apiKey unixMs promptTokens generatedTokens =>
      simp only [quotaStep] at h
      split at h
      · cases h
      · next hfresh =>
          split at h
          · next q db hq =>
              obtain ⟨htests, rfl⟩ := reserveQuota_ok hq
              injection h with h
              subst h
              have hle := fun d => hI.admitted_le hl (htests d)
              have hp := lt_of_le_of_lt (hle .prompt) (hl .prompt)
              have hg := lt_of_le_of_lt (hle .generated) (hl .generated)
              simp only [amount] at hp hg
              have hadmit := admit_eq s (sha256 apiKey, unixMs / 60000)
                (newCharge s id promptTokens generatedTokens)
              have := reserve_conserved hI hfresh (by omega) (by omega) hle
              rw [← hadmit] at this
              exact this
          · next e db hq =>
              rw [reserveQuota_error hq] at h
              injection h with h
              subst h
              exact refused_conserved hI id

/-! ## Conservation -/

/-- A settling call. -/
def QuotaCall.settles : QuotaCall → Prop
  | .reconcile _ _ => True
  | .cancel _ => True
  | _ => False

theorem Conserved.counter {limits : QuotaLimits} {s : QuotaState}
    (hI : Conserved limits s) {b : Bucket} {d : Dimension} {v : Int}
    (h : s.db.counters.get s.now (keyOf b d) = some v) :
    v = total d (s.ledger b) := by
  rcases hI.bucket b with ⟨hnone, _⟩ | ⟨deadline, hlive, _⟩
  · rw [Keyspace.get, hnone d] at h
    cases h
  · rw [Keyspace.get, hlive d] at h
    simpa using h.symm

/-- The counters a reserved reservation points at are there. -/
theorem Conserved.counters_alive {limits : QuotaLimits} {s : QuotaState}
    (hI : Conserved limits s) {id : String} {r : Reservation} {k : CounterKey}
    (hr : s.db.reservations.get s.now id = some r)
    (hst : r.status = some .reserved)
    (hk : some k ∈ [r.requestsKey, r.promptKey, r.generatedKey]) :
    (s.db.counters.get s.now k).isSome := by
  have hres : isReserved s.db s.now id = true := by simp [isReserved, hr, hst]
  obtain ⟨b, c, hc, rfl, hopen⟩ := hI.charged hres
  obtain ⟨r', hr', hd, _⟩ := hI.reserved_hash hc hopen
  rw [hr] at hr'
  injection hr' with hr'
  subst hr'
  obtain ⟨deadline, hlive, _⟩ := hI.live_of_open hc hopen
  simp only [hd.requestsKey, hd.promptKey, hd.generatedKey, List.mem_cons,
    Option.some.injEq, List.not_mem_nil, or_false] at hk
  rcases hk with rfl | rfl | rfl <;> simp [Keyspace.get, hlive]

/-- A settlement changes no counter that does not exist. -/
theorem refunded_get_none {limits : QuotaLimits} {s : QuotaState}
    (hI : Conserved limits s) {b : Bucket} {c : Charge} (hc : c ∈ s.ledger b)
    (hopen : c.Open s.now) {o : Outcome} {counters' : Keyspace CounterKey Int}
    (href : Refunded s.db.counters counters' s.now b c o) {k : CounterKey}
    (hk : s.db.counters.get s.now k = none) : counters'.get s.now k = none := by
  obtain ⟨deadline, hlive, _⟩ := hI.live_of_open hc hopen
  have hother : ∀ d, k ≠ keyOf b d := by
    rintro d rfl
    rw [Keyspace.get, hlive d] at hk
    cases hk
  rw [Keyspace.get, href.other k hother]
  exact hk

theorem settles_get_none {sha256 : String → String} {limits : QuotaLimits}
    (hl : Exact limits) {s t : QuotaState} {l : QuotaCall} {k : CounterKey}
    (hI : Conserved limits s) (hset : QuotaCall.settles l)
    (h : quotaStep sha256 limits s l = some t)
    (hk : s.db.counters.get s.now k = none) :
    t.db.counters.get t.now k = none := by
  cases l with
  | tick | reserve => cases hset
  | reconcile id actual =>
      injection h with h
      subst h
      dsimp only
      cases hres : isReserved s.db s.now id with
      | false => rw [reconcileQuota_idle hres]; exact hk
      | true =>
          obtain ⟨b, c, hc, rfl, hopen⟩ := hI.charged hres
          obtain ⟨r, hr, hd, hst⟩ := hI.reserved_hash hc hopen
          obtain ⟨refund, hrefund, hdb⟩ := reconcileQuota_reserved hr hst actual
          rw [hdb]
          exact refunded_get_none hI hc hopen
            (refunded_generated hl hI hc hopen hd hrefund) hk
  | cancel id =>
      injection h with h
      subst h
      dsimp only
      cases hres : isReserved s.db s.now id with
      | false => rw [cancelQuota_idle hres]; exact hk
      | true =>
          obtain ⟨b, c, hc, rfl, hopen⟩ := hI.charged hres
          obtain ⟨r, hr, hd, hst⟩ := hI.reserved_hash hc hopen
          rw [cancelQuota_reserved hr hst]
          exact refunded_get_none hI hc hopen
            (refunded_all hl hI hc hopen hd) hk

/-- In every state a run of quota calls reaches, a counter that exists reads
what the ledger of its bucket says, between zero and the limit; every
reservation was settled at most once; the counters a live reservation names
are alive; and no settlement brings a counter into existence. -/
theorem quota_conserved (sha256 : String → String) (limits : QuotaLimits)
    (hl : Exact limits) (start : Nat) (s : QuotaState)
    (h : Run (quotaStep sha256 limits) (fun _ _ => True) (.empty start) s) :
    (∀ apiKey bucket d v,
      s.db.counters.get s.now (counterKey sha256 apiKey bucket d) = some v →
      v = total d (s.ledger (sha256 apiKey, bucket)) ∧ 0 ≤ v ∧
        v ≤ limitOf limits d) ∧
    s.settlements.Nodup ∧
    (∀ id r k, s.db.reservations.get s.now id = some r →
      r.status = some .reserved →
      some k ∈ [r.requestsKey, r.promptKey, r.generatedKey] →
      (s.db.counters.get s.now k).isSome) ∧
    (∀ l t k, QuotaCall.settles l → quotaStep sha256 limits s l = some t →
      s.db.counters.get s.now k = none → t.db.counters.get t.now k = none) := by
  have hI : Conserved limits s := h.invariant (conserved_empty limits start)
    fun hI _ hstep => quotaStep_conserved hl hI hstep
  refine ⟨?_, hI.once, ?_, ?_⟩
  · intro apiKey bucket d v hv
    have hval := hI.counter (b := (sha256 apiKey, bucket)) hv
    have hle := hI.within (sha256 apiKey, bucket) d
    exact ⟨hval, by omega, by omega⟩
  · intro id r k hr hst hk
    exact hI.counters_alive hr hst hk
  · intro l t k hset hstep hk
    exact settles_get_none hl hI hset hstep hk

/-- Two reservations of one key in one minute: the second is settled twice,
the first expires unsettled and is cancelled too late. Its hundred tokens stay
charged for as long as the second reservation keeps the counters alive. -/
def lateCancel : List QuotaCall :=
  [.reserve "a" "key" 0 10 100, .tick 60000, .reserve "b" "key" 0 5 50,
    .reconcile "b" 25, .reconcile "b" 10, .cancel "b", .tick 60000, .cancel "a"]

theorem quota_conserved_lateCancel :
    Exact ⟨10, 100, 1000⟩ ∧ ∃ s : QuotaState,
      Run (quotaStep id ⟨10, 100, 1000⟩) (fun _ _ => True) (.empty 0) s ∧
      s.db.counters.get s.now (counterKey id "key" 0 .generated) = some 125 ∧
      total .generated (s.ledger ("key", 0)) = 125 ∧
      s.settlements.Nodup := by
  have hl : Exact ⟨10, 100, 1000⟩ := by intro d; cases d <;> decide
  obtain ⟨s, hrun, hs⟩ := run_of_exec_map
    (quotaStep id ⟨10, 100, 1000⟩) (fun _ _ => True) (fun _ _ => true)
    (.empty 0) lateCancel
    (fun s => s.db.counters.get s.now (counterKey id "key" 0 .generated))
    (b := some 125) (fun _ _ _ => trivial) (by decide)
  obtain ⟨hcounters, honce, _⟩ :=
    quota_conserved id ⟨10, 100, 1000⟩ hl 0 s hrun
  have hval := (hcounters "key" 0 .generated 125 hs).1
  exact ⟨hl, s, hrun, hs, by exact_mod_cast hval.symm, honce⟩

end DataPlane.Proofs
