import DataPlane.Lib.Machine
import DataPlane.Proofs.QuotaScripts

/-!
# One key's quota is nobody else's business

The broker serves the calls of all API keys from one keyspace, and the refund
scripts take the keys they write to from data. What keeps the tenants apart
is that a key's counters carry the digest of the key in their names, and that
a reservation hash only ever names counters of the key that made it.

The argument is an unwinding. The state of the shared broker is compared with
the state of a broker that only this key uses: they hold the same cells under
the key's counters and under its reservation ids, dead cells included, so it
does not matter when a call is made or what has expired by then. A call of
the key itself reads and writes only these cells; a call of another key writes
none of them.
-/

namespace DataPlane.Proofs

open DataPlane.Lib DataPlane.Ref DataPlane.Spec

/-- What a call asks for. -/
inductive QuotaOp
  | reserve (limits : QuotaLimits) (unixMs promptTokens generatedTokens : Nat)
  | reconcile (actual : Nat)
  | cancel
  deriving DecidableEq, Repr

/-- A call to the shared broker: when it arrives, on whose behalf, the
reservation it draws or settles, and what is to be done. -/
structure KeyCall where
  now : Nat
  apiKey : String
  id : String
  op : QuotaOp
  deriving DecidableEq, Repr

/-- What the caller is told. -/
inductive QuotaAnswer
  | reserved (result : Except QuotaError QuotaReservation)
  | refunded (amount : Nat)
  | cancelled
  deriving DecidableEq

/-- The broker serving one call. -/
def serve (sha256 : String → String) (db : QuotaDb) (c : KeyCall) :
    QuotaAnswer × QuotaDb :=
  match c.op with
  | .reserve limits unixMs promptTokens generatedTokens =>
      let (result, db) := reserveQuota sha256 limits db c.now c.id unixMs
        c.apiKey promptTokens generatedTokens
      (.reserved result, db)
  | .reconcile actual =>
      let (amount, db) := reconcileQuota db c.now c.id actual
      (.refunded amount, db)
  | .cancel => (.cancelled, cancelQuota db c.now c.id)

/-! ## Frames of the commands and the scripts

`S` is a set of counter keys, `M` one of reservation ids. -/

section Frames

variable {S : Set CounterKey} {M : Set String}
  {m m' : Keyspace CounterKey Int} {db db' : QuotaDb} {now : Nat}

theorem eqOn_incrBy (h : Set.EqOn m m' S) {k : CounterKey} (hk : k ∈ S)
    (now : Nat) (n : Int) :
    Set.EqOn (incrBy m now k n) (incrBy m' now k n) S := by
  unfold incrBy
  rw [Keyspace.get_eqOn h hk]
  exact Keyspace.eqOn_put h hk now _

theorem eqOn_decrBy (h : Set.EqOn m m' S) {k : CounterKey} (hk : k ∈ S)
    (now : Nat) (n : Int) :
    Set.EqOn (decrBy m now k n) (decrBy m' now k n) S := by
  unfold decrBy
  rw [Keyspace.get_eqOn h hk]
  exact Keyspace.eqOn_put h hk now _

theorem incrBy_eqOn {k : CounterKey} (hk : k ∉ S) (n : Int) :
    Set.EqOn (incrBy m now k n) m S := Keyspace.put_eqOn m now _ hk

theorem decrBy_eqOn {k : CounterKey} (hk : k ∉ S) (n : Int) :
    Set.EqOn (decrBy m now k n) m S := Keyspace.put_eqOn m now _ hk

theorem eqOn_chargeCounters (h : Set.EqOn m m' S) {k₁ k₂ k₃ : CounterKey}
    (h₁ : k₁ ∈ S) (h₂ : k₂ ∈ S) (h₃ : k₃ ∈ S) (prompt generated : Int) :
    Set.EqOn (chargeCounters m now k₁ k₂ k₃ prompt generated)
      (chargeCounters m' now k₁ k₂ k₃ prompt generated) S := by
  have hadd := eqOn_incrBy (eqOn_incrBy (eqOn_incrBy h h₁ now 1) h₂ now prompt)
    h₃ now generated
  exact Keyspace.eqOn_expire (Keyspace.eqOn_expire
    (Keyspace.eqOn_expire hadd h₁ now _) h₂ now _) h₃ now _

theorem chargeCounters_eqOn {k₁ k₂ k₃ : CounterKey} (h₁ : k₁ ∉ S)
    (h₂ : k₂ ∉ S) (h₃ : k₃ ∉ S) (prompt generated : Int) :
    Set.EqOn (chargeCounters m now k₁ k₂ k₃ prompt generated) m S := by
  unfold chargeCounters
  exact (Keyspace.expire_eqOn _ now _ h₃).trans
    ((Keyspace.expire_eqOn _ now _ h₂).trans
      ((Keyspace.expire_eqOn _ now _ h₁).trans
        ((incrBy_eqOn h₃ _).trans ((incrBy_eqOn h₂ _).trans
          (incrBy_eqOn h₁ _)))))

/-- The counter keys a hash names. -/
def Names (r : Reservation) (k : CounterKey) : Prop :=
  r.requestsKey = some k ∨ r.promptKey = some k ∨ r.generatedKey = some k

theorem eqOn_refundGenerated (h : Set.EqOn m m' S) {k : Option CounterKey}
    (hk : ∀ k', k = some k' → k' ∈ S) (refund : Int) :
    Set.EqOn (refundGenerated m now k refund) (refundGenerated m' now k refund)
      S := by
  unfold refundGenerated
  cases k with
  | none => exact h
  | some k =>
      dsimp only
      split
      · exact eqOn_decrBy h (hk k rfl) now refund
      · exact h

theorem refundGenerated_eqOn {k : Option CounterKey}
    (hk : ∀ k', k = some k' → k' ∉ S) (refund : Int) :
    Set.EqOn (refundGenerated m now k refund) m S := by
  unfold refundGenerated
  cases k with
  | none => exact fun _ _ => rfl
  | some k =>
      dsimp only
      split
      · exact decrBy_eqOn (hk k rfl) refund
      · exact fun _ _ => rfl

/-- One of the three refunds of a cancel. -/
def refundKey (m : Keyspace CounterKey Int) (now : Nat)
    (k : Option CounterKey) (n : Int) : Keyspace CounterKey Int :=
  match k with
  | some k => decrBy m now k n
  | none => m

theorem refundAll_eq (m : Keyspace CounterKey Int) (now : Nat)
    (r : Reservation) (prompt generated : Int) :
    refundAll m now r prompt generated =
      refundKey (refundKey (refundKey m now r.requestsKey 1) now r.promptKey
        prompt) now r.generatedKey generated := rfl

theorem eqOn_refundKey (h : Set.EqOn m m' S) {k : Option CounterKey}
    (hk : ∀ k', k = some k' → k' ∈ S) (n : Int) :
    Set.EqOn (refundKey m now k n) (refundKey m' now k n) S := by
  cases k with
  | none => exact h
  | some k => exact eqOn_decrBy h (hk k rfl) now n

theorem refundKey_eqOn {k : Option CounterKey}
    (hk : ∀ k', k = some k' → k' ∉ S) (n : Int) :
    Set.EqOn (refundKey m now k n) m S := by
  cases k with
  | none => exact fun _ _ => rfl
  | some k => exact decrBy_eqOn (hk k rfl) n

/-- The two keyspaces hold the same cells under the keys of one tenant. -/
structure Agree (S : Set CounterKey) (M : Set String) (db db' : QuotaDb) :
    Prop where
  counters : Set.EqOn db.counters db'.counters S
  reservations : Set.EqOn db.reservations db'.reservations M

/-- Every hash names counters of its own side only. -/
def Named (S : Set CounterKey) (M : Set String) (db : QuotaDb) : Prop :=
  Keyspace.All (fun id r => ∀ k, Names r k → (k ∈ S ↔ id ∈ M))
    db.reservations

/-! A reserve. Its effect and its reply are a function of the cells under the
four keys it is given. -/

variable {k₁ k₂ k₃ : CounterKey} {id : String} {limits : QuotaLimits}
  {p g : Nat}

theorem reserveQuotaLua_agree (now : Nat) (limits : QuotaLimits) (p g : Nat)
    (h : Agree S M db db') (h₁ : k₁ ∈ S) (h₂ : k₂ ∈ S) (h₃ : k₃ ∈ S)
    (hid : id ∈ M) :
    (reserveQuotaLua db now k₁ k₂ k₃ id p g limits).1 =
        (reserveQuotaLua db' now k₁ k₂ k₃ id p g limits).1 ∧
      Agree S M (reserveQuotaLua db now k₁ k₂ k₃ id p g limits).2
        (reserveQuotaLua db' now k₁ k₂ k₃ id p g limits).2 := by
  have hread : ∀ k ∈ S, readCounter db now k = readCounter db' now k := by
    intro k hk
    unfold readCounter
    rw [Keyspace.get_eqOn h.counters hk]
  unfold reserveQuotaLua
  dsimp only
  rw [hread k₁ h₁, hread k₂ h₂, hread k₃ h₃]
  split_ifs
  · exact ⟨rfl, h⟩
  · exact ⟨rfl, h⟩
  · exact ⟨rfl, h⟩
  · refine ⟨rfl, eqOn_chargeCounters h.counters h₁ h₂ h₃ _ _, ?_⟩
    rw [Keyspace.get_eqOn h.reservations hid]
    exact Keyspace.eqOn_expire
      (Keyspace.eqOn_put h.reservations hid now _) hid now _

theorem reserveQuotaLua_frame (db : QuotaDb) (h₁ : k₁ ∉ S) (h₂ : k₂ ∉ S)
    (h₃ : k₃ ∉ S) (hid : id ∉ M) :
    Agree S M (reserveQuotaLua db now k₁ k₂ k₃ id p g limits).2 db := by
  unfold reserveQuotaLua
  dsimp only
  split_ifs
  · exact ⟨fun _ _ => rfl, fun _ _ => rfl⟩
  · exact ⟨fun _ _ => rfl, fun _ _ => rfl⟩
  · exact ⟨fun _ _ => rfl, fun _ _ => rfl⟩
  · exact ⟨chargeCounters_eqOn h₁ h₂ h₃ _ _,
      (Keyspace.expire_eqOn _ now _ hid).trans
        (Keyspace.put_eqOn _ now _ hid)⟩

theorem reserveQuotaLua_named (h : Named S M db) (h₁ : k₁ ∈ S ↔ id ∈ M)
    (h₂ : k₂ ∈ S ↔ id ∈ M) (h₃ : k₃ ∈ S ↔ id ∈ M) :
    Named S M (reserveQuotaLua db now k₁ k₂ k₃ id p g limits).2 := by
  unfold reserveQuotaLua
  dsimp only
  split_ifs
  · exact h
  · exact h
  · exact h
  · refine Keyspace.All.expire (Keyspace.All.put h now ?_) now id _
    rintro k (hk | hk | hk)
    · cases hk; exact h₁
    · cases hk; exact h₂
    · cases hk; exact h₃

/-! A settlement finds its keys in the hash. -/

theorem reconcileQuotaLua_agree (now : Nat) (h : Agree S M db db')
    (hn : Named S M db) (hid : id ∈ M) (actual : Nat) :
    (reconcileQuotaLua db now id actual).1 =
        (reconcileQuotaLua db' now id actual).1 ∧
      Agree S M (reconcileQuotaLua db now id actual).2
        (reconcileQuotaLua db' now id actual).2 := by
  unfold reconcileQuotaLua
  rw [← Keyspace.get_eqOn h.reservations hid]
  cases hr : db.reservations.get now id with
  | none => exact ⟨rfl, h⟩
  | some r =>
      dsimp only
      split_ifs
      · exact ⟨rfl, h⟩
      · refine ⟨rfl, eqOn_refundGenerated h.counters ?_ _,
          Keyspace.eqOn_put h.reservations hid now _⟩
        intro k hk
        exact (hn.get hr k (.inr (.inr hk))).mpr hid

theorem reconcileQuotaLua_frame (hn : Named S M db) (hid : id ∉ M)
    (actual : Nat) : Agree S M (reconcileQuotaLua db now id actual).2 db := by
  unfold reconcileQuotaLua
  cases hr : db.reservations.get now id with
  | none => exact ⟨fun _ _ => rfl, fun _ _ => rfl⟩
  | some r =>
      dsimp only
      split_ifs
      · exact ⟨fun _ _ => rfl, fun _ _ => rfl⟩
      · refine ⟨refundGenerated_eqOn ?_ _, Keyspace.put_eqOn _ now _ hid⟩
        intro k hk hS
        exact hid ((hn.get hr k (.inr (.inr hk))).mp hS)

theorem reconcileQuotaLua_named (hn : Named S M db) (id : String)
    (actual : Nat) : Named S M (reconcileQuotaLua db now id actual).2 := by
  unfold reconcileQuotaLua
  cases hr : db.reservations.get now id with
  | none => exact hn
  | some r =>
      dsimp only
      split_ifs
      · exact hn
      · exact Keyspace.All.put hn now fun k hk => hn.get hr k hk

theorem cancelQuotaLua_agree (h : Agree S M db db') (hn : Named S M db)
    (hid : id ∈ M) :
    Agree S M (cancelQuotaLua db now id).2 (cancelQuotaLua db' now id).2 := by
  unfold cancelQuotaLua
  rw [← Keyspace.get_eqOn h.reservations hid]
  cases hr : db.reservations.get now id with
  | none => exact h
  | some r =>
      have hS : ∀ k, Names r k → k ∈ S := fun k hk => (hn.get hr k hk).mpr hid
      dsimp only
      split_ifs
      · exact h
      · refine ⟨?_, Keyspace.eqOn_put h.reservations hid now _⟩
        simp only [refundAll_eq]
        refine eqOn_refundKey (eqOn_refundKey (eqOn_refundKey h.counters ?_ _)
          ?_ _) ?_ _
        · exact fun k hk => hS k (.inl hk)
        · exact fun k hk => hS k (.inr (.inl hk))
        · exact fun k hk => hS k (.inr (.inr hk))

theorem cancelQuotaLua_frame (hn : Named S M db) (hid : id ∉ M) :
    Agree S M (cancelQuotaLua db now id).2 db := by
  unfold cancelQuotaLua
  cases hr : db.reservations.get now id with
  | none => exact ⟨fun _ _ => rfl, fun _ _ => rfl⟩
  | some r =>
      have hS : ∀ k, Names r k → k ∉ S :=
        fun k hk hk' => hid ((hn.get hr k hk).mp hk')
      dsimp only
      split_ifs
      · exact ⟨fun _ _ => rfl, fun _ _ => rfl⟩
      · refine ⟨?_, Keyspace.put_eqOn _ now _ hid⟩
        simp only [refundAll_eq]
        refine (refundKey_eqOn ?_ _).trans
          ((refundKey_eqOn ?_ _).trans (refundKey_eqOn ?_ _))
        · exact fun k hk => hS k (.inr (.inr hk))
        · exact fun k hk => hS k (.inr (.inl hk))
        · exact fun k hk => hS k (.inl hk)

theorem cancelQuotaLua_named (hn : Named S M db) (id : String) :
    Named S M (cancelQuotaLua db now id).2 := by
  unfold cancelQuotaLua
  cases hr : db.reservations.get now id with
  | none => exact hn
  | some r =>
      dsimp only
      split_ifs
      · exact hn
      · exact Keyspace.All.put hn now fun k hk => hn.get hr k hk

end Frames

/-! ## A call of the key and a call of another -/

section Calls

variable {sha256 : String → String} {S : Set CounterKey} {M : Set String}
  {db db' : QuotaDb} {c : KeyCall}

/-- The call is on the side of the tenant in everything it names, or in
nothing. -/
def OneSided (sha256 : String → String) (S : Set CounterKey)
    (M : Set String) (c : KeyCall) : Prop :=
  ∀ bucket d, counterKey sha256 c.apiKey bucket d ∈ S ↔ c.id ∈ M

/-- The script a reserve runs. -/
def reserveScript (sha256 : String → String) (limits : QuotaLimits)
    (db : QuotaDb) (now : Nat) (id : String) (unixMs : Nat) (apiKey : String)
    (p g : Nat) : List Int × QuotaDb :=
  reserveQuotaLua db now (counterKey sha256 apiKey (unixMs / 60000) .requests)
    (counterKey sha256 apiKey (unixMs / 60000) .prompt)
    (counterKey sha256 apiKey (unixMs / 60000) .generated) id p g limits

theorem reserveQuota_snd (limits : QuotaLimits) (db : QuotaDb) (now : Nat)
    (id : String) (unixMs : Nat) (apiKey : String) (p g : Nat) :
    (reserveQuota sha256 limits db now id unixMs apiKey p g).2 =
      (reserveScript sha256 limits db now id unixMs apiKey p g).2 := by
  unfold reserveQuota reserveScript
  dsimp only
  split <;> rfl

/-- What the caller is told of a reserve is read off the script's reply. -/
theorem reserveQuota_fst_congr {limits : QuotaLimits} {now : Nat}
    {id apiKey : String} {unixMs p g : Nat}
    (h : (reserveScript sha256 limits db now id unixMs apiKey p g).1 =
      (reserveScript sha256 limits db' now id unixMs apiKey p g).1) :
    (reserveQuota sha256 limits db now id unixMs apiKey p g).1 =
      (reserveQuota sha256 limits db' now id unixMs apiKey p g).1 := by
  unfold reserveScript at h
  unfold reserveQuota
  dsimp only
  rw [h]
  split <;> rfl

theorem serve_agree (h : Agree S M db db') (hn : Named S M db)
    (hside : OneSided sha256 S M c) (hid : c.id ∈ M) :
    (serve sha256 db c).1 = (serve sha256 db' c).1 ∧
      Agree S M (serve sha256 db c).2 (serve sha256 db' c).2 := by
  unfold serve
  cases c.op with
  | reserve limits unixMs p g =>
      obtain ⟨heq, hag⟩ := reserveQuotaLua_agree c.now limits p g h
        ((hside (unixMs / 60000) .requests).mpr hid)
        ((hside (unixMs / 60000) .prompt).mpr hid)
        ((hside (unixMs / 60000) .generated).mpr hid) hid
      refine ⟨congrArg QuotaAnswer.reserved (reserveQuota_fst_congr heq), ?_⟩
      simp only [reserveQuota_snd]
      exact hag
  | reconcile actual =>
      obtain ⟨heq, hag⟩ := reconcileQuotaLua_agree c.now h hn hid actual
      simp only [reconcileQuota]
      exact ⟨by rw [heq], hag⟩
  | cancel => exact ⟨rfl, cancelQuotaLua_agree h hn hid⟩

theorem serve_frame (hn : Named S M db) (hside : OneSided sha256 S M c)
    (hid : c.id ∉ M) : Agree S M (serve sha256 db c).2 db := by
  unfold serve
  cases c.op with
  | reserve limits unixMs p g =>
      simp only [reserveQuota_snd]
      exact reserveQuotaLua_frame db
        (fun hk => hid ((hside _ _).mp hk)) (fun hk => hid ((hside _ _).mp hk))
        (fun hk => hid ((hside _ _).mp hk)) hid
  | reconcile actual => exact reconcileQuotaLua_frame hn hid actual
  | cancel => exact cancelQuotaLua_frame hn hid

theorem serve_named (hn : Named S M db) (hside : OneSided sha256 S M c) :
    Named S M (serve sha256 db c).2 := by
  unfold serve
  cases c.op with
  | reserve limits unixMs p g =>
      simp only [reserveQuota_snd]
      exact reserveQuotaLua_named hn (hside _ _) (hside _ _) (hside _ _)
  | reconcile actual => exact reconcileQuotaLua_named hn c.id actual
  | cancel => exact cancelQuotaLua_named hn c.id

end Calls

/-! ## Whole traces -/

/-- The calls of a trace that are made for one API key. -/
def madeBy (apiKey : String) (c : KeyCall) : Bool := c.apiKey = apiKey

/-- The counters of an API key, in every minute. -/
def countersOf (sha256 : String → String) (apiKey : String) : Set CounterKey :=
  {k | k.keyHash = sha256 apiKey}

/-- The reservation ids an API key uses in a trace. -/
def idsOf (calls : List KeyCall) (apiKey : String) : Set String :=
  {id | ∃ c ∈ calls, c.id = id ∧ c.apiKey = apiKey}

theorem mem_idsOf {calls : List KeyCall} {apiKey : String}
    (hids : ∀ c ∈ calls, ∀ c' ∈ calls, c.id = c'.id → c.apiKey = c'.apiKey)
    {c : KeyCall} (hc : c ∈ calls) :
    c.id ∈ idsOf calls apiKey ↔ c.apiKey = apiKey := by
  constructor
  · rintro ⟨c', hc', hid, hkey⟩
    rw [← hkey]
    exact hids c hc c' hc' hid.symm
  · intro hkey
    exact ⟨c, hc, rfl, hkey⟩

/-- For every trace of timed quota calls in which digests do not collide and
every reservation id is used by one key only, and for every API key, the
answers to the key's calls are the answers it gets in the trace without the
calls of all other keys. Limits and amounts are arbitrary, and counters have no
bounds here: that the server refuses what does not fit into 64 bits is left
out. -/
theorem quota_isolation (sha256 : String → String) (calls : List KeyCall)
    (apiKey : String)
    (hhash : ∀ c ∈ calls, sha256 c.apiKey = sha256 apiKey →
      c.apiKey = apiKey)
    (hids : ∀ c ∈ calls, ∀ c' ∈ calls, c.id = c'.id → c.apiKey = c'.apiKey) :
    answersTo (madeBy apiKey) (serve sha256) QuotaDb.empty calls =
      answers (serve sha256) QuotaDb.empty (calls.filter (madeBy apiKey)) := by
  -- The relation of the unwinding: same cells on the tenant's side, and in
  -- the shared keyspace no hash that names counters of the other side.
  refine answersTo_eq_filter
    (fun db db' =>
      Agree (countersOf sha256 apiKey) (idsOf calls apiKey) db db' ∧
        Named (countersOf sha256 apiKey) (idsOf calls apiKey) db)
    (· ∈ calls) ?_ ?_ ?_ (fun _ hc => hc)
  · intro db db' c hmine hc hR
    have hid := (mem_idsOf hids hc).mpr (of_decide_eq_true hmine)
    have hside : OneSided sha256 (countersOf sha256 apiKey)
        (idsOf calls apiKey) c := by
      intro bucket d
      refine ⟨fun _ => hid, fun _ => ?_⟩
      show sha256 c.apiKey = sha256 apiKey
      rw [of_decide_eq_true hmine]
    obtain ⟨heq, hag⟩ := serve_agree hR.1 hR.2 hside hid
    exact ⟨heq, hag, serve_named hR.2 hside⟩
  · intro db db' c hother hc hR
    have hne : c.apiKey ≠ apiKey := of_decide_eq_false hother
    have hid : c.id ∉ idsOf calls apiKey :=
      fun hid => hne ((mem_idsOf hids hc).mp hid)
    have hside : OneSided sha256 (countersOf sha256 apiKey)
        (idsOf calls apiKey) c := by
      intro bucket d
      exact ⟨fun hk => absurd (hhash c hc hk) hne, fun hk => absurd hk hid⟩
    have hframe := serve_frame hR.2 hside hid
    exact ⟨⟨hframe.counters.trans hR.1.counters,
      hframe.reservations.trans hR.1.reservations⟩, serve_named hR.2 hside⟩
  · refine ⟨⟨fun _ _ => rfl, fun _ _ => rfl⟩, ?_⟩
    intro id c hc
    cases hc

/-- Two keys with a limit of one request a minute. The second one settles its
own reservation and is refused another, the first is refused as if it were
alone, and after two minutes the minute's counters are gone for both. -/
def twoTenants : List KeyCall :=
  [⟨0, "alpha", "a", .reserve ⟨1, 100, 100⟩ 0 10 40⟩,
    ⟨1, "beta", "b", .reserve ⟨1, 100, 100⟩ 0 20 90⟩,
    ⟨2, "beta", "b", .reconcile 30⟩,
    ⟨3, "beta", "c", .reserve ⟨1, 100, 100⟩ 0 1 1⟩,
    ⟨4, "alpha", "d", .reserve ⟨1, 100, 100⟩ 0 1 1⟩,
    ⟨5, "alpha", "a", .cancel⟩,
    ⟨120000, "beta", "e", .reserve ⟨1, 100, 100⟩ 0 1 1⟩,
    ⟨120005, "alpha", "f", .reserve ⟨1, 100, 100⟩ 0 60 60⟩]

theorem quota_isolation_twoTenants :
    answersTo (madeBy "alpha") (serve sampleDigest) QuotaDb.empty twoTenants =
        answers (serve sampleDigest) QuotaDb.empty
          (twoTenants.filter (madeBy "alpha")) ∧
      answers (serve sampleDigest) QuotaDb.empty
          (twoTenants.filter (madeBy "alpha")) =
        [.reserved (.ok ⟨"a", 0, 90, 60⟩), .reserved (.error .requests),
          .cancelled, .reserved (.ok ⟨"f", 0, 40, 40⟩)] :=
  ⟨quota_isolation sampleDigest twoTenants "alpha" (by decide) (by decide),
    by decide⟩

end DataPlane.Proofs
