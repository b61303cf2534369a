import DataPlane.Lib.Run
import DataPlane.Ref.Broker

/-!
# The lease belongs to its holder

The three lease calls by themselves, without the engines that make them: any
caller may make any of them at any time, with any owner string. An engine that
has lost its lease and does not know it yet is just such a caller, and what
protects the new holder is that a renewal and a release look at the owner
first.

Expiry is the passage of time, so the side condition of the main result is
about the clock: no tick takes it past the deadline the lease has when the
tick starts.
-/

namespace DataPlane.Proofs

open DataPlane.Lib DataPlane.Ref

/-- A lease call, or the passage of time. -/
inductive LeaseCall
  | acquire (requestId owner : String)
  | renew (requestId owner : String)
  | release (requestId owner : String)
  | tick (ms : Nat)
  deriving DecidableEq, Repr

/-- One call. An acquire the broker refuses as malformed changes nothing and
is no call. -/
def leaseStep (cfg : StreamsConfig) (b : Broker) : LeaseCall → Option Broker
  | .acquire requestId owner =>
      match b.acquireLease cfg requestId owner with
      | some (_, b) => some b
      | none => none
  | .renew requestId owner => some (b.renewLease cfg requestId owner).2
  | .release requestId owner => some (b.releaseLease requestId owner)
  | .tick ms => some { b with now := b.now + ms }

/-- Whom the lease of a request belongs to. -/
def holder (b : Broker) (requestId : String) : Option String :=
  b.lease.get b.now requestId

/-- The call is not the owner's own release, and the lease does not expire
before it is over. -/
def LeavesLease (requestId owner : String) (b : Broker) : LeaseCall → Prop
  | .release requestId' owner' => ¬ (requestId' = requestId ∧ owner' = owner)
  | .tick ms => (b.lease.live (b.now + ms) requestId).isSome
  | _ => True

instance (requestId owner : String) (b : Broker) (l : LeaseCall) :
    Decidable (LeavesLease requestId owner b l) :=
  match l with
  | .release requestId' owner' =>
      inferInstanceAs
        (Decidable (¬ (requestId' = requestId ∧ owner' = owner)))
  | .tick ms =>
      inferInstanceAs (Decidable ((b.lease.live (b.now + ms) requestId).isSome))
  | .acquire _ _ | .renew _ _ => isTrue trivial

variable {cfg : StreamsConfig} {b b' : Broker} {r o : String}

/-! ## What each call does to a lease that is held -/

theorem holder_eq_some :
    holder b r = some o ↔ ∃ deadline, b.lease.live b.now r = some ⟨o, deadline⟩ := by
  constructor
  · intro h
    obtain ⟨⟨v, deadline⟩, hc, rfl⟩ := Keyspace.get_eq_some.mp h
    exact ⟨deadline, hc⟩
  · rintro ⟨deadline, hc⟩
    exact Keyspace.get_eq_some.mpr ⟨_, hc, rfl⟩

theorem acquireLease_true {o : String}
    (h : b.acquireLease cfg r o = some (true, b')) :
    cfg.leaseDurationMs ≠ 0 ∧ holder b' r = some o := by
  unfold Broker.acquireLease at h
  split at h
  · cases h
  · next hd =>
      split at h
      · cases h
      · cases h
        refine ⟨hd, ?_⟩
        have halive : (⟨o, some (b.now + cfg.leaseDurationMs)⟩ :
            Timed String).alive b.now = true := by
          simp only [Timed.alive, decide_eq_true_eq]
          omega
        simp [holder, Keyspace.get, halive]

/-- While there is a holder nobody acquires the lease. -/
theorem acquireLease_held (hd : cfg.leaseDurationMs ≠ 0)
    (h : holder b r = some o) (o' : String) :
    b.acquireLease cfg r o' = some (false, b) := by
  obtain ⟨deadline, hlive⟩ := holder_eq_some.mp h
  rw [Broker.acquireLease, if_neg hd, hlive]

theorem renewLease_other {o' : String} (h : holder b r ≠ some o') :
    b.renewLease cfg r o' = (false, b) := by
  unfold holder at h
  rw [Broker.renewLease, if_neg h]

theorem releaseLease_other {o' : String} (h : holder b r ≠ some o') :
    b.releaseLease r o' = b := by
  unfold holder at h
  rw [Broker.releaseLease, if_neg h]

theorem renewLease_fst :
    (b.renewLease cfg r o).1 = true ↔ holder b r = some o := by
  unfold Broker.renewLease holder
  split
  · next h => simp [h]
  · next h => simp [h]

/-- A renewal restarts the full duration. -/
theorem renewLease_live (hd : cfg.leaseDurationMs ≠ 0)
    (h : holder b r = some o) :
    (b.renewLease cfg r o).2.lease.live b.now r =
      some ⟨o, some (b.now + cfg.leaseDurationMs)⟩ := by
  obtain ⟨deadline, hlive⟩ := holder_eq_some.mp h
  have halive : (⟨o, some (b.now + cfg.leaseDurationMs)⟩ :
      Timed String).alive b.now = true := by
    simp only [Timed.alive, decide_eq_true_eq]
    omega
  unfold holder at h
  rw [Broker.renewLease, if_pos h]
  simp [hlive, halive]

/-! ## One step, and a run -/

/-- Without a duration there are no leases at all. -/
def Durable (cfg : StreamsConfig) (b : Broker) : Prop :=
  cfg.leaseDurationMs = 0 → ∀ r, b.lease r = none

theorem Durable.duration (hI : Durable cfg b) (h : holder b r = some o) :
    cfg.leaseDurationMs ≠ 0 := by
  intro hd
  obtain ⟨deadline, hlive⟩ := holder_eq_some.mp h
  have hcell := (Keyspace.live_eq_some.mp hlive).1
  rw [hI hd r] at hcell
  cases hcell

theorem durable_step {l : LeaseCall} (hI : Durable cfg b)
    (h : leaseStep cfg b l = some b') : Durable cfg b' := by
  intro hd r
  cases l with
  | acquire r' o' => simp [leaseStep, Broker.acquireLease, hd] at h
  | renew r' o' =>
      injection h with h
      have hne : holder b r' ≠ some o' := fun hh => hI.duration hh hd
      rw [renewLease_other hne] at h
      rw [← h]
      exact hI hd r
  | release r' o' =>
      injection h with h
      have hne : holder b r' ≠ some o' := fun hh => hI.duration hh hd
      rw [releaseLease_other hne] at h
      rw [← h]
      exact hI hd r
  | tick ms =>
      injection h with h
      rw [← h]
      exact hI hd r

/-- The lease of another request is none of a call's business. -/
theorem live_step_ne {l : LeaseCall} {r' : String} (hne : r ≠ r')
    (hl : (∃ o', l = .acquire r' o') ∨ (∃ o', l = .renew r' o') ∨
      ∃ o', l = .release r' o')
    (h : leaseStep cfg b l = some b') : holder b' r = holder b r := by
  unfold holder Keyspace.get
  obtain ⟨o', rfl⟩ | ⟨o', rfl⟩ | ⟨o', rfl⟩ := hl
  · simp only [leaseStep, Broker.acquireLease] at h
    split at h
    · next hx =>
        split at hx
        · cases hx
        · split at hx <;> cases hx <;> cases h
          · rfl
          · simp [hne]
    · cases h
  · injection h with h
    rw [← h, Broker.renewLease]
    split
    · simp [hne]
    · rfl
  · injection h with h
    rw [← h, Broker.releaseLease]
    split
    · simp [hne]
    · rfl

theorem held_step {l : LeaseCall} (hd : cfg.leaseDurationMs ≠ 0)
    (hI : holder b r = some o) (hok : LeavesLease r o b l)
    (h : leaseStep cfg b l = some b') : holder b' r = some o := by
  cases l with
  | acquire r' o' =>
      by_cases hr : r = r'
      · subst hr
        simp only [leaseStep, acquireLease_held hd hI] at h
        cases h
        exact hI
      · rw [live_step_ne hr (.inl ⟨o', rfl⟩) h]
        exact hI
  | renew r' o' =>
      by_cases hr : r = r'
      · subst hr
        injection h with h
        by_cases ho : o = o'
        · subst ho
          have hlive := renewLease_live hd hI
          have hnow : (b.renewLease cfg r o).2.now = b.now := by
            unfold Broker.renewLease
            split <;> rfl
          rw [← h, holder_eq_some, hnow]
          exact ⟨_, hlive⟩
        · rw [renewLease_other (by rw [hI]; simpa using ho)] at h
          rw [← h]
          exact hI
      · rw [live_step_ne hr (.inr (.inl ⟨o', rfl⟩)) h]
        exact hI
  | release r' o' =>
      by_cases hr : r = r'
      · subst hr
        injection h with h
        have ho : o ≠ o' := fun ho => hok ⟨rfl, ho.symm⟩
        rw [releaseLease_other (by rw [hI]; simpa using ho)] at h
        rw [← h]
        exact hI
      · rw [live_step_ne hr (.inr (.inr ⟨o', rfl⟩)) h]
        exact hI
  | tick ms =>
      injection h with h
      obtain ⟨cell, hcell⟩ := Option.isSome_iff_exists.mp hok
      obtain ⟨deadline, hlive⟩ := holder_eq_some.mp hI
      have hsame := Keyspace.live_of_le (Nat.le_add_right b.now ms) hcell
      rw [hlive] at hsame
      cases hsame
      rw [← h, holder_eq_some]
      exact ⟨deadline, hcell⟩

/-- In every state a run of lease calls reaches: a renewal succeeds exactly
for the holder, and then the lease has its full duration again. And from any
acquire that succeeds there, for as long as the owner does not release the
lease and it does not expire, the lease is the owner's, nobody acquires it,
and the renewals and releases of others leave the broker as it is. -/
theorem lease_safe (cfg : StreamsConfig) (start : Nat) (b : Broker)
    (h : Run (leaseStep cfg) (fun _ _ => True) (.empty start) b) :
    (∀ r o, ((b.renewLease cfg r o).1 = true ↔ holder b r = some o) ∧
      ((b.renewLease cfg r o).1 = true →
        (b.renewLease cfg r o).2.lease.live b.now r =
          some ⟨o, some (b.now + cfg.leaseDurationMs)⟩)) ∧
    ∀ r o b₁ b₂, b.acquireLease cfg r o = some (true, b₁) →
      Run (leaseStep cfg) (LeavesLease r o) b₁ b₂ →
      holder b₂ r = some o ∧
      (∀ o', b₂.acquireLease cfg r o' = some (false, b₂)) ∧
      ∀ o', o' ≠ o → b₂.renewLease cfg r o' = (false, b₂) ∧
        b₂.releaseLease r o' = b₂ := by
  have hI : Durable cfg b := h.invariant (fun _ _ => rfl)
    fun hI _ hstep => durable_step hI hstep
  refine ⟨?_, ?_⟩
  · intro r o
    refine ⟨renewLease_fst, fun hrenew => ?_⟩
    have hheld := renewLease_fst.mp hrenew
    exact renewLease_live (hI.duration hheld) hheld
  · intro r o b₁ b₂ hacq hrun
    obtain ⟨hd, hheld₁⟩ := acquireLease_true hacq
    have hheld : holder b₂ r = some o := hrun.invariant hheld₁
      fun hI hok hstep => held_step hd hI hok hstep
    refine ⟨hheld, acquireLease_held hd hheld, fun o' hne => ?_⟩
    have hother : holder b₂ r ≠ some o' := by
      rw [hheld]
      simpa using hne.symm
    exact ⟨renewLease_other hother, releaseLease_other hother⟩

/-- The broker a minute after an engine took a lease and stopped renewing
it. -/
def leaseLost : Broker :=
  (exec (leaseStep .default) (fun _ _ => true) (.empty 0)
    [.acquire "request" "one", .tick 60000]).getD (.empty 0)

/-- The broker once a second engine has taken it over. -/
def leaseTaken : Broker :=
  ((leaseLost.acquireLease .default "request" "two").map (·.2)).getD leaseLost

/-- The late calls of the first engine: a renewal, a release and another
acquire, with the heartbeat of the second among them. -/
def lateCalls : List LeaseCall :=
  [.renew "request" "one", .release "request" "one", .acquire "request" "one",
    .tick 20000, .renew "request" "two", .tick 50000, .acquire "other" "one"]

theorem lease_safe_lateCalls :
    ∃ b : Broker,
      Run (leaseStep .default) (fun _ _ => True) (.empty 0) leaseLost ∧
      leaseLost.acquireLease .default "request" "two" =
        some (true, leaseTaken) ∧
      Run (leaseStep .default) (LeavesLease "request" "two") leaseTaken b ∧
      b.now = 130000 ∧ holder b "request" = some "two" ∧
      b.renewLease .default "request" "one" = (false, b) := by
  have hexec : exec (leaseStep .default) (fun _ _ => true) (.empty 0)
      [.acquire "request" "one", .tick 60000] = some leaseLost := rfl
  have hrun : Run (leaseStep .default) (fun _ _ => True) (.empty 0) leaseLost :=
    run_of_exec (fun _ _ _ => trivial) hexec
  have hacq : leaseLost.acquireLease .default "request" "two" =
      some (true, leaseTaken) := rfl
  obtain ⟨b, hrun', hnow⟩ := run_of_exec_map (leaseStep .default)
    (LeavesLease "request" "two")
    (fun b l => decide (LeavesLease "request" "two" b l)) leaseTaken lateCalls
    (fun b => b.now) (b := 130000) (fun _ _ hok => of_decide_eq_true hok)
    (by decide)
  obtain ⟨hheld, _, hother⟩ := (lease_safe .default 0 leaseLost hrun).2
    "request" "two" leaseTaken b hacq hrun'
  exact ⟨b, hrun, hacq, hrun', hnow, hheld, (hother "one" (by decide)).1⟩

end DataPlane.Proofs
