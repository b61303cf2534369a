import DataPlane.Proofs.Jobs

/-!
# Leases exclude

A lease names its owner, and an owner is an engine together with an attempt id
that nobody else ever draws. So two engines that are both between acquiring and
releasing the lease of one request would have to find two different texts under
one key.

The lease is a promise about time, and time is the one thing that can break it:
the results here are about runs in which no lease runs out while its owner is
still under it. An engine that has crashed, or has given its job up, is not
under any lease, and what it left behind may expire.
-/

namespace DataPlane.Proofs

open DataPlane DataPlane.Lib DataPlane.Ref

/-- The attempt a step of `run_job` belongs to. -/
def attemptOf : JobStep → Option Uuid
  | .attempt a _ | .release a _ | .settle a _ | .conclude a _ _ => some a
  | _ => none

/-- The attempt whose lease the engine is under: acquired and not released. -/
def leasedAttempt : JobStep → Option Uuid
  | .attempt a _ | .release a _ => some a
  | _ => none

theorem attemptOf_of_leased {step : JobStep} {a : Uuid}
    (h : leasedAttempt step = some a) : attemptOf step = some a := by
  cases step with
  | attempt | release => exact h
  | _ => cases h

/-- The key and the owner of the lease an engine is under. -/
def leaseOf (e : Engine) : Option (String × String) :=
  match e.phase with
  | .working taken step =>
      (leasedAttempt step).map fun a =>
        (taken.job.requestId, leaseOwner e.engineId a)
  | _ => none

/-- No lease runs out in this step while its owner is under it. -/
def leaseKept (s : Sys) : Label → Bool
  | .tick ms => s.engines.all fun e =>
      match leaseOf e with
      | none => true
      | some (requestId, owner) =>
          s.broker.lease.get s.broker.now requestId = some owner →
            s.broker.lease.get (s.broker.now + ms) requestId = some owner
  | _ => true

theorem leaseKept_tick {s : Sys} {ms i : Nat} {e : Engine}
    {taken : ConsumedJob} {step : JobStep} {a : Uuid}
    (h : leaseKept s (.tick ms) = true) (hb : Busy s.engines i e taken step)
    (ha : leasedAttempt step = some a)
    (hget : s.broker.lease.get s.broker.now taken.job.requestId =
      some (leaseOwner e.engineId a)) :
    s.broker.lease.get (s.broker.now + ms) taken.job.requestId =
      some (leaseOwner e.engineId a) := by
  have hall := List.all_eq_true.mp h e (List.mem_of_getElem? hb.1)
  simp only [leaseOf, hb.2, ha, Option.map_some, decide_eq_true_eq] at hall
  exact hall hget

/-- An owner's text ends in its attempt id, which has a fixed length. -/
theorem leaseOwner_attempt {engineId engineId' : String} {a a' : Uuid}
    (h : leaseOwner engineId a = leaseOwner engineId' a') : a = a' := by
  have hlist := congrArg String.toList h
  simp only [leaseOwner, String.toList_append] at hlist
  have hlen : a.text.toList.length = a'.text.toList.length := by
    rw [String.length_toList, String.length_toList, a.length_eq, a'.length_eq]
  exact Uuid.text_inj (String.toList_injective (List.append_inj' hlist hlen).2)

/-- Engines in an attempt hold the lease of its request, each under its own
name. -/
structure Leased (cfg : SysConfig) (s : Sys) : Prop where
  possible : ∀ {i e taken step a}, Busy s.engines i e taken step →
    leasedAttempt step = some a → cfg.engine.streams.leaseDurationMs ≠ 0
  drawn : ∀ {i e taken step a}, Busy s.engines i e taken step →
    attemptOf step = some a → a ∈ s.attempts
  distinct : ∀ {i j e x taken taken' step step' a},
    Busy s.engines i e taken step → Busy s.engines j x taken' step' →
    attemptOf step = some a → attemptOf step' = some a → i = j
  held : ∀ {i e taken step a}, Busy s.engines i e taken step →
    leasedAttempt step = some a →
    s.broker.lease.get s.broker.now taken.job.requestId =
      some (leaseOwner e.engineId a)

/-- At most one engine is under the lease of a request. -/
theorem Leased.exclusive {cfg : SysConfig} {s : Sys} (hI : Leased cfg s)
    {i j : Nat} {e x : Engine} {taken taken' : ConsumedJob} {step step' : JobStep} {a a' : Uuid}
    (hi : Busy s.engines i e taken step) (hj : Busy s.engines j x taken' step')
    (ha : leasedAttempt step = some a) (ha' : leasedAttempt step' = some a')
    (hr : taken.job.requestId = taken'.job.requestId) : i = j := by
  have h := hI.held hi ha
  rw [hr, hI.held hj ha'] at h
  injection h with h
  have heq := leaseOwner_attempt h
  rw [heq] at ha'
  exact hI.distinct hi hj (attemptOf_of_leased ha) (attemptOf_of_leased ha')

/-! ## One step of an engine -/

theorem Move.now {cfg : EngineConfig} {b b' : Broker} {e : Engine}
    {act : EngineAction} {p : Phase} (h : Move cfg b e act b' p) :
    b'.now = b.now := by
  cases h with
  | roam _ hb _ => rw [hb.frame]
  | take _ hb _ _ => rw [hb.frame]
  | renew _ _ => rw [renewLease_frame]
  | release _ => rw [releaseLease_frame]
  | _ => rfl

/-- An attempt goes on, or was drawn just now. -/
theorem Move.attempt {cfg : EngineConfig} {b b' : Broker} {e : Engine}
    {act : EngineAction} {p : Phase} {taken : ConsumedJob} {step : JobStep}
    {a : Uuid} (h : Move cfg b e act b' p) (hp : p = .working taken step)
    (ha : attemptOf step = some a) :
    (∃ step', e.phase = .working taken step' ∧ attemptOf step' = some a) ∨
      act.draws = some a := by
  cases h with
  | roam _ _ hidle | abandon _ _ hidle => exact absurd hp hidle.ne_working
  | take _ _ _ htakes => obtain ⟨job, _, rfl⟩ := htakes; cases hp; cases ha
  | crash | notAcquired | acknowledge => cases hp
  | acquired _ _ _ => cases hp; cases ha; exact .inr rfl
  | renew hphase _ => cases hp; exact .inl ⟨_, hphase, ha⟩
  | entered hphase | token hphase | ended hphase | append hphase
  | record hphase | release hphase | settle hphase | concludeAppend hphase =>
      cases hp; cases ha; exact .inl ⟨_, hphase, rfl⟩
  | _ => cases hp; cases ha

/-- Nobody takes a lease from under another. -/
theorem Move.lease_other {cfg : EngineConfig} {b b' : Broker} {e : Engine}
    {act : EngineAction} {p : Phase} {r owner : String}
    (h : Move cfg b e act b' p) (hget : b.lease.get b.now r = some owner)
    (hmine : ∀ {taken step a}, e.phase = .working taken step →
      leasedAttempt step = some a → leaseOwner e.engineId a ≠ owner) :
    b'.lease.get b.now r = some owner := by
  cases h with
  | roam _ hb _ => rw [hb.frame]; exact hget
  | take _ hb _ _ => rw [hb.frame]; exact hget
  | @acquired taken a _ _ hfree =>
      have hne : r ≠ taken.job.requestId := by
        rintro rfl
        simp [Keyspace.get, hfree] at hget
      simpa [Keyspace.get, hne] using hget
  | @renew taken a step hphase hstep =>
      have ha : leasedAttempt step = some a := by
        rcases hstep with ⟨x, rfl⟩ | ⟨x, rfl⟩ <;> rfl
      unfold Broker.renewLease
      split
      · next hown =>
          have hne : r ≠ taken.job.requestId := by
            rintro rfl
            rw [hget] at hown
            injection hown with hown
            exact hmine hphase ha hown.symm
          simpa [Keyspace.get, hne] using hget
      · exact hget
  | @release taken a result hphase =>
      unfold Broker.releaseLease
      split
      · next hown =>
          have hne : r ≠ taken.job.requestId := by
            rintro rfl
            rw [hget] at hown
            injection hown with hown
            exact hmine hphase rfl hown.symm
          simpa [Keyspace.get, hne] using hget
      · exact hget
  | _ => exact hget

/-- An engine is under a lease it has just got, or had before. -/
theorem Move.lease_self {cfg : EngineConfig} {b b' : Broker} {e : Engine}
    {act : EngineAction} {p : Phase} {taken : ConsumedJob} {step : JobStep}
    {a : Uuid} (h : Move cfg b e act b' p)
    (hold : ∀ {taken step a}, e.phase = .working taken step →
      leasedAttempt step = some a → cfg.streams.leaseDurationMs ≠ 0 ∧
      b.lease.get b.now taken.job.requestId = some (leaseOwner e.engineId a))
    (hp : p = .working taken step) (ha : leasedAttempt step = some a) :
    cfg.streams.leaseDurationMs ≠ 0 ∧
      b'.lease.get b.now taken.job.requestId =
        some (leaseOwner e.engineId a) := by
  cases h with
  | roam _ _ hidle | abandon _ _ hidle => exact absurd hp hidle.ne_working
  | take _ _ _ htakes => obtain ⟨job, _, rfl⟩ := htakes; cases hp; cases ha
  | crash | notAcquired | acknowledge => cases hp
  | acquired _ hpos _ =>
      cases hp
      cases ha
      have halive : b.now < b.now + cfg.streams.leaseDurationMs := by omega
      exact ⟨hpos, by simp [Keyspace.get, Timed.alive, halive]⟩
  | @renew _ a' _ hphase hstep =>
      cases hp
      obtain ⟨hpos, hget⟩ := hold hphase ha
      have halive : b.now < b.now + cfg.streams.leaseDurationMs := by omega
      obtain ⟨cell, hcell, hval⟩ := Keyspace.get_eq_some.mp hget
      have hsame : a' = a := by
        rcases hstep with ⟨x, rfl⟩ | ⟨x, rfl⟩ <;> exact Option.some.inj ha
      rw [hsame, Broker.renewLease, if_pos hget]
      exact ⟨hpos, by simp [Keyspace.get, hcell, Timed.alive, halive, hval]⟩
  | entered hphase | token hphase | ended hphase | append hphase
  | record hphase => cases hp; cases ha; exact hold hphase rfl
  | _ => cases hp; cases ha

/-! ## Runs -/

theorem leased_init (cfg : SysConfig) (now : Nat)
    (engines : List (String × String)) :
    Leased cfg (Sys.init now engines) where
  possible hb := (not_busy_init hb).elim
  drawn hb := (not_busy_init hb).elim
  distinct hb := (not_busy_init hb).elim
  held hb := (not_busy_init hb).elim

theorem leased_move {cfg : SysConfig} {s : Sys} {i : Nat} {e : Engine}
    {act : EngineAction} {b : Broker} {p : Phase} (hI : Leased cfg s)
    (hi : s.engines[i]? = some e) (hdraw : ∀ a ∈ act.draws, a ∉ s.attempts)
    (hmove : Move cfg.engine s.broker e act b p) :
    Leased cfg { s with
      broker := b
      engines := s.engines.set i { e with phase := p }
      attempts := act.draws.toList ++ s.attempts } := by
  -- The engine that moved, by what it did before or what it has drawn.
  have hself : ∀ {taken step a}, p = .working taken step →
      attemptOf step = some a → act.draws = some a ∨
        ∃ step', Busy s.engines i e taken step' ∧ attemptOf step' = some a := by
    intro taken step a hp ha
    rcases hmove.attempt hp ha with ⟨step', hphase, ha'⟩ | hd
    · exact .inr ⟨step', ⟨hi, hphase⟩, ha'⟩
    · exact .inl hd
  -- Nobody else is in an attempt of that engine.
  have hclash : ∀ {j x taken taken' step step' a}, j ≠ i →
      p = .working taken step → attemptOf step = some a →
      Busy s.engines j x taken' step' → attemptOf step' ≠ some a := by
    intro j x taken taken' step step' a hne hp ha hj ha'
    rcases hself hp ha with hd | ⟨y, hy, hya⟩
    · exact hdraw a hd (hI.drawn hj ha')
    · exact hne (hI.distinct hj hy ha' hya)
  refine ⟨fun hb ha => ?_, fun hb ha => ?_, fun hb hx ha ha' => ?_,
    fun hb ha => ?_⟩
  · rcases hb.of_set with ⟨_, _, hp⟩ | ⟨_, hb⟩
    · exact (hmove.lease_self (fun hphase ha => ⟨hI.possible ⟨hi, hphase⟩ ha,
        hI.held ⟨hi, hphase⟩ ha⟩) hp ha).1
    · exact hI.possible hb ha
  · rcases hb.of_set with ⟨_, _, hp⟩ | ⟨_, hb⟩
    · rcases hself hp ha with hd | ⟨_, hy, hya⟩
      · exact List.mem_append_left _ (by simp [hd])
      · exact List.mem_append_right _ (hI.drawn hy hya)
    · exact List.mem_append_right _ (hI.drawn hb ha)
  · rcases hb.of_set with ⟨hj, _, hp⟩ | ⟨hne, hold⟩ <;>
      rcases hx.of_set with ⟨hj', _, hq⟩ | ⟨hne', hold'⟩
    · rw [hj, hj']
    · exact (hclash hne' hp ha hold' ha').elim
    · exact (hclash hne hq ha' hold ha).elim
    · exact hI.distinct hold hold' ha ha'
  · show b.lease.get b.now _ = _
    rw [hmove.now]
    rcases hb.of_set with ⟨_, hid, hp⟩ | ⟨hne, hb⟩
    · rw [hid]
      exact (hmove.lease_self (fun hphase ha => ⟨hI.possible ⟨hi, hphase⟩ ha,
        hI.held ⟨hi, hphase⟩ ha⟩) hp ha).2
    · refine hmove.lease_other (hI.held hb ha) fun hphase ha' heq => ?_
      have hsame := leaseOwner_attempt heq
      rw [hsame] at ha'
      exact hne (hI.distinct hb ⟨hi, hphase⟩ (attemptOf_of_leased ha)
        (attemptOf_of_leased ha'))

theorem leased_step {cfg : SysConfig} {s t : Sys} {l : Label}
    (hI : Leased cfg s) (hok : leaseKept s l = true) (h : Moves cfg s l t) :
    Leased cfg t := by
  cases h with
  | tick ms =>
      exact ⟨hI.possible, hI.drawn, hI.distinct, fun hb ha =>
        leaseKept_tick hok hb ha (hI.held hb ha)⟩
  | engine hi hdraw hmove => exact leased_move hI hi hdraw hmove
  | _ => exact ⟨hI.possible, hI.drawn, hI.distinct, hI.held⟩

end DataPlane.Proofs
