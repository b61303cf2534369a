import DataPlane.Proofs.Attempts
import DataPlane.Proofs.LeaseSafety
import DataPlane.Ref.Heartbeat

/-!
# Heartbeats keep attempts apart

That leases exclude is proved for runs in which no lease runs out under its
owner. Here it is the heartbeats that see to this: if a renewal is at most
`delay` late and at most `misses` of them fail in a row, then a lease that lasts
longer than `misses + 1` such periods never runs out before its owner has given
it back.

What follows from it without any further condition is about what an engine
publishes under its lease, the `AttemptStarted` and the tokens: they come in
blocks, one for each attempt. Terminal events do not, because they come after
the release.
-/

namespace DataPlane.Proofs

open DataPlane DataPlane.Lib DataPlane.Ref

/-! ## The lease an engine is under -/

theorem leased_working {taken : ConsumedJob} {step : JobStep} :
    Phase.leased (.working taken step) = (leasedAttempt step).isSome := by
  cases step with
  | attempt | release => rfl
  | _ => rfl

/-- A lease stays as it is, with its deadline, whoever else moves. -/
theorem Move.lease_live {cfg : EngineConfig} {b b' : Broker} {e : Engine}
    {act : EngineAction} {p : Phase} {r : String} {cell : Timed String}
    (h : Move cfg b e act b' p) (hlive : b.lease.live b.now r = some cell)
    (hmine : ∀ {taken step a}, e.phase = .working taken step →
      leasedAttempt step = some a → leaseOwner e.engineId a ≠ cell.value) :
    b'.lease.live b.now r = some cell := by
  have hget : b.lease.get b.now r = some cell.value :=
    Keyspace.get_eq_some.mpr ⟨cell, hlive, rfl⟩
  cases h with
  | roam _ hb _ => rw [hb.frame]; exact hlive
  | take _ hb _ _ => rw [hb.frame]; exact hlive
  | @acquired taken a _ _ hfree =>
      have hne : r ≠ taken.job.requestId := by
        rintro rfl
        rw [hlive] at hfree
        cases hfree
      simpa [hne] using hlive
  | @renew taken a step hphase hstep =>
      have ha : leasedAttempt step = some a := by
        rcases hstep with ⟨x, rfl⟩ | ⟨x, rfl⟩ <;> rfl
      unfold Broker.renewLease
      split
      · next hown =>
          have hne : r ≠ taken.job.requestId := by
            rintro rfl
            rw [hget] at hown
            injection hown with hown
            exact hmine hphase ha hown.symm
          simpa [hne] using hlive
      · exact hlive
  | @release taken a result hphase =>
      unfold Broker.releaseLease
      split
      · next hown =>
          have hne : r ≠ taken.job.requestId := by
            rintro rfl
            rw [hget] at hown
            injection hown with hown
            exact hmine hphase rfl hown.symm
          simpa [hne] using hlive
      · exact hlive
  | _ => exact hlive

/-- An engine is under a lease it has just acquired, or had before and did not
touch. -/
theorem Move.leased {cfg : EngineConfig} {b b' : Broker} {e : Engine}
    {act : EngineAction} {p : Phase} {taken : ConsumedJob} {step : JobStep}
    {a : Uuid} (h : Move cfg b e act b' p) (hp : p = .working taken step)
    (ha : leasedAttempt step = some a) (hact : act ≠ .renewLease) :
    (e.phase.leased = false ∧ cfg.streams.leaseDurationMs ≠ 0 ∧
      b'.lease = b.lease.setEx taken.job.requestId (leaseOwner e.engineId a)
        (b.now + cfg.streams.leaseDurationMs)) ∨
    (∃ step', e.phase = .working taken step' ∧
      leasedAttempt step' = some a ∧ b'.lease = b.lease) := by
  cases h with
  | roam _ _ hidle | abandon _ _ hidle => exact absurd hp hidle.ne_working
  | take _ _ _ htakes => obtain ⟨job, _, rfl⟩ := htakes; cases hp; cases ha
  | crash | notAcquired | acknowledge => cases hp
  | acquired hphase hpos _ =>
      cases hp
      cases ha
      exact .inl ⟨by rw [hphase]; rfl, hpos, rfl⟩
  | renew _ _ => exact absurd rfl hact
  | entered hphase | token hphase | ended hphase | append hphase
  | record hphase => cases hp; cases ha; exact .inr ⟨_, hphase, rfl, rfl⟩
  | _ => cases hp; cases ha

/-- A renewal changes nothing but the lease. -/
theorem step_renewLease {cfg : SysConfig} {s : Sys} {i : Nat} {e : Engine}
    {taken : ConsumedJob} {step : JobStep} {a : Uuid}
    (hb : Busy s.engines i e taken step) (ha : leasedAttempt step = some a) :
    s.step cfg (.engine i .renewLease) =
      some { s with
        broker := (s.broker.renewLease cfg.engine.streams taken.job.requestId
          (leaseOwner e.engineId a)).2 } := by
  obtain ⟨he, hphase⟩ := hb
  have hset : s.engines.set i { e with phase := e.phase } = s.engines := by
    show s.engines.set i e = s.engines
    obtain ⟨hi, hget⟩ := List.getElem?_eq_some_iff.mp he
    rw [← hget, List.set_getElem_self]
  have hstep : engineStep cfg.engine s.broker e .renewLease =
      some ((s.broker.renewLease cfg.engine.streams taken.job.requestId
        (leaseOwner e.engineId a)).2, e.phase) := by
    cases step with
    | attempt | release => cases ha; simp [engineStep, hphase]
    | _ => cases ha
  simp only [Sys.step, he]
  rw [if_neg (by simp [EngineAction.draws]), Sys.engineMove, hstep]
  dsimp only
  rw [hset]
  rfl

/-! ## Timely heartbeats -/

/-- Renewals are at most so late, and at most so many fail in a row. The release
of a lease is no later than the renewal it comes instead of. -/
def onTime (delay misses : Nat) (t : TimedSys) : TimedLabel → Bool
  | .sys (.tick ms) =>
      (List.range t.sys.engines.length).all fun i =>
        match t.heartbeats i with
        | some h => t.sys.broker.now + ms ≤ h.wakesAt + delay
        | none => true
  | .beat i false =>
      match t.heartbeats i with
      | some h => h.failures < misses
      | none => true
  | _ => true

/-- A heartbeat and the deadline of the lease it keeps. -/
structure InBeat (delay misses leaseMs now deadline : Nat) (h : Heartbeat) :
    Prop where
  few : h.failures ≤ misses
  due : h.wakesAt + delay + leaseMs ≤
    deadline + (h.failures + 1) * (heartbeatMs + delay)
  awake : now ≤ h.wakesAt + delay

theorem inBeat_sleep (delay misses leaseMs now : Nat) :
    InBeat delay misses leaseMs now (now + leaseMs) (.sleep now) where
  few := Nat.zero_le _
  due := by
    show now + heartbeatMs + delay + leaseMs ≤
      now + leaseMs + (0 + 1) * (heartbeatMs + delay)
    omega
  awake := by
    show now ≤ now + heartbeatMs + delay
    omega

theorem InBeat.retry {delay misses leaseMs now deadline : Nat} {h : Heartbeat}
    (hb : InBeat delay misses leaseMs now deadline h)
    (hfew : h.failures < misses) :
    InBeat delay misses leaseMs now deadline (h.retry now) where
  few := hfew
  due := by
    have hdue := hb.due
    have hawake := hb.awake
    have hmul : (h.failures + 1 + 1) * (heartbeatMs + delay) =
        (h.failures + 1) * (heartbeatMs + delay) + (heartbeatMs + delay) :=
      Nat.succ_mul _ _
    show now + heartbeatMs + delay + leaseMs ≤
      deadline + (h.failures + 1 + 1) * (heartbeatMs + delay)
    omega
  awake := by
    show now ≤ now + heartbeatMs + delay
    omega

/-- Until a heartbeat is overdue its lease does not run out. -/
theorem InBeat.alive {delay misses leaseMs now later deadline : Nat}
    {h : Heartbeat} (hb : InBeat delay misses leaseMs now deadline h)
    (hlong : (misses + 1) * (heartbeatMs + delay) < leaseMs)
    (hlater : later ≤ h.wakesAt + delay) : later < deadline := by
  have hdue := hb.due
  have hmul : (h.failures + 1) * (heartbeatMs + delay) ≤
      (misses + 1) * (heartbeatMs + delay) :=
    Nat.mul_le_mul_right _ (Nat.succ_le_succ hb.few)
  omega

/-- Every engine under a lease has a heartbeat that keeps it. -/
def Punctual (cfg : SysConfig) (delay misses : Nat) (t : TimedSys) : Prop :=
  ∀ {i e taken step a}, Busy t.sys.engines i e taken step →
    leasedAttempt step = some a →
    ∃ h deadline, t.heartbeats i = some h ∧
      t.sys.broker.lease.live t.sys.broker.now taken.job.requestId =
        some ⟨leaseOwner e.engineId a, some deadline⟩ ∧
      InBeat delay misses cfg.engine.streams.leaseDurationMs t.sys.broker.now
        deadline h

section

variable {cfg : SysConfig} {delay misses : Nat} {t u : TimedSys}

theorem punctual_init (now : Nat) (engines : List (String × String)) :
    Punctual cfg delay misses (.init now engines) :=
  fun hb => (not_busy_init hb).elim

/-- Time that passes no heartbeat by leaves every lease alive. -/
theorem Punctual.kept (hP : Punctual cfg delay misses t)
    (hlong : (misses + 1) * (heartbeatMs + delay) <
      cfg.engine.streams.leaseDurationMs) {l : Label}
    (hon : onTime delay misses t (.sys l) = true) :
    leaseKept t.sys l = true := by
  cases l with
  | tick ms =>
      rw [leaseKept, List.all_eq_true]
      intro e he
      obtain ⟨i, hi⟩ := List.mem_iff_getElem?.mp he
      split
      · rfl
      · next requestId owner hlease =>
          unfold leaseOf at hlease
          split at hlease
          · next taken step hphase =>
              obtain ⟨a, ha, hkey⟩ := Option.map_eq_some_iff.mp hlease
              cases hkey
              obtain ⟨h, deadline, hh, hlive, hbeat⟩ := hP ⟨hi, hphase⟩ ha
              have hlt := (List.getElem?_eq_some_iff.mp hi).1
              have hwake := List.all_eq_true.mp hon i (List.mem_range.mpr hlt)
              rw [hh, decide_eq_true_eq] at hwake
              have halive := hbeat.alive hlong hwake
              have hcell := (Keyspace.live_eq_some.mp hlive).1
              refine decide_eq_true fun _ => Keyspace.get_eq_some.mpr
                ⟨⟨leaseOwner e.engineId a, some deadline⟩, ?_, rfl⟩
              exact Keyspace.live_eq_some.mpr ⟨hcell, decide_eq_true halive⟩
          · cases hlease
  | _ => rfl

/-- The heartbeat of an engine that has been under a lease goes on. -/
theorem follow_leased {s : Sys} {i : Nat} {e x : Engine}
    (he : t.sys.engines[i]? = some e) (hx : s.engines[i]? = some x)
    (hold : e.phase.leased = true) (hnew : x.phase.leased = true) :
    t.follow s i = t.heartbeats i := by
  simp [TimedSys.follow, he, hx, hold, hnew]

/-- One that has just acquired a lease has a new one. -/
theorem follow_acquired {s : Sys} {i : Nat} {e x : Engine}
    (he : t.sys.engines[i]? = some e) (hx : s.engines[i]? = some x)
    (hold : e.phase.leased = false) (hnew : x.phase.leased = true) :
    t.follow s i = some (.sleep s.broker.now) := by
  simp [TimedSys.follow, he, hx, hold, hnew]

theorem Busy.leased {engines : List Engine} {i : Nat} {e : Engine}
    {taken : ConsumedJob} {step : JobStep} {a : Uuid}
    (hb : Busy engines i e taken step) (ha : leasedAttempt step = some a) :
    e.phase.leased = true := by
  rw [hb.2, leased_working, ha]
  rfl

/-- A move of an engine that is not a renewal. -/
theorem punctual_move {i : Nat} {e : Engine} {act : EngineAction} {b : Broker}
    {p : Phase} {attempts : List Uuid} (hL : Leased cfg t.sys)
    (hP : Punctual cfg delay misses t) (hi : t.sys.engines[i]? = some e)
    (hact : act ≠ .renewLease)
    (hmove : Move cfg.engine t.sys.broker e act b p) {s : Sys}
    (hs : s = { t.sys with
      broker := b
      engines := t.sys.engines.set i { e with phase := p }
      attempts := attempts }) :
    Punctual cfg delay misses ⟨s, t.follow s⟩ := by
  subst hs
  intro j x taken step a hb ha
  have hx : (t.sys.engines.set i { e with phase := p })[j]? = some x := hb.1
  show ∃ h deadline, t.follow _ j = some h ∧
    b.lease.live b.now taken.job.requestId = _ ∧
    InBeat _ _ _ b.now deadline h
  rw [hmove.now]
  rcases hb.of_set with ⟨rfl, hid, hp⟩ | ⟨hne, hold⟩
  · rcases hmove.leased hp ha hact with ⟨hfree, hpos, hlease⟩ |
      ⟨step', hphase, ha', hlease⟩
    · refine ⟨.sleep t.sys.broker.now,
        t.sys.broker.now + cfg.engine.streams.leaseDurationMs, ?_, ?_,
        inBeat_sleep _ _ _ _⟩
      · rw [follow_acquired hi hx hfree (hb.leased ha)]
        show some (Heartbeat.sleep b.now) = _
        rw [hmove.now]
      · have halive : t.sys.broker.now <
            t.sys.broker.now + cfg.engine.streams.leaseDurationMs := by omega
        rw [hlease, hid]
        simp [Timed.alive, halive]
    · obtain ⟨h, deadline, hh, hlive, hbeat⟩ := hP ⟨hi, hphase⟩ ha'
      have hleased : e.phase.leased = true := by
        rw [hphase, leased_working, ha']
        rfl
      refine ⟨h, deadline, ?_, ?_, hbeat⟩
      · rw [follow_leased hi hx hleased (hb.leased ha), hh]
      · rw [hlease, hid]
        exact hlive
  · obtain ⟨h, deadline, hh, hlive, hbeat⟩ := hP hold ha
    refine ⟨h, deadline, ?_, ?_, hbeat⟩
    · rw [follow_leased hold.1 hx (hold.leased ha) (hb.leased ha), hh]
    · refine hmove.lease_live hlive fun hphase ha' heq => ?_
      have hsame := leaseOwner_attempt heq
      rw [hsame] at ha'
      exact hne (hL.distinct hold ⟨hi, hphase⟩ (attemptOf_of_leased ha)
        (attemptOf_of_leased ha'))

/-- A step that touches neither engines nor leases nor the clock. -/
theorem punctual_frame (hP : Punctual cfg delay misses t) {s : Sys}
    (hengines : s.engines = t.sys.engines)
    (hnow : s.broker.now = t.sys.broker.now)
    (hlease : s.broker.lease = t.sys.broker.lease) :
    Punctual cfg delay misses ⟨s, t.follow s⟩ := by
  intro i e taken step a hb ha
  have hold : Busy t.sys.engines i e taken step := by
    rw [← hengines]
    exact hb
  obtain ⟨h, deadline, hh, hlive, hbeat⟩ := hP hold ha
  refine ⟨h, deadline, ?_, ?_, ?_⟩
  · exact (follow_leased hold.1 hb.1 (hold.leased ha) (hb.leased ha)).trans hh
  · show s.broker.lease.live s.broker.now _ = _
    rw [hnow, hlease]
    exact hlive
  · show InBeat _ _ _ s.broker.now deadline h
    rw [hnow]
    exact hbeat

/-- Time passes, as far as the heartbeats let it. -/
theorem punctual_tick (hP : Punctual cfg delay misses t)
    (hlong : (misses + 1) * (heartbeatMs + delay) <
      cfg.engine.streams.leaseDurationMs) {ms : Nat}
    (hon : onTime delay misses t (.sys (.tick ms)) = true) {s : Sys}
    (hs : s = { t.sys with
      broker := { t.sys.broker with now := t.sys.broker.now + ms } }) :
    Punctual cfg delay misses ⟨s, t.follow s⟩ := by
  subst hs
  intro i e taken step a hb ha
  have hold : Busy t.sys.engines i e taken step := hb
  obtain ⟨h, deadline, hh, hlive, hbeat⟩ := hP hold ha
  have hlt := (List.getElem?_eq_some_iff.mp hold.1).1
  have hwake := List.all_eq_true.mp hon i (List.mem_range.mpr hlt)
  rw [hh, decide_eq_true_eq] at hwake
  refine ⟨h, deadline, ?_, ?_, hbeat.few, hbeat.due, hwake⟩
  · exact (follow_leased hold.1 hb.1 (hold.leased ha) (hb.leased ha)).trans hh
  · exact Keyspace.live_eq_some.mpr ⟨(Keyspace.live_eq_some.mp hlive).1,
      decide_eq_true (hbeat.alive hlong hwake)⟩

theorem punctual_sys (hL : Leased cfg t.sys) (hP : Punctual cfg delay misses t)
    (hlong : (misses + 1) * (heartbeatMs + delay) <
      cfg.engine.streams.leaseDurationMs) {l : Label} {s : Sys}
    (hl : l.renews = false) (hon : onTime delay misses t (.sys l) = true)
    (h : Moves cfg t.sys l s) : Punctual cfg delay misses ⟨s, t.follow s⟩ := by
  cases h with
  | tick ms => exact punctual_tick hP hlong hon rfl
  | engine hi _ hmove =>
      refine punctual_move hL hP hi ?_ hmove rfl
      rintro rfl
      cases hl
  | _ => exact punctual_frame hP rfl rfl rfl

theorem Phase.exists_leased {p : Phase} (h : p.leased = true) :
    ∃ taken step a, p = .working taken step ∧ leasedAttempt step = some a := by
  unfold Phase.leased at h
  split at h
  · exact ⟨_, _, _, rfl, rfl⟩
  · exact ⟨_, _, _, rfl, rfl⟩
  · cases h

/-- A renewal that fails is in time again twenty seconds later. -/
theorem punctual_retry (hP : Punctual cfg delay misses t) {i : Nat}
    {h : Heartbeat} (hh : t.heartbeats i = some h)
    (hfew : h.failures < misses) :
    Punctual cfg delay misses
      { t with
        heartbeats := Function.update t.heartbeats i
          (some (h.retry t.sys.broker.now)) } := by
  intro j x taken step a hb ha
  obtain ⟨h', deadline, hh', hlive, hbeat⟩ := hP hb ha
  rcases eq_or_ne j i with rfl | hne
  · rw [hh] at hh'
    cases hh'
    exact ⟨_, deadline, Function.update_self .., hlive, hbeat.retry hfew⟩
  · refine ⟨h', deadline, ?_, hlive, hbeat⟩
    exact (Function.update_of_ne hne ..).trans hh'

/-- A renewal that succeeds starts the lease and the sleep anew. -/
theorem punctual_renew (hL : Leased cfg t.sys)
    (hP : Punctual cfg delay misses t) {i : Nat} {e : Engine}
    {taken : ConsumedJob} {step : JobStep} {a : Uuid}
    (hb : Busy t.sys.engines i e taken step)
    (ha : leasedAttempt step = some a) {s : Sys}
    (hs : s = { t.sys with
      broker := (t.sys.broker.renewLease cfg.engine.streams taken.job.requestId
        (leaseOwner e.engineId a)).2 }) :
    Punctual cfg delay misses
      ⟨s, Function.update t.heartbeats i (some (.sleep s.broker.now))⟩ := by
  obtain ⟨_, _, _, hlive, _⟩ := hP hb ha
  have hheld := hL.held hb ha
  have hnow : s.broker.now = t.sys.broker.now := by
    rw [hs, renewLease_frame]
  have hlease : s.broker.lease = t.sys.broker.lease.expire t.sys.broker.now
      taken.job.requestId cfg.engine.streams.leaseDurationMs := by
    rw [hs, Broker.renewLease, if_pos hheld]
  have hengines : s.engines = t.sys.engines := by rw [hs]
  intro j x taken' step' a' hb' ha'
  have hold : Busy t.sys.engines j x taken' step' := by
    rw [← hengines]
    exact hb'
  show ∃ h deadline, Function.update t.heartbeats i _ j = some h ∧
    s.broker.lease.live s.broker.now taken'.job.requestId = _ ∧
    InBeat _ _ _ s.broker.now deadline h
  rw [hlease, hnow]
  rcases eq_or_ne j i with rfl | hne
  · -- the same engine, in the same phase
    have hsame : e = x ∧ taken = taken' ∧ step = step' := by
      obtain ⟨he, hphase⟩ := hb
      obtain ⟨hx, hphase'⟩ := hold
      rw [he] at hx
      cases hx
      rw [hphase] at hphase'
      cases hphase'
      exact ⟨rfl, rfl, rfl⟩
    obtain ⟨rfl, rfl, rfl⟩ := hsame
    rw [ha] at ha'
    cases ha'
    have hpos := hL.possible hb ha
    have halive : t.sys.broker.now <
        t.sys.broker.now + cfg.engine.streams.leaseDurationMs := by omega
    refine ⟨.sleep t.sys.broker.now, _, Function.update_self .., ?_,
      inBeat_sleep _ _ _ _⟩
    rw [Keyspace.live_expire_self, hlive]
    simp [Timed.alive, halive]
  · have hother : taken'.job.requestId ≠ taken.job.requestId := by
      intro hid
      exact hne (hL.exclusive hold hb ha' ha hid)
    obtain ⟨h, deadline, hh, hlive', hbeat⟩ := hP hold ha'
    refine ⟨h, deadline, (Function.update_of_ne hne ..).trans hh, ?_, hbeat⟩
    rw [Keyspace.live_expire_ne _ _ _ _ hother]
    exact hlive'

/-- A heartbeat renews, or fails to. Under a lease it is never told that the
lease is somebody else's. -/
theorem punctual_beat (hL : Leased cfg t.sys)
    (hP : Punctual cfg delay misses t) {i : Nat} {answered : Bool}
    (hon : onTime delay misses t (.beat i answered) = true)
    (h : t.beat cfg i answered = some u) :
    Punctual cfg delay misses u ∧
      (u.sys = t.sys ∨
        t.sys.step cfg (.engine i .renewLease) = some u.sys) := by
  unfold TimedSys.beat at h
  split at h
  · next hb e hh he =>
      split at h
      · next hdue =>
          obtain ⟨taken, step, a, hphase, ha⟩ := Phase.exists_leased hdue.2
          have hbusy : Busy t.sys.engines i e taken step := ⟨he, hphase⟩
          cases answered with
          | true =>
              rw [if_pos rfl, step_renewLease hbusy ha] at h
              have hrenewed : renewed cfg.engine t.sys.broker e = true := by
                unfold renewed
                rw [hphase]
                cases step with
                | attempt | release =>
                    cases ha
                    exact renewLease_fst.mpr (hL.held hbusy rfl)
                | _ => cases ha
              dsimp only at h
              rw [hrenewed, if_pos rfl] at h
              cases h
              exact ⟨punctual_renew hL hP hbusy ha rfl,
                .inr (step_renewLease hbusy ha)⟩
          | false =>
              rw [if_neg (by decide)] at h
              cases h
              rw [onTime, hh, decide_eq_true_eq] at hon
              exact ⟨punctual_retry hP hh hon, .inl rfl⟩
      · cases h
  · cases h

/-- A timely step is a step of the system in which leases are kept, or none. -/
theorem punctual_step (hL : Leased cfg t.sys)
    (hP : Punctual cfg delay misses t)
    (hlong : (misses + 1) * (heartbeatMs + delay) <
      cfg.engine.streams.leaseDurationMs) {l : TimedLabel}
    (hon : onTime delay misses t l = true) (h : t.step cfg l = some u) :
    Punctual cfg delay misses u ∧
      (u.sys = t.sys ∨ ∃ label, leaseKept t.sys label = true ∧
        t.sys.step cfg label = some u.sys) := by
  cases l with
  | beat i answered =>
      obtain ⟨hpunctual, hsys⟩ := punctual_beat hL hP hon h
      exact ⟨hpunctual, hsys.imp_right fun hstep =>
        ⟨.engine i .renewLease, rfl, hstep⟩⟩
  | sys label =>
      rw [TimedSys.step] at h
      split at h
      · cases h
      · next hlabel =>
          split at h
          · cases h
          · next s hstep =>
              cases h
              exact ⟨punctual_sys hL hP hlong (Bool.eq_false_iff.mpr hlabel) hon
                (step_moves hstep), .inr ⟨label, hP.kept hlong hon, hstep⟩⟩

end

/-! ## Who speaks -/

/-- The attempts of the events of a request that do not end it, in the order of
the events. -/
def speakers (b : Broker) (requestId : String) : List String :=
  ((history b requestId).filter (!·.result.terminal)).map (·.result.attemptId)

theorem speakers_appendResult (b : Broker) (res : GenerationResult) :
    speakers (b.appendResult res).2 res.requestId =
      speakers b res.requestId ++
        if res.terminal then [] else [res.attemptId] := by
  rw [speakers, history_appendResult, List.filter_append, List.map_append,
    ← speakers]
  cases hterm : res.terminal with
  | true => simp [newEntry, hterm]
  | false => simp [newEntry, hterm]

theorem speakers_appendResult_ne (b : Broker) (res : GenerationResult)
    {r : String} (h : r ≠ res.requestId) :
    speakers (b.appendResult res).2 r = speakers b r := by
  rw [speakers, history_appendResult_ne b res h, speakers]

theorem speakers_recordResult (b : Broker) (cfg : StreamsConfig)
    (res : GenerationResult) (eventId : StreamId) (r : String) :
    speakers (b.recordResult cfg res eventId) r = speakers b r := by
  rw [speakers, history_recordResult, speakers]

/-- A terminal event has no speaker. -/
theorem speakers_terminal (b : Broker) (res : GenerationResult) (r : String)
    (h : res.terminal = true) :
    speakers (b.appendResult res).2 r = speakers b r := by
  rcases eq_or_ne r res.requestId with rfl | hne
  · rw [speakers_appendResult, if_pos h, List.append_nil]
  · exact speakers_appendResult_ne b res hne

/-- Only an engine under a lease speaks. -/
theorem Move.speaks {cfg : EngineConfig} {b b' : Broker} {e : Engine}
    {act : EngineAction} {p : Phase} (h : Move cfg b e act b' p) (r : String) :
    speakers b' r = speakers b r ∨
      ∃ taken step a, e.phase = .working taken step ∧
        leasedAttempt step = some a ∧ taken.job.requestId = r ∧
        speakers b' r = speakers b r ++ [a.text] := by
  cases h with
  | roam _ hb _ => rw [hb.frame]; exact .inl rfl
  | take _ hb _ _ => rw [hb.frame]; exact .inl rfl
  | failAppend hphase => exact .inl (speakers_terminal b _ r rfl)
  | @append taken a event hphase =>
      rcases eq_or_ne r taken.job.requestId with rfl | hne
      · have hspeak := speakers_appendResult b (resultOf taken.job a.text event)
        rw [resultOf_terminal] at hspeak
        cases hterm : event.terminal with
        | true =>
            rw [hterm, if_pos rfl, List.append_nil] at hspeak
            exact .inl hspeak
        | false =>
            rw [hterm, if_neg (by decide)] at hspeak
            exact .inr ⟨taken, _, a, hphase, rfl, rfl, hspeak⟩
      · exact .inl (speakers_appendResult_ne b _ hne)
  | @concludeAppend taken a result hphase =>
      exact .inl (speakers_terminal b _ r (conclusion_terminal _ _ _))
  | failRecord _ | record _ | concludeRecord _ =>
      exact .inl (speakers_recordResult _ _ _ _ _)
  | renew _ _ => rw [renewLease_frame]; exact .inl rfl
  | release _ => rw [releaseLease_frame]; exact .inl rfl
  | _ => exact .inl rfl

/-- An engine under a lease has drawn its attempt, just now or before. -/
theorem Move.leased_before {cfg : EngineConfig} {b b' : Broker} {e : Engine}
    {act : EngineAction} {p : Phase} {taken : ConsumedJob} {step : JobStep}
    {a : Uuid} (h : Move cfg b e act b' p) (hp : p = .working taken step)
    (ha : leasedAttempt step = some a) :
    (∃ step', e.phase = .working taken step' ∧ leasedAttempt step' = some a) ∨
      act.draws = some a := by
  cases h with
  | roam _ _ hidle | abandon _ _ hidle => exact absurd hp hidle.ne_working
  | take _ _ _ htakes => obtain ⟨job, _, rfl⟩ := htakes; cases hp; cases ha
  | crash | notAcquired | acknowledge => cases hp
  | acquired _ _ _ => cases hp; cases ha; exact .inr rfl
  | renew hphase _ => cases hp; exact .inl ⟨_, hphase, ha⟩
  | entered hphase | token hphase | ended hphase | append hphase
  | record hphase => cases hp; cases ha; exact .inl ⟨_, hphase, rfl⟩
  | _ => cases hp; cases ha

/-- Attempts speak in the order in which they were drawn. -/
structure InTurn (s : Sys) : Prop where
  drawnOnce : s.attempts.Nodup
  known : ∀ {r text}, text ∈ speakers s.broker r →
    ∃ b ∈ s.attempts, b.text = text
  turn : ∀ {r text i e taken step a}, text ∈ speakers s.broker r →
    Busy s.engines i e taken step → taken.job.requestId = r →
    leasedAttempt step = some a → ¬ Older s.attempts a text
  ordered : ∀ r, (speakers s.broker r).Pairwise fun x y =>
    ∀ a : Uuid, a.text = y → ¬ Older s.attempts a x

theorem inTurn_init (now : Nat) (engines : List (String × String)) :
    InTurn (Sys.init now engines) where
  drawnOnce := List.nodup_nil
  known hx := by cases hx
  turn _ hb := (not_busy_init hb).elim
  ordered _ := List.Pairwise.nil

theorem inTurn_move {cfg : SysConfig} {s : Sys} {i : Nat} {e : Engine}
    {act : EngineAction} {b : Broker} {p : Phase} (hL : Leased cfg s)
    (hI : InTurn s) (hi : s.engines[i]? = some e)
    (hdraw : ∀ a ∈ act.draws, a ∉ s.attempts)
    (hmove : Move cfg.engine s.broker e act b p) :
    InTurn { s with
      broker := b
      engines := s.engines.set i { e with phase := p }
      attempts := act.draws.toList ++ s.attempts } where
  drawnOnce := by
    cases hd : act.draws with
    | none => exact hI.drawnOnce
    | some c => exact List.nodup_cons.mpr ⟨hdraw c hd, hI.drawnOnce⟩
  known {r text} hx := by
    rcases hmove.speaks r with h | ⟨taken, step, a, hphase, ha, rfl, h⟩
    · rw [h] at hx
      obtain ⟨c, hc, htext⟩ := hI.known hx
      exact ⟨c, List.mem_append_right _ hc, htext⟩
    · rw [h] at hx
      rcases List.mem_append.mp hx with hx | hx
      · obtain ⟨c, hc, htext⟩ := hI.known hx
        exact ⟨c, List.mem_append_right _ hc, htext⟩
      · refine ⟨a, List.mem_append_right _ ?_, (List.mem_singleton.mp hx).symm⟩
        exact hL.drawn ⟨hi, hphase⟩ (attemptOf_of_leased ha)
  turn {r text j x taken step a} hx hb hr ha := by
    subst hr
    -- who has spoken before the move is not younger than who is leased after
    have hspoken : ∀ {text}, text ∈ speakers s.broker taken.job.requestId →
        ¬ Older (act.draws.toList ++ s.attempts) a text := by
      intro text hx holder
      have hold := older_of_draws hdraw (hI.known hx) holder
      rcases hb.of_set with ⟨_, _, hp⟩ | ⟨_, hb⟩
      · rcases hmove.leased_before hp ha with ⟨step', hphase, ha'⟩ | hd
        · exact hI.turn hx ⟨hi, hphase⟩ rfl ha' hold
        · exact hdraw a hd hold.mem
      · exact hI.turn hx hb rfl ha hold
    rcases hmove.speaks taken.job.requestId with h |
      ⟨taken', step', a', hphase, ha', hid, h⟩
    · rw [h] at hx
      exact hspoken hx
    · rw [h] at hx
      rcases List.mem_append.mp hx with hx | hx
      · exact hspoken hx
      · rw [List.mem_singleton.mp hx]
        have hdrawn : ∃ c ∈ s.attempts, c.text = a'.text :=
          ⟨a', hL.drawn ⟨hi, hphase⟩ (attemptOf_of_leased ha'), rfl⟩
        intro holder
        have hold := older_of_draws hdraw hdrawn holder
        rcases hb.of_set with ⟨_, _, hp⟩ | ⟨hne, hb⟩
        · rcases hmove.leased_before hp ha with ⟨step'', hphase', ha''⟩ | hd
          · -- the speaker itself
            rw [hphase] at hphase'
            cases hphase'
            rw [ha'] at ha''
            cases ha''
            exact not_older_self hI.drawnOnce _ hold
          · exact hdraw a hd hold.mem
        · exact hne (hL.exclusive hb ⟨hi, hphase⟩ ha ha' hid.symm)
  ordered r := by
    have hkept : (speakers s.broker r).Pairwise fun x y => ∀ a : Uuid,
        a.text = y → ¬ Older (act.draws.toList ++ s.attempts) a x := by
      refine (hI.ordered r).imp_of_mem ?_
      intro x y hx hy h a ha holder
      exact h a ha (older_of_draws hdraw (hI.known hx) holder)
    show (speakers b r).Pairwise _
    rcases hmove.speaks r with h | ⟨taken, step, a, hphase, ha, rfl, h⟩
    · rw [h]
      exact hkept
    · rw [h, List.pairwise_append]
      refine ⟨hkept, List.pairwise_singleton .., ?_⟩
      intro x hx y hy a' ha' holder
      rw [List.mem_singleton.mp hy] at ha'
      rw [Uuid.text_inj ha'] at holder
      exact hI.turn hx ⟨hi, hphase⟩ rfl ha
        (older_of_draws hdraw (hI.known hx) holder)

theorem inTurn_step {cfg : SysConfig} {s u : Sys} {l : Label}
    (hL : Leased cfg s) (hI : InTurn s) (h : Moves cfg s l u) : InTurn u := by
  cases h with
  | engine hi hdraw hmove => exact inTurn_move hL hI hi hdraw hmove
  | _ => exact ⟨hI.drawnOnce, hI.known, hI.turn, hI.ordered⟩

/-! ## Blocks -/

/-- Equal elements stand together. -/
def InBlocks {α : Type} (l : List α) : Prop :=
  ∀ pre x mid post, l = pre ++ x :: (mid ++ x :: post) → ∀ z ∈ mid, z = x

theorem Older.trichotomy {attempts : List Uuid} {a c : Uuid}
    (ha : a ∈ attempts) (hc : c ∈ attempts) :
    a = c ∨ Older attempts a c.text ∨ Older attempts c a.text := by
  obtain ⟨newer, older, rfl⟩ := List.append_of_mem ha
  rcases List.mem_append.mp hc with hc | hc
  · obtain ⟨first, rest, rfl⟩ := List.append_of_mem hc
    refine .inr (.inl ⟨first, c, rest ++ a :: older, by simp, rfl, ?_⟩)
    simp
  · rcases List.mem_cons.mp hc with rfl | hc
    · exact .inl rfl
    · exact .inr (.inr ⟨newer, a, older, rfl, rfl, hc⟩)

/-- Who speaks in turn speaks in one go. -/
theorem InTurn.blocks {s : Sys} (hI : InTurn s) (r : String) :
    InBlocks (speakers s.broker r) := by
  intro pre x mid post hsplit z hz
  have hordered := hI.ordered r
  have hx : x ∈ speakers s.broker r := by rw [hsplit]; simp
  have hz' : z ∈ speakers s.broker r := by rw [hsplit]; simp [hz]
  rw [hsplit, List.pairwise_append, List.pairwise_cons, List.pairwise_append]
    at hordered
  obtain ⟨-, ⟨hfirst, -, -, hlast⟩, -⟩ := hordered
  obtain ⟨a, ha, rfl⟩ := hI.known hx
  obtain ⟨c, hc, rfl⟩ := hI.known hz'
  rcases Older.trichotomy ha hc with rfl | holder | holder
  · rfl
  · exact absurd holder (hlast c.text hz a.text List.mem_cons_self a rfl)
  · exact absurd holder (hfirst c.text (List.mem_append_left _ hz) c rfl)

/-- In every run in which heartbeats are at most `delay` late, at most `misses`
of them in a row fail, and the lease is longer than that takes: whatever else
crashes, fails or is redelivered, every engine that has acquired a lease and
not begun to release it still has it, and a heartbeat; it has the lease until
the release is carried out, if that is on time as well; no two have the lease of
one request; and of every request the `AttemptStarted` and token events ever
appended come in blocks, one for each attempt. -/
theorem heartbeats_keep_attempts_apart (cfg : SysConfig) (now : Nat)
    (engines : List (String × String)) (delay misses : Nat)
    (hlong : (misses + 1) * (heartbeatMs + delay) <
      cfg.engine.streams.leaseDurationMs)
    (t : TimedSys)
    (hrun : Run (TimedSys.step cfg)
      (fun t l => onTime delay misses t l = true) (.init now engines) t) :
    (∀ i e taken step a, Busy t.sys.engines i e taken step →
      leasedAttempt step = some a →
      t.sys.broker.lease.get t.sys.broker.now taken.job.requestId =
          some (leaseOwner e.engineId a) ∧ (t.heartbeats i).isSome ∧
        ∀ j x taken' step' a', Busy t.sys.engines j x taken' step' →
          leasedAttempt step' = some a' →
          taken'.job.requestId = taken.job.requestId → j = i) ∧
    ∀ r, InBlocks (speakers t.sys.broker r) := by
  have hI := hrun.invariant
    (I := fun t => Leased cfg t.sys ∧ InTurn t.sys ∧
      Punctual cfg delay misses t)
    ⟨leased_init cfg now engines, inTurn_init now engines,
      punctual_init now engines⟩
    (by
      rintro t u l ⟨hL, hT, hP⟩ hon hstep
      obtain ⟨hpunctual, hsame | ⟨label, hkept, hlabel⟩⟩ :=
        punctual_step hL hP hlong hon hstep
      · rw [hsame]
        exact ⟨hL, hT, hpunctual⟩
      · have hm := step_moves hlabel
        exact ⟨leased_step hL hkept hm, inTurn_step hL hT hm, hpunctual⟩)
  obtain ⟨hL, hT, hP⟩ := hI
  refine ⟨?_, hT.blocks⟩
  intro i e taken step a hb ha
  obtain ⟨h, deadline, hh, -, -⟩ := hP hb ha
  refine ⟨hL.held hb ha, by rw [hh]; rfl, ?_⟩
  intro j x taken' step' a' hb' ha' hid
  exact hL.exclusive hb' hb ha' ha hid

/-- Engine `i` publishes a token. -/
def spoken (i : Nat) : List Label :=
  [.engine i (.token ⟨"hi", 1⟩), .engine i .command, .engine i .command]

/-- One renewal of the first engine fails and the next is as late as can be;
then it crashes, and the second takes over when the lease has run out. -/
def beaten : List TimedLabel :=
  (dispatched ++ started 0 (sampleUuid 0) 1000 ++ spoken 0).map .sys ++
    [.sys (.tick 20000), .beat 0 false, .sys (.tick 29999), .beat 0 true,
      .sys (.tick 20000), .beat 0 true] ++
    (.engine 0 .crash :: .tick 60000 :: .engine 1 .poll ::
      .engine 1 (.reclaim (some 0)) ::
      (started 1 (sampleUuid 1) 131000 ++ spoken 1)).map .sys

theorem heartbeats_keep_attempts_apart_late :
    ∃ t, Run (TimedSys.step sampleConfig)
        (fun t l => onTime 9999 1 t l = true)
        (.init 1000 [("e1", "m"), ("e2", "m")]) t ∧
      speakers t.sys.broker "r" =
        [(sampleUuid 0).text, (sampleUuid 0).text, (sampleUuid 1).text,
          (sampleUuid 1).text] ∧
      InBlocks (speakers t.sys.broker "r") := by
  obtain ⟨t, hrun, hspeakers⟩ := run_of_exec_map (TimedSys.step sampleConfig)
    (fun t l => onTime 9999 1 t l = true) (onTime 9999 1)
    (.init 1000 [("e1", "m"), ("e2", "m")]) beaten
    (fun t => speakers t.sys.broker "r")
    (b := [(sampleUuid 0).text, (sampleUuid 0).text, (sampleUuid 1).text,
      (sampleUuid 1).text])
    (fun _ _ h => h) (by decide)
  exact ⟨t, hrun, hspeakers, (heartbeats_keep_attempts_apart sampleConfig 1000 _
    9999 1 (by decide) t hrun).2 "r"⟩

end DataPlane.Proofs
