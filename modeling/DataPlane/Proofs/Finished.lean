import DataPlane.Proofs.Attempts

/-!
# Whether a finished generation stays finished

A redelivered entry is turned away by the status: an engine that reads
`completed` acknowledges without another attempt. The hash is written by two
processes, though, and neither looks at what is there. A call adds its job to
the request stream first and writes `queued` afterwards; an engine that was
fast enough has written `completed` by then, and the late pipeline takes it
back.

Nothing else does. When `publish_result` has returned from a terminal event and
no other engine is on its way into an attempt or inside one, the status reads
`completed` until it expires, in every continuation whatsoever, exactly if the
call has its pipeline behind it. The only exceptions are times to live of zero,
with which the status is gone as soon as it is written.
-/

namespace DataPlane.Proofs

open DataPlane DataPlane.Lib DataPlane.Ref

/-- The engine is about to make an attempt or is in the middle of one. -/
def attempting : JobStep → Bool
  | .acquire | .attempt _ _ | .release _ _ | .settle _ _ | .conclude _ _ _ =>
      true
  | _ => false

/-- The next command is the last one of `publish_result` for a terminal
event. -/
def recordsTerminal : JobStep → Bool
  | .failExpired (.record _) | .conclude _ _ (.record _) => true
  | _ => false

/-- `publish_result` of a terminal event of the request returns to engine `i`
in this step. -/
structure Returns (cfg : SysConfig) (s : Sys) (i : Nat) (requestId : String)
    (t : Sys) : Prop where
  publishing : ∃ e taken step, Busy s.engines i e taken step ∧
    taken.job.requestId = requestId ∧ recordsTerminal step = true
  step : Sys.step cfg s (.engine i .command) = some t

/-- The status key exists. -/
def statusExists (s : Sys) (requestId : String) : Bool :=
  (s.broker.status.live s.broker.now requestId).isSome

/-- `StreamsClient::status` reports `completed`. -/
def completed (s : Sys) (requestId : String) : Bool :=
  match s.broker.statusOf requestId with
  | some status => status.state = .completed
  | none => false

/-- The call of the request has not written its status yet. -/
def awaitsQueue (s : Sys) (requestId : String) : Bool :=
  match s.calls requestId with
  | some ⟨_, .queue _⟩ => true
  | _ => false

/-! ## The status keyspace -/

theorem completed_of_live {s : Sys} {r : String} {cell : Timed StatusHash}
    (h : s.broker.status.live s.broker.now r = some cell)
    (hstate : cell.value.state = some .completed) : completed s r = true := by
  simp [completed, Broker.statusOf, Keyspace.get, h, hstate]

theorem not_completed_of_live {s : Sys} {r : String} {cell : Timed StatusHash}
    {state : GenerationState}
    (h : s.broker.status.live s.broker.now r = some cell)
    (hstate : cell.value.state = some state) (hne : state ≠ .completed) :
    completed s r = false := by
  simp [completed, Broker.statusOf, Keyspace.get, h, hstate, hne]

theorem completed_eq_true {s : Sys} {r : String} (h : completed s r = true) :
    ∃ st, s.broker.statusOf r = some st ∧ st.state = .completed := by
  unfold completed at h
  split at h
  · next st hst => exact ⟨st, hst, by simpa using h⟩
  · cases h

theorem live_recordQueued (b : Broker) (cfg : StreamsConfig)
    (job : GenerationJob) (entryId : StreamId) :
    ∃ hash, hash.state = some GenerationState.queued ∧
      (b.recordQueued cfg job entryId).status.live b.now job.requestId =
        (some (⟨hash, some (b.now + cfg.activeTtlMs)⟩ :
          Timed StatusHash)).filter (·.alive b.now) := by
  refine ⟨_, ?_, by simp [Broker.recordQueued, Broker.setStatus]; rfl⟩
  rfl

theorem statusExists_of_eq {s : Sys} {r : String}
    (h : statusExists s r = true) :
    ∃ cell, s.broker.status.live s.broker.now r = some cell :=
  Option.isSome_iff_exists.mp h

/-! ## One step of an engine -/

/-- The status of a request is left alone by an engine, or it was in the middle
of an attempt, or what it leaves reads `completed`. -/
theorem Move.status_effect {cfg : EngineConfig} {b b' : Broker} {e : Engine}
    {act : EngineAction} {p : Phase} (h : Move cfg b e act b' p) (r : String) :
    b'.status.live b.now r = b.status.live b.now r ∨
    (∃ taken step, e.phase = .working taken step ∧
      taken.job.requestId = r ∧ attempting step = true) ∨
    ∀ cell, b'.status.live b.now r = some cell →
      cell.value.state = some .completed := by
  cases h with
  | roam _ hb _ => rw [hb.frame]; exact .inl rfl
  | take _ hb _ _ => rw [hb.frame]; exact .inl rfl
  | @failRecord taken eventId hphase =>
      rcases eq_or_ne r taken.job.requestId with rfl | hne
      · refine .inr (.inr fun cell hcell => ?_)
        obtain ⟨hash, hstate, hlive⟩ := live_recordResult_status b cfg.streams
          (deadlineFailure e.engineId taken.job) eventId
        rw [show taken.job.requestId =
          (deadlineFailure e.engineId taken.job).requestId from rfl, hlive,
          Option.filter_eq_some_iff] at hcell
        cases hcell.1
        exact hstate
      · exact .inl (live_recordResult_status_ne b _ _ _ _ hne)
  | @record taken a event eventId hphase =>
      rcases eq_or_ne r taken.job.requestId with rfl | hne
      · exact .inr (.inl ⟨_, _, hphase, rfl, rfl⟩)
      · exact .inl (live_recordResult_status_ne b _ _ _ _ hne)
  | @concludeRecord taken a result eventId hphase =>
      rcases eq_or_ne r taken.job.requestId with rfl | hne
      · exact .inr (.inl ⟨_, _, hphase, rfl, rfl⟩)
      · rw [← conclusion_requestId taken.job a result] at hne
        exact .inl (live_recordResult_status_ne b _ _ _ _ hne)
  | renew _ _ => rw [renewLease_frame]; exact .inl rfl
  | release _ => rw [releaseLease_frame]; exact .inl rfl
  | _ => exact .inl rfl

/-- An engine comes to an attempt only past a status that is not
`completed`. -/
theorem Move.attempting_of {cfg : EngineConfig} {b b' : Broker} {e : Engine}
    {act : EngineAction} {p : Phase} {taken : ConsumedJob} {step : JobStep}
    (h : Move cfg b e act b' p) (hp : p = .working taken step)
    (hx : attempting step = true) :
    (∃ step', e.phase = .working taken step' ∧ attempting step' = true) ∨
      ∀ st, b.statusOf taken.job.requestId = some st →
        st.state ≠ .completed := by
  cases h with
  | roam _ _ hidle | abandon _ _ hidle => exact absurd hp hidle.ne_working
  | take _ _ _ htakes => obtain ⟨job, _, rfl⟩ := htakes; cases hp; cases hx
  | crash | notAcquired | acknowledge => cases hp
  | notDone _ hstatus => cases hp; exact .inr hstatus
  | renew hphase _ => cases hp; exact .inl ⟨_, hphase, hx⟩
  | acquired hphase | entered hphase | token hphase | ended hphase
  | append hphase | record hphase | release hphase | settle hphase
  | concludeAppend hphase => cases hp; exact .inl ⟨_, hphase, rfl⟩
  | _ => cases hp; cases hx

/-! ## Continuations -/

/-- The call has been sent, and its pipeline is behind it or leaves nothing. -/
def Sent (cfg : SysConfig) (calls : String → Option Call) (r : String) : Prop :=
  ∃ job step, calls r = some ⟨job, step⟩ ∧ step ≠ .publish ∧
    ((∀ entryId, step ≠ .queue entryId) ∨
      cfg.engine.streams.activeTtlMs = 0)

theorem Sent.update {cfg : SysConfig} {calls : String → Option Call}
    {r r' : String} {c : Call} (h : Sent cfg calls r)
    (hself : r' = r → c.step ≠ .publish ∧ ∀ entryId, c.step ≠ .queue entryId) :
    Sent cfg (Function.update calls r' (some c)) r := by
  rcases eq_or_ne r r' with rfl | hne
  · obtain ⟨hpub, hqueue⟩ := hself rfl
    exact ⟨c.job, c.step, by simp, hpub, .inl hqueue⟩
  · unfold Sent
    rw [Function.update_of_ne hne]
    exact h

/-- What carries a finished request from step to step. -/
structure Finished (cfg : SysConfig) (r : String) (s : Sys) : Prop where
  status : statusExists s r = true → completed s r = true
  idle : ∀ {i e taken step}, Busy s.engines i e taken step →
    taken.job.requestId = r → attempting step = false
  call : Sent cfg s.calls r

theorem completed_congr {s t : Sys} {r : String}
    (h : t.broker.status.live t.broker.now r =
      s.broker.status.live s.broker.now r) : completed t r = completed s r := by
  simp only [completed, statusOf_congr h]

theorem finished_move {cfg : SysConfig} {r : String} {s : Sys} {i : Nat}
    {e : Engine} {act : EngineAction} {b : Broker} {p : Phase}
    {attempts : List Uuid} (hI : Finished cfg r s)
    (hexists : statusExists s r = true) (hi : s.engines[i]? = some e)
    (hmove : Move cfg.engine s.broker e act b p) :
    Finished cfg r { s with
      broker := b
      engines := s.engines.set i { e with phase := p }
      attempts := attempts } := by
  have hdone := hI.status hexists
  refine ⟨fun hex => ?_, fun hb hid => ?_, hI.call⟩
  · obtain ⟨cell, hcell⟩ := statusExists_of_eq hex
    rcases hmove.status_effect r with h | ⟨taken, step, hphase, hid, hx⟩ | h
    · rw [← hdone]
      refine completed_congr ?_
      show b.status.live b.now r = _
      rw [hmove.now, h]
    · rw [hI.idle ⟨hi, hphase⟩ hid] at hx
      cases hx
    · refine completed_of_live hcell (h cell ?_)
      rw [← hmove.now]
      exact hcell
  · rcases hb.of_set with ⟨_, _, hp⟩ | ⟨_, hb⟩
    · refine Bool.eq_false_iff.mpr fun hx => ?_
      rcases hmove.attempting_of hp hx with ⟨y, hphase, hy⟩ | hnot
      · rw [hI.idle ⟨hi, hphase⟩ hid] at hy
        cases hy
      · obtain ⟨st, hst, hcomp⟩ := completed_eq_true hdone
        exact hnot st (hid ▸ hst) hcomp
    · exact hI.idle hb hid

theorem finished_step {cfg : SysConfig} {r : String} {s t : Sys} {l : Label}
    (hS : Sourced s) (hI : Finished cfg r s)
    (hexists : statusExists s r = true) (h : Moves cfg s l t) :
    Finished cfg r t := by
  have hdone := hI.status hexists
  obtain ⟨job, step, hcall, hpub, hqueue⟩ := hI.call
  cases h with
  | tick ms =>
      refine ⟨fun hex => ?_, hI.idle, hI.call⟩
      obtain ⟨cell, hcell⟩ := statusExists_of_eq hex
      have hlive := Keyspace.live_of_le (Nat.le_add_right s.broker.now ms) hcell
      rw [← hdone]
      exact completed_congr (hcell.trans hlive.symm)
  | refused | foreign => exact ⟨fun _ => hdone, hI.idle, hI.call⟩
  | @reserved job' _ _ _ _ _ _ hnone =>
      refine ⟨fun _ => hdone, hI.idle, hI.call.update fun heq => ?_⟩
      rw [heq, hcall] at hnone
      cases hnone
  | @dispatch r' job' hpublish =>
      refine ⟨fun _ => hdone, hI.idle, hI.call.update fun heq => ?_⟩
      rw [heq, hcall] at hpublish
      cases hpublish
      exact absurd rfl hpub
  | failDispatch | cancelDispatch =>
      exact ⟨fun _ => hdone, hI.idle,
        hI.call.update fun _ => ⟨nofun, fun _ => nofun⟩⟩
  | @queue r' job' entryId hq =>
      refine ⟨fun hex => ?_, hI.idle,
        hI.call.update fun _ => ⟨nofun, fun _ => nofun⟩⟩
      obtain ⟨rfl, _⟩ := hS.call_unique hq
      rcases eq_or_ne r job'.requestId with rfl | hne
      · -- The pipeline runs after all: then the status is gone at once.
        rw [hcall] at hq
        cases hq
        have hzero := hqueue.resolve_left fun h => h _ rfl
        obtain ⟨cell, hcell⟩ := statusExists_of_eq hex
        obtain ⟨hash, _, hlive⟩ := live_recordQueued s.broker
          cfg.engine.streams job entryId
        obtain ⟨hc, halive⟩ :=
          Option.filter_eq_some_iff.mp (hlive.symm.trans hcell)
        cases hc
        simp [hzero, Timed.alive] at halive
      · rw [← hdone]
        refine completed_congr ?_
        simp [Sys.setCall, Broker.recordQueued, Broker.setStatus, hne]
  | engine hi _ hmove => exact finished_move hI hexists hi hmove

/-! ## The return of a terminal publish -/

/-- Both terminal publishes end in the same way. -/
theorem engineStep_recordsTerminal (cfg : EngineConfig) (b : Broker)
    {e : Engine} {taken : ConsumedJob} {step : JobStep}
    (hphase : e.phase = .working taken step)
    (h : recordsTerminal step = true) :
    ∃ res eventId, res.requestId = taken.job.requestId ∧
      res.terminal = true ∧
      engineStep cfg b e .command =
        some (b.recordResult cfg.streams res eventId,
          .working taken .acknowledge) := by
  unfold recordsTerminal at h
  split at h
  · exact ⟨_, _, rfl, rfl, by simp [engineStep, hphase, jobCommand]; rfl⟩
  · exact ⟨_, _, conclusion_requestId _ _ _, conclusion_terminal _ _ _,
      by simp [engineStep, hphase, jobCommand]; rfl⟩
  · cases h

/-- What the last command of a terminal publish leaves: the engine has nothing
left but the acknowledgement, and the status reads `completed` unless it is
gone already. -/
theorem Returns.spec {cfg : SysConfig} {s t : Sys} {i : Nat} {r : String}
    (h : Returns cfg s i r t) :
    t.calls = s.calls ∧
    (∀ {e taken step}, Busy t.engines i e taken step →
      attempting step = false) ∧
    ∃ hash, hash.state = some GenerationState.completed ∧
      t.broker.status.live t.broker.now r =
        (some (⟨hash, some (t.broker.now +
          cfg.engine.streams.resultRetentionMs)⟩ : Timed StatusHash)).filter
          (·.alive t.broker.now) := by
  obtain ⟨⟨e, taken, step, ⟨hi, hphase⟩, rfl, hrec⟩, hstep⟩ := h
  obtain ⟨res, eventId, hid, hterm, hengine⟩ :=
    engineStep_recordsTerminal cfg.engine s.broker hphase hrec
  simp only [Sys.step, hi, EngineAction.draws, Option.any_none,
    Bool.false_eq_true, if_false, Sys.engineMove, hengine,
    Option.some.injEq] at hstep
  subst hstep
  refine ⟨rfl, fun hb => ?_, ?_⟩
  · rcases hb.of_set with ⟨_, _, hp⟩ | ⟨hne, _⟩
    · cases hp
      rfl
    · exact (hne rfl).elim
  · obtain ⟨hash, hstate, hlive⟩ :=
      live_recordResult_status s.broker cfg.engine.streams res eventId
    rw [stateAfter, hterm] at hstate
    rw [hid, ttlOf, hterm] at hlive
    exact ⟨hash, hstate, hlive⟩

theorem attemptOf_of_not_attempting {step : JobStep}
    (h : attempting step = false) : attemptOf step = none := by
  cases step with
  | acquire | attempt | release | settle | conclude => cases h
  | _ => rfl

/-- What is promised of every state after the return: the status reads
`completed` while it exists, no engine is in an attempt, and one that reads
the status goes on to acknowledge. -/
structure StaysFinished (cfg : SysConfig) (r : String) (s : Sys) : Prop where
  status : statusExists s r = true → completed s r = true
  noAttempt : ∀ {i e taken step}, Busy s.engines i e taken step →
    taken.job.requestId = r → attemptOf step = none
  acknowledged : ∀ {i e taken t}, statusExists s r = true →
    Busy s.engines i e taken .checkStatus → taken.job.requestId = r →
    Sys.step cfg s (.engine i .command) = some t →
    ∃ x, Busy t.engines i x taken .acknowledge

theorem acknowledge_of_completed {cfg : SysConfig} {s t : Sys} {i : Nat}
    {e : Engine} {taken : ConsumedJob}
    (hb : Busy s.engines i e taken .checkStatus)
    (hdone : completed s taken.job.requestId = true)
    (hstep : Sys.step cfg s (.engine i .command) = some t) :
    ∃ x, Busy t.engines i x taken .acknowledge := by
  obtain ⟨hi, hphase⟩ := hb
  obtain ⟨st, hst, hcomp⟩ := completed_eq_true hdone
  simp only [Sys.step, hi, EngineAction.draws, Option.any_none,
    Bool.false_eq_true, if_false, Sys.engineMove, engineStep, hphase,
    jobCommand, hst, hcomp, if_true, Option.some.injEq] at hstep
  subst hstep
  have hlt := (List.getElem?_eq_some_iff.mp hi).1
  exact ⟨_, List.getElem?_set_self hlt, rfl⟩

theorem Finished.stays {cfg : SysConfig} {r : String} {s : Sys}
    (h : Finished cfg r s) : StaysFinished cfg r s where
  status := h.status
  noAttempt hb hid := attemptOf_of_not_attempting (h.idle hb hid)
  acknowledged hex hb hid hstep := by
    subst hid
    exact acknowledge_of_completed hb (h.status hex) hstep

/-- The state a terminal publish returns in. -/
structure JustReturned (cfg : SysConfig) (r : String) (t : Sys) : Prop where
  sourced : Sourced t
  call : ∃ job step, t.calls r = some ⟨job, step⟩ ∧ step ≠ .publish
  idle : ∀ {i e taken step}, Busy t.engines i e taken step →
    taken.job.requestId = r → attempting step = false
  status : ∃ hash, hash.state = some GenerationState.completed ∧
    t.broker.status.live t.broker.now r =
      (some (⟨hash, some (t.broker.now +
        cfg.engine.streams.resultRetentionMs)⟩ : Timed StatusHash)).filter
        (·.alive t.broker.now)

theorem Returns.justReturned {cfg : SysConfig} {s t : Sys} {i : Nat}
    {r : String} (hS : Sourced s) (hret : Returns cfg s i r t)
    (hone : elsewhere t i r attempting = false) : JustReturned cfg r t := by
  obtain ⟨hcalls, hself, hstatus⟩ := hret.spec
  obtain ⟨e, taken, step, hb, hid, _⟩ := hret.publishing
  refine ⟨sourced_step hS (step_moves hret.step), ?_, fun hx hr => ?_, hstatus⟩
  · obtain ⟨callStep, hcall, hsent⟩ := hS.engines hb
    rw [hid, ← hcalls] at hcall
    exact ⟨_, callStep, hcall, hsent⟩
  · rename_i j x taken' step'
    rcases eq_or_ne j i with rfl | hne
    · exact hself hx
    · exact hx.not_elsewhere hne (hr ▸ hone)

theorem JustReturned.completed_of_exists {cfg : SysConfig} {r : String}
    {t : Sys} (h : JustReturned cfg r t) (hex : statusExists t r = true) :
    completed t r = true := by
  obtain ⟨hash, hstate, hlive⟩ := h.status
  obtain ⟨cell, hcell⟩ := statusExists_of_eq hex
  refine completed_of_live hcell ?_
  rw [hlive, Option.filter_eq_some_iff] at hcell
  cases hcell.1
  exact hstate

/-- A call that has its pipeline behind it, or one that leaves nothing, cannot
take the status back. -/
theorem JustReturned.finished {cfg : SysConfig} {r : String} {t : Sys}
    (h : JustReturned cfg r t)
    (hcond : awaitsQueue t r = false ∨ cfg.engine.streams.activeTtlMs = 0) :
    Finished cfg r t := by
  obtain ⟨job, step, hcall, hpub⟩ := h.call
  refine ⟨h.completed_of_exists, h.idle, job, step, hcall, hpub, ?_⟩
  refine hcond.imp_left fun hno entryId heq => ?_
  rw [heq] at hcall
  simp [awaitsQueue, hcall] at hno

theorem Finished.run {cfg : SysConfig} {r : String} {t u : Sys}
    (hS : Sourced t) (h : Finished cfg r t)
    (hu : Run (Sys.step cfg) (fun v _ => statusExists v r = true) t u) :
    Finished cfg r u := by
  have hI := hu.invariant (I := fun v => Sourced v ∧ Finished cfg r v) ⟨hS, h⟩
    fun ⟨hS, hF⟩ hex hstep =>
      have hm := step_moves hstep
      ⟨sourced_step hS hm, finished_step hS hF hex hm⟩
  exact hI.2

/-- Without retention there is no status to lose. -/
theorem JustReturned.run_of_gone {cfg : SysConfig} {r : String} {t u : Sys}
    (h : JustReturned cfg r t)
    (hzero : cfg.engine.streams.resultRetentionMs = 0)
    (hu : Run (Sys.step cfg) (fun v _ => statusExists v r = true) t u) :
    u = t ∧ statusExists t r = false := by
  have hgone : statusExists t r = false := by
    obtain ⟨hash, _, hlive⟩ := h.status
    rw [statusExists, hlive, hzero]
    simp [Timed.alive]
  refine ⟨hu.invariant (I := fun v => v = t) rfl fun heq hex _ => ?_, hgone⟩
  rw [heq, hgone] at hex
  cases hex

/-- The pipeline of a call that comes now takes the status back. -/
theorem call_of_awaitsQueue {s : Sys} {r : String}
    (h : awaitsQueue s r = true) :
    ∃ job entryId, s.calls r = some ⟨job, .queue entryId⟩ := by
  unfold awaitsQueue at h
  split at h
  · next job entryId hcall => exact ⟨job, entryId, hcall⟩
  · cases h

theorem JustReturned.queue_takes_back {cfg : SysConfig} {r : String} {t : Sys}
    (h : JustReturned cfg r t) (hawaits : awaitsQueue t r = true)
    (hactive : cfg.engine.streams.activeTtlMs ≠ 0)
    (hretention : cfg.engine.streams.resultRetentionMs ≠ 0) :
    ∃ u, Run (Sys.step cfg) (fun v _ => statusExists v r = true) t u ∧
      statusExists u r = true ∧ completed u r = false := by
  obtain ⟨job, entryId, hcall⟩ := call_of_awaitsQueue hawaits
  have hex : statusExists t r = true := by
    obtain ⟨hash, _, hlive⟩ := h.status
    rw [statusExists, hlive]
    simp [Timed.alive, Nat.pos_of_ne_zero hretention]
  obtain ⟨rfl, _⟩ := h.sourced.call_unique hcall
  obtain ⟨hash, hstate, hlive⟩ := live_recordQueued t.broker
    cfg.engine.streams job entryId
  have halive : (⟨hash, some (t.broker.now +
      cfg.engine.streams.activeTtlMs)⟩ : Timed StatusHash).alive
      t.broker.now = true := by
    simp [Timed.alive, Nat.pos_of_ne_zero hactive]
  rw [Option.filter_some, if_pos halive] at hlive
  dsimp only at hcall hex
  refine ⟨_, Run.single (l := .queue job.requestId) hex
    (by simp only [Sys.step, hcall]; rfl), ?_, ?_⟩
  · exact Option.isSome_iff_exists.mpr ⟨_, hlive⟩
  · exact not_completed_of_live hlive hstate (by decide)

/-- Let `publish_result` of a terminal event return, with no other engine in an
attempt of the request or about to begin one. In every state reached from there
until the status expires the request stays finished, if and only if the call
is not still to write its status, unless a time to live of zero does away with
the status first. -/
theorem finished_iff (cfg : SysConfig) (now : Nat)
    (engines : List (String × String)) (s t : Sys) (i : Nat) (r : String)
    (h : Run (Sys.step cfg) (fun _ _ => True) (Sys.init now engines) s)
    (hret : Returns cfg s i r t) (hone : elsewhere t i r attempting = false) :
    (∀ u, Run (Sys.step cfg) (fun v _ => statusExists v r = true) t u →
      StaysFinished cfg r u) ↔
    awaitsQueue t r = false ∨ cfg.engine.streams.activeTtlMs = 0 ∨
      cfg.engine.streams.resultRetentionMs = 0 := by
  have ht := hret.justReturned (sourced_of_run h) hone
  constructor
  · intro hall
    by_contra hcon
    simp only [not_or, Bool.not_eq_false] at hcon
    obtain ⟨hawaits, hactive, hretention⟩ := hcon
    obtain ⟨u, hu, hex, hnot⟩ :=
      ht.queue_takes_back hawaits hactive hretention
    rw [(hall u hu).status hex] at hnot
    cases hnot
  · rintro hcond u hu
    rcases or_assoc.mpr hcond with hcond | hzero
    · exact ((ht.finished hcond).run ht.sourced hu).stays
    · obtain ⟨rfl, hgone⟩ := ht.run_of_gone hzero hu
      refine ⟨ht.completed_of_exists, fun hb hid =>
        attemptOf_of_not_attempting (ht.idle hb hid), fun hex => ?_⟩
      rw [hgone] at hex
      cases hex

/-- The request for which an engine is about to get its terminal publish
back. -/
def returning (s : Sys) (i : Nat) : Option String :=
  match s.engines[i]? with
  | some ⟨_, _, .working taken step⟩ =>
      if recordsTerminal step then some taken.job.requestId else none
  | _ => none

theorem returns_of_returning {cfg : SysConfig} {s t : Sys} {i : Nat}
    {r : String} (h : returning s i = some r)
    (hstep : Sys.step cfg s (.engine i .command) = some t) :
    Returns cfg s i r t := by
  unfold returning at h
  split at h
  · next engineId model taken step he =>
      split_ifs at h with hrec
      cases h
      exact ⟨⟨_, taken, step, ⟨he, rfl⟩, rfl, hrec⟩, hstep⟩
  · cases h

/-- One attempt, up to the last command of its completion. -/
def upToReturn : List Label :=
  started 0 (sampleUuid 0) 1000 ++ released 0 ++
    [.engine 0 .command, .engine 0 .command]

theorem finished_iff_queuedFirst :
    ∃ s t, Run (Sys.step sampleConfig) (fun _ _ => True)
        (Sys.init 1000 [("e1", "m"), ("e2", "m")]) s ∧
      Returns sampleConfig s 0 "r" t ∧ elsewhere t 0 "r" attempting = false ∧
      ∀ u, Run (Sys.step sampleConfig)
        (fun v _ => statusExists v "r" = true) t u →
        StaysFinished sampleConfig "r" u := by
  obtain ⟨s, hrun, hs⟩ := run_of_exec_map (Sys.step sampleConfig)
    (fun _ _ => True) (fun _ _ => true)
    (Sys.init 1000 [("e1", "m"), ("e2", "m")]) (dispatched ++ upToReturn)
    (fun s => (returning s 0, (Sys.step sampleConfig s (.engine 0 .command)).map
      fun t => (elsewhere t 0 "r" attempting, awaitsQueue t "r")))
    (b := (some "r", some (false, false))) (fun _ _ _ => trivial) (by decide)
  obtain ⟨hreturning, hs⟩ := Prod.mk.inj hs
  obtain ⟨t, hstep, ht⟩ := Option.map_eq_some_iff.mp hs
  obtain ⟨hone, hawaits⟩ := Prod.mk.inj ht
  have hret := returns_of_returning hreturning hstep
  exact ⟨s, t, hrun, hret, hone, (finished_iff sampleConfig 1000
    [("e1", "m"), ("e2", "m")] s t 0 "r" hrun hret hone).mpr (.inl hawaits)⟩

/-- The engine reads the entry, runs it and publishes its completion between
the two commands of the call. -/
theorem finished_taken_back :
    ∃ s t u, Run (Sys.step sampleConfig) (fun _ l => unbroken l = true)
        (Sys.init 1000 [("e1", "m"), ("e2", "m")]) s ∧
      Returns sampleConfig s 0 "r" t ∧ elsewhere t 0 "r" attempting = false ∧
      s.attempts.length = 1 ∧
      Run (Sys.step sampleConfig)
        (fun v l => unbroken l = true ∧ statusExists v "r" = true) t u ∧
      statusExists u "r" = true ∧ completed u "r" = false := by
  obtain ⟨s, hrun, hs⟩ := run_of_exec_map (Sys.step sampleConfig)
    (fun _ l => unbroken l = true) (fun _ l => unbroken l)
    (Sys.init 1000 [("e1", "m"), ("e2", "m")])
    ([.reserve sampleJob "key" 0 10 100, .dispatch "r", .engine 0 .poll] ++
      upToReturn)
    (fun s => (returning s 0,
      (Sys.step sampleConfig s (.engine 0 .command)).bind fun t =>
        (Sys.step sampleConfig t (.queue "r")).map fun u =>
          [elsewhere t 0 "r" attempting, statusExists t "r",
            decide (s.attempts.length = 1), statusExists u "r",
            completed u "r"]))
    (b := (some "r", some [false, true, true, true, false]))
    (fun _ _ h => h) (by decide)
  simp only [Prod.mk.injEq, Option.bind_eq_some_iff, Option.map_eq_some_iff,
    List.cons.injEq, decide_eq_true_eq, and_true] at hs
  obtain ⟨hreturning, t, hstep, u, hqueue, hone, hex, hlen, hexu, hnot⟩ := hs
  exact ⟨s, t, u, hrun, returns_of_returning hreturning hstep, hone, hlen,
    Run.single (l := .queue "r") ⟨rfl, hex⟩ hqueue, hexu, hnot⟩

end DataPlane.Proofs
