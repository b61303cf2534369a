import DataPlane.Ref.System

/-!
# What a step can do

`engineStep` is a function of a phase and an action, most pairs of which do
nothing. `Move` lists the pairs that do something, one constructor for each
thing the code can do, with the guards that were passed and the broker it
leaves; `Moves` does the same for the whole system. The two inversion theorems
are the only place where the step functions are unfolded: every invariant is a
case analysis over these constructors.

Moves that no invariant tells apart share a constructor. `roam` is everything
an engine does without a job in hand; `abandon` is every failed command that
gives a job up.
-/

namespace DataPlane.Proofs

open DataPlane DataPlane.Lib DataPlane.Ref

/-- An engine with no job in hand. -/
def Phase.Idle : Phase → Prop
  | .working _ _ => False
  | _ => True

theorem Phase.Idle.ne_working {p : Phase} {taken : ConsumedJob} {step : JobStep}
    (h : Phase.Idle p) : p ≠ .working taken step := by
  rintro rfl
  exact h

/-- The entry's job is what the phase works on. -/
def takes (entry : RequestEntry) (p : Phase) : Prop :=
  ∃ job, entry.payload = .job job ∧ p = .working ⟨entry.entryId, job⟩ .start

/-- The entries of the request stream, delivered or not, that `b` knows. -/
def Broker.Holds (b : Broker) (entry : RequestEntry) : Prop :=
  entry ∈ b.requests.entries ∨ ∃ p ∈ b.requests.pending, p.entry = entry

/-- A group command: it moves entries about and invents none. -/
structure Shuffles (b b' : Broker) : Prop where
  frame : b' = { b with requests := b'.requests }
  holds : ∀ entry, Broker.Holds b' entry → Broker.Holds b entry

/-- The steps of `run_job` a failed command leaves by giving the job up. -/
def gives (step : JobStep) : Prop :=
  match step with
  | .start | .attempt _ _ => False
  | _ => True

inductive Move (cfg : EngineConfig) (b : Broker) (e : Engine) :
    EngineAction → Broker → Phase → Prop
  | roam {act : EngineAction} {b' : Broker} {p : Phase}
      (hphase : Phase.Idle e.phase) (hb : Shuffles b b') (hp : Phase.Idle p) :
      Move cfg b e act b' p
  | take {act : EngineAction} {b' : Broker} {entry : RequestEntry} {p : Phase}
      (hphase : Phase.Idle e.phase) (hb : Shuffles b b')
      (hentry : Broker.Holds b entry) (hp : takes entry p) :
      Move cfg b e act b' p
  | crash : Move cfg b e .crash b .stopped
  | abandon {taken : ConsumedJob} {step : JobStep} {message : String}
      {p : Phase} (hphase : e.phase = .working taken step) (hstep : gives step)
      (hp : Phase.Idle p) : Move cfg b e (.fail message) b p
  | expired {taken : ConsumedJob} {unixMs : Nat}
      (hphase : e.phase = .working taken .start)
      (hpassed : deadlinePassed taken.job unixMs = true) :
      Move cfg b e (.testDeadline unixMs) b (.working taken .cancelExpired)
  | inTime {taken : ConsumedJob} {unixMs : Nat}
      (hphase : e.phase = .working taken .start)
      (hpassed : deadlinePassed taken.job unixMs = false) :
      Move cfg b e (.testDeadline unixMs) b (.working taken .checkStatus)
  | cancelExpired {taken : ConsumedJob}
      (hphase : e.phase = .working taken .cancelExpired) :
      Move cfg b e .command (b.cancel taken.job.reservationId)
        (.working taken (.failExpired .append))
  | failAppend {taken : ConsumedJob}
      (hphase : e.phase = .working taken (.failExpired .append)) :
      Move cfg b e .command
        (b.appendResult (deadlineFailure e.engineId taken.job)).2
        (.working taken (.failExpired (.record
          (b.appendResult (deadlineFailure e.engineId taken.job)).1)))
  | failRecord {taken : ConsumedJob} {eventId : StreamId}
      (hphase : e.phase = .working taken (.failExpired (.record eventId))) :
      Move cfg b e .command
        (b.recordResult cfg.streams (deadlineFailure e.engineId taken.job)
          eventId)
        (.working taken .acknowledge)
  | alreadyDone {taken : ConsumedJob} {status : GenerationStatus}
      (hphase : e.phase = .working taken .checkStatus)
      (hstatus : b.statusOf taken.job.requestId = some status)
      (hdone : status.state = .completed) :
      Move cfg b e .command b (.working taken .acknowledge)
  | notDone {taken : ConsumedJob}
      (hphase : e.phase = .working taken .checkStatus)
      (hstatus : ∀ status, b.statusOf taken.job.requestId = some status →
        status.state ≠ .completed) :
      Move cfg b e .command b (.working taken .acquire)
  | acquired {taken : ConsumedJob} {a : Uuid}
      (hphase : e.phase = .working taken .acquire)
      (hpos : cfg.streams.leaseDurationMs ≠ 0)
      (hfree : b.lease.live b.now taken.job.requestId = none) :
      Move cfg b e (.acquireLease a)
        { b with
          lease := b.lease.setEx taken.job.requestId (leaseOwner e.engineId a)
            (b.now + cfg.streams.leaseDurationMs) }
        (.working taken (.attempt a .enter))
  | notAcquired {taken : ConsumedJob} {a : Uuid}
      (hphase : e.phase = .working taken .acquire) :
      Move cfg b e (.acquireLease a) b .polling
  | entered {taken : ConsumedJob} {a : Uuid}
      (hphase : e.phase = .working taken (.attempt a .enter)) :
      Move cfg b e .enterAttempt b
        (.working taken (.attempt a (.publish .attemptStarted .append)))
  | token {taken : ConsumedJob} {a : Uuid} {chunk : TokenChunk}
      (hphase : e.phase = .working taken (.attempt a .generate)) :
      Move cfg b e (.token chunk) b
        (.working taken (.attempt a (.publish (.token chunk) .append)))
  | ended {act : EngineAction} {taken : ConsumedJob} {a : Uuid}
      {step : AttemptStep} {result : AttemptResult}
      (hphase : e.phase = .working taken (.attempt a step)) :
      Move cfg b e act b (.working taken (.release a result))
  | append {taken : ConsumedJob} {a : Uuid} {event : Event}
      (hphase : e.phase = .working taken (.attempt a (.publish event .append))) :
      Move cfg b e .command
        (b.appendResult (resultOf taken.job a.text event)).2
        (.working taken (.attempt a (.publish event (.record
          (b.appendResult (resultOf taken.job a.text event)).1))))
  | record {taken : ConsumedJob} {a : Uuid} {event : Event}
      {eventId : StreamId}
      (hphase : e.phase =
        .working taken (.attempt a (.publish event (.record eventId)))) :
      Move cfg b e .command
        (b.recordResult cfg.streams (resultOf taken.job a.text event) eventId)
        (.working taken (.attempt a .generate))
  | renew {taken : ConsumedJob} {a : Uuid} {step : JobStep}
      (hphase : e.phase = .working taken step)
      (hstep : (∃ x, step = .attempt a x) ∨ ∃ r, step = .release a r) :
      Move cfg b e .renewLease
        (b.renewLease cfg.streams taken.job.requestId
          (leaseOwner e.engineId a)).2 (.working taken step)
  | release {taken : ConsumedJob} {a : Uuid} {result : AttemptResult}
      (hphase : e.phase = .working taken (.release a result)) :
      Move cfg b e .command
        (b.releaseLease taken.job.requestId (leaseOwner e.engineId a))
        (.working taken (.settle a result))
  | settle {taken : ConsumedJob} {a : Uuid} {result : AttemptResult}
      (hphase : e.phase = .working taken (.settle a result)) :
      Move cfg b e .command
        (b.reconcile taken.job.reservationId (actualTokens result))
        (.working taken (.conclude a result .append))
  | concludeAppend {taken : ConsumedJob} {a : Uuid} {result : AttemptResult}
      (hphase : e.phase = .working taken (.conclude a result .append)) :
      Move cfg b e .command (b.appendResult (conclusion taken.job a result)).2
        (.working taken (.conclude a result (.record
          (b.appendResult (conclusion taken.job a result)).1)))
  | concludeRecord {taken : ConsumedJob} {a : Uuid} {result : AttemptResult}
      {eventId : StreamId}
      (hphase : e.phase =
        .working taken (.conclude a result (.record eventId))) :
      Move cfg b e .command
        (b.recordResult cfg.streams (conclusion taken.job a result) eventId)
        (.working taken .acknowledge)
  | acknowledge {taken : ConsumedJob}
      (hphase : e.phase = .working taken .acknowledge) :
      Move cfg b e .command (b.acknowledge taken.entryId) .polling

/-! ## The group commands -/

theorem Shuffles.refl (b : Broker) : Shuffles b b := ⟨rfl, fun _ h => h⟩

theorem readGroup_spec {b b' : Broker} {consumer : String}
    {entry : RequestEntry} (h : b.readGroup consumer = some (entry, b')) :
    Shuffles b b' ∧ Broker.Holds b entry := by
  unfold Broker.readGroup at h
  split at h
  · cases h
  · next x hx =>
      have hmem : x ∈ b.requests.entries := List.mem_of_getElem? hx
      simp only [Option.some.injEq, Prod.mk.injEq] at h
      obtain ⟨rfl, rfl⟩ := h
      refine ⟨⟨rfl, fun y hy => ?_⟩, .inl hmem⟩
      rcases hy with hy | ⟨p, hp, rfl⟩
      · exact .inl hy
      · rcases List.mem_append.mp hp with hp | hp
        · exact .inr ⟨p, hp, rfl⟩
        · rw [List.mem_singleton.mp hp]
          exact .inl hmem

theorem autoClaim_spec {b b' : Broker} {consumer : String}
    {idleMs position : Nat} {entry : RequestEntry}
    (h : b.autoClaim consumer idleMs position = some (entry, b')) :
    Shuffles b b' ∧ Broker.Holds b entry := by
  unfold Broker.autoClaim at h
  split at h
  · cases h
  · next p hp =>
      have hmem : p ∈ b.requests.pending := List.mem_of_getElem? hp
      split at h
      · simp only [Option.some.injEq, Prod.mk.injEq] at h
        obtain ⟨rfl, rfl⟩ := h
        refine ⟨⟨rfl, fun y hy => ?_⟩, .inr ⟨p, hmem, rfl⟩⟩
        rcases hy with hy | ⟨q, hq, rfl⟩
        · exact .inl hy
        · rcases List.mem_or_eq_of_mem_set hq with hq | rfl
          · exact .inr ⟨q, hq, rfl⟩
          · exact .inr ⟨p, hmem, rfl⟩
      · cases h

theorem acknowledge_shuffles (b : Broker) (entryId : StreamId) :
    Shuffles b (b.acknowledge entryId) := by
  refine ⟨rfl, fun entry h => h.imp id ?_⟩
  rintro ⟨p, hp, rfl⟩
  exact ⟨p, (List.mem_filter.mp hp).1, rfl⟩

/-! ## The lease commands -/

theorem renewLease_frame (b : Broker) (cfg : StreamsConfig)
    (requestId owner : String) :
    (b.renewLease cfg requestId owner).2 =
      { b with lease := (b.renewLease cfg requestId owner).2.lease } := by
  unfold Broker.renewLease
  split <;> rfl

theorem releaseLease_frame (b : Broker) (requestId owner : String) :
    b.releaseLease requestId owner =
      { b with lease := (b.releaseLease requestId owner).lease } := by
  unfold Broker.releaseLease
  split <;> rfl

/-! ## Inversion -/

theorem takeFresh_spec (entry : RequestEntry) :
    Phase.Idle (takeFresh entry) ∨ takes entry (takeFresh entry) := by
  unfold takeFresh
  split
  · next job hjob => exact .inr ⟨job, hjob, rfl⟩
  · exact .inl trivial

theorem takeStale_spec (entry : RequestEntry) :
    Phase.Idle (takeStale entry) ∨ takes entry (takeStale entry) := by
  unfold takeStale
  split
  · next job hjob => exact .inr ⟨job, hjob, rfl⟩
  · exact .inl trivial

/-- An entry was read: the engine has a job now, or goes on without one. -/
theorem Move.of_read {cfg : EngineConfig} {b b' : Broker} {e : Engine}
    {act : EngineAction} {entry : RequestEntry} {p : Phase}
    (hphase : Phase.Idle e.phase) (hb : Shuffles b b' ∧ Broker.Holds b entry)
    (hp : Phase.Idle p ∨ takes entry p) : Move cfg b e act b' p := by
  rcases hp with hp | hp
  · exact .roam hphase hb.1 hp
  · exact .take hphase hb.1 hb.2 hp

theorem jobCommand_move {cfg : EngineConfig} {b b' : Broker} {e : Engine}
    {taken : ConsumedJob} {step : JobStep} {p : Phase}
    (hphase : e.phase = .working taken step)
    (h : jobCommand cfg b e.engineId taken step = some (b', p)) :
    Move cfg b e .command b' p := by
  unfold jobCommand at h
  split at h
  · cases h; exact .cancelExpired hphase
  · cases h; exact .failAppend hphase
  · cases h; exact .failRecord hphase
  · split at h
    · next status hstatus =>
        split at h
        · next hdone => cases h; exact .alreadyDone hphase hstatus hdone
        · next hdone =>
            cases h
            refine .notDone hphase fun st hst => ?_
            rw [hstatus] at hst
            cases hst
            exact hdone
    · next hstatus =>
        cases h
        refine .notDone hphase fun st hst => ?_
        rw [hstatus] at hst
        cases hst
  · cases h; exact .append hphase
  · cases h; exact .record hphase
  · cases h; exact .release hphase
  · cases h; exact .settle hphase
  · cases h; exact .concludeAppend hphase
  · cases h; exact .concludeRecord hphase
  · cases h; exact .acknowledge hphase
  all_goals cases h

theorem jobFailure_move {cfg : EngineConfig} {b : Broker} {e : Engine}
    {taken : ConsumedJob} {step : JobStep} {message : String} {p : Phase}
    (hphase : e.phase = .working taken step)
    (h : jobFailure taken message step = some p) :
    Move cfg b e (.fail message) b p := by
  cases step with
  | start => cases h
  | attempt a x =>
      cases x with
      | enter | generate => cases h
      | publish event y => cases h; exact .ended hphase
  | cancelExpired | failExpired | checkStatus | acquire | release | settle
  | conclude | acknowledge => cases h; exact .abandon hphase trivial trivial

/-- Everything an engine can do. -/
theorem engineStep_move {cfg : EngineConfig} {b b' : Broker} {e : Engine}
    {act : EngineAction} {p : Phase}
    (h : engineStep cfg b e act = some (b', p)) : Move cfg b e act b' p := by
  have hidle : ∀ {q : Phase}, e.phase = q → Phase.Idle q → Phase.Idle e.phase :=
    fun hq hi => hq ▸ hi
  cases act <;> simp only [engineStep] at h
  case poll =>
    split at h
    · next hphase =>
        split at h
        · next entry b₂ hread =>
            cases h
            exact .of_read (hidle hphase trivial) (readGroup_spec hread)
              (takeFresh_spec entry)
        · cases h; exact .roam (hidle hphase trivial) (.refl b) trivial
    · cases h
  case reclaim position =>
    split at h
    · next hphase => cases h; exact .roam (hidle hphase trivial) (.refl b) trivial
    · next hphase =>
        split at h
        · next entry b₂ hclaim =>
            cases h
            exact .of_read (hidle hphase trivial) (autoClaim_spec hclaim)
              (takeStale_spec entry)
        · cases h
    · cases h
  case reconnect =>
    split at h
    · next hphase => cases h; exact .roam (hidle hphase trivial) (.refl b) trivial
    · cases h
  case testDeadline unixMs =>
    split at h
    · next taken hphase =>
        split at h
        · next hpassed => cases h; exact .expired hphase hpassed
        · next hpassed => cases h; exact .inTime hphase (by simpa using hpassed)
    · cases h
  case acquireLease a =>
    split at h
    · next taken hphase =>
        unfold Broker.acquireLease at h
        split at h
        · next b₂ hlease =>
            cases h
            split_ifs at hlease with hpos
            split at hlease
            · cases hlease
            · next hfree => cases hlease; exact .acquired hphase hpos hfree
        · next b₂ hlease =>
            cases h
            split_ifs at hlease
            split at hlease
            · cases hlease; exact .notAcquired hphase
            · cases hlease
        · cases h
    · cases h
  case enterAttempt =>
    split at h
    · next taken a hphase =>
        split at h
        · next step henter =>
            cases h
            unfold enterAttempt at henter
            split at henter
            · cases henter
            · split at henter <;> cases henter
              exact .entered hphase
        · cases h; exact .ended hphase
    · cases h
  case token chunk =>
    split at h
    · next taken a hphase => cases h; exact .token hphase
    · cases h
  case finish usage =>
    split at h
    · next taken a hphase => cases h; exact .ended hphase
    · cases h
  case backendError message =>
    split at h
    · next taken a hphase => cases h; exact .ended hphase
    · cases h
  case renewLease =>
    split at h
    · next taken a x hphase =>
        cases h; rw [hphase]; exact .renew hphase (.inl ⟨x, rfl⟩)
    · next taken a x hphase =>
        cases h; rw [hphase]; exact .renew hphase (.inr ⟨x, rfl⟩)
    · cases h
  case command =>
    split at h
    · next taken step hphase => exact jobCommand_move hphase h
    · cases h
  case fail message =>
    split at h
    · next hphase => cases h; exact .roam (hidle hphase trivial) (.refl b) trivial
    · next hphase => cases h; exact .roam (hidle hphase trivial) (.refl b) trivial
    · next hphase => cases h; exact .roam (hidle hphase trivial) (.refl b) trivial
    · next taken step hphase =>
        obtain ⟨q, hq, heq⟩ := Option.map_eq_some_iff.mp h
        cases heq
        exact jobFailure_move hphase hq
    · cases h
  case crash => cases h; exact .crash
  case restart =>
    split at h
    · next hphase => cases h; exact .roam (hidle hphase trivial) (.refl b) trivial
    · cases h

/-! ## The system -/

/-- Everything the system can do. -/
inductive Moves (cfg : SysConfig) (s : Sys) : Label → Sys → Prop
  | tick (ms : Nat) :
      Moves cfg s (.tick ms)
        { s with broker := { s.broker with now := s.broker.now + ms } }
  | refused {job : GenerationJob} {apiKey : String}
      {unixMs promptTokens generatedTokens : Nat} {quota : QuotaDb}
      {e : QuotaError} (hcall : s.calls job.requestId = none)
      (hfresh : job.reservationId ∉ s.reservations)
      (hquota : reserveQuota cfg.sha256 cfg.limits s.broker.quota s.broker.now
        job.reservationId unixMs apiKey promptTokens generatedTokens =
          (.error e, quota)) :
      Moves cfg s (.reserve job apiKey unixMs promptTokens generatedTokens)
        { s with
          broker := { s.broker with quota := quota }
          reservations := job.reservationId :: s.reservations }
  | reserved {job : GenerationJob} {apiKey : String}
      {unixMs promptTokens generatedTokens : Nat} {quota : QuotaDb}
      {q : QuotaReservation} (hcall : s.calls job.requestId = none)
      (hfresh : job.reservationId ∉ s.reservations)
      (hquota : reserveQuota cfg.sha256 cfg.limits s.broker.quota s.broker.now
        job.reservationId unixMs apiKey promptTokens generatedTokens =
          (.ok q, quota)) :
      Moves cfg s (.reserve job apiKey unixMs promptTokens generatedTokens)
        ({ s with
          broker := { s.broker with quota := quota }
          reservations := job.reservationId :: s.reservations }.setCall
            job.requestId ⟨job, .publish⟩)
  | dispatch {r : String} {job : GenerationJob}
      (hcall : s.calls r = some ⟨job, .publish⟩) :
      Moves cfg s (.dispatch r)
        ({ s with broker := (s.broker.appendRequest (.job job)).2 }.setCall r
          ⟨job, .queue (s.broker.appendRequest (.job job)).1⟩)
  | queue {r : String} {job : GenerationJob} {entryId : StreamId}
      (hcall : s.calls r = some ⟨job, .queue entryId⟩) :
      Moves cfg s (.queue r)
        ({ s with
          broker := s.broker.recordQueued cfg.engine.streams job entryId
          }.setCall r ⟨job, .done⟩)
  | failDispatch {r : String} {job : GenerationJob} {step : CallStep}
      (hcall : s.calls r = some ⟨job, step⟩) :
      Moves cfg s (.failDispatch r) (s.setCall r ⟨job, .cancel⟩)
  | cancelDispatch {r : String} {job : GenerationJob}
      (hcall : s.calls r = some ⟨job, .cancel⟩) :
      Moves cfg s (.cancelDispatch r)
        ({ s with broker := s.broker.cancel job.reservationId }.setCall r
          ⟨job, .done⟩)
  | foreign :
      Moves cfg s .foreign
        { s with broker := (s.broker.appendRequest .malformed).2 }
  | engine {i : Nat} {act : EngineAction} {e : Engine} {b : Broker} {p : Phase}
      (he : s.engines[i]? = some e) (hdraw : ∀ a ∈ act.draws, a ∉ s.attempts)
      (hmove : Move cfg.engine s.broker e act b p) :
      Moves cfg s (.engine i act)
        { s with
          broker := b
          engines := s.engines.set i { e with phase := p }
          attempts := act.draws.toList ++ s.attempts }

theorem step_moves {cfg : SysConfig} {s t : Sys} {l : Label}
    (h : Sys.step cfg s l = some t) : Moves cfg s l t := by
  cases l <;> simp only [Sys.step] at h
  case tick ms => cases h; exact .tick ms
  case reserve job apiKey unixMs promptTokens generatedTokens =>
    split at h
    · cases h
    · next hguard =>
        simp only [not_or, not_not] at hguard
        split at h
        · next e quota hq => cases h; exact .refused hguard.1 hguard.2.1 hq
        · next q quota hq => cases h; exact .reserved hguard.1 hguard.2.1 hq
  case dispatch r =>
    split at h
    · next job hcall => cases h; exact .dispatch hcall
    · cases h
  case queue r =>
    split at h
    · next job entryId hcall => cases h; exact .queue hcall
    · cases h
  case failDispatch r =>
    split at h
    · next job hcall => cases h; exact .failDispatch hcall
    · next job entryId hcall => cases h; exact .failDispatch hcall
    · cases h
  case cancelDispatch r =>
    split at h
    · next job hcall => cases h; exact .cancelDispatch hcall
    · cases h
  case foreign => cases h; exact .foreign
  case engine i act =>
    split at h
    · cases h
    · next e he =>
        split at h
        · cases h
        · next hdraw =>
            unfold Sys.engineMove at h
            split at h
            · cases h
            · next b p hstep =>
                cases h
                refine .engine he (fun a ha hmem => hdraw ?_)
                  (engineStep_move hstep)
                rw [show act.draws = some a from ha]
                simpa using hmem

end DataPlane.Proofs
