import DataPlane.Proofs.Stopping
import DataPlane.Ref.ControlPlane

/-!
# What the control plane does

Between a request and the agent there is Temporal, which forgets nothing, and a
network, which may lose an answer, or bring a request long after its attempt has
been given up. `PlaneMove` says what a step does, `Grows` what no step takes
back: an execution keeps its input and its record, an attempt keeps its answer,
and a call of the agent keeps its success. On this rests `Consistent`: every
attempt was called for by the record of its execution, and everything on a
record was answered to some attempt.
-/

namespace DataPlane.Proofs

open DataPlane DataPlane.Lib DataPlane.Ref DataPlane.Ref.HostAgent
open DataPlane.Ref.ModelCatalog DataPlane.Ref.ControlPlane

variable {config : ControlConfig} {s t : Plane} {l : ControlStep}

/-! ## Steps -/

/-- The call of the agent an activity makes. -/
def hostCall (modelId : String) (signal : Signal) : Activity → Option HostStep
  | .ensureHostModel => some (.ensureModel modelId)
  | .drainHostModel => some (.drainModel modelId)
  | .stopHostModel => some (.stopModel modelId signal)
  | .waitKServeReady => none

/-- What a step is to the host, if the agent takes the call. -/
def onHost (s : Plane) : ControlStep → Option HostStep
  | .host l => some l
  | .serve j signal _ =>
      match s.attempts[j]? with
      | some ⟨k, a, .sent⟩ =>
          s.executions[k]?.bind fun e => hostCall e.input.modelId signal a
      | _ => none
  | _ => none

/-- How an attempt gets on, and what becomes of the host. -/
inductive Advance (config : ControlConfig) (s : Plane) (l : ControlStep)
    (j : Nat) (input : ModelInput) :
    (a : Activity) → Progress a → Progress a → Host → Prop
  | fails (a : Activity) (p : Progress a) (err : ActivityError) (host : Host)
      (hhost : host = s.host ∨
        ∃ hl, onHost s l = some hl ∧ hostStep config.host s.host hl = some host) :
      Advance config s l j input a p (.answered (.error err)) host
  | calls (hl : onHost s l = some (.ensureModel input.modelId)) :
      Advance config s l j input .ensureHostModel .sent
      (.calling s.host.calls.length)
      (ensureModel config.host s.host input.modelId)
  | ensured (call : Nat) (modelId : String) (report : Report)
      (hcall : s.host.calls[call]? = some ⟨modelId, .succeeded report⟩) :
      Advance config s l j input .ensureHostModel (.calling call)
        (.answered (.ok report.response)) s.host
  | ready (hl : l = .probe j (.status 200)) (hname : input.kserveName ≠ "")
      (hendpoint : input.modelEndpoint ≠ "") :
      Advance config s l j input .waitKServeReady .sent (.answered (.ok ()))
        s.host
  | drained (hl : onHost s l = some (.drainModel input.modelId)) :
      Advance config s l j input .drainHostModel .sent
      (.answered (.ok (drainModel s.host input.modelId).1))
      (drainModel s.host input.modelId).2
  | stopped (signal : Signal)
      (hl : onHost s l = some (.stopModel input.modelId signal)) :
      Advance config s l j input .stopHostModel .sent
      (.answered (.ok (stoppedStatus input.modelId)))
      (stopModel s.host input.modelId signal).2

/-- The input of an execution for a model of the catalog. -/
def inputOf (config : ControlConfig) (modelId : String) (entry : Entry) :
    ModelInput where
  modelId := modelId
  modelEndpoint := entry.endpoint
  kserveName := entry.kserveService
  namespaceName := config.namespaceName

/-- What a step does. -/
inductive PlaneMove (config : ControlConfig) (s : Plane) (l : ControlStep) :
    Plane → Prop
  | idle : PlaneMove config s l s
  | started (operation : Operation) (modelId : String) (entry : Entry)
      (hentry : config.models.get modelId = some entry)
      (hidle : s.running (workflowId config.sha256 operation modelId) = false) :
      PlaneMove config s l { s with
        executions := s.executions ++ [⟨workflowId config.sha256 operation modelId,
          operation, inputOf config modelId entry, [], 0, none⟩] }
  | attempted (k : Nat) (e : Execution) (a : Activity)
      (get : Outcome a → ModelWorkflow) (hk : s.executions[k]? = some e)
      (hprogram : e.program = some (.execute a get)) :
      PlaneMove config s l { s.setExecution k { e with
          made := e.made + 1, current := some s.attempts.length } with
        attempts := s.attempts ++ [⟨k, a, .sent⟩] }
  | advanced (j k : Nat) (input : ModelInput) (a : Activity)
      (p p' : Progress a) (host : Host)
      (hj : s.attempts[j]? = some ⟨k, a, p⟩)
      (hopen : ∀ outcome, p ≠ .answered outcome)
      (hinput : ∀ e, s.executions[k]? = some e → e.input = input)
      (hadvance : Advance config s l j input a p p' host) :
      PlaneMove config s l { s.setAttempt j ⟨k, a, p'⟩ with host := host }
  | recorded (k j k' : Nat) (e : Execution) (a : Activity) (p : Progress a)
      (outcome : Outcome a) (hk : s.executions[k]? = some e)
      (hcurrent : e.current = some j) (hj : s.attempts[j]? = some ⟨k', a, p⟩)
      (hanswered : ∀ r, outcome = .ok r → p = .answered outcome) :
      PlaneMove config s l (s.setExecution k (e.record a outcome))
  | host (hl : HostStep) (h : Host) (hon : onHost s l = some hl)
      (hstep : hostStep config.host s.host hl = some h) :
      PlaneMove config s l { s with host := h }

theorem start_move (config : ControlConfig) (s : Plane) (modelId : String)
    (operation : Operation) (unavailable : Option String) :
    PlaneMove config s l (start config s modelId operation unavailable).2 := by
  unfold start
  split
  · exact .idle
  · next entry hentry =>
      dsimp only
      split
      · exact .idle
      · show PlaneMove config s l (s.executeWorkflow _ _ _)
        unfold Plane.executeWorkflow
        split
        · exact .idle
        · next hidle =>
            exact .started operation modelId entry hentry (by simpa using hidle)

theorem stopModel_status {host t : Host} {modelId : String}
    {signal : Signal} {status : HostModelStatus}
    (h : stopModel host modelId signal = (.ok status, t)) :
    status = stoppedStatus modelId := by
  unfold stopModel at h
  split at h
  · cases h
  · cases h
    rfl

theorem callHost_advance {a : Activity} {input : ModelInput} {j : Nat}
    {signal : Signal} {p : Progress a} {host : Host}
    (hl : onHost s l = hostCall input.modelId signal a)
    (h : callHost config s.host input.modelId signal a = some (p, host)) :
    Advance config s l j input a .sent p host ∧
      ∃ hl, onHost s l = some hl ∧
        hostStep config.host s.host hl = some host := by
  cases a with
  | ensureHostModel =>
      cases h
      exact ⟨.calls hl, _, hl, rfl⟩
  | waitKServeReady => cases h
  | drainHostModel =>
      cases h
      exact ⟨.drained hl, _, hl, rfl⟩
  | stopHostModel =>
      have hstep : hostStep config.host s.host
          (.stopModel input.modelId signal) =
          some (stopModel s.host input.modelId signal).2 := rfl
      have hstopped := @Advance.stopped config s l j input signal hl
      obtain ⟨outcome, t, heq⟩ : ∃ outcome t,
          stopModel s.host input.modelId signal = (outcome, t) :=
        ⟨_, _, rfl⟩
      rw [heq] at hstep hstopped
      cases outcome with
      | error err =>
          simp only [callHost, heq, Option.some.injEq, Prod.mk.injEq] at h
          obtain ⟨rfl, rfl⟩ := h
          exact ⟨.fails _ _ _ _ (.inr ⟨_, hl, hstep⟩), _, hl, hstep⟩
      | ok status =>
          simp only [callHost, heq, Option.some.injEq, Prod.mk.injEq] at h
          obtain ⟨rfl, rfl⟩ := h
          rw [stopModel_status heq]
          exact ⟨hstopped, _, hl, hstep⟩

theorem waitKServeReady_advance {j : Nat} {input : ModelInput}
    {response : Probe} (hl : l = .probe j response) :
    Advance config s l j input .waitKServeReady .sent
      (.answered (waitKServeReady input response)) s.host := by
  unfold waitKServeReady
  split
  · exact .fails _ _ _ _ (.inl rfl)
  · next hgiven =>
      simp only [Bool.or_eq_true, decide_eq_true_eq, not_or] at hgiven
      cases response with
      | invalid => exact .fails _ _ _ _ (.inl rfl)
      | unreachable err => exact .fails _ _ _ _ (.inl rfl)
      | status code =>
          dsimp only
          split
          · exact .fails _ _ _ _ (.inl rfl)
          · next hcode =>
              rw [not_not.mp hcode] at hl
              exact .ready hl hgiven.1 hgiven.2

theorem input_of {k : Nat} {e : Execution} (hk : s.executions[k]? = some e) :
    ∀ e', s.executions[k]? = some e' → e'.input = e.input := by
  intro e' hk'
  rw [hk] at hk'
  cases hk'
  rfl

theorem exists_input (s : Plane) (k : Nat) :
    ∃ input, ∀ e, s.executions[k]? = some e → e.input = input := by
  cases hk : s.executions[k]? with
  | none => exact ⟨⟨"", "", "", ""⟩, nofun⟩
  | some e => exact ⟨e.input, fun e' he' => by cases he'; rfl⟩

theorem serve_move {j : Nat} {signal : Signal} {lost : Option String}
    (h : controlStep config s (.serve j signal lost) = some t) :
    PlaneMove config s (.serve j signal lost) t := by
  simp only [controlStep] at h
  split at h
  · next k a hj =>
      split at h
      · cases h
      · next e hk =>
          split at h
          · cases h
          · next progress host hcall =>
              have hl : onHost s (.serve j signal lost) =
                  hostCall e.input.modelId signal a := by
                rw [onHost, hj]
                dsimp only
                rw [hk, Option.bind_some]
              obtain ⟨hadvance, hhost⟩ := callHost_advance (j := j) hl hcall
              cases h
              refine .advanced j k e.input a .sent _ _ hj nofun (input_of hk) ?_
              -- the agent may not take the call, and its answer may be lost
              split <;> cases lost
              · exact hadvance
              · exact .fails _ _ _ _ (.inr hhost)
              · exact .fails _ _ _ _ (.inl rfl)
              · exact .fails _ _ _ _ (.inl rfl)
  · cases h

theorem answer_move {j : Nat}
    (h : controlStep config s (.answer j) = some t) :
    PlaneMove config s l t := by
  simp only [controlStep] at h
  split at h
  · next k call hj =>
      obtain ⟨outcome, houtcome, rfl⟩ := Option.map_eq_some_iff.mp h
      obtain ⟨input, hinput⟩ := exists_input s k
      refine .advanced j k input _ _ _ s.host hj nofun hinput ?_
      unfold ensureOutcome at houtcome
      split at houtcome
      · cases houtcome
        exact .fails _ _ _ _ (.inl rfl)
      · next modelId report hcall =>
          cases houtcome
          exact .ensured call modelId report hcall
      · cases houtcome
  · cases h

theorem plane_move (h : controlStep config s l = some t) :
    PlaneMove config s l t := by
  cases l with
  | start operation modelId unavailable =>
      cases h
      exact start_move config s modelId operation unavailable
  | attempt k =>
      simp only [controlStep] at h
      split at h
      · cases h
      · next e hk =>
          split at h
          · next a get _ hprogram =>
              cases h
              exact .attempted k e a get hk hprogram
          · cases h
  | serve j signal lost => exact serve_move h
  | probe j response =>
      simp only [controlStep] at h
      split at h
      · next k hj =>
          split at h
          · cases h
          · next e hk =>
              cases h
              exact .advanced j k e.input .waitKServeReady .sent _ s.host hj
                nofun (input_of hk) (waitKServeReady_advance rfl)
      · cases h
  | answer j => exact answer_move h
  | drop j err =>
      simp only [controlStep] at h
      split at h
      · next k a hj =>
          cases h
          obtain ⟨input, hinput⟩ := exists_input s k
          exact .advanced j k input a _ _ s.host hj nofun hinput
            (.fails _ _ _ _ (.inl rfl))
      · next k a call hj =>
          cases h
          obtain ⟨input, hinput⟩ := exists_input s k
          exact .advanced j k input a _ _ s.host hj nofun hinput
            (.fails _ _ _ _ (.inl rfl))
      · cases h
  | deliver k =>
      simp only [controlStep] at h
      split at h
      · cases h
      · next e hk =>
          split at h
          · next k' a outcome hcurrent =>
              cases h
              obtain ⟨j, hj, hattempt⟩ := Option.bind_eq_some_iff.mp hcurrent
              exact .recorded k j k' e a _ outcome hk hj hattempt
                (fun _ _ => rfl)
          · cases h
  | timeout k =>
      simp only [controlStep] at h
      split at h
      · cases h
      · next e hk =>
          split at h
          · next attempt hcurrent =>
              cases h
              obtain ⟨j, hj, hattempt⟩ := Option.bind_eq_some_iff.mp hcurrent
              exact .recorded k j attempt.execution e _ _ _ hk hj hattempt nofun
          · cases h
  | host hl =>
      obtain ⟨host, hstep, rfl⟩ := Option.map_eq_some_iff.mp h
      exact .host hl host rfl hstep

/-! ## What is not taken back -/

section

variable {config : HostAgent.Config} {s t : Host} {l : HostStep}

/-- Unless a call comes in, at most one call moves, and none that has
succeeded. -/
theorem step_calls_moved (h : hostStep config s l = some t) :
    (∃ modelId, l = .ensureModel modelId) ∨ t.calls = s.calls ∨
      ∃ j modelId point point', s.calls[j]? = some ⟨modelId, point⟩ ∧
        (∀ r, point ≠ .succeeded r) ∧ t.calls = (s.moveTo j point').calls := by
  have hmoved : ∀ {t : Host} {j : Nat} {modelId : String} (point point' : Point),
      s.calls[j]? = some ⟨modelId, point⟩ → (∀ r, point ≠ .succeeded r) →
      t.calls = (s.moveTo j point').calls → t.calls = s.calls ∨
        ∃ j modelId point point', s.calls[j]? = some ⟨modelId, point⟩ ∧
          (∀ r, point ≠ .succeeded r) ∧ t.calls = (s.moveTo j point').calls :=
    fun point point' hj hpoint hcalls =>
      .inr ⟨_, _, point, point', hj, hpoint, hcalls⟩
  cases step_move h with
  | ensureModel modelId' => exact .inl ⟨modelId', rfl⟩
  | enter hcall =>
      refine .inr ?_
      unfold enter
      split
      · exact hmoved _ _ hcall (by simp) rfl
      · split
        · exact hmoved _ _ hcall (by simp) rfl
        · split <;> exact hmoved _ _ hcall (by simp) rfl
  | @probe j ready _ point _ hcall ht =>
      refine .inr ?_
      cases point <;> simp only [probe, Option.some.injEq, reduceCtorEq] at ht
      all_goals
        subst ht
        exact hmoved _ _ hcall (by simp) rfl
  | @confirm j _ point _ hcall ht =>
      refine .inr ?_
      cases point <;> simp only [confirm, reduceCtorEq] at ht
      case probed current alive =>
        split at ht
        · cases ht
          exact hmoved _ _ hcall (by simp) rfl
        · obtain ⟨process, _, rfl⟩ := Option.map_eq_some_iff.mp ht
          exact hmoved _ _ hcall (by simp) rfl
      case polled owned alive =>
        cases ht
        split <;> exact hmoved _ _ hcall (by simp) rfl
  | @report j _ point _ hcall ht =>
      cases point <;> simp only [report, reduceCtorEq] at ht
      obtain ⟨process, _, rfl⟩ := Option.map_eq_some_iff.mp ht
      exact .inr (hmoved _ _ hcall (by simp) rfl)
  | @wake j canceled _ point _ hcall ht =>
      cases point <;> simp only [wake, Option.some.injEq, reduceCtorEq] at ht
      subst ht
      exact .inr (hmoved _ _ hcall (by simp) rfl)
  | @expire j _ point _ hcall ht =>
      cases point <;> simp only [expire, Option.some.injEq, reduceCtorEq] at ht
      subst ht
      exact .inr (hmoved _ _ hcall (by simp) rfl)
  | @giveUp j signal modelId' point _ hcall ht =>
      cases point <;> simp only [giveUp, Option.some.injEq, reduceCtorEq] at ht
      subst ht
      exact .inr (hmoved _ _ hcall (by simp)
        (moveTo_calls (stopOwned_frame s modelId' signal).2))
  | getModelStatus modelId' =>
      refine .inr (.inl ?_)
      unfold getModelStatus
      split
      · rfl
      · dsimp only
        split <;> rfl
  | drainModel modelId' =>
      refine .inr (.inl ?_)
      unfold drainModel
      split <;> rfl
  | stopModel modelId' signal =>
      exact .inr (.inl (stopOwned_frame s modelId' signal).2)
  | @stopNext _ modelId' _ signal =>
      exact .inr (.inl (stopOwned_frame s modelId' signal).2)
  | stopAll | listen | close | exit | wait | occupy | vacate =>
      exact .inr (.inl rfl)

/-- A call that has succeeded does not move. -/
theorem succeeded_step (h : hostStep config s l = some t) {i : Nat}
    {modelId : String} {r : Report}
    (hi : s.calls[i]? = some ⟨modelId, .succeeded r⟩) :
    t.calls[i]? = s.calls[i]? := by
  rcases step_calls_moved h with
    ⟨_, rfl⟩ | hcalls | ⟨j, _, point, point', hj, hpoint, hcalls⟩
  · cases h
    exact List.getElem?_append_left (List.getElem?_eq_some_iff.mp hi).1
  · rw [hcalls]
  · have hne : j ≠ i := by
      rintro rfl
      rw [hj] at hi
      cases hi
      exact hpoint r rfl
    rw [hcalls, moveTo_getElem, if_neg hne]

/-- A call keeps its model, and its success. -/
theorem call_step (h : hostStep config s l = some t) {i : Nat}
    {call : EnsureCall} (hi : s.calls[i]? = some call) :
    ∃ point, t.calls[i]? = some ⟨call.modelId, point⟩ ∧
      ∀ report, call.point = .succeeded report → point = call.point := by
  obtain ⟨modelId, point⟩ := call
  cases point with
  | succeeded report =>
      exact ⟨_, (succeeded_step h hi).trans hi, fun _ _ => rfl⟩
  | _ =>
    obtain ⟨hlt, _⟩ := List.getElem?_eq_some_iff.mp hi
    cases step_calls h with
    | none calls => exact ⟨_, by rw [calls, hi], nofun⟩
    | comes _ _ _ calls =>
        exact ⟨_, by rw [calls, List.getElem?_append_left hlt, hi], nofun⟩
    | moves j _ _ point' _ _ calls =>
        rcases eq_or_ne j i with rfl | hne
        · exact ⟨point', by rw [calls, moveTo_self hi], nofun⟩
        · exact ⟨_, by rw [calls, moveTo_getElem, if_neg hne, hi], nofun⟩

end

/-- What becomes of the host in a step is what the step is to it. -/
theorem plane_host (h : PlaneMove config s l t) :
    t.host = s.host ∨ ∃ hl, onHost s l = some hl ∧
      hostStep config.host s.host hl = some t.host := by
  cases h with
  | idle | started | attempted | recorded => exact .inl rfl
  | host hl host hon hstep => exact .inr ⟨hl, hon, hstep⟩
  | advanced j k input a p p' host hj hopen hinput hadvance =>
      cases hadvance with
      | fails _ _ _ _ hhost => exact hhost
      | calls hl => exact .inr ⟨_, hl, rfl⟩
      | ensured | ready => exact .inl rfl
      | drained hl => exact .inr ⟨_, hl, rfl⟩
      | stopped signal hl => exact .inr ⟨_, hl, rfl⟩

/-- The host of a run has run on its own, under what the condition of the run
makes of its steps. -/
theorem host_run {ok : Plane → ControlStep → Prop}
    {hostOk : Host → HostStep → Prop}
    (himp : ∀ s l hl, ok s l → onHost s l = some hl → hostOk s.host hl)
    (h : Run (controlStep config) ok s t) :
    Run (hostStep config.host) hostOk s.host t.host := by
  induction h with
  | refl => exact .refl
  | @tail u _ l _ hok hstep ih =>
      rcases plane_host (plane_move hstep) with heq | ⟨hl, hon, hhost⟩
      · rw [heq]
        exact ih
      · exact .tail ih (himp u l hl hok hon) hhost

/-- What every later state keeps. -/
structure Grows (s t : Plane) : Prop where
  executions : ∀ {k : Nat} {e : Execution}, s.executions[k]? = some e →
    ∃ e' : Execution, t.executions[k]? = some e' ∧ e'.workflowId = e.workflowId ∧
      e'.operation = e.operation ∧ e'.input = e.input ∧
      ∃ more, e'.history = e.history ++ more
  attempts : ∀ {j k : Nat} {a : Activity} {p : Progress a},
    s.attempts[j]? = some ⟨k, a, p⟩ → ∃ p', t.attempts[j]? = some ⟨k, a, p'⟩ ∧
      ∀ outcome, p = .answered outcome → p' = p
  calls : ∀ {i : Nat} {call : EnsureCall}, s.host.calls[i]? = some call →
    ∃ point, t.host.calls[i]? = some ⟨call.modelId, point⟩ ∧
      ∀ report, call.point = .succeeded report → point = call.point

theorem Grows.refl (s : Plane) : Grows s s where
  executions hk := ⟨_, hk, rfl, rfl, rfl, [], by simp⟩
  attempts hj := ⟨_, hj, fun _ _ => rfl⟩
  calls hi := ⟨_, hi, fun _ _ => rfl⟩

theorem Grows.trans {u : Plane} (h : Grows s t) (h' : Grows t u) :
    Grows s u where
  executions hk := by
    obtain ⟨e, he, hid, hop, hinput, more, hmore⟩ := h.executions hk
    obtain ⟨e', he', hid', hop', hinput', more', hmore'⟩ := h'.executions he
    exact ⟨e', he', hid'.trans hid, hop'.trans hop, hinput'.trans hinput,
      more ++ more', by rw [hmore', hmore, List.append_assoc]⟩
  attempts hj := by
    obtain ⟨p, hp, hanswered⟩ := h.attempts hj
    obtain ⟨p', hp', hanswered'⟩ := h'.attempts hp
    refine ⟨p', hp', fun outcome ho => ?_⟩
    have hsame := hanswered outcome ho
    rw [hanswered' outcome (hsame.trans ho), hsame]
  calls hi := by
    obtain ⟨point, hp, hsucceeded⟩ := h.calls hi
    obtain ⟨point', hp', hsucceeded'⟩ := h'.calls hp
    refine ⟨point', hp', fun report hr => ?_⟩
    have hsame := hsucceeded report hr
    rw [hsucceeded' report (hsame.trans hr)]
    exact hsame

theorem record_keeps (e : Execution) (a : Activity) (outcome : Outcome a) :
    (e.record a outcome).workflowId = e.workflowId ∧
      (e.record a outcome).operation = e.operation ∧
      (e.record a outcome).input = e.input ∧
      (e.record a outcome).current = none ∧
      ((e.record a outcome).history = e.history ++ [⟨a, outcome⟩] ∨
        (e.record a outcome).history = e.history ∧ ∀ r, outcome ≠ .ok r) := by
  unfold Execution.record
  split
  · exact ⟨rfl, rfl, rfl, rfl, .inl rfl⟩
  · split
    · exact ⟨rfl, rfl, rfl, rfl, .inl rfl⟩
    · exact ⟨rfl, rfl, rfl, rfl, .inr ⟨rfl, nofun⟩⟩

theorem grows_step (h : controlStep config s l = some t) : Grows s t := by
  have hmove := plane_move h
  have hcalls : ∀ {i : Nat} {call : EnsureCall},
      s.host.calls[i]? = some call →
      ∃ point, t.host.calls[i]? = some ⟨call.modelId, point⟩ ∧
        ∀ report, call.point = .succeeded report → point = call.point := by
    intro i call hi
    rcases plane_host hmove with heq | ⟨hl, _, hhost⟩
    · rw [heq]
      exact ⟨_, hi, fun _ _ => rfl⟩
    · exact call_step hhost hi
  cases hmove with
  | idle => exact Grows.refl s
  | started operation modelId entry hentry hidle =>
      refine ⟨fun hk => ?_, (Grows.refl s).attempts, hcalls⟩
      obtain ⟨hlt, _⟩ := List.getElem?_eq_some_iff.mp hk
      exact ⟨_, by rw [List.getElem?_append_left hlt, hk], rfl, rfl, rfl, [],
        by simp⟩
  | attempted k e a get hk hprogram =>
      refine ⟨fun {k' e'} hk' => ?_, fun hj => ?_, hcalls⟩
      · obtain ⟨hlt, _⟩ := List.getElem?_eq_some_iff.mp hk'
        rcases eq_or_ne k k' with rfl | hne
        · rw [hk] at hk'
          cases hk'
          exact ⟨_, List.getElem?_set_self hlt, rfl, rfl, rfl, [], by simp⟩
        · exact ⟨e', (List.getElem?_set_ne hne).trans hk', rfl, rfl, rfl, [],
            by simp⟩
      · obtain ⟨hlt, _⟩ := List.getElem?_eq_some_iff.mp hj
        exact ⟨_, by rw [List.getElem?_append_left hlt, hj], fun _ _ => rfl⟩
  | advanced j k input a p p' host hj hopen hinput hadvance =>
      refine ⟨(Grows.refl s).executions, fun {j' k' a' q} hj' => ?_, hcalls⟩
      obtain ⟨hlt, _⟩ := List.getElem?_eq_some_iff.mp hj'
      rcases eq_or_ne j j' with rfl | hne
      · rw [hj] at hj'
        cases hj'
        exact ⟨p', List.getElem?_set_self hlt,
          fun outcome ho => absurd ho (hopen outcome)⟩
      · exact ⟨q, (List.getElem?_set_ne hne).trans hj', fun _ _ => rfl⟩
  | recorded k j k' e a p outcome hk hcurrent hj hanswered =>
      refine ⟨fun {k'' e'} hk' => ?_, (Grows.refl s).attempts, hcalls⟩
      obtain ⟨hlt, _⟩ := List.getElem?_eq_some_iff.mp hk'
      rcases eq_or_ne k k'' with rfl | hne
      · rw [hk] at hk'
        cases hk'
        obtain ⟨hid, hop, hinput, _, hhistory⟩ := record_keeps e a outcome
        refine ⟨_, List.getElem?_set_self hlt, hid, hop, hinput, ?_⟩
        rcases hhistory with hhistory | ⟨hhistory, _⟩
        · exact ⟨_, hhistory⟩
        · exact ⟨[], by simp [hhistory]⟩
      · exact ⟨e', (List.getElem?_set_ne hne).trans hk', rfl, rfl, rfl, [],
          by simp⟩
  | host hl host hstep =>
      exact ⟨(Grows.refl s).executions, (Grows.refl s).attempts, hcalls⟩

theorem grows_run (h : Run (controlStep config) (fun _ _ => True) s t) :
    Grows s t :=
  h.invariant (I := Grows s) (Grows.refl s)
    fun hI _ hstep => hI.trans (grows_step hstep)

/-! ## Where executions and attempts come from -/

/-- What a step makes of an execution. -/
inductive Changed (s t : Plane) (k : Nat) (e : Execution) : Execution → Prop
  | same : Changed s t k e e
  | attempted (a : Activity) (get : Outcome a → ModelWorkflow)
      (hprogram : e.program = some (.execute a get))
      (hattempts : t.attempts = s.attempts ++ [⟨k, a, .sent⟩]) :
      Changed s t k e
        { e with made := e.made + 1, current := some s.attempts.length }
  | recorded (j k' : Nat) (a : Activity) (p : Progress a) (outcome : Outcome a)
      (hcurrent : e.current = some j) (hj : s.attempts[j]? = some ⟨k', a, p⟩)
      (hanswered : ∀ r, outcome = .ok r → p = .answered outcome) :
      Changed s t k e (e.record a outcome)

theorem execution_of_step (h : PlaneMove config s l t) {k : Nat}
    {e' : Execution} (hk : t.executions[k]? = some e') :
    (∃ e, s.executions[k]? = some e ∧ Changed s t k e e') ∨
      ∃ operation modelId entry, config.models.get modelId = some entry ∧
        s.running (workflowId config.sha256 operation modelId) = false ∧
        k = s.executions.length ∧
        e' = ⟨workflowId config.sha256 operation modelId, operation,
          inputOf config modelId entry, [], 0, none⟩ := by
  cases h with
  | idle | advanced | host => exact .inl ⟨e', hk, .same⟩
  | started operation modelId entry hentry hidle =>
      rcases Nat.lt_trichotomy k s.executions.length with hlt | rfl | hgt
      · rw [List.getElem?_append_left hlt] at hk
        exact .inl ⟨e', hk, .same⟩
      · rw [List.getElem?_concat_length] at hk
        cases hk
        exact .inr ⟨operation, modelId, entry, hentry, hidle, rfl, rfl⟩
      · rw [List.getElem?_eq_none (by simp; omega)] at hk
        cases hk
  | attempted k' e a get hk' hprogram =>
      refine .inl ?_
      rcases eq_or_ne k' k with rfl | hne
      · obtain ⟨hlt, _⟩ := List.getElem?_eq_some_iff.mp hk'
        have hset := (List.getElem?_set_self hlt).symm.trans hk
        cases hset
        exact ⟨e, hk', .attempted a get hprogram rfl⟩
      · exact ⟨e', (List.getElem?_set_ne hne).symm.trans hk, .same⟩
  | recorded k' j k'' e a p outcome hk' hcurrent hj hanswered =>
      refine .inl ?_
      rcases eq_or_ne k' k with rfl | hne
      · obtain ⟨hlt, _⟩ := List.getElem?_eq_some_iff.mp hk'
        have hset := (List.getElem?_set_self hlt).symm.trans hk
        cases hset
        exact ⟨e, hk', .recorded j k'' a p outcome hcurrent hj hanswered⟩
      · exact ⟨e', (List.getElem?_set_ne hne).symm.trans hk, .same⟩

theorem attempt_of_step (h : PlaneMove config s l t) {j k : Nat} {a : Activity}
    {p' : Progress a} (hj : t.attempts[j]? = some ⟨k, a, p'⟩) :
    s.attempts[j]? = some ⟨k, a, p'⟩ ∨
      (p' = .sent ∧ ∃ e get, s.executions[k]? = some e ∧
        e.program = some (.execute a get)) ∨
      ∃ p input, s.attempts[j]? = some ⟨k, a, p⟩ ∧
        (∀ e, s.executions[k]? = some e → e.input = input) ∧
        Advance config s l j input a p p' t.host := by
  cases h with
  | idle | started | recorded | host => exact .inl hj
  | attempted k' e a' get hk hprogram =>
      rcases Nat.lt_trichotomy j s.attempts.length with hlt | rfl | hgt
      · rw [List.getElem?_append_left hlt] at hj
        exact .inl hj
      · rw [List.getElem?_concat_length] at hj
        cases hj
        exact .inr (.inl ⟨rfl, e, get, hk, hprogram⟩)
      · rw [List.getElem?_eq_none (by simp; omega)] at hj
        cases hj
  | advanced j' k' input a' p q host hj' hopen hinput hadvance =>
      rcases eq_or_ne j' j with rfl | hne
      · obtain ⟨hlt, _⟩ := List.getElem?_eq_some_iff.mp hj'
        have hset := (List.getElem?_set_self hlt).symm.trans hj
        cases hset
        exact .inr (.inr ⟨p, input, hj', hinput, hadvance⟩)
      · exact .inl ((List.getElem?_set_ne hne).symm.trans hj)

/-! ## What holds of every reachable state -/

/-- The record of an execution called for the activity at some time. -/
def Commanded (e : Execution) (a : Activity) : Prop :=
  ∃ h rest get, e.history = h ++ rest ∧
    (e.operation.workflow e.input).replay h = some (.execute a get)

structure Consistent (config : ControlConfig) (s : Plane) : Prop where
  started : ∀ {k : Nat} {e : Execution}, s.executions[k]? = some e →
    ∃ entry, config.models.get e.input.modelId = some entry ∧
      e.input = inputOf config e.input.modelId entry ∧
      e.workflowId = workflowId config.sha256 e.operation e.input.modelId
  replays : ∀ {k : Nat} {e : Execution}, s.executions[k]? = some e →
    ∃ w, e.program = some w
  current : ∀ {k j : Nat} {e : Execution}, s.executions[k]? = some e →
    e.current = some j → ∃ a p get, s.attempts[j]? = some ⟨k, a, p⟩ ∧
      e.program = some (.execute a get)
  commanded : ∀ {j k : Nat} {a : Activity} {p : Progress a},
    s.attempts[j]? = some ⟨k, a, p⟩ →
      ∃ e, s.executions[k]? = some e ∧ Commanded e a
  recorded : ∀ {k : Nat} {e : Execution} {a : Activity} {r : a.Result},
    s.executions[k]? = some e → (⟨a, .ok r⟩ : Sigma Outcome) ∈ e.history →
      ∃ j : Nat, s.attempts[j]? = some ⟨k, a, .answered (.ok r)⟩
  unique : ∀ {k k' : Nat} {e e' : Execution}, s.executions[k]? = some e →
    s.executions[k']? = some e' → e.result = none → e'.result = none →
      e.workflowId = e'.workflowId → k = k'

theorem consistent_init : Consistent config .init where
  started hk := by cases hk
  replays hk := by cases hk
  current hk := by cases hk
  commanded hj := by cases hj
  recorded hk := by cases hk
  unique hk := by cases hk

/-- Whoever is waited for attempts what the program has come to. -/
theorem Consistent.program_of_current (hI : Consistent config s) {k k' j : Nat}
    {e : Execution} {a : Activity} {p : Progress a}
    (hk : s.executions[k]? = some e) (hcurrent : e.current = some j)
    (hj : s.attempts[j]? = some ⟨k', a, p⟩) :
    k' = k ∧ ∃ get, e.program = some (.execute a get) := by
  obtain ⟨a', p', get, hj', hprogram⟩ := hI.current hk hcurrent
  rw [hj] at hj'
  cases hj'
  exact ⟨rfl, get, hprogram⟩

theorem program_record {e : Execution} {a : Activity}
    {get : Outcome a → ModelWorkflow} (h : e.program = some (.execute a get))
    (outcome : Outcome a) :
    (e.record a outcome).program = some (get outcome) ∨
      (e.record a outcome).program = some (.execute a get) := by
  obtain ⟨_, hop, hinput, _, hhistory⟩ := record_keeps e a outcome
  unfold Execution.program at h ⊢
  rw [hop, hinput]
  rcases hhistory with hhistory | ⟨hhistory, _⟩
  · rw [hhistory]
    exact .inl (Workflow.replay_execute h outcome)
  · rw [hhistory]
    exact .inr h

theorem result_of_execute {e : Execution} {a : Activity}
    {get : Outcome a → ModelWorkflow} (h : e.program = some (.execute a get)) :
    e.result = none := by
  rw [Execution.result, h]

theorem Consistent.open_of_changed (hI : Consistent config s) {k : Nat}
    {e e' : Execution} (hk : s.executions[k]? = some e)
    (h : Changed s t k e e') (hopen : e'.result = none) :
    e.result = none ∧ e'.workflowId = e.workflowId := by
  cases h with
  | same => exact ⟨hopen, rfl⟩
  | attempted a get hprogram => exact ⟨result_of_execute hprogram, rfl⟩
  | recorded j k' a p outcome hcurrent hj =>
      obtain ⟨_, get, hprogram⟩ := hI.program_of_current hk hcurrent hj
      exact ⟨result_of_execute hprogram, (record_keeps e a outcome).1⟩

theorem not_open_of_idle {id : String} (h : s.running id = false) {k : Nat}
    {e : Execution} (hk : s.executions[k]? = some e) (hopen : e.result = none)
    (hid : e.workflowId = id) : False := by
  have hnone := List.any_eq_false.mp h e (List.mem_of_getElem? hk)
  simp [hopen, hid] at hnone

theorem consistent_step (hI : Consistent config s)
    (h : controlStep config s l = some t) : Consistent config t := by
  have hmove := plane_move h
  have hG := grows_step h
  refine ⟨?_, ?_, ?_, ?_, ?_, ?_⟩
  · -- started
    intro k e' hk
    rcases execution_of_step hmove hk with
      ⟨e, he, _⟩ | ⟨operation, modelId, entry, hentry, _, _, rfl⟩
    · obtain ⟨e'', he'', hid, hop, hinput, _⟩ := hG.executions he
      rw [hk] at he''
      cases he''
      rw [hid, hop, hinput]
      exact hI.started he
    · exact ⟨entry, hentry, rfl, rfl⟩
  · -- replays
    intro k e' hk
    rcases execution_of_step hmove hk with ⟨e, he, hchanged⟩ | ⟨_, _, _, _, _, _, rfl⟩
    · cases hchanged with
      | same => exact hI.replays he
      | attempted a get hprogram => exact ⟨_, hprogram⟩
      | recorded j k' a p outcome hcurrent hj =>
          obtain ⟨_, get, hprogram⟩ := hI.program_of_current he hcurrent hj
          rcases program_record hprogram outcome with hw | hw
          · exact ⟨_, hw⟩
          · exact ⟨_, hw⟩
    · exact ⟨_, Workflow.replay_nil _⟩
  · -- current
    intro k j e' hk hcurrent
    rcases execution_of_step hmove hk with ⟨e, he, hchanged⟩ | ⟨_, _, _, _, _, _, rfl⟩
    · cases hchanged with
      | same =>
          obtain ⟨a, p, get, hj, hprogram⟩ := hI.current he hcurrent
          obtain ⟨p', hj', _⟩ := hG.attempts hj
          exact ⟨a, p', get, hj', hprogram⟩
      | attempted a get hprogram hattempts =>
          cases hcurrent
          refine ⟨a, .sent, get, ?_, hprogram⟩
          rw [hattempts, List.getElem?_concat_length]
      | recorded j' k' a p outcome _ _ =>
          rw [(record_keeps e a outcome).2.2.2.1] at hcurrent
          cases hcurrent
    · cases hcurrent
  · -- commanded
    intro j k a p' hj
    have hold : ∀ {p : Progress a}, s.attempts[j]? = some ⟨k, a, p⟩ →
        ∃ e, t.executions[k]? = some e ∧ Commanded e a := by
      intro p hp
      obtain ⟨e, he, history, rest, get, hhistory, hprogram⟩ := hI.commanded hp
      obtain ⟨e', he', _, hop, hinput, more, hmore⟩ := hG.executions he
      refine ⟨e', he', history, rest ++ more, get, ?_, ?_⟩
      · rw [hmore, hhistory, List.append_assoc]
      · rw [hop, hinput]
        exact hprogram
    rcases attempt_of_step hmove hj with
      hj | ⟨_, e, get, he, hprogram⟩ | ⟨p, _, hj, _⟩
    · exact hold hj
    · obtain ⟨e', he', _, hop, hinput, more, hmore⟩ := hG.executions he
      refine ⟨e', he', e.history, more, get, hmore, ?_⟩
      rw [hop, hinput]
      exact hprogram
    · exact hold hj
  · -- recorded
    intro k e' a r hk hmem
    have hold : ∀ {e : Execution}, s.executions[k]? = some e →
        (⟨a, .ok r⟩ : Sigma Outcome) ∈ e.history →
        ∃ j : Nat, t.attempts[j]? = some ⟨k, a, .answered (.ok r)⟩ := by
      intro e he hmem
      obtain ⟨j, hj⟩ := hI.recorded he hmem
      obtain ⟨p', hj', hkept⟩ := hG.attempts hj
      rw [hkept _ rfl] at hj'
      exact ⟨j, hj'⟩
    rcases execution_of_step hmove hk with ⟨e, he, hchanged⟩ | ⟨_, _, _, _, _, _, rfl⟩
    · cases hchanged with
      | same => exact hold he hmem
      | attempted => exact hold he hmem
      | recorded j k' a' p outcome hcurrent hj hanswered =>
          rcases (record_keeps e a' outcome).2.2.2.2 with
            hhistory | ⟨hhistory, _⟩
          · rw [hhistory] at hmem
            rcases List.mem_append.mp hmem with hmem | hmem
            · exact hold he hmem
            · cases List.mem_singleton.mp hmem
              obtain ⟨rfl, _⟩ := hI.program_of_current he hcurrent hj
              obtain ⟨p', hj', hkept⟩ := hG.attempts hj
              have hp := hanswered r rfl
              rw [hkept _ hp, hp] at hj'
              exact ⟨j, hj'⟩
          · rw [hhistory] at hmem
            exact hold he hmem
    · cases hmem
  · -- unique
    intro k k' e e' hk hk' hopen hopen' hid
    rcases execution_of_step hmove hk with
      ⟨e₀, he₀, hchanged⟩ | ⟨op, modelId, entry, _, hidle, rfl, rfl⟩
    · obtain ⟨hopen₀, hid₀⟩ := hI.open_of_changed he₀ hchanged hopen
      rcases execution_of_step hmove hk' with
        ⟨e₁, he₁, hchanged'⟩ | ⟨op, modelId, entry, _, hidle, rfl, rfl⟩
      · obtain ⟨hopen₁, hid₁⟩ := hI.open_of_changed he₁ hchanged' hopen'
        exact hI.unique he₀ he₁ hopen₀ hopen₁ (hid₀.symm.trans (hid.trans hid₁))
      · exact absurd (hid₀.symm.trans hid)
          fun heq => not_open_of_idle hidle he₀ hopen₀ heq
    · rcases execution_of_step hmove hk' with
        ⟨e₁, he₁, hchanged'⟩ | ⟨_, _, _, _, _, rfl, rfl⟩
      · obtain ⟨hopen₁, hid₁⟩ := hI.open_of_changed he₁ hchanged' hopen'
        exact absurd (hid₁.symm.trans hid.symm)
          fun heq => not_open_of_idle hidle he₁ hopen₁ heq
      · rfl

theorem consistent_of_run
    (h : Run (controlStep config) (fun _ _ => True) .init s) :
    Consistent config s :=
  h.invariant consistent_init fun hI _ hstep => consistent_step hI hstep

/-! ## Workflow ids -/

theorem workflowId_inj {sha256 : String → String} {operation operation' : Operation}
    {modelId modelId' : String}
    (h : workflowId sha256 operation modelId =
      workflowId sha256 operation' modelId') :
    operation = operation' ∧
      (sha256 modelId).toList.take 35 = (sha256 modelId').toList.take 35 := by
  have hlist := String.ofList_injective h
  simp only [String.toList_append] at hlist
  have hop : operation = operation' := by
    -- the operations differ in their first letter
    have hletter := congrArg (·[6]?) hlist
    revert hletter
    cases operation <;> cases operation' <;> simp [Operation.name]
  subst hop
  refine ⟨rfl, ?_⟩
  have hdigest := congrArg
    (fun l => (l.drop (("model-".toList ++ operation.name.toList ++
      "-".toList).length)).take 35) hlist
  simp only [List.drop_take, List.drop_left, List.take_take] at hdigest
  cases operation <;> simpa [Operation.name] using hdigest

/-- No two models of the catalog have digests that start alike. -/
def Distinguished (config : ControlConfig) : Prop :=
  ∀ m m', config.models.get m ≠ none → config.models.get m' ≠ none →
    (config.sha256 m).toList.take 35 = (config.sha256 m').toList.take 35 →
    m = m'

/-- An execution of an operation on a model that has not returned. -/
def OpenOn (s : Plane) (k : Nat) (operation : Operation) (modelId : String) :
    Prop :=
  ∃ e, s.executions[k]? = some e ∧ e.result = none ∧
    e.operation = operation ∧ e.input.modelId = modelId

/-- An execution that is open for an operation on a model of the catalog. -/
def OpenFor (config : ControlConfig) (s : Plane) (k : Nat)
    (operation : Operation) (modelId : String) (entry : Entry) : Prop :=
  ∃ e, s.executions[k]? = some e ∧ e.result = none ∧
    e.operation = operation ∧ e.input = inputOf config modelId entry

theorem started_open (id : String) (operation : Operation) (input : ModelInput) :
    (Execution.mk id operation input [] 0 none).result = none := by
  cases operation <;> rfl

theorem start_opens (hsha : Distinguished config) (hI : Consistent config s)
    (operation : Operation) {modelId : String} {entry : Entry}
    (hentry : config.models.get modelId = some entry) :
    ∃ k, OpenFor config (start config s modelId operation none).2 k operation
      modelId entry := by
  have hstart : (start config s modelId operation none).2 =
      s.executeWorkflow (workflowId config.sha256 operation modelId) operation
        (inputOf config modelId entry) := by
    rw [start, hentry]
    rfl
  rw [hstart, Plane.executeWorkflow]
  split
  · next hrunning =>
      -- the execution that has the id is one of this operation on this model
      obtain ⟨e, hmem, he⟩ := List.any_eq_true.mp hrunning
      simp only [Bool.and_eq_true, decide_eq_true_eq, Option.isNone_iff_eq_none]
        at he
      obtain ⟨k, hk⟩ := List.mem_iff_getElem?.mp hmem
      obtain ⟨entry', hentry', hinput, hid⟩ := hI.started hk
      obtain ⟨hop, hdigest⟩ := workflowId_inj (hid.symm.trans he.1)
      have hmodel := hsha _ _ (by rw [hentry']; nofun) (by rw [hentry]; nofun)
        hdigest
      rw [hmodel, hentry] at hentry'
      cases hentry'
      exact ⟨k, e, hk, he.2, hop, by rw [hinput, hmodel]⟩
  · exact ⟨s.executions.length, _, List.getElem?_concat_length,
      started_open _ _ _, rfl, rfl⟩

theorem OpenFor.openOn {k : Nat} {operation : Operation} {modelId : String}
    {entry : Entry} (h : OpenFor config s k operation modelId entry) :
    OpenOn s k operation modelId := by
  obtain ⟨e, he, hopen, hop, hinput⟩ := h
  exact ⟨e, he, hopen, hop, by rw [hinput]; rfl⟩

theorem Consistent.openOn_unique (hI : Consistent config s) {k k' : Nat}
    {operation : Operation} {modelId : String}
    (hk : OpenOn s k operation modelId)
    (hk' : OpenOn s k' operation modelId) : k = k' := by
  obtain ⟨e, he, hopen, hop, hmodel⟩ := hk
  obtain ⟨e', he', hopen', hop', hmodel'⟩ := hk'
  obtain ⟨_, _, _, hid⟩ := hI.started he
  obtain ⟨_, _, _, hid'⟩ := hI.started he'
  refine hI.unique he he' hopen hopen' ?_
  rw [hid, hid', hop, hop', hmodel, hmodel']

/-- There are never two open executions of one operation on one model, whatever
was requested, answered, lost or repeated. A request for a model of the catalog
that Temporal accepts is answered with success, and then there is one, with what
the catalog says of the model as its input. For other models the answer is that
they are not registered, and nothing is started. -/
theorem one_execution_for_each_request (config : ControlConfig)
    (hsha : Distinguished config) (s : Plane)
    (h : Run (controlStep config) (fun _ _ => True) .init s)
    (operation : Operation) (modelId : String) :
    (∀ k k', OpenOn s k operation modelId → OpenOn s k' operation modelId →
      k = k') ∧
    (∀ entry, config.models.get modelId = some entry →
      (∃ id, (start config s modelId operation none).1 =
        .ok ⟨id, modelId, operation.name⟩) ∧
      ∃! k, OpenFor config (start config s modelId operation none).2 k operation
        modelId entry) ∧
    (config.models.get modelId = none →
      start config s modelId operation none =
        (.error ⟨.notFound, "model " ++ config.quoted modelId ++
          " is not registered"⟩, s)) := by
  have hI := consistent_of_run h
  refine ⟨fun _ _ hk hk' => hI.openOn_unique hk hk',
    fun entry hentry => ⟨?_, ?_⟩, fun hnone => ?_⟩
  · refine ⟨workflowId config.sha256 operation modelId, ?_⟩
    rw [start, hentry]
  · obtain ⟨k, hk⟩ := start_opens hsha hI operation hentry
    have hstep : controlStep config s (.start operation modelId none) =
        some (start config s modelId operation none).2 := rfl
    exact ⟨k, hk, fun k' hk' =>
      (consistent_step hI hstep).openOn_unique hk'.openOn hk.openOn⟩
  · rw [start, hnone]
    rfl

/-! ## Two models -/

def catalogEntry (id : String) : Entry where
  model := ⟨id, "main", id, "main", 4096, 1024, id, id⟩
  endpoint := "http://" ++ id ++ ":8000"
  kserveService := id

def sampleCatalog : Catalog :=
  ⟨"models/*.yaml",
    (AList.insert "a" (catalogEntry "a") ∅).insert "b" (catalogEntry "b")⟩

/-- The digests are those of SHA-256. -/
def sampleControl : ControlConfig where
  models := sampleCatalog
  namespaceName := "inference-data-plane"
  hostAgentToken := "local-host-agent"
  hostModels := sampleCatalog
  authToken := "local-host-agent"
  port := 18000
  quoted := fun id => "\"" ++ id ++ "\""
  sha256 := fun id =>
    if id = "a" then
      "ca978112ca1bbdcafac231b39a23dc4da786eff8147c4e72b9807785afee48bb"
    else "3e23e8160039594a33894f6564e1b1348bbd7a0088d42c4acb73eeaed59c009d"

theorem sampleControl_get {m : String} (h : sampleControl.models.get m ≠ none) :
    m = "a" ∨ m = "b" := by
  by_contra hne
  push Not at hne
  refine h ?_
  show AList.lookup m ((AList.insert "a" _ ∅).insert "b" _) = none
  rw [AList.lookup_insert_ne hne.2, AList.lookup_insert_ne hne.1]
  rfl

theorem sampleControl_distinguished : Distinguished sampleControl := by
  intro m m' hm hm' h
  rcases sampleControl_get hm with rfl | rfl <;>
    rcases sampleControl_get hm' with rfl | rfl <;>
    first | rfl | exact absurd h (by decide)

/-- Both models are being loaded, and the first load has lost an answer. -/
theorem one_execution_for_each_request_lost :
    ∃ s, Run (controlStep sampleControl) (fun _ _ => True) .init s ∧
      s.executions.length = 2 ∧ s.attempts.length = 2 ∧
      ∃! k, OpenFor sampleControl (start sampleControl s "a" .load none).2 k
        .load "a" (catalogEntry "a") := by
  obtain ⟨s, hrun, hs⟩ := run_of_exec_map (controlStep sampleControl)
    (fun _ _ => True) (fun _ _ => true) .init
    [.start .load "a" none, .start .load "b" none, .attempt 0,
      .serve 0 .interrupted (some "connection reset"), .deliver 0,
      .start .load "a" none, .attempt 0]
    (fun s => (s.executions.length, s.attempts.length)) (b := (2, 2))
    (fun _ _ _ => trivial) (by decide)
  obtain ⟨hexecutions, hattempts⟩ := Prod.mk.inj hs
  exact ⟨s, hrun, hexecutions, hattempts,
    ((one_execution_for_each_request sampleControl sampleControl_distinguished s
      hrun .load "a").2.1 (catalogEntry "a") rfl).2⟩

end DataPlane.Proofs
