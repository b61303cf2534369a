import DataPlane.Proofs.ControlPlane

/-!
# What it means that a model is loaded, or unloaded

A workflow reports what its activities were told, some of it long ago, by an
agent that everybody else may have been talking to in the meantime. A load that
has succeeded says: the agent answered that the model's process was there, at an
address that is the agent's, and after that the serving endpoint was healthy. An
unload that has succeeded says: of the processes of the model that were there
before its drain was through, every one has been told to go, provided that the
agent's signals get through to the processes that run.
-/

namespace DataPlane.Proofs

open DataPlane DataPlane.Lib DataPlane.Ref DataPlane.Ref.HostAgent
open DataPlane.Ref.ModelCatalog DataPlane.Ref.ControlPlane

/-! ## Records -/

theorem load_waits {input : ModelInput} {h : List (Sigma Outcome)}
    {get : Outcome .waitKServeReady → ModelWorkflow}
    (hw : (loadModelWorkflow input).replay h =
      some (.execute .waitKServeReady get)) :
    ∃ status, h = [⟨.ensureHostModel, .ok status⟩] := by
  rcases Workflow.replay_execute_inv hw with ⟨_, hv⟩ | ⟨r, rest, rfl, h₁⟩
  · cases hv
  · cases r with
    | error err => cases (Workflow.replay_done_inv h₁).2
    | ok status =>
        rcases Workflow.replay_execute_inv h₁ with ⟨rfl, _⟩ | ⟨r, rest, rfl, h₂⟩
        · exact ⟨status, rfl⟩
        · cases r <;> cases (Workflow.replay_done_inv h₂).2

theorem load_done {input : ModelInput} {h : List (Sigma Outcome)}
    {result : ModelResult}
    (hw : (loadModelWorkflow input).replay h = some (.done (.ok result))) :
    ∃ status, h = [⟨.ensureHostModel, .ok status⟩, ⟨.waitKServeReady, .ok ()⟩] ∧
      result = ⟨input.modelId, .ready, status.endpoint⟩ := by
  rcases Workflow.replay_execute_inv hw with ⟨_, hv⟩ | ⟨r, rest, rfl, h₁⟩
  · cases hv
  · cases r with
    | error err => cases (Workflow.replay_done_inv h₁).2
    | ok status =>
        rcases Workflow.replay_execute_inv h₁ with ⟨_, hv⟩ | ⟨r, rest, rfl, h₂⟩
        · cases hv
        · cases r with
          | error err => cases (Workflow.replay_done_inv h₂).2
          | ok r =>
              obtain ⟨rfl, hv⟩ := Workflow.replay_done_inv h₂
              cases hv
              exact ⟨status, rfl, rfl⟩

theorem unload_stops {input : ModelInput} {h : List (Sigma Outcome)}
    {get : Outcome .stopHostModel → ModelWorkflow}
    (hw : (unloadModelWorkflow input).replay h =
      some (.execute .stopHostModel get)) :
    ∃ drained, h = [⟨.drainHostModel, .ok drained⟩] := by
  rcases Workflow.replay_execute_inv hw with ⟨_, hv⟩ | ⟨r, rest, rfl, h₁⟩
  · cases hv
  · cases r with
    | error err => cases (Workflow.replay_done_inv h₁).2
    | ok drained =>
        rcases Workflow.replay_execute_inv h₁ with ⟨rfl, _⟩ | ⟨r, rest, rfl, h₂⟩
        · exact ⟨drained, rfl⟩
        · cases r <;> cases (Workflow.replay_done_inv h₂).2

theorem unload_done {input : ModelInput} {h : List (Sigma Outcome)}
    {result : ModelResult}
    (hw : (unloadModelWorkflow input).replay h = some (.done (.ok result))) :
    ∃ drained status,
      h = [⟨.drainHostModel, .ok drained⟩, ⟨.stopHostModel, .ok status⟩] ∧
        result = ⟨input.modelId, status.state, ""⟩ := by
  rcases Workflow.replay_execute_inv hw with ⟨_, hv⟩ | ⟨r, rest, rfl, h₁⟩
  · cases hv
  · cases r with
    | error err => cases (Workflow.replay_done_inv h₁).2
    | ok drained =>
        rcases Workflow.replay_execute_inv h₁ with ⟨_, hv⟩ | ⟨r, rest, rfl, h₂⟩
        · cases hv
        · cases r with
          | error err => cases (Workflow.replay_done_inv h₂).2
          | ok status =>
              obtain ⟨rfl, hv⟩ := Workflow.replay_done_inv h₂
              cases hv
              exact ⟨drained, status, rfl, rfl⟩

/-! ## What the agent answers -/

section

variable {config : HostAgent.Config} {s t : Host} {l : HostStep}

/-- Every process is at the configured port, every success says so, and only
models of the catalog get past the first check. -/
structure Addressed (config : HostAgent.Config) (s : Host) : Prop where
  processes : ∀ {p : Nat} {process : Process}, s.processes[p]? = some process →
    process.endpoint = endpoint config
  calls : ∀ {i : Nat} {call : EnsureCall}, s.calls[i]? = some call →
    ∀ report, call.point = .succeeded report →
      report.response.endpoint = endpoint config
  catalogued : ∀ {i : Nat} {call : EnsureCall}, s.calls[i]? = some call →
    config.localRuntime call.modelId = some call.modelId ∨
      ∃ err, call.point = .failed err

theorem addressed_init : Addressed config .init where
  processes hp := by cases hp
  calls hi := by cases hi
  catalogued hi := by cases hi

theorem endpoint_step (hI : Addressed config s)
    (h : hostStep config s l = some t) {p : Nat} {process : Process}
    (hp : t.processes[p]? = some process) :
    process.endpoint = endpoint config := by
  rcases Nat.lt_or_ge p s.processes.length with hold | hnew
  · have hs := List.getElem?_eq_getElem hold
    have hkept := step_kept (f := fun process => process.endpoint)
      (fun _ _ _ _ => rfl) h (fun _ _ _ hb => hb)
      (by rw [hs]; exact congrArg some (hI.processes hs))
    rw [hp] at hkept
    exact Option.some.inj hkept
  · rcases process_of_step h hp with ⟨old, hs, _⟩ | ⟨hlaunch, rfl⟩
    · rw [List.getElem?_eq_none hnew] at hs
      cases hs
    · obtain ⟨i, pid, _, ht⟩ := launch_step h hlaunch
      rw [ht, Host.moveTo, Host.launch, List.getElem?_concat_length] at hp
      have hendpoint := congrArg (·.endpoint) (Option.some.inj hp)
      exact hendpoint.symm

theorem catalogued_of_ensure (hI : Addressed config s) (modelId : String)
    {i : Nat} {call : EnsureCall}
    (hi : (ensureModel config s modelId).calls[i]? = some call) :
    config.localRuntime call.modelId = some call.modelId ∨
      ∃ err, call.point = .failed err := by
  unfold ensureModel at hi
  rcases Nat.lt_trichotomy i s.calls.length with hlt | rfl | hgt
  · rw [List.getElem?_append_left hlt] at hi
    exact hI.catalogued hi
  · rw [List.getElem?_concat_length] at hi
    cases hi
    by_cases hmodel : config.localRuntime modelId = some modelId
    · exact .inl hmodel
    · exact .inr ⟨_, if_neg hmodel⟩
  · rw [List.getElem?_eq_none (by simp; omega)] at hi
    cases hi

/-- A call that was turned away does not get anywhere else. -/
theorem catalogued_step (hI : Addressed config s)
    (h : hostStep config s l = some t) {i : Nat} {call : EnsureCall}
    (hi : t.calls[i]? = some call) :
    config.localRuntime call.modelId = some call.modelId ∨
      ∃ err, call.point = .failed err := by
  rcases step_calls_moved h with ⟨modelId, rfl⟩ | hcalls | ⟨j, _, _, _, _, _, hcalls⟩
  · cases h
    exact catalogued_of_ensure hI modelId hi
  · rw [hcalls] at hi
    exact hI.catalogued hi
  · cases step_calls h with
    | none calls =>
        rw [calls] at hi
        exact hI.catalogued hi
    | comes modelId point _ calls =>
        have hlength := congrArg List.length (calls.symm.trans hcalls)
        simp [Host.moveTo] at hlength
    | moves j modelId point point' hj hmove calls =>
        rw [calls] at hi
        rcases eq_or_ne j i with rfl | hne
        · rw [moveTo_self hj] at hi
          cases hi
          rcases hI.catalogued hj with hold | ⟨err, rfl⟩
          · exact .inl hold
          · cases hmove with
            | failed _ error => exact .inr ⟨error, rfl⟩
        · rw [moveTo_getElem, if_neg hne] at hi
          exact hI.catalogued hi

theorem addressed_step (hI : Addressed config s)
    (h : hostStep config s l = some t) : Addressed config t where
  processes hp := endpoint_step hI h hp
  catalogued hi := catalogued_step hI h hi
  calls {i call} hi := by
    refine step_forall_calls
      (P := fun _ call => ∀ report, call.point = .succeeded report →
        report.response.endpoint = endpoint config)
      (Q := fun _ call => ∀ report, call.point = .succeeded report →
        report.response.endpoint = endpoint config) h hI.calls ?_ ?_ ?_ hi
    · intro _ _ _ hold
      exact hold
    · rintro _ _ (rfl | ⟨_, rfl⟩) report hr <;> cases hr
    · intro j modelId point point' _ hold hmove report hr
      cases hmove with
      | confirmed current alive process hwrite hprocess htracked =>
          cases hr
          rw [Host.setState, modify_process, if_pos rfl] at hprocess
          obtain ⟨old, hs, rfl⟩ := Option.map_eq_some_iff.mp hprocess
          exact hI.processes hs
      | reported owned alive tracked process hprocess =>
          cases hr
          exact hI.processes hprocess
      | _ => cases hr

end

variable {config : ControlConfig} {s t u : Plane} {l : ControlStep}

/-- An attempt at `EnsureModel` is in a call for its execution's model, and
succeeds as that call did. -/
structure Called (s : Plane) : Prop where
  calling : ∀ {j k i : Nat} {e : Execution},
    s.attempts[j]? = some ⟨k, .ensureHostModel, .calling i⟩ →
    s.executions[k]? = some e →
      ∃ call : EnsureCall, s.host.calls[i]? = some call ∧
        call.modelId = e.input.modelId
  ensured : ∀ {j k : Nat} {status : HostModelStatus} {e : Execution},
    s.attempts[j]? = some ⟨k, .ensureHostModel, .answered (.ok status)⟩ →
    s.executions[k]? = some e →
      ∃ (i : Nat) (report : Report), s.host.calls[i]? =
        some ⟨e.input.modelId, .succeeded report⟩ ∧ status = report.response

theorem called_init : Called .init where
  calling hj := by cases hj
  ensured hj := by cases hj

/-- An execution an attempt belongs to was there before the step. -/
theorem Consistent.execution_before (hI : Consistent config s) (hG : Grows s t)
    {j k : Nat} {a : Activity} {p : Progress a} {e : Execution}
    (hj : s.attempts[j]? = some ⟨k, a, p⟩) (hk : t.executions[k]? = some e) :
    ∃ e₀, s.executions[k]? = some e₀ ∧ e.input = e₀.input := by
  obtain ⟨e₀, he₀, _⟩ := hI.commanded hj
  obtain ⟨e', he', _, _, hinput, _⟩ := hG.executions he₀
  rw [hk] at he'
  cases he'
  exact ⟨e₀, he₀, hinput⟩

theorem called_step (hI : Consistent config s) (hC : Called s)
    (h : controlStep config s l = some t) : Called t := by
  have hmove := plane_move h
  have hG := grows_step h
  constructor
  · intro j k i e hj hk
    rcases attempt_of_step hmove hj with hold | ⟨hsent, _⟩ | ⟨p, input, hold, hinput, hadvance⟩
    · obtain ⟨e₀, he₀, heq⟩ := hI.execution_before hG hold hk
      obtain ⟨call, hcall, hmodel⟩ := hC.calling hold he₀
      obtain ⟨point, hcall', _⟩ := hG.calls hcall
      exact ⟨_, hcall', hmodel.trans (by rw [heq])⟩
    · cases hsent
    · obtain ⟨e₀, he₀, heq⟩ := hI.execution_before hG hold hk
      generalize hhost : t.host = host at hadvance
      cases hadvance with
      | calls =>
          refine ⟨_, List.getElem?_concat_length, ?_⟩
          rw [heq, hinput e₀ he₀]
  · intro j k status e hj hk
    rcases attempt_of_step hmove hj with hold | ⟨hsent, _⟩ | ⟨p, input, hold, hinput, hadvance⟩
    · obtain ⟨e₀, he₀, heq⟩ := hI.execution_before hG hold hk
      obtain ⟨i, report, hcall, hstatus⟩ := hC.ensured hold he₀
      obtain ⟨point, hcall', hkept⟩ := hG.calls hcall
      rw [hkept report rfl] at hcall'
      exact ⟨i, report, by rw [heq]; exact hcall', hstatus⟩
    · cases hsent
    · obtain ⟨e₀, he₀, heq⟩ := hI.execution_before hG hold hk
      generalize hhost : t.host = host at hadvance
      cases hadvance with
      | ensured i modelId report hcall =>
          obtain ⟨call, hcall', hmodel⟩ := hC.calling hold he₀
          rw [hcall] at hcall'
          cases hcall'
          refine ⟨i, report, ?_, rfl⟩
          rw [hcall, heq, ← hmodel]

theorem called_of_run
    (h : Run (controlStep config) (fun _ _ => True) .init s) :
    Consistent config s ∧ Called s :=
  h.invariant (I := fun s => Consistent config s ∧ Called s)
    ⟨consistent_init, called_init⟩ fun hI _ hstep =>
      ⟨consistent_step hI.1 hstep, called_step hI.1 hI.2 hstep⟩

theorem addressed_of_run
    (h : Run (controlStep config) (fun _ _ => True) .init s) :
    Addressed config.host s.host := by
  have hhost : Run (hostStep config.host) (fun _ _ => True) .init s.host :=
    host_run (fun _ _ _ _ _ => trivial) h
  exact hhost.invariant addressed_init fun hI _ hstep =>
    addressed_step hI hstep

/-! ## Loading -/

/-- How an attempt got its answer. -/
theorem advance_of_answered (h : controlStep config u l = some t) {j k : Nat}
    {a : Activity} {outcome : Outcome a}
    (hnot : ¬ u.attempts[j]? = some ⟨k, a, .answered outcome⟩)
    (hnow : t.attempts[j]? = some ⟨k, a, .answered outcome⟩) :
    ∃ (p : Progress a) (input : ModelInput),
      u.attempts[j]? = some ⟨k, a, p⟩ ∧
      (∀ e, u.executions[k]? = some e → e.input = input) ∧
      Advance config u l j input a p (.answered outcome) t.host := by
  rcases attempt_of_step (plane_move h) hnow with
    hold | ⟨hsent, _⟩ | ⟨p, input, hp, hinput, hadvance⟩
  · exact absurd hold hnot
  · cases hsent
  · exact ⟨p, input, hp, hinput, hadvance⟩

theorem program_of_result {e : Execution} {result : ModelResult}
    (h : e.result = some (.ok result)) :
    e.program = some (.done (.ok result)) := by
  unfold Execution.result at h
  split at h
  · next r heq =>
      cases h
      exact heq
  · cases h

/-- A load that has come to its health check has been told by the agent that
the model is there. -/
theorem load_ensured (h : Run (controlStep config) (fun _ _ => True) .init u)
    {j k : Nat} {e : Execution} {p : Progress .waitKServeReady}
    (hj : u.attempts[j]? = some ⟨k, .waitKServeReady, p⟩)
    (hk : u.executions[k]? = some e) (hop : e.operation = .load) :
    ∃ (status : HostModelStatus) (i : Nat) (report : Report)
      (rest : List (Sigma Outcome)),
      e.history = ⟨.ensureHostModel, .ok status⟩ :: rest ∧
      u.host.calls[i]? = some ⟨e.input.modelId, .succeeded report⟩ ∧
      status = report.response := by
  obtain ⟨hI, hC⟩ := called_of_run h
  obtain ⟨e', he', history, rest, get, hhistory, hprogram⟩ := hI.commanded hj
  rw [hk] at he'
  cases he'
  rw [hop] at hprogram
  obtain ⟨status, rfl⟩ := load_waits hprogram
  obtain ⟨j', hj'⟩ := hI.recorded (r := status) hk
    (by rw [hhistory]; exact List.mem_append_left _ List.mem_cons_self)
  obtain ⟨i, report, hcall, hstatus⟩ := hC.ensured hj' hk
  exact ⟨status, i, report, rest, hhistory, hcall, hstatus⟩

/-- A load that has succeeded was for a model of both catalogs, with a serving
endpoint. At some point of what has happened the serving endpoint answered its
health check with 200, and by then the agent had confirmed the model's process,
at its one address, which is the endpoint that is reported. -/
theorem load_succeeds_after_both (config : ControlConfig)
    (ls : List ControlStep) (s : Plane)
    (h : exec (controlStep config) (fun _ _ => true) .init ls = some s) (k : Nat)
    (e : Execution) (hk : s.executions[k]? = some e) (hop : e.operation = .load)
    (result : ModelResult) (hresult : e.result = some (.ok result)) :
    result = ⟨e.input.modelId, .ready,
      "http://127.0.0.1:" ++ toString config.port⟩ ∧
    (∃ entry, config.models.get e.input.modelId = some entry ∧
      entry.kserveService ≠ "" ∧ entry.endpoint ≠ "") ∧
    (∃ entry, config.hostModels.get e.input.modelId = some entry ∧
      entry.model.localRuntime = e.input.modelId) ∧
    ∃ (pre post : List ControlStep) (u : Plane) (i j : Nat) (report : Report),
      ls = pre ++ .probe j (.status 200) :: post ∧
      exec (controlStep config) (fun _ _ => true) .init pre = some u ∧
      u.attempts[j]? = some ⟨k, .waitKServeReady, .sent⟩ ∧
      u.host.calls[i]? = some ⟨e.input.modelId, .succeeded report⟩ := by
  have hprogram := program_of_result hresult
  rw [Execution.program, hop] at hprogram
  obtain ⟨status, hhistory, rfl⟩ := load_done hprogram
  have hrun : ∀ {ls : List ControlStep} {s t : Plane},
      exec (controlStep config) (fun _ _ => true) s ls = some t →
      Run (controlStep config) (fun _ _ => True) s t :=
    run_of_exec fun _ _ _ => trivial
  have hI := consistent_of_run (hrun h)
  obtain ⟨j, hj⟩ := hI.recorded (a := .waitKServeReady) (r := ()) hk
    (by rw [hhistory]; exact List.mem_cons_of_mem _ List.mem_cons_self)
  obtain ⟨pre, l, post, u, v, hls, hpre, hstep, hpost, hnot, hnow⟩ :=
    exists_label_of_exec (P := fun s => s.attempts[j]? =
      some ⟨k, .waitKServeReady, .answered (.ok ())⟩) h nofun hj
  have hu := hrun hpre
  obtain ⟨p, input, hp, hinput, hadvance⟩ :=
    advance_of_answered hstep hnot hnow
  obtain ⟨e₀, he₀, _⟩ := (consistent_of_run hu).commanded hp
  obtain ⟨e', he', _, hop₀, hinput₀, more, hmore⟩ :=
    (grows_run (Run.trans (.single trivial hstep) (hrun hpost))).executions he₀
  rw [hk] at he'
  cases he'
  obtain ⟨status₀, i, report, rest, hhistory₀, hcall, hstatus⟩ :=
    load_ensured hu hp he₀ (hop₀.symm.trans hop)
  -- the record only grew, so the agent's answer is the one reported
  have hsame : status = status₀ := by
    rw [hmore, hhistory₀, List.cons_append] at hhistory
    obtain ⟨hhead, _⟩ := List.cons.inj hhistory
    cases hhead
    rfl
  subst hsame
  have hA := addressed_of_run hu
  obtain ⟨entry, hentry, hgiven, _⟩ := hI.started hk
  generalize hhost : v.host = host at hadvance
  cases hadvance with
  | ready hl hname hendpoint =>
      subst hl
      rw [← hinput e₀ he₀, ← hinput₀, hgiven] at hname hendpoint
      refine ⟨?_, ⟨entry, hentry, hname, hendpoint⟩, ?_,
        pre, post, u, i, j, report, hls, hpre, hp, by rw [hinput₀]; exact hcall⟩
      · have haddress := hA.calls hcall report rfl
        rw [← hstatus] at haddress
        rw [haddress]
        rfl
      · have hlocal := (hA.catalogued hcall).resolve_right nofun
        rw [← hinput₀] at hlocal
        exact Option.map_eq_some_iff.mp hlocal

/-- The model is launched, and its serving endpoint answers the second health
check. -/
def loadedAtSecondCheck : List ControlStep :=
  [.start .load "a" none, .attempt 0, .serve 0 .interrupted none,
    .host (.enter 0 false (.started 100)), .host (.listen 0),
    .host (.probe 0 true), .host (.confirm 0), .host (.report 0), .answer 0,
    .deliver 0, .attempt 0, .probe 1 (.status 503), .deliver 0, .attempt 0,
    .probe 2 (.status 200), .deliver 0]

theorem load_succeeds_after_both_checks :
    ∃ s e, exec (controlStep sampleControl) (fun _ _ => true) .init
        loadedAtSecondCheck = some s ∧
      s.executions[0]? = some e ∧ e.result = some (.ok
        ⟨"a", .ready, "http://127.0.0.1:18000"⟩) ∧
      ∃ (pre post : List ControlStep) (u : Plane) (i j : Nat) (report : Report),
        loadedAtSecondCheck = pre ++ .probe j (.status 200) :: post ∧
        exec (controlStep sampleControl) (fun _ _ => true) .init pre = some u ∧
        u.host.calls[i]? = some ⟨"a", .succeeded report⟩ := by
  have hload : (exec (controlStep sampleControl) (fun _ _ => true) .init
      loadedAtSecondCheck).map (fun (s : Plane) =>
        s.executions[0]?.map fun (e : Execution) =>
          (e.operation, e.input.modelId, e.result)) =
      some (some (.load, "a", some (.ok ⟨"a", .ready, "http://127.0.0.1:18000"⟩))) := by
    decide
  obtain ⟨s, hexec, hs⟩ := Option.map_eq_some_iff.mp hload
  obtain ⟨e, he, hresult⟩ := Option.map_eq_some_iff.mp hs
  simp only [Prod.mk.injEq] at hresult
  obtain ⟨hop, hmodel, hresult⟩ := hresult
  obtain ⟨_, _, _, pre, post, u, i, j, report, hls, hpre, _, hcall⟩ :=
    load_succeeds_after_both sampleControl loadedAtSecondCheck s hexec 0 e he
      hop _ hresult
  rw [hmodel] at hcall
  exact ⟨s, e, hexec, he, hresult, pre, post, u, i, j, report, hls, hpre, hcall⟩

/-! ## Unloading -/

/-- What a step has the agent stop it reaches. -/
def reachesHost (s : Plane) (l : ControlStep) : Bool :=
  (onHost s l).all (reaches s.host)

theorem reaches_of_onHost {hl : HostStep} (h : reachesHost s l = true)
    (hon : onHost s l = some hl) : reaches s.host hl = true := by
  rwa [reachesHost, hon] at h

theorem told_host_run {config : HostAgent.Config} {s t : Host}
    {ok : Host → HostStep → Prop} (h : Run (hostStep config) ok s t) {p : Nat}
    (hp : Host.told s p = true) : Host.told t p = true :=
  h.invariant (I := fun s => Host.told s p = true) hp
    fun hI _ hstep => told_step hstep hI

theorem modelId_host_run {config : HostAgent.Config} {s t : Host}
    {ok : Host → HostStep → Prop} (h : Run (hostStep config) ok s t) {p : Nat}
    {modelId : String}
    (hp : s.processes[p]?.map (·.modelId) = some modelId) :
    t.processes[p]?.map (·.modelId) = some modelId :=
  h.invariant (I := fun s => s.processes[p]?.map (·.modelId) = some modelId) hp
    fun hI _ hstep => modelId_step hstep hI

/-- Before its drain is through an unload attempts no stop. -/
theorem no_stop_attempt (h : Run (controlStep config) (fun _ _ => True) .init s)
    (h' : Run (controlStep config) (fun _ _ => True) s t) {k : Nat}
    {e : Execution}
    (hfresh : ∀ e, s.executions[k]? = some e → e.history = [])
    (hk : t.executions[k]? = some e) (hop : e.operation = .unload) (j : Nat)
    (p : Progress .stopHostModel) :
    s.attempts[j]? ≠ some ⟨k, .stopHostModel, p⟩ := by
  intro hj
  obtain ⟨e₀, he₀, history, rest, get, hhistory, hprogram⟩ :=
    (consistent_of_run h).commanded hj
  obtain ⟨e', he', _, hop', _⟩ := (grows_run h').executions he₀
  rw [hk] at he'
  cases he'
  rw [← hop', hop] at hprogram
  obtain ⟨drained, rfl⟩ := unload_stops hprogram
  rw [hfresh e₀ he₀] at hhistory
  cases hhistory

/-- Where every stop interrupts or kills the process it takes the entry of, unless
that has exited: an unload that has succeeded reports its model stopped, and
every process of the model that was launched before the drain was through, by
whichever call, has been interrupted or killed, or has exited. -/
theorem unload_tells_every_process (config : ControlConfig) (s t : Plane)
    (h : Run (controlStep config) (fun s l => reachesHost s l = true) .init s)
    (h' : Run (controlStep config) (fun s l => reachesHost s l = true) s t)
    (k : Nat) (hfresh : ∀ e, s.executions[k]? = some e → e.history = [])
    (e : Execution) (hk : t.executions[k]? = some e)
    (hop : e.operation = .unload) (result : ModelResult)
    (hresult : e.result = some (.ok result)) :
    result = ⟨e.input.modelId, .stopped, ""⟩ ∧
      ∀ p process, s.host.processes[p]? = some process →
        process.modelId = e.input.modelId → Host.told t.host p = true := by
  have hprogram := program_of_result hresult
  rw [Execution.program, hop] at hprogram
  obtain ⟨drained, status, hhistory, rfl⟩ := unload_done hprogram
  have hall : ∀ {s t : Plane},
      Run (controlStep config) (fun s l => reachesHost s l = true) s t →
      Run (controlStep config) (fun _ _ => True) s t :=
    fun h => h.mono fun _ _ _ => trivial
  have hhost : ∀ {s t : Plane},
      Run (controlStep config) (fun s l => reachesHost s l = true) s t →
      Run (hostStep config.host) (fun s l => reaches s l = true) s.host t.host :=
    host_run fun _ _ _ => reaches_of_onHost
  obtain ⟨j, hj⟩ := (consistent_of_run (hall (h.trans h'))).recorded
    (a := .stopHostModel) (r := status) hk
    (by rw [hhistory]; exact List.mem_cons_of_mem _ List.mem_cons_self)
  obtain ⟨u, v, l, hu, hok, hstep, hv, hnot, hnow⟩ := h'.exists_step
    (P := fun s => s.attempts[j]? = some ⟨k, .stopHostModel, .answered (.ok status)⟩)
    (no_stop_attempt (hall h) (hall h') hfresh hk hop j _) hj
  obtain ⟨q, input, hq, hinput, hadvance⟩ :=
    advance_of_answered hstep hnot hnow
  obtain ⟨e₀, he₀, _⟩ := (consistent_of_run (hall (h.trans hu))).commanded hq
  obtain ⟨e', he', _, _, hinput₀, _⟩ :=
    (grows_run (Run.trans (.single trivial hstep) (hall hv))).executions he₀
  rw [hk] at he'
  cases he'
  have hmodel : input.modelId = e.input.modelId := by
    rw [hinput₀, hinput e₀ he₀]
  obtain ⟨horderly, hastray⟩ := noneAstray_of_run (hhost (h.trans hu))
  generalize hafter : v.host = host at hadvance
  cases hadvance with
  | stopped signal hl =>
      have hstop : hostStep config.host u.host
          (.stopModel input.modelId signal) = some v.host := by
        rw [hafter]
        rfl
      refine ⟨rfl, fun p process hp hown => ?_⟩
      refine told_host_run (hhost hv) ?_
      have hkept := modelId_host_run (hhost hu) (p := p)
        (by rw [hp, Option.map_some, hown])
      obtain ⟨process', hp', hown'⟩ := Option.map_eq_some_iff.mp hkept
      rcases hastray p process' hp' with htold | htracked
      · exact told_step hstop htold
      · refine told_of_stop horderly (reaches_of_onHost hok hl) hstop rfl ?_
        rw [hmodel, ← hown', htracked]

/-- The second execution unloads the model of the first process. -/
def unloadedBetween (s t : Plane) : Bool :=
  s.executions[1]?.map (·.history.length) = some 0 ∧
    s.host.processes[0]?.map (·.modelId) = some "a" ∧
    t.executions[1]?.map (fun e => (e.operation, e.input.modelId, e.result)) =
      some (.unload, "a", some (.ok ⟨"a", .stopped, ""⟩))

/-- The model is still starting when it is unloaded. It cannot be interrupted, and
is killed; the stop that is made once more finds nothing. -/
theorem unload_tells_every_process_starting :
    ∃ s t e,
      Run (controlStep sampleControl) (fun s l => reachesHost s l = true) .init s ∧
      Run (controlStep sampleControl) (fun s l => reachesHost s l = true) s t ∧
      t.executions[1]? = some e ∧
      e.result = some (.ok ⟨"a", .stopped, ""⟩) ∧
      Host.told t.host 0 = true := by
  obtain ⟨s, hrun, hs⟩ := run_of_exec_map (controlStep sampleControl)
    (fun s l => reachesHost s l = true) reachesHost .init
    [.start .load "a" none, .attempt 0, .serve 0 .interrupted none,
      .host (.enter 0 false (.started 100)), .start .unload "a" none,
      .attempt 1, .serve 1 .interrupted none]
    (fun s => (exec (controlStep sampleControl) reachesHost s
        [.deliver 1, .attempt 1,
          .serve 2 (.failed "not supported by windows" true) none,
          .deliver 1, .attempt 1, .serve 3 .interrupted none, .deliver 1]).map
      (unloadedBetween s))
    (b := some true) (fun _ _ hok => hok) (by decide)
  obtain ⟨t, hexec, ht⟩ := Option.map_eq_some_iff.mp hs
  obtain ⟨hhistory, hprocess, ht⟩ := of_decide_eq_true ht
  obtain ⟨e, he, hresult⟩ := Option.map_eq_some_iff.mp ht
  simp only [Prod.mk.injEq] at hresult
  obtain ⟨hop, hmodel, hresult⟩ := hresult
  obtain ⟨process, hp, hown⟩ := Option.map_eq_some_iff.mp hprocess
  have hrun' : Run (controlStep sampleControl)
      (fun s l => reachesHost s l = true) s t :=
    run_of_exec (fun _ _ hok => hok) hexec
  have hfresh : ∀ e, s.executions[1]? = some e → e.history = [] := by
    intro e he
    rw [he, Option.map_some, Option.some.injEq] at hhistory
    exact List.length_eq_zero_iff.mp hhistory
  obtain ⟨_, htold⟩ := unload_tells_every_process sampleControl s t hrun hrun' 1
    hfresh e he hop _ hresult
  exact ⟨s, t, e, hrun, hrun', he, hresult,
    htold 0 process hp (hown.trans hmodel.symm)⟩

end DataPlane.Proofs
