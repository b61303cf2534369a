import DataPlane.Proofs.HostCalls

/-!
# What a success of `EnsureModel` says

A call that found a process running looks once more, under the lock, whether it
is still the model's, and reports while it holds the lock. A call that launched
a process itself does neither: it marks the process ready if it is still the
model's, and reports it in any case, after the lock is gone. And no call knows
who answered its probe.

So three things must not happen for a report to be right. A probe must not be
answered by anybody but the process it is about. The model of a process that is
being waited for must not be stopped or launched again. And nothing but `ready`
must be written between the last critical section and the report.
-/

namespace DataPlane.Proofs

open DataPlane DataPlane.Lib DataPlane.Ref.HostAgent

/-- The process a call is probing for. -/
def probedFor : Point → Option Nat
  | .probing p | .polling p => some p
  | _ => none

/-- The process a call has launched and has yet to confirm. -/
def awaited : Point → Option Nat
  | .polling p | .waiting p | .polled p _ => some p
  | _ => none

/-- The process a call is about to report without the lock. -/
def unreported : Point → Option Nat
  | .unlocked p _ _ => some p
  | _ => none

/-- A probe that succeeds was answered by the process it is about. -/
def AnsweredByOwn (s : Host) : HostStep → Prop
  | .probe i true => ∀ call ∈ s.calls[i]?, ∀ p ∈ probedFor call.point,
      s.server = some (.launched p)
  | _ => True

instance (s : Host) (l : HostStep) : Decidable (AnsweredByOwn s l) :=
  match l with
  | .probe i true => inferInstanceAs (Decidable (∀ call ∈ s.calls[i]?,
      ∀ p ∈ probedFor call.point, s.server = some (.launched p)))
  | .probe _ false | .ensureModel _ | .enter .. | .confirm _ | .report _
  | .wake .. | .expire _ | .giveUp .. | .getModelStatus _ | .drainModel _
  | .stopModel .. | .stopAll _ | .stopNext .. | .listen _ | .close _ | .exit _
  | .wait _ | .occupy | .vacate => isTrue trivial

/-- No process that a call waits for loses its entry, and none that a call is
about to report is given another state than `ready`. -/
def LeavesStarted (s : Host) (l : HostStep) : Prop :=
  ∀ call ∈ s.calls,
    (awaited call.point ≠ none → launching s l ≠ some call.modelId ∧
      stopping s l ≠ some call.modelId) ∧
    ∀ p ∈ unreported call.point, ∀ w ∈ writing s l, w.1 = p → w.2 = .ready

instance (s : Host) (l : HostStep) : Decidable (LeavesStarted s l) :=
  inferInstanceAs (Decidable (∀ call ∈ s.calls, _))

/-- What is so of a call at each of its points. -/
def Truthful (s : Host) (modelId : String) : Point → Prop
  | .probed _ alive => alive = true
  | .polling owned | .waiting owned => s.models.lookup modelId = some owned
  | .polled owned alive =>
      alive = true ∧ s.models.lookup modelId = some owned
  | .unlocked owned alive tracked =>
      alive = true ∧ tracked = some owned ∧
        s.processes[owned]?.map (·.state) = some .ready
  | .succeeded report =>
      report.alive = true ∧ report.tracked = some report.process ∧
        report.response.state = .ready ∧
        s.processes[report.process]?.map (·.pid) = some report.response.pid
  | _ => True

/-- Who serves the port is alive. -/
def ServerAlive (s : Host) : Prop :=
  ∀ p, s.server = some (.launched p) → s.alive p = true

variable {config : Config} {s t : Host} {l : HostStep} {modelId : String}

theorem serverAlive_step (hI : ServerAlive s)
    (h : hostStep config s l = some t) : ServerAlive t := by
  intro p hp
  obtain ⟨hexit, hserver⟩ := step_server h hp
  have halive : s.alive p = true := by
    rcases hserver with hserver | halive
    · exact hI p hserver
    · exact halive
  rw [step_alive h, if_neg hexit, halive]
  exact ite_self true

/-! ## The calls that do not move -/

/-- A process keeps the state `ready` when nothing else is written. -/
theorem ready_step (h : hostStep config s l = some t) {p : Nat}
    (hwrite : ∀ w ∈ writing s l, w.1 = p → w.2 = .ready)
    (hp : s.processes[p]?.map (·.state) = some .ready) :
    t.processes[p]?.map (·.state) = some .ready := by
  refine step_kept (fun _ _ _ _ => rfl) h ?_ hp
  intro state process hw _
  exact hwrite _ hw rfl

theorem pid_step (h : hostStep config s l = some t) {p : Nat} {pid : Int}
    (hp : s.processes[p]?.map (·.pid) = some pid) :
    t.processes[p]?.map (·.pid) = some pid :=
  step_kept (fun _ _ _ _ => rfl) h (fun _ _ _ hb => hb) hp

theorem lookup_of_leavesStarted (h : hostStep config s l = some t)
    (hok : launching s l ≠ some modelId ∧ stopping s l ≠ some modelId) :
    t.models.lookup modelId = s.models.lookup modelId := by
  rw [step_lookup h, if_neg hok.1, if_neg hok.2]

theorem truthful_kept {call : EnsureCall} (hmem : call ∈ s.calls)
    (hok : LeavesStarted s l) (h : hostStep config s l = some t)
    (hI : Truthful s call.modelId call.point) :
    Truthful t call.modelId call.point := by
  obtain ⟨hawaited, hunreported⟩ := hok call hmem
  obtain ⟨modelId, point⟩ := call
  cases point with
  | probed current alive => exact hI
  | polling owned | waiting owned =>
      exact (lookup_of_leavesStarted h (hawaited (by simp [awaited]))).trans hI
  | polled owned alive =>
      exact ⟨hI.1, (lookup_of_leavesStarted h
        (hawaited (by simp [awaited]))).trans hI.2⟩
  | unlocked owned alive tracked =>
      exact ⟨hI.1, hI.2.1, ready_step h (hunreported owned rfl) hI.2.2⟩
  | succeeded report =>
      exact ⟨hI.1, hI.2.1, hI.2.2.1, pid_step h hI.2.2.2⟩
  | entering | probing _ | expired _ | failed _ => trivial

/-! ## The call that moves -/

/-- The answer to a probe tells of the process it is about. -/
theorem alive_of_answeredByOwn (hserver : ServerAlive s) {i p : Nat}
    {point : Point} (hcall : s.calls[i]? = some ⟨modelId, point⟩)
    (hok : AnsweredByOwn s (.probe i true)) (hp : probedFor point = some p) :
    s.alive p = true :=
  hserver p (hok _ hcall p hp)

theorem truthful_move {i : Nat} {point point' : Point} (hroot : Rooted s)
    (hserver : ServerAlive s) (hown : AnsweredByOwn s l)
    (hok : LeavesStarted s l) (h : hostStep config s l = some t)
    (hcall : s.calls[i]? = some ⟨modelId, point⟩)
    (hmove : CallMove s l i modelId point point')
    (hI : Truthful s modelId point) : Truthful t modelId point' := by
  obtain ⟨hawaited, hunreported⟩ := hok _ (List.mem_of_getElem? hcall)
  cases hmove with
  | failed | found | expires => trivial
  | launched hlaunch =>
      show t.models.lookup modelId = _
      rw [step_lookup h, if_pos hlaunch]
  | probed current hl =>
      subst hl
      exact alive_of_answeredByOwn hserver hcall hown rfl
  | polled owned hl =>
      subst hl
      exact ⟨alive_of_answeredByOwn hserver hcall hown rfl,
        (lookup_of_leavesStarted h (hawaited (by simp [awaited]))).trans hI⟩
  | waits owned | wakes owned =>
      exact (lookup_of_leavesStarted h (hawaited (by simp [awaited]))).trans hI
  | confirmed current alive process hwrite hprocess htracked =>
      rw [Host.setState, modify_process, if_pos rfl] at hprocess
      obtain ⟨old, hold, rfl⟩ := Option.map_eq_some_iff.mp hprocess
      refine ⟨hI, rfl, rfl, pid_step h ?_⟩
      rw [hold]
      rfl
  | unlocked owned alive hwrite =>
      obtain ⟨halive, htracked⟩ := hI
      obtain ⟨process, hprocess, _⟩ :=
        Option.map_eq_some_iff.mp (hroot _ _ htracked)
      exact ⟨halive, htracked, written_ready h (hwrite htracked) hprocess⟩
  | reported owned alive tracked process hprocess =>
      obtain ⟨halive, htracked, hready⟩ := hI
      rw [hprocess, Option.map_some, Option.some.injEq] at hready
      refine ⟨halive, htracked, hready, pid_step h ?_⟩
      rw [hprocess]
      rfl

/-! ## All runs -/

/-- What the claim about one call rests on. -/
structure TruthfulHost (s : Host) : Prop where
  rooted : Rooted s
  server : ServerAlive s
  calls : ∀ call ∈ s.calls, Truthful s call.modelId call.point

theorem truthfulHost_init : TruthfulHost .init where
  rooted := rooted_init
  server := by intro p hp; cases hp
  calls := by intro call hcall; cases hcall

theorem truthfulHost_step (hI : TruthfulHost s)
    (hok : AnsweredByOwn s l ∧ LeavesStarted s l)
    (h : hostStep config s l = some t) : TruthfulHost t where
  rooted := rooted_step hI.rooted h
  server := serverAlive_step hI.server h
  calls := by
    intro call hmem
    obtain ⟨i, hcall⟩ := List.mem_iff_getElem?.mp hmem
    refine step_forall_calls
      (P := fun _ call => Truthful s call.modelId call.point)
      (Q := fun _ call => Truthful t call.modelId call.point) h ?_ ?_ ?_ ?_
      hcall
    · intro i call hcall
      exact hI.calls call (List.mem_of_getElem? hcall)
    · intro i call hcall
      exact truthful_kept (List.mem_of_getElem? hcall) hok.2 h
    · rintro modelId point (rfl | ⟨_, rfl⟩) <;> trivial
    · intro i modelId point point' hcall hpoint hmove
      exact truthful_move hI.rooted hI.server hok.1 hok.2 h hcall hmove hpoint

/-- In every run in which probes that succeed are answered by the process they
are about, and no process that a call has launched and not yet reported is
stopped, replaced or given another state, every `EnsureModel` that succeeds
reports the process that was tracked under its model at its last critical
section, reports it as ready, and reports one that was alive when the probe
succeeded. -/
theorem ensureModel_truthful (config : Config) (s : Host)
    (h : Run (hostStep config)
      (fun s l => AnsweredByOwn s l ∧ LeavesStarted s l) .init s)
    (call : EnsureCall) (hcall : call ∈ s.calls) (report : Report)
    (hreport : call.point = .succeeded report) :
    report.alive = true ∧ report.tracked = some report.process ∧
      report.response.state = .ready ∧
      s.processes[report.process]?.map (·.pid) = some report.response.pid := by
  have hI : TruthfulHost s :=
    h.invariant truthfulHost_init fun hI hok hstep =>
      truthfulHost_step hI hok hstep
  have htruthful := hI.calls call hcall
  rwa [hreport] at htruthful

/-- A model is loaded at the second poll, drained, and asked for again. -/
def loadedTwice : List HostStep :=
  [.ensureModel "a", .enter 0 false (.started 100), .probe 0 false,
    .wake 0 none, .listen 0, .probe 0 true, .confirm 0, .report 0,
    .drainModel "a", .ensureModel "a", .enter 1 false (.started 101),
    .probe 1 true, .confirm 1]

theorem ensureModel_truthful_loadedTwice :
    ∃ s first second, Run (hostStep twoModels)
        (fun s l => AnsweredByOwn s l ∧ LeavesStarted s l) .init s ∧
      s.calls = [⟨"a", .succeeded first⟩, ⟨"a", .succeeded second⟩] ∧
      first.tracked = some first.process ∧ first.response.state = .ready ∧
      second.tracked = some second.process ∧
      second.response.message = "already running" := by
  obtain ⟨s, hrun, hs⟩ := run_of_exec_map (hostStep twoModels)
    (fun s l => AnsweredByOwn s l ∧ LeavesStarted s l)
    (fun s l => decide (AnsweredByOwn s l ∧ LeavesStarted s l)) .init
    loadedTwice (fun s => s.calls)
    (b := [⟨"a", .succeeded ⟨0, ⟨"a", .ready, 100, "http://127.0.0.1:8080",
        "model ready"⟩, some 0, true⟩⟩,
      ⟨"a", .succeeded ⟨0, ⟨"a", .ready, 100, "http://127.0.0.1:8080",
        "already running"⟩, some 0, true⟩⟩])
    (fun _ _ hok => of_decide_eq_true hok) (by decide)
  obtain ⟨_, hfirst, hready, _⟩ := ensureModel_truthful twoModels s hrun _
    (hs ▸ List.mem_cons_self) _ rfl
  obtain ⟨_, hsecond, _, _⟩ := ensureModel_truthful twoModels s hrun _
    (hs ▸ List.mem_cons_of_mem _ List.mem_cons_self) _ rfl
  exact ⟨s, _, _, hrun, hs, hfirst, hready, hsecond, rfl⟩

/-- The model is stopped while its call waits for the lock: the call reports
success, with a process that is no longer the model's and that has never been
ready. -/
theorem ensureModel_reports_stopped :
    ∃ s report, Run (hostStep twoModels) (fun _ _ => True) .init s ∧
      s.calls = [⟨"a", .succeeded report⟩] ∧ report.process = 0 ∧
      report.tracked = none ∧ report.response.state = .starting := by
  obtain ⟨s, hrun, hs⟩ := run_of_exec_map (hostStep twoModels)
    (fun _ _ => True) (fun _ _ => true) .init
    [.ensureModel "a", .enter 0 false (.started 100), .listen 0, .probe 0 true,
      .stopModel "a" .interrupted, .confirm 0, .report 0]
    (fun s => s.calls)
    (b := [⟨"a", .succeeded ⟨0, ⟨"a", .starting, 100, "http://127.0.0.1:8080",
      "model ready"⟩, none, true⟩⟩])
    (fun _ _ _ => trivial) (by decide)
  exact ⟨s, _, hrun, hs, rfl, rfl, rfl⟩

end DataPlane.Proofs
