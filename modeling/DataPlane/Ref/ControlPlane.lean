import DataPlane.Lib.Workflow
import DataPlane.Ref.HostAgent
import DataPlane.Ref.ModelCatalog

/-!
# The model control plane

A request to load, drain or unload a model starts a Temporal workflow, and the
workflow's activities call the host agent. Temporal keeps what has come of the
activities of every execution, allows one open execution for a workflow id, and
has an activity attempted again, by any worker, when an attempt failed or was
not heard of in time. An attempt that was given up may still reach the agent.

The model has the executions, the attempts that were ever made, and the host
with its agent. What the network and the workers do to an attempt is in the
labels: it may be served late, its answer may be lost, it may be given up while
it is being served.
-/

namespace DataPlane.Ref.ControlPlane

open DataPlane.Lib DataPlane.Ref.HostAgent DataPlane.Ref.ModelCatalog

/-! ## Workflows -/

/-- What a workflow is started with. -/
structure ModelInput where
  modelId : String
  modelEndpoint : String
  kserveName : String
  namespaceName : String
  deriving DecidableEq, Repr

/-- What a workflow returns. -/
structure ModelResult where
  modelId : String
  state : ModelState
  endpoint : String
  deriving DecidableEq, Repr

/-- The activities, by the names they are registered under. -/
inductive Activity
  | ensureHostModel
  | waitKServeReady
  | drainHostModel
  | stopHostModel
  deriving DecidableEq, Repr

/-- What an activity returns besides its error. -/
abbrev Activity.Result : Activity → Type
  | .waitKServeReady => Unit
  | .ensureHostModel | .drainHostModel | .stopHostModel => HostModelStatus

/-- Why an attempt at an activity failed. -/
inductive ActivityError
  /-- The agent answered with an error. -/
  | agent (error : ConnectError)
  /-- The agent did not accept the token. -/
  | unauthorized
  /-- A non-retryable application error. -/
  | invalidCatalog (message : String)
  | failed (message : String)
  /-- The attempt took longer than `StartToCloseTimeout`. -/
  | timedOut
  deriving DecidableEq, Repr

/-- Temporal makes no further attempt after such an error. -/
def ActivityError.nonRetryable : ActivityError → Bool
  | .invalidCatalog _ => true
  | _ => false

/-- What comes of an activity. -/
abbrev Outcome (a : Activity) := Except ActivityError a.Result

/-- A workflow for a model. -/
abbrev ModelWorkflow :=
  Workflow Activity Outcome (Except ActivityError ModelResult)

/-- Start the model, then wait for its serving endpoint. -/
def loadModelWorkflow (input : ModelInput) : ModelWorkflow :=
  .execute .ensureHostModel fun
    | .error err => .done (.error err)
    | .ok status => .execute .waitKServeReady fun
        | .error err => .done (.error err)
        | .ok _ => .done (.ok ⟨input.modelId, .ready, status.endpoint⟩)

/-- Drain the model and no more. -/
def drainModelWorkflow (input : ModelInput) : ModelWorkflow :=
  .execute .drainHostModel fun
    | .error err => .done (.error err)
    | .ok status => .done (.ok ⟨input.modelId, status.state, status.endpoint⟩)

/-- Drain the model, then stop it. -/
def unloadModelWorkflow (input : ModelInput) : ModelWorkflow :=
  .execute .drainHostModel fun
    | .error err => .done (.error err)
    | .ok _ => .execute .stopHostModel fun
        | .error err => .done (.error err)
        | .ok status => .done (.ok ⟨input.modelId, status.state, ""⟩)

/-- What may be requested for a model. -/
inductive Operation
  | load
  | drain
  | unload
  deriving DecidableEq, Repr

/-- The operation's part of a workflow id. -/
def Operation.name : Operation → String
  | .load => "load"
  | .drain => "drain"
  | .unload => "unload"

/-- The workflow an operation starts. -/
def Operation.workflow : Operation → ModelInput → ModelWorkflow
  | .load => loadModelWorkflow
  | .drain => drainModelWorkflow
  | .unload => unloadModelWorkflow

/-- `MaximumAttempts`, if the workflow sets any. -/
def Operation.maximumAttempts : Operation → Option Nat
  | .load => some 30
  | .drain | .unload => none

/-! ## The state -/

/-- How far an attempt has got. -/
inductive Progress (a : Activity)
  | sent
  /-- The agent is in the call to `EnsureModel` with this number. -/
  | calling (call : Nat)
  | answered (outcome : Outcome a)

/-- One attempt at an activity of an execution. -/
structure Attempt where
  execution : Nat
  activity : Activity
  progress : Progress activity

/-- A workflow that was started. -/
structure Execution where
  workflowId : String
  operation : Operation
  input : ModelInput
  /-- What has come of the activities that are through. -/
  history : List (Sigma Outcome)
  /-- The attempts made of the present activity. -/
  made : Nat
  /-- The attempt that is waited for. -/
  current : Option Nat

/-- What is left of the workflow. -/
def Execution.program (e : Execution) : Option ModelWorkflow :=
  (e.operation.workflow e.input).replay e.history

/-- What the workflow has returned. -/
def Execution.result (e : Execution) :
    Option (Except ActivityError ModelResult) :=
  match e.program with
  | some (.done result) => some result
  | _ => none

/-- What Temporal keeps, the attempts ever made, and the host. -/
structure Plane where
  executions : List Execution
  attempts : List Attempt
  host : Host

/-- Nothing was started. -/
def Plane.init : Plane := ⟨[], [], .init⟩

/-- The control plane's configuration and the agent's. -/
structure ControlConfig where
  models : Catalog
  namespaceName : String
  hostAgentToken : String
  /-- The agent's catalog, its token and its port. -/
  hostModels : Catalog
  authToken : String
  port : Int
  /-- `%q`. -/
  quoted : String → String
  /-- A SHA-256 digest in hexadecimal. -/
  sha256 : String → String

/-- What the agent is given. -/
def ControlConfig.host (config : ControlConfig) : HostAgent.Config where
  localRuntime := fun id =>
    (config.hostModels.get id).map (·.model.localRuntime)
  port := config.port
  quoted := config.quoted

/-! ## Requests -/

/-- The answer to a request for a model that is not in the catalog. -/
def notRegistered (config : ControlConfig) (modelId : String) : ConnectError :=
  ⟨.notFound, "model " ++ config.quoted modelId ++ " is not registered"⟩

/-- The answer to a request that was accepted. -/
structure ModelOperation where
  workflowId : String
  modelId : String
  operation : String
  deriving DecidableEq, Repr

/-- One id for each operation and model, cut to 48 characters. -/
def workflowId (sha256 : String → String) (operation : Operation)
    (modelId : String) : String :=
  String.ofList
    (("model-" ++ operation.name ++ "-" ++ sha256 modelId).toList.take 48)

/-- Some execution with the id is open. -/
def Plane.running (s : Plane) (id : String) : Bool :=
  s.executions.any fun e => e.workflowId = id && e.result.isNone

/-- `ExecuteWorkflow` with `ALLOW_DUPLICATE`: nothing is started while an
execution with the id is open. -/
def Plane.executeWorkflow (s : Plane) (id : String)
    (operation : Operation) (input : ModelInput) : Plane :=
  if s.running id then s
  else { s with
    executions := s.executions ++ [⟨id, operation, input, [], 0, none⟩] }

/-- `LoadModel`, `DrainModel` and `UnloadModel`; `unavailable` is an error of
Temporal other than that the workflow is already started. -/
def start (config : ControlConfig) (s : Plane) (modelId : String)
    (operation : Operation) (unavailable : Option String) :
    Except ConnectError ModelOperation × Plane :=
  match config.models.get modelId with
  | none => (.error (notRegistered config modelId), s)
  | some entry =>
      let id := workflowId config.sha256 operation modelId
      match unavailable with
      | some err =>
          (.error ⟨.unavailable, "start lifecycle workflow: " ++ err⟩, s)
      | none =>
          (.ok ⟨id, modelId, operation.name⟩,
            s.executeWorkflow id operation
              { modelId := modelId
                modelEndpoint := entry.endpoint
                kserveName := entry.kserveService
                namespaceName := config.namespaceName })

/-! ## Activities -/

/-- What comes of the request for `/health`. -/
inductive Probe
  /-- The endpoint is no URL. -/
  | invalid
  | unreachable (err : String)
  | status (code : Nat)
  deriving DecidableEq, Repr

/-- `WaitKServeReady`, one attempt: anything but a 200 is tried again. -/
def waitKServeReady (input : ModelInput) (response : Probe) :
    Outcome .waitKServeReady :=
  if input.kserveName = "" || input.modelEndpoint = "" then
    .error (.invalidCatalog "model has no KServe service endpoint")
  else
    match response with
    | .invalid => .error (.invalidCatalog "invalid KServe model endpoint")
    | .unreachable err =>
        .error (.failed
          ("probe KServe model " ++ input.kserveName ++ ": " ++ err))
    | .status code =>
        if code ≠ 200 then
          .error (.failed ("KServe model " ++ input.kserveName ++
            " returned readiness status " ++ toString code))
        else .ok ()

/-- The agent takes a call. -/
def callHost (config : ControlConfig) (host : Host) (modelId : String)
    (signal : Signal) : (a : Activity) → Option (Progress a × Host)
  | .ensureHostModel =>
      some (.calling host.calls.length, ensureModel config.host host modelId)
  | .drainHostModel =>
      let (status, host) := drainModel host modelId
      some (.answered (.ok status), host)
  | .stopHostModel =>
      match stopModel host modelId signal with
      | (.error err, host) => some (.answered (.error (.agent err)), host)
      | (.ok status, host) => some (.answered (.ok status), host)
  | .waitKServeReady => none

/-- `Authorize` stands before the agent. -/
def authorized (config : ControlConfig) : Bool :=
  "Bearer " ++ config.hostAgentToken = "Bearer " ++ config.authToken

/-- The answer of an `EnsureModel` call that has returned. -/
def ensureOutcome (host : Host) (call : Nat) :
    Option (Outcome .ensureHostModel) :=
  match host.calls[call]? with
  | some ⟨_, .failed err⟩ => some (.error (.agent err))
  | some ⟨_, .succeeded report⟩ => some (.ok report.response)
  | _ => none

/-! ## Steps -/

namespace Plane

/-- An execution is recorded. -/
def setExecution (s : Plane) (k : Nat) (e : Execution) : Plane :=
  { s with executions := s.executions.set k e }

/-- An attempt gets on. -/
def setAttempt (s : Plane) (j : Nat) (attempt : Attempt) :
    Plane :=
  { s with attempts := s.attempts.set j attempt }

end Plane

/-- No further attempt is made after this one. -/
def Execution.exhausted (e : Execution) : Bool :=
  e.operation.maximumAttempts.any (· ≤ e.made)

/-- An attempt has failed, or an activity is through. -/
def Execution.record (e : Execution) (a : Activity) (outcome : Outcome a) :
    Execution :=
  match outcome with
  | .ok _ => { e with
      history := e.history ++ [⟨a, outcome⟩], made := 0, current := none }
  | .error err =>
      if err.nonRetryable || e.exhausted then { e with
        history := e.history ++ [⟨a, outcome⟩], made := 0, current := none }
      else { e with current := none }

/-- Everything that can happen, on the network, in Temporal or on the host. -/
inductive ControlStep
  | start (operation : Operation) (modelId : String)
      (unavailable : Option String)
  /-- A worker makes an attempt of the activity an execution has come to. -/
  | attempt (execution : Nat)
  /-- The agent takes the call; `signal` is what comes of the stop, if it is
  one, and `lost` what the caller gets instead of the answer. -/
  | serve (attempt : Nat) (signal : Signal) (lost : Option String)
  | probe (attempt : Nat) (response : Probe)
  /-- `EnsureModel` returns. -/
  | answer (attempt : Nat)
  /-- The connection breaks. -/
  | drop (attempt : Nat) (err : String)
  /-- The worker reports an answer. -/
  | deliver (execution : Nat)
  | timeout (execution : Nat)
  /-- Anything else that happens on the host. -/
  | host (step : HostStep)
  deriving DecidableEq, Repr

/-- One thing happens, if it can: an attempt is made of the activity its execution
has come to, served once, and reported once it was answered. -/
def controlStep (config : ControlConfig) (s : Plane) :
    ControlStep → Option Plane
  | .start operation modelId unavailable =>
      some (start config s modelId operation unavailable).2
  | .attempt k =>
      match s.executions[k]? with
      | none => none
      | some e =>
          match e.current, e.program with
          | none, some (.execute a _) =>
              some { s.setExecution k { e with
                  made := e.made + 1, current := some s.attempts.length } with
                attempts := s.attempts ++ [⟨k, a, .sent⟩] }
          | _, _ => none
  | .serve j signal lost =>
      match s.attempts[j]? with
      | some ⟨k, a, .sent⟩ =>
          match s.executions[k]? with
          | none => none
          | some e =>
              match callHost config s.host e.input.modelId signal a with
              | none => none
              | some (progress, host) =>
                  let (progress, host) :=
                    if authorized config then (progress, host)
                    else (.answered (.error .unauthorized), s.host)
                  some { s.setAttempt j ⟨k, a, lost.elim progress fun err =>
                      .answered (.error (.failed err))⟩ with host := host }
      | _ => none
  | .probe j response =>
      match s.attempts[j]? with
      | some ⟨k, .waitKServeReady, .sent⟩ =>
          match s.executions[k]? with
          | none => none
          | some e =>
              some (s.setAttempt j ⟨k, .waitKServeReady,
                .answered (waitKServeReady e.input response)⟩)
      | _ => none
  | .answer j =>
      match s.attempts[j]? with
      | some ⟨k, .ensureHostModel, .calling call⟩ =>
          (ensureOutcome s.host call).map fun outcome =>
            s.setAttempt j ⟨k, .ensureHostModel, .answered outcome⟩
      | _ => none
  | .drop j err =>
      match s.attempts[j]? with
      | some ⟨k, a, .sent⟩ | some ⟨k, a, .calling _⟩ =>
          some (s.setAttempt j ⟨k, a, .answered (.error (.failed err))⟩)
      | _ => none
  | .deliver k =>
      match s.executions[k]? with
      | none => none
      | some e =>
          match e.current.bind (s.attempts[·]?) with
          | some ⟨_, a, .answered outcome⟩ =>
              some (s.setExecution k (e.record a outcome))
          | _ => none
  | .timeout k =>
      match s.executions[k]? with
      | none => none
      | some e =>
          match e.current.bind (s.attempts[·]?) with
          | some attempt => some (s.setExecution k
              (e.record attempt.activity (.error .timedOut)))
          | none => none
  | .host l =>
      (hostStep config.host s.host l).map fun host => { s with host := host }

end DataPlane.Ref.ControlPlane
