import Mathlib.Data.List.AList

/-!
# The host agent

The agent of one machine starts, drains and stops MLX processes, one configured
port for all of them. `a.mu` guards the table of owned processes; `EnsureModel`
gives it up while it probes the port and while a process starts, which can take
minutes, and everything else holds it from beginning to end.

The model is a transition system. A critical section is one step, so is what an
`EnsureModel` call does between two of them, and so is whatever befalls a
process: it takes the port, gives it up, exits, is waited for. What the outside
decides, the answer of a probe or the result of a system call, is in the label.
-/

namespace DataPlane.Ref.HostAgent

/-- The codes of Connect the agent answers with. -/
inductive Code
  | canceled
  | notFound
  | alreadyExists
  | aborted
  | internal
  | unavailable
  | deadlineExceeded
  deriving DecidableEq, Repr

/-- `connect.Error`. -/
structure ConnectError where
  code : Code
  message : String
  deriving DecidableEq, Repr

/-- What the agent is given: the catalog, the port, and `fmt`'s `%q`. -/
structure Config where
  /-- `catalog.Get`, of which only the local runtime is read. -/
  localRuntime : String → Option String
  port : Int
  quoted : String → String

/-- The states of a process, as it is reported. -/
inductive ModelState
  | starting
  | ready
  | draining
  | stopped
  deriving DecidableEq, Repr

/-- A `process`. The last three fields are what `command` stands for. -/
structure Process where
  pid : Int
  state : ModelState
  modelId : String
  endpoint : String
  /-- It has not exited. -/
  alive : Bool
  /-- `Wait` has returned: `ProcessState` is no longer nil. -/
  waited : Bool
  /-- It was sent an interrupt, or was killed. -/
  signalled : Bool
  deriving DecidableEq, Repr

/-- The response to every call about a model. -/
structure HostModelStatus where
  modelId : String
  state : ModelState
  pid : Int
  endpoint : String
  message : String
  deriving DecidableEq, Repr

/-- Who answers on the port. -/
inductive Server
  | launched (process : Nat)
  /-- A process the agent knows nothing of. -/
  | foreign
  deriving DecidableEq, Repr

/-- A successful `EnsureModel`. Besides the response there is what the call
does not tell, and may not know. -/
structure Report where
  /-- The process the response is about. -/
  process : Nat
  response : HostModelStatus
  /-- What was tracked under the model's id at the last critical section. -/
  tracked : Option Nat
  /-- The process had not exited when the probe succeeded. -/
  alive : Bool
  deriving DecidableEq, Repr

/-- Where an `EnsureModel` call is. -/
inductive Point
  /-- Before the first critical section. -/
  | entering
  /-- Probing for a process that was there. -/
  | probing (current : Nat)
  | probed (current : Nat) (alive : Bool)
  /-- At the head of the start-up loop. -/
  | polling (owned : Nat)
  /-- In the `select`. -/
  | waiting (owned : Nat)
  | polled (owned : Nat) (alive : Bool)
  /-- Out of the last critical section, about to report. -/
  | unlocked (owned : Nat) (alive : Bool) (tracked : Option Nat)
  /-- The deadline has passed. -/
  | expired (owned : Nat)
  | failed (error : ConnectError)
  | succeeded (report : Report)
  deriving DecidableEq, Repr

/-- An `EnsureModel` call: the model that is asked for, and where it is. -/
structure EnsureCall where
  modelId : String
  point : Point
  deriving DecidableEq, Repr

/-- The machine with its agent. -/
structure Host where
  /-- `a.models`. A `*process` is a position in `processes`. -/
  models : AList fun _ : String => Nat
  /-- Every process launched so far, in the order of the launches. -/
  processes : List Process
  /-- Who serves the port, if anybody does. -/
  server : Option Server
  /-- The `EnsureModel` calls so far. -/
  calls : List EnsureCall
  /-- For each `StopAll`, the ids it has yet to stop. -/
  stopAlls : List (List String)

/-- Nothing runs, and nobody has called. -/
def Host.init : Host := ⟨∅, [], none, [], []⟩

namespace Host

/-- The process has not exited. -/
def alive (s : Host) (p : Nat) : Bool :=
  s.processes[p]?.any (·.alive)

/-- `command.ProcessState != nil`. -/
def waited (s : Host) (p : Nat) : Bool :=
  s.processes[p]?.any (·.waited)

/-- Change a process. -/
def modify (s : Host) (p : Nat) (f : Process → Process) : Host :=
  { s with processes := s.processes.modify p f }

/-- Assign to the `state` of a process. -/
def setState (s : Host) (p : Nat) (state : ModelState) : Host :=
  s.modify p fun process => { process with state := state }

/-- An `EnsureModel` call moves on. -/
def moveTo (s : Host) (i : Nat) (point : Point) : Host :=
  { s with calls := s.calls.modify i fun call => { call with point := point } }

end Host

/-- The answer about a process. -/
def status (current : Process) (message : String) : HostModelStatus :=
  ⟨current.modelId, current.state, current.pid, current.endpoint, message⟩

/-- The answer about a model of which there is no process. -/
def stoppedStatus (modelId : String) : HostModelStatus :=
  ⟨modelId, .stopped, 0, "", ""⟩

/-! ## Calls that hold the lock throughout -/

/-- `GetModelStatus`, which notices that a process has been waited for. -/
def getModelStatus (s : Host) (modelId : String) : HostModelStatus × Host :=
  match s.models.lookup modelId with
  | none => (stoppedStatus modelId, s)
  | some current =>
      let s := if s.waited current then s.setState current .stopped else s
      (s.processes[current]?.elim (stoppedStatus modelId) (status · ""), s)

/-- `DrainModel`, a note about the process and no more. -/
def drainModel (s : Host) (modelId : String) : HostModelStatus × Host :=
  match s.models.lookup modelId with
  | none => (stoppedStatus modelId, s)
  | some current =>
      let s := s.setState current .draining
      (s.processes[current]?.elim (stoppedStatus modelId)
        (status · "new requests should no longer be routed to this model"), s)

/-- What comes of asking a process to exit. One that cannot be interrupted is
killed; whether that goes through is not asked. -/
inductive Signal
  | interrupted
  | failed (err : String) (killed : Bool)
  deriving DecidableEq, Repr

/-- The process was interrupted, or killed. -/
def Signal.reached : Signal → Bool
  | .interrupted => true
  | .failed _ killed => killed

/-- The entry goes first. The process is asked to exit, unless it has been
waited for. -/
def stopOwned (s : Host) (modelId : String) (signal : Signal) :
    Except String Unit × Host :=
  match s.models.lookup modelId with
  | none => (.ok (), s)
  | some current =>
      let t := { s with models := s.models.erase modelId }
      if s.waited current then (.ok (), t)
      else
        let t := t.modify current fun process =>
          { process with signalled := process.signalled || signal.reached }
        match signal with
        | .interrupted => (.ok (), t)
        | .failed err _ => (.error ("stop owned MLX process: " ++ err), t)

/-- `StopModel`. -/
def stopModel (s : Host) (modelId : String) (signal : Signal) :
    Except ConnectError HostModelStatus × Host :=
  match stopOwned s modelId signal with
  | (.error err, t) => (.error ⟨.internal, err⟩, t)
  | (.ok (), t) => (.ok (stoppedStatus modelId), t)

/-! ## `EnsureModel` -/

/-- What comes of launching a process. -/
inductive Launch
  | mkdirFails (err : String)
  | openFails (err : String)
  | startFails (err : String)
  | started (pid : Int)
  deriving DecidableEq, Repr

/-- The one address there is. -/
def endpoint (config : Config) : String :=
  "http://127.0.0.1:" ++ toString config.port

/-- A call comes in, and is turned away unless the catalog has its model. -/
def ensureModel (config : Config) (s : Host) (modelId : String) : Host :=
  let point := if config.localRuntime modelId = some modelId then .entering
    else .failed ⟨.notFound, "model " ++ config.quoted modelId ++
      " is not allowed by the catalog"⟩
  { s with calls := s.calls ++ [⟨modelId, point⟩] }

/-- The tracked process of a model, if it has not been waited for. -/
def Host.current (s : Host) (modelId : String) : Option Nat :=
  (s.models.lookup modelId).filter (!s.waited ·)

/-- The new process becomes the model's. -/
def Host.launch (config : Config) (s : Host) (modelId : String) (pid : Int) :
    Host :=
  { s with
    processes := s.processes ++
      [{ pid := pid
         state := .starting
         modelId := modelId
         endpoint := endpoint config
         alive := true
         waited := false
         signalled := false }]
    models := s.models.insert modelId s.processes.length }

/-- The first critical section. The port is probed, and the process launched,
inside it. -/
def enter (config : Config) (s : Host) (i : Nat) (modelId : String)
    (ready : Bool) (launch : Launch) : Host :=
  match s.current modelId with
  | some current => s.moveTo i (.probing current)
  | none =>
      if ready then
        s.moveTo i (.failed ⟨.alreadyExists, "port " ++ toString config.port ++
          " is owned by an untracked process"⟩)
      else
        match launch with
        | .mkdirFails err | .openFails err =>
            s.moveTo i (.failed ⟨.internal, err⟩)
        | .startFails err =>
            s.moveTo i (.failed ⟨.internal, "start MLX model: " ++ err⟩)
        | .started pid =>
            (s.launch config modelId pid).moveTo i (.polling s.processes.length)

/-- The answer to a probe, of a process that was there or of one that starts.
All endpoints are the one port. -/
def probe (s : Host) (i : Nat) (ready : Bool) : Point → Option Host
  | .probing current =>
      some (s.moveTo i (if ready then .probed current (s.alive current)
        else .failed ⟨.unavailable,
          "owned MLX process is running but model endpoint is not ready"⟩))
  | .polling owned =>
      some (s.moveTo i (if ready then .polled owned (s.alive owned)
        else .waiting owned))
  | _ => none

/-- The second critical section, after a probe that succeeded. -/
def confirm (s : Host) (i : Nat) (modelId : String) : Point → Option Host
  | .probed current alive =>
      let tracked := s.models.lookup modelId
      if tracked ≠ some current then
        some (s.moveTo i (.failed ⟨.aborted,
          "owned MLX process changed while checking readiness"⟩))
      else
        let t := s.setState current .ready
        t.processes[current]?.map fun process =>
          t.moveTo i (.succeeded
            ⟨current, status process "already running", tracked, alive⟩)
  | .polled owned alive =>
      let tracked := s.models.lookup modelId
      let t := if tracked = some owned then s.setState owned .ready else s
      some (t.moveTo i (.unlocked owned alive tracked))
  | _ => none

/-- The response of the start-up loop, made after the lock was given up. -/
def report (s : Host) (i : Nat) : Point → Option Host
  | .unlocked owned alive tracked =>
      s.processes[owned]?.map fun process =>
        s.moveTo i (.succeeded
          ⟨owned, status process "model ready", tracked, alive⟩)
  | _ => none

/-- The end of the wait between two polls, or of the whole call. -/
def wake (s : Host) (i : Nat) (canceled : Option String) :
    Point → Option Host
  | .waiting owned =>
      some (s.moveTo i (match canceled with
        | none => .polling owned
        | some err => .failed ⟨.canceled, err⟩))
  | _ => none

/-- The loop's condition fails. -/
def expire (s : Host) (i : Nat) : Point → Option Host
  | .polling owned => some (s.moveTo i (.expired owned))
  | _ => none

/-- The stop at the end of a loop that was left by its condition. -/
def giveUp (s : Host) (i : Nat) (modelId : String)
    (signal : Signal) : Point → Option Host
  | .expired _ =>
      some ((stopOwned s modelId signal).2.moveTo i
        (.failed ⟨.deadlineExceeded,
          "MLX model did not become ready before timeout"⟩))
  | _ => none

/-! ## The system -/

/-- Everything that can happen on the machine. -/
inductive HostStep
  | ensureModel (modelId : String)
  | enter (call : Nat) (ready : Bool) (launch : Launch)
  | probe (call : Nat) (ready : Bool)
  | confirm (call : Nat)
  | report (call : Nat)
  | wake (call : Nat) (canceled : Option String)
  | expire (call : Nat)
  | giveUp (call : Nat) (signal : Signal)
  | getModelStatus (modelId : String)
  | drainModel (modelId : String)
  | stopModel (modelId : String) (signal : Signal)
  /-- `StopAll` reads the table, in the order a map is read in. -/
  | stopAll (modelIds : List String)
  | stopNext (stopAll : Nat) (signal : Signal)
  /-- A process takes the port, if it is free. -/
  | listen (process : Nat)
  /-- A process gives the port up, and does not exit yet. -/
  | close (process : Nat)
  | exit (process : Nat)
  /-- `Wait` returns. -/
  | wait (process : Nat)
  /-- A process the agent knows nothing of takes the port, or gives it up. -/
  | occupy
  | vacate
  deriving DecidableEq, Repr

/-- A call makes its next move, wherever it is. -/
def Host.withCall (s : Host) (i : Nat)
    (move : String → Point → Option Host) : Option Host :=
  match s.calls[i]? with
  | none => none
  | some call => move call.modelId call.point

/-- One thing happens, if it can: nobody answers on a port that is not served,
and a process that has not exited is not waited for. -/
def hostStep (config : Config) (s : Host) : HostStep → Option Host
  | .ensureModel modelId => some (ensureModel config s modelId)
  | .enter i ready launch =>
      if ready && s.server.isNone then none
      else s.withCall i fun modelId point =>
        if point = .entering then some (enter config s i modelId ready launch)
        else none
  | .probe i ready =>
      if ready && s.server.isNone then none
      else s.withCall i fun _ point => probe s i ready point
  | .confirm i => s.withCall i fun modelId point => confirm s i modelId point
  | .report i => s.withCall i fun _ point => report s i point
  | .wake i canceled => s.withCall i fun _ point => wake s i canceled point
  | .expire i => s.withCall i fun _ point => expire s i point
  | .giveUp i signal =>
      s.withCall i fun modelId point => giveUp s i modelId signal point
  | .getModelStatus modelId => some (getModelStatus s modelId).2
  | .drainModel modelId => some (drainModel s modelId).2
  | .stopModel modelId signal => some (stopModel s modelId signal).2
  | .stopAll modelIds =>
      if modelIds.isPerm s.models.keys then
        some { s with stopAlls := s.stopAlls ++ [modelIds] }
      else none
  | .stopNext k signal =>
      match s.stopAlls[k]? with
      | some (modelId :: modelIds) =>
          some { (stopOwned s modelId signal).2 with
            stopAlls := s.stopAlls.set k modelIds }
      | _ => none
  | .listen p =>
      if s.alive p && s.server.isNone then
        some { s with server := some (.launched p) }
      else none
  | .close p =>
      if s.server = some (.launched p) then some { s with server := none }
      else none
  | .exit p =>
      if s.alive p then
        some { s.modify p fun process => { process with alive := false } with
          server := if s.server = some (.launched p) then none else s.server }
      else none
  | .wait p =>
      if (p < s.processes.length) && !s.alive p then
        some (s.modify p fun process => { process with waited := true })
      else none
  | .occupy =>
      if s.server.isNone then some { s with server := some .foreign } else none
  | .vacate =>
      if s.server = some .foreign then some { s with server := none } else none

end DataPlane.Ref.HostAgent
