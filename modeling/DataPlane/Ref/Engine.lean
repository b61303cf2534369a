import DataPlane.Ref.Broker

/-!
# The inference engine

`main`'s consume loop and `run_job`, cut at every broker command. An engine is
in some phase, an action is one command with its answer — or a local decision
the outside world takes part in, such as reading the clock or hearing from the
model backend — and `engineStep` is what the code does next.

A command that fails has no effect on the broker and takes the error path the
`?` at that place takes: out of `run_job` with the entry left pending, out of
`execute_attempt` into the failure branch, or out of `main`. A crash can happen
anywhere. Between two commands of one engine any other process may run.

What the backend sends is not constrained: it may produce any tokens, finish
with any usage, or fail at any point. The heartbeat is a second task that may
renew the lease at any time until it has been waited for, just before the
release.
-/

namespace DataPlane.Ref

open DataPlane DataPlane.Lib

/-- `GenerationUsage`. -/
structure GenerationUsage where
  promptTokens : Nat
  generatedTokens : Nat
  finishReason : String
  deriving DecidableEq, Repr

/-- `ConsumedJob`. -/
structure ConsumedJob where
  entryId : StreamId
  job : GenerationJob
  deriving DecidableEq, Repr

/-- The two commands of `publish_result`: append the event, then record the
state it leaves the request in. -/
inductive Publish
  | append
  | record (eventId : StreamId)
  deriving DecidableEq, Repr

/-- Where `execute_attempt` is. -/
inductive AttemptStep
  | enter
  | publish (event : Event) (step : Publish)
  | generate
  deriving DecidableEq, Repr

/-- What `execute_attempt` returned. -/
abbrev AttemptResult : Type := Except String GenerationUsage

/-- Where `run_job` is, or the acknowledgement after it. -/
inductive JobStep
  | start
  | cancelExpired
  | failExpired (step : Publish)
  | checkStatus
  | acquire
  | attempt (attemptId : Uuid) (step : AttemptStep)
  | release (attemptId : Uuid) (result : AttemptResult)
  | settle (attemptId : Uuid) (result : AttemptResult)
  | conclude (attemptId : Uuid) (result : AttemptResult) (step : Publish)
  | acknowledge

/-- Where the engine is. -/
inductive Phase
  | polling
  | reclaiming
  | reconnecting
  | working (taken : ConsumedJob) (step : JobStep)
  | stopped

/-- An engine process: its id, the model it has loaded, and where it is. -/
structure Engine where
  engineId : String
  model : String
  phase : Phase

/-- What the engine's surroundings are configured to. `parseError` is
`serde_json::from_slice` on a job's request: the message it fails with, if it
does. -/
structure EngineConfig where
  streams : StreamsConfig
  reclaimIdleMs : Nat
  parseError : List UInt8 → Option String

/-- One step of an engine, with what the outside world had to say to it. -/
inductive EngineAction
  /-- `consumer.next`. -/
  | poll
  /-- `consumer.reclaim_stale`, and which pending entry it found idle. -/
  | reclaim (position : Option Nat)
  /-- The consumer is created anew after a failed read. -/
  | reconnect
  /-- The deadline test, with the clock it read. -/
  | testDeadline (unixMs : Nat)
  /-- `acquire_lease` under a freshly drawn attempt id. -/
  | acquireLease (attemptId : Uuid)
  /-- The checks at the top of `execute_attempt`. -/
  | enterAttempt
  /-- The backend produced a piece of text. -/
  | token (chunk : TokenChunk)
  /-- The backend finished. -/
  | finish (usage : GenerationUsage)
  /-- The backend, or decoding what it sent, failed. -/
  | backendError (message : String)
  /-- The heartbeat's `renew_lease`. -/
  | renewLease
  /-- Any other next command, carried out. -/
  | command
  /-- The next command failed with this error. -/
  | fail (message : String)
  | crash
  | restart
  deriving DecidableEq

/-- `format!("{engine_id}:{attempt_id}")`. -/
def leaseOwner (engineId : String) (attemptId : Uuid) : String :=
  engineId ++ ":" ++ attemptId.text

/-- An event of a job, as every `publish_*` wraps it. -/
def resultOf (job : GenerationJob) (attemptId : String) (event : Event) :
    GenerationResult :=
  { schemaVersion := schemaVersion
    requestId := job.requestId
    attemptId := attemptId
    event := some event }

/-- The event of the deadline branch. Its attempt id is the engine's id. -/
def deadlineFailure (engineId : String) (job : GenerationJob) :
    GenerationResult :=
  resultOf job engineId
    (.failed ⟨"deadline_exceeded", "generation deadline exceeded", false⟩)

/-- The event that ends an attempt: `publish_completion` or
`publish_failure`. -/
def conclusion (job : GenerationJob) (attemptId : Uuid) :
    AttemptResult → GenerationResult
  | .ok usage =>
      resultOf job attemptId.text
        (.completed ⟨usage.promptTokens, usage.generatedTokens,
          usage.finishReason⟩)
  | .error message =>
      resultOf job attemptId.text (.failed ⟨"backend_error", message, false⟩)

/-- What the reservation is reconciled with: the tokens generated, or none
after a failure. -/
def actualTokens : AttemptResult → Nat
  | .ok usage => usage.generatedTokens
  | .error _ => 0

/-- An empty finish reason becomes `stop`. -/
def closeUsage (usage : GenerationUsage) : GenerationUsage :=
  if usage.finishReason = "" then { usage with finishReason := "stop" }
  else usage

/-- `deadline_unix_ms > 0 && unix_ms() > deadline_unix_ms`. -/
def deadlinePassed (job : GenerationJob) (unixMs : Nat) : Bool :=
  0 < job.deadlineUnixMs && job.deadlineUnixMs < unixMs

/-- `execute_attempt` up to its first command: is this engine's model asked
for, and does the request parse? -/
def enterAttempt (cfg : EngineConfig) (model : String) (job : GenerationJob) :
    Except String AttemptStep :=
  if job.modelId ≠ model then
    .error ("model " ++ job.modelId ++ " is not loaded by this engine")
  else
    match cfg.parseError job.requestJson with
    | some message => .error message
    | none => .ok (.publish .attemptStarted .append)

/-- What `consumer.next` makes of an entry: a malformed one is an error, and
the consumer is created anew. -/
def takeFresh (entry : RequestEntry) : Phase :=
  match entry.payload with
  | .job job => .working ⟨entry.entryId, job⟩ .start
  | .malformed => .reconnecting

/-- What `reclaim_stale` makes of an entry: here the error leaves `main`. -/
def takeStale (entry : RequestEntry) : Phase :=
  match entry.payload with
  | .job job => .working ⟨entry.entryId, job⟩ .start
  | .malformed => .stopped

/-- Carry out the next command of `run_job`, or the acknowledgement. Steps
that wait for something else have no command to carry out. -/
def jobCommand (cfg : EngineConfig) (b : Broker) (engineId : String)
    (taken : ConsumedJob) : JobStep → Option (Broker × Phase)
  | .cancelExpired =>
      some (b.cancel taken.job.reservationId,
        .working taken (.failExpired .append))
  | .failExpired .append =>
      let (eventId, b) := b.appendResult (deadlineFailure engineId taken.job)
      some (b, .working taken (.failExpired (.record eventId)))
  | .failExpired (.record eventId) =>
      some (b.recordResult cfg.streams (deadlineFailure engineId taken.job)
        eventId, .working taken .acknowledge)
  | .checkStatus =>
      match b.statusOf taken.job.requestId with
      | some status =>
          if status.state = .completed then
            some (b, .working taken .acknowledge)
          else some (b, .working taken .acquire)
      | none => some (b, .working taken .acquire)
  | .attempt a (.publish event .append) =>
      let (eventId, b) := b.appendResult (resultOf taken.job a.text event)
      some (b, .working taken (.attempt a (.publish event (.record eventId))))
  | .attempt a (.publish event (.record eventId)) =>
      some (b.recordResult cfg.streams (resultOf taken.job a.text event) eventId,
        .working taken (.attempt a .generate))
  | .release a result =>
      some (b.releaseLease taken.job.requestId (leaseOwner engineId a),
        .working taken (.settle a result))
  | .settle a result =>
      some (b.reconcile taken.job.reservationId (actualTokens result),
        .working taken (.conclude a result .append))
  | .conclude a result .append =>
      let (eventId, b) := b.appendResult (conclusion taken.job a result)
      some (b, .working taken (.conclude a result (.record eventId)))
  | .conclude a result (.record eventId) =>
      some (b.recordResult cfg.streams (conclusion taken.job a result) eventId,
        .working taken .acknowledge)
  | .acknowledge => some (b.acknowledge taken.entryId, .polling)
  | .start | .acquire | .attempt _ .enter | .attempt _ .generate => none

/-- Where the engine goes when the next command of `run_job` fails. An error
inside `execute_attempt` is the attempt's result; a failed acknowledgement
leaves `main`; every other error leaves the entry pending. -/
def jobFailure (taken : ConsumedJob) (message : String) :
    JobStep → Option Phase
  | .start | .attempt _ .enter | .attempt _ .generate => none
  | .attempt a (.publish _ _) => some (.working taken (.release a (.error message)))
  | .acknowledge => some .stopped
  | .cancelExpired | .failExpired _ | .checkStatus | .acquire | .release _ _
  | .settle _ _ | .conclude _ _ _ => some .polling

/-- One step of an engine. -/
def engineStep (cfg : EngineConfig) (b : Broker) (e : Engine) :
    EngineAction → Option (Broker × Phase)
  | .poll =>
      match e.phase with
      | .polling =>
          match b.readGroup e.engineId with
          | some (entry, b) => some (b, takeFresh entry)
          | none => some (b, .reclaiming)
      | _ => none
  | .reclaim position =>
      match e.phase, position with
      | .reclaiming, none => some (b, .polling)
      | .reclaiming, some k =>
          match b.autoClaim e.engineId cfg.reclaimIdleMs k with
          | some (entry, b) => some (b, takeStale entry)
          | none => none
      | _, _ => none
  | .reconnect =>
      match e.phase with
      | .reconnecting => some (b, .polling)
      | _ => none
  | .testDeadline unixMs =>
      match e.phase with
      | .working taken .start =>
          if deadlinePassed taken.job unixMs then
            some (b, .working taken .cancelExpired)
          else some (b, .working taken .checkStatus)
      | _ => none
  | .acquireLease a =>
      match e.phase with
      | .working taken .acquire =>
          match b.acquireLease cfg.streams taken.job.requestId
              (leaseOwner e.engineId a) with
          | some (true, b) => some (b, .working taken (.attempt a .enter))
          | some (false, b) => some (b, .polling)
          | none => none
      | _ => none
  | .enterAttempt =>
      match e.phase with
      | .working taken (.attempt a .enter) =>
          match enterAttempt cfg e.model taken.job with
          | .ok step => some (b, .working taken (.attempt a step))
          | .error message =>
              some (b, .working taken (.release a (.error message)))
      | _ => none
  | .token chunk =>
      match e.phase with
      | .working taken (.attempt a .generate) =>
          some (b, .working taken (.attempt a (.publish (.token chunk) .append)))
      | _ => none
  | .finish usage =>
      match e.phase with
      | .working taken (.attempt a .generate) =>
          some (b, .working taken (.release a (.ok (closeUsage usage))))
      | _ => none
  | .backendError message =>
      match e.phase with
      | .working taken (.attempt a .generate) =>
          some (b, .working taken (.release a (.error message)))
      | _ => none
  | .renewLease =>
      match e.phase with
      | .working taken (.attempt a _) | .working taken (.release a _) =>
          some ((b.renewLease cfg.streams taken.job.requestId
            (leaseOwner e.engineId a)).2, e.phase)
      | _ => none
  | .command =>
      match e.phase with
      | .working taken step => jobCommand cfg b e.engineId taken step
      | _ => none
  | .fail message =>
      match e.phase with
      | .polling => some (b, .reconnecting)
      | .reclaiming => some (b, .stopped)
      | .reconnecting => some (b, .stopped)
      | .working taken step => (jobFailure taken message step).map (b, ·)
      | .stopped => none
  | .crash => some (b, .stopped)
  | .restart =>
      match e.phase with
      | .stopped => some (b, .polling)
      | _ => none

end DataPlane.Ref
