import DataPlane.Ref.Engine

/-!
# Frontends, engines and the broker between them

The whole request path as one transition system. Any number of engines run
`main`; any number of `admit_and_dispatch` calls are under way, each cut at
its broker commands; the broker's clock moves when it likes. A label names who
moves and carries whatever the outside decided, so a list of labels is an
interleaving and `Sys.step` says what it does.

Two things are drawn at random by the code and are taken never to repeat: the
request and reservation ids of a call and the attempt id of an engine. The
state remembers what has been drawn.
-/

namespace DataPlane.Ref

open DataPlane DataPlane.Lib

/-- Where an admitted `admit_and_dispatch` call is. -/
inductive CallStep
  /-- Quota is reserved; the job is about to be added to the stream. -/
  | publish
  /-- The job is in the stream; its status is about to be written. -/
  | queue (entryId : StreamId)
  /-- Publishing failed; the reservation is about to be cancelled. -/
  | cancel
  | done
  deriving DecidableEq, Repr

/-- An `admit_and_dispatch` call that got its reservation. -/
structure Call where
  job : GenerationJob
  step : CallStep
  deriving DecidableEq, Repr

/-- What engines and frontends are configured to. -/
structure SysConfig where
  engine : EngineConfig
  sha256 : String → String
  limits : QuotaLimits

/-- The broker, the engines, and the calls of the frontends. -/
structure Sys where
  broker : Broker
  engines : List Engine
  /-- The calls so far, by the request id each drew. -/
  calls : String → Option Call
  /-- The reservation ids drawn so far. -/
  reservations : List String
  /-- The attempt ids drawn so far, newest first. -/
  attempts : List Uuid

/-- Engines about to poll an empty broker. -/
def Sys.init (now : Nat) (engines : List (String × String)) : Sys :=
  { broker := .empty now
    engines := engines.map fun (engineId, model) => ⟨engineId, model, .polling⟩
    calls := fun _ => none
    reservations := []
    attempts := [] }

/-- Everything that can happen. -/
inductive Label
  /-- Time passes at the broker. -/
  | tick (ms : Nat)
  /-- A frontend call reserves quota for the job it is going to publish. -/
  | reserve (job : GenerationJob) (apiKey : String)
      (unixMs promptTokens generatedTokens : Nat)
  /-- The frontend's `XADD`. -/
  | dispatch (requestId : String)
  /-- The frontend's status pipeline. -/
  | queue (requestId : String)
  /-- Either of the two failed. -/
  | failDispatch (requestId : String)
  /-- The frontend gives its reservation back. -/
  | cancelDispatch (requestId : String)
  /-- Somebody else adds an entry no engine can read. -/
  | foreign
  | engine (index : Nat) (action : EngineAction)
  deriving DecidableEq

/-- The attempt id an action draws. -/
def EngineAction.draws : EngineAction → Option Uuid
  | .acquireLease a => some a
  | _ => none

namespace Sys

/-- A call moves on. -/
def setCall (s : Sys) (requestId : String) (call : Call) : Sys :=
  { s with calls := Function.update s.calls requestId (some call) }

/-- A step of one engine, given the engine. -/
def engineMove (cfg : SysConfig) (s : Sys) (index : Nat) (e : Engine)
    (action : EngineAction) : Option Sys :=
  match engineStep cfg.engine s.broker e action with
  | none => none
  | some (broker, phase) =>
      some { s with
        broker := broker
        engines := s.engines.set index { e with phase := phase }
        attempts := action.draws.toList ++ s.attempts }

/-- One thing happens, if it can. -/
def step (cfg : SysConfig) (s : Sys) : Label → Option Sys
  | .tick ms =>
      some { s with broker := { s.broker with now := s.broker.now + ms } }
  | .reserve job apiKey unixMs promptTokens generatedTokens =>
      if s.calls job.requestId ≠ none ∨ job.reservationId ∈ s.reservations ∨
          job.schemaVersion ≠ schemaVersion then none
      else
        match reserveQuota cfg.sha256 cfg.limits s.broker.quota s.broker.now
            job.reservationId unixMs apiKey promptTokens generatedTokens with
        | (.error _, quota) =>
            some { s with
              broker := { s.broker with quota := quota }
              reservations := job.reservationId :: s.reservations }
        | (.ok _, quota) =>
            some ({ s with
              broker := { s.broker with quota := quota }
              reservations := job.reservationId :: s.reservations }.setCall
                job.requestId ⟨job, .publish⟩)
  | .dispatch requestId =>
      match s.calls requestId with
      | some ⟨job, .publish⟩ =>
          let (entryId, broker) := s.broker.appendRequest (.job job)
          some ({ s with broker := broker }.setCall requestId
            ⟨job, .queue entryId⟩)
      | _ => none
  | .queue requestId =>
      match s.calls requestId with
      | some ⟨job, .queue entryId⟩ =>
          some ({ s with
            broker := s.broker.recordQueued cfg.engine.streams job entryId
            }.setCall requestId ⟨job, .done⟩)
      | _ => none
  | .failDispatch requestId =>
      match s.calls requestId with
      | some ⟨job, .publish⟩ => some (s.setCall requestId ⟨job, .cancel⟩)
      | some ⟨job, .queue _⟩ => some (s.setCall requestId ⟨job, .cancel⟩)
      | _ => none
  | .cancelDispatch requestId =>
      match s.calls requestId with
      | some ⟨job, .cancel⟩ =>
          some ({ s with broker := s.broker.cancel job.reservationId }.setCall
            requestId ⟨job, .done⟩)
      | _ => none
  | .foreign =>
      some { s with broker := (s.broker.appendRequest .malformed).2 }
  | .engine index action =>
      match s.engines[index]? with
      | none => none
      | some e =>
          if action.draws.any (· ∈ s.attempts) then none
          else s.engineMove cfg index e action

end Sys

end DataPlane.Ref
