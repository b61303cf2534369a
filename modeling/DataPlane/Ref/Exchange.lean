import DataPlane.Lib.Emission
import DataPlane.Ref.System

/-!
# Engines with their backends

The engines of `System` take what a backend sends from outside. Here every
attempt has an exchange with a backend, a loop like `stream_synthetic` or
`stream_openai_compatible`: it is begun when `execute_attempt` has checked the
job, it is called on while the engine generates, and each token it puts out is
published before it is called on again.

Which inputs a backend gets, and when, is up to the outside.
-/

namespace DataPlane.Ref

open DataPlane DataPlane.Lib

/-- A loop that puts out tokens and returns what `execute_attempt` returns. -/
structure Backend (σ ι : Type) where
  start : GenerationJob → σ
  next : σ → ι → Option (σ × Option (Output TokenChunk AttemptResult))

/-- An attempt's exchange with its backend. -/
structure Exchange (σ : Type) where
  job : GenerationJob
  emission : Emission σ TokenChunk AttemptResult

/-- The system, with the exchanges its attempts have with their backends. -/
structure StreamingSys (σ : Type) where
  sys : Sys
  /-- The exchanges so far, by the attempt. -/
  exchanges : Uuid → Option (Exchange σ)

/-- A step of the system, or of a backend. -/
inductive StreamingLabel (ι : Type)
  | sys (label : Label)
  /-- The backend of the attempt an engine is in gets an input. -/
  | backend (index : Nat) (input : ι)

/-- The action is the backend's, not the engine's own. -/
def EngineAction.fromBackend : EngineAction → Bool
  | .token _ | .finish _ | .backendError _ => true
  | _ => false

/-- What an engine makes of what its backend puts out. -/
def outputAction : Output TokenChunk AttemptResult → EngineAction
  | .item chunk => .token chunk
  | .done (.ok usage) => .finish usage
  | .done (.error message) => .backendError message

namespace StreamingSys

variable {σ ι : Type}

/-- No attempt has been made. -/
def init (now : Nat) (engines : List (String × String)) : StreamingSys σ :=
  ⟨Sys.init now engines, fun _ => none⟩

/-- An attempt that has just passed the checks begins its exchange. -/
def begin (backend : Backend σ ι) (exchanges : Uuid → Option (Exchange σ)) :
    Option Engine → Uuid → Option (Exchange σ)
  | some ⟨_, _, .working taken (.attempt a (.publish _ _))⟩ =>
      Function.update exchanges a
        (some ⟨taken.job, .start (backend.start taken.job)⟩)
  | _ => exchanges

/-- One of these; what a backend puts out is the next action of its engine. -/
def step (cfg : SysConfig) (backend : Backend σ ι) (t : StreamingSys σ) :
    StreamingLabel ι → Option (StreamingSys σ)
  | .sys (.engine index action) =>
      if action.fromBackend then none
      else
        match t.sys.step cfg (.engine index action) with
        | none => none
        | some s =>
            some ⟨s,
              if action = .enterAttempt then
                begin backend t.exchanges s.engines[index]?
              else t.exchanges⟩
  | .sys label =>
      match t.sys.step cfg label with
      | none => none
      | some s => some ⟨s, t.exchanges⟩
  | .backend index input =>
      match t.sys.engines[index]? with
      | some ⟨_, _, .working _ (.attempt a .generate)⟩ =>
          match t.exchanges a with
          | none => none
          | some exchange =>
              match exchange.emission.advance backend.next input with
              | none => none
              | some (emission, output) =>
                  let exchanges := Function.update t.exchanges a
                    (some { exchange with emission := emission })
                  match output with
                  | none => some ⟨t.sys, exchanges⟩
                  | some output =>
                      match t.sys.step cfg
                          (.engine index (outputAction output)) with
                      | none => none
                      | some s => some ⟨s, exchanges⟩
      | _ => none

end StreamingSys

end DataPlane.Ref
