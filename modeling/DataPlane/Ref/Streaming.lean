import DataPlane.Lib.Decimal
import DataPlane.Ref.Synthetic

/-!
# The read loop, step by step

`streamOpenaiCompatible` says what comes of a whole response. Here the loop is
cut where it waits: for the next chunk of the body, and for the publication of
a token, which happens in the middle of a chunk, line by line. A response may
also break off, before the first chunk or after any.

The chunks received so far are kept beside the variables of the loop.
-/

namespace DataPlane.Ref

open DataPlane DataPlane.Lib

/-- The variables of the read loop. -/
structure ReadLoop where
  request : Option EngineRuntimeRequest
  received : List (List UInt8)
  buffer : List Char
  usage : GenerationUsage
  /-- Lines are being taken out of the buffer. -/
  draining : Bool

/-- What the loop gets. -/
inductive ReadInput
  /-- A chunk of the body has arrived. -/
  | chunk (bytes : List UInt8)
  /-- The loop goes on to the next line of its buffer. -/
  | line
  /-- The body has ended. -/
  | close
  /-- The request or the body failed with this error. -/
  | broken (message : String)

namespace ReadLoop

/-- One line that has been taken out of the buffer. -/
def handleLine (fromStr : String → Option Json) (loop : ReadLoop)
    (line : List Char) :
    ReadLoop × Option (Output TokenChunk AttemptResult) :=
  match eventData line with
  | none => (loop, none)
  | some data =>
      match fromStr data with
      | none => (loop, some (.done (.error ("decode model SSE event: " ++ data))))
      | some value =>
          let usage := applyFinish (applyUsage loop.usage value) value
          let text := eventText value
          if text = "" then ({ loop with usage := usage }, none)
          else
            let generated :=
              (usage.generatedTokens + max (estimateTokens text) 1) % 2 ^ 64
            ({ loop with usage := { usage with generatedTokens := generated } },
              some (.item ⟨text, generated⟩))

/-- Reported prompt tokens, or an estimate. -/
def finalUsage (request : EngineRuntimeRequest) (usage : GenerationUsage) :
    GenerationUsage :=
  if usage.promptTokens = 0 then
    { usage with promptTokens := estimateTokens (extractPrompt request) }
  else usage

/-- One turn: a chunk is appended to the buffer, or a line taken out of it. -/
def next (fromStr : String → Option Json) (loop : ReadLoop)
    (input : ReadInput) :
    Option (ReadLoop × Option (Output TokenChunk AttemptResult)) :=
  match loop.request with
  | none => none
  | some request =>
      match loop.draining, input with
      | true, .line =>
          match splitOnce '\n' loop.buffer with
          | none => some ({ loop with draining := false }, none)
          | some (line, rest) =>
              some (handleLine fromStr { loop with buffer := rest } line)
      | false, .chunk bytes =>
          some ({ loop with
            received := loop.received ++ [bytes]
            buffer := loop.buffer ++ Utf8.lossy bytes
            draining := true }, none)
      | false, .close =>
          some (loop, some (.done (.ok (finalUsage request loop.usage))))
      | false, .broken message => some (loop, some (.done (.error message)))
      | _, _ => none

end ReadLoop

/-- The loop as the backend of an attempt. -/
def streamingBackend (serde : SerdeJson) (fromStr : String → Option Json) :
    Backend ReadLoop ReadInput where
  start job :=
    ⟨readRuntimeRequest serde job.requestJson, [], [], ⟨0, 0, ""⟩, false⟩
  next := ReadLoop.next fromStr

end DataPlane.Ref
