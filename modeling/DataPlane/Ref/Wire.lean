import Mathlib.Data.String.Defs

/-!
# What travels through the broker

The protobuf messages of `proto/inference`, as the generated Rust types see
them: strings, 64-bit counts and a oneof. Only the broker-internal messages
and the two public ones the frontend answers with are here; the service
definitions have no content of their own.

A field nobody in the request path reads is left out: the job keeps its
revision and cache metadata because `admit_and_dispatch` computes them, but
`CacheMetadata` is carried as the two values it holds.
-/

namespace DataPlane

/-- `SCHEMA_VERSION`: the only version either side of a stream accepts. -/
def schemaVersion : Nat := 1

/-- The text of a version 4 UUID: 32 hexadecimal digits and four dashes. Only
its length is ever relied on, when a lease owner is split back into its
parts. -/
structure Uuid where
  text : String
  length_eq : text.length = 36
  deriving DecidableEq

theorem Uuid.text_inj {u v : Uuid} (h : u.text = v.text) : u = v := by
  cases u; cases v; cases h; rfl

/-- `CacheMetadata`. -/
structure CacheMetadata where
  cacheKey : String
  prefixTokensEstimate : Nat
  deriving DecidableEq, Repr

/-- `GenerationJob`, the payload of a request stream entry. -/
structure GenerationJob where
  schemaVersion : Nat
  requestId : String
  modelId : String
  modelRevision : String
  modelEndpoint : String
  requestJson : List UInt8
  deadlineUnixMs : Nat
  reservationId : String
  cache : Option CacheMetadata
  deriving DecidableEq, Repr

/-- `TokenChunk`. -/
structure TokenChunk where
  text : String
  cumulativeGeneratedTokens : Nat
  deriving DecidableEq, Repr

/-- `GenerationCompleted`. -/
structure GenerationCompleted where
  promptTokens : Nat
  generatedTokens : Nat
  finishReason : String
  deriving DecidableEq, Repr

/-- `GenerationFailed`. -/
structure GenerationFailed where
  code : String
  message : String
  retryable : Bool
  deriving DecidableEq, Repr

/-- The oneof of `GenerationResult`. -/
inductive Event
  | attemptStarted
  | token (chunk : TokenChunk)
  | completed (done : GenerationCompleted)
  | failed (failure : GenerationFailed)
  deriving DecidableEq, Repr

/-- `GenerationResult`, the payload of a result stream entry. A message whose
oneof is unset decodes with no event. -/
structure GenerationResult where
  schemaVersion : Nat
  requestId : String
  attemptId : String
  event : Option Event
  deriving DecidableEq, Repr

/-- `Completed` and `Failed` end a generation; `publish_result` and both
readers test for exactly these two. -/
def Event.terminal : Event → Bool
  | .completed _ => true
  | .failed _ => true
  | .attemptStarted => false
  | .token _ => false

/-- The result ends its generation. -/
def GenerationResult.terminal (r : GenerationResult) : Bool :=
  r.event.any Event.terminal

/-- `api::ChatMessage`, and the `ChatMessage` of the budget crate with the
same two fields. -/
structure ChatMessage where
  role : String
  content : String
  deriving DecidableEq, Repr

/-- `GenerateRequest`. The temperature is a 32-bit float and is carried as its
bit pattern. -/
structure GenerateRequest where
  model : String
  messages : List ChatMessage
  prompt : String
  maxTokens : UInt64
  temperature : UInt32
  deriving DecidableEq, Repr

/-- `GenerateResponse`. -/
structure GenerateResponse where
  requestId : String
  model : String
  text : String
  promptTokens : Nat
  generatedTokens : Nat
  finishReason : String
  deriving DecidableEq, Repr

/-- `GenerationEvent`, the public form of a result. -/
structure GenerationEvent where
  requestId : String
  model : String
  delta : String
  generatedTokens : Nat
  finishReason : String
  eventId : String
  attemptId : String
  promptTokens : Nat
  terminal : Bool
  deriving DecidableEq, Repr

end DataPlane
