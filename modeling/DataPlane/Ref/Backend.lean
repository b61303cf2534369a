import DataPlane.Lib.Lines
import DataPlane.Lib.Utf8
import DataPlane.Ref.Budget
import DataPlane.Ref.Engine
import DataPlane.Ref.Runtime
import Mathlib.Data.List.DropRight

/-!
# The model backend

`stream_openai_compatible`: the request an engine makes of its runtime, and
how it reads the answer. The answer is a stream of server-sent events that
arrives in chunks of any size. Every chunk is turned into text by itself and
appended to a buffer; the complete lines are taken out of the buffer and
handled in order, and what remains waits for the next chunk.

Reading ends at the first event that is not JSON. What has been published by
then stays published. `serde_json::from_str` is a parameter; of the error it
fails with, only the context the engine adds is kept. Transport errors are not
part of this function's model: the engine's `backendError` stands for them.

Counts are `u64` and wrap when they are added to.
-/

namespace DataPlane.Ref

open DataPlane DataPlane.Lib

/-! ## The payload -/

/-- The message a plain prompt is sent as. -/
def userMessage (request : EngineRuntimeRequest) : Json :=
  ChatMessage.toJson ⟨"user", request.prompt.getD ""⟩

/-- The `messages` of the payload: the request's own, or its prompt if it has
none or an empty list of them. -/
def payloadMessages (request : EngineRuntimeRequest) : List Json :=
  let messages := request.messages.getD [userMessage request]
  if messages.isEmpty then [userMessage request] else messages

/-- What is posted to `/v1/chat/completions`. -/
def completionPayload (request : EngineRuntimeRequest) : Json :=
  .object
    [("model", .string request.model),
      ("messages", .array (payloadMessages request)),
      ("max_tokens", .int request.maxTokens.toNat),
      ("temperature", .float request.temperature),
      ("stream", .bool true),
      ("stream_options", .object [("include_usage", .bool true)])]

/-! ## One event -/

/-- `Value::get`. A field given twice has the value given last. -/
def Json.get (name : String) : Json → Option Json
  | .object fields => (fields.reverse.find? (·.1 = name)).map (·.2)
  | _ => none

/-- `Value::as_u64`. -/
def Json.asU64 (value : Json) : Option Nat :=
  (readUsize value).map (·.toNat)

/-- `estimate_tokens`: the number of words. -/
def estimateTokens (text : String) : Nat := (splitWhitespace text).length

/-- `extract_prompt`. -/
def extractPrompt (request : EngineRuntimeRequest) : String :=
  match request.messages with
  | some messages =>
      "\n".intercalate (messages.filterMap fun message =>
        (message.get "content").bind readString)
  | none => request.prompt.getD ""

/-- The unsigned `usage.completion_tokens` of an event. -/
def reportedTokens (value : Json) : Option Nat :=
  (value.get "usage").bind fun usage =>
    (usage.get "completion_tokens").bind Json.asU64

/-- The first of an event's `choices`. -/
def firstChoice (value : Json) : Option Json :=
  ((value.get "choices").bind readArray).bind (·.head?)

/-- The text an event carries: of a chat delta, or of a plain completion. -/
def eventText (value : Json) : String :=
  let choice := firstChoice value
  let content := (choice.bind (·.get "delta")).bind (·.get "content")
  ((content.or (choice.bind (·.get "text"))).bind readString).getD ""

/-- What the reading has come to: the usage, the tokens published so far, and
the event it failed on. -/
structure Reading where
  usage : GenerationUsage
  published : List TokenChunk
  failed : Option String
  deriving DecidableEq

/-- `GenerationUsage::default`, and nothing read yet. -/
def Reading.init : Reading := ⟨⟨0, 0, ""⟩, [], none⟩

/-- Reported usage replaces the counts it reports. -/
def applyUsage (usage : GenerationUsage) (value : Json) : GenerationUsage :=
  match value.get "usage" with
  | none => usage
  | some reported =>
      { usage with
        promptTokens := ((reported.get "prompt_tokens").bind Json.asU64).getD
          usage.promptTokens
        generatedTokens :=
          ((reported.get "completion_tokens").bind Json.asU64).getD
            usage.generatedTokens }

/-- A finish reason replaces the one before. -/
def applyFinish (usage : GenerationUsage) (value : Json) : GenerationUsage :=
  match ((firstChoice value).bind (·.get "finish_reason")).bind readString with
  | none => usage
  | some reason => { usage with finishReason := reason }

/-- Text counts by its words and is published with the count so far. -/
def applyText (r : Reading) (text : String) : Reading :=
  if text = "" then r
  else
    let generated :=
      (r.usage.generatedTokens + max (estimateTokens text) 1) % 2 ^ 64
    { r with
      usage := { r.usage with generatedTokens := generated }
      published := r.published ++ [⟨text, generated⟩] }

/-- One event: usage first, then the finish reason, then the text. -/
def handleEvent (r : Reading) (value : Json) : Reading :=
  applyText { r with usage := applyFinish (applyUsage r.usage value) value }
    (eventText value)

/-! ## Lines and chunks -/

/-- `str::trim`. -/
def trim (text : List Char) : List Char :=
  (text.dropWhile isWhitespace).rdropWhile isWhitespace

/-- The data of a line, if it has any that is to be decoded. -/
def eventData (line : List Char) : Option String :=
  let line := line.rdropWhile (· = '\r')
  if "data:".toList.isPrefixOf line then
    let data := trim (line.drop 5)
    if data = "[DONE]".toList ∨ data = [] then none
    else some (String.ofList data)
  else none

/-- One line; after a failure there are no more. -/
def processLine (fromStr : String → Option Json) (r : Reading)
    (line : List Char) : Reading :=
  match r.failed with
  | some _ => r
  | none =>
      match eventData line with
      | none => r
      | some data =>
          match fromStr data with
          | none => { r with failed := some data }
          | some value => handleEvent r value

/-- One chunk: the lines it completes are processed, the rest is kept. -/
def readChunk (fromStr : String → Option Json) (s : List Char × Reading)
    (chunk : List UInt8) : List Char × Reading :=
  let buffer := s.1 ++ Utf8.lossy chunk
  (restOf '\n' buffer, (linesOf '\n' buffer).foldl (processLine fromStr) s.2)

/-- The read loop. -/
def readChunks (fromStr : String → Option Json) (chunks : List (List UInt8)) :
    List Char × Reading :=
  chunks.foldl (readChunk fromStr) ([], .init)

/-- `stream_openai_compatible`: what was published, and what is returned. -/
def streamOpenaiCompatible (fromStr : String → Option Json)
    (request : EngineRuntimeRequest) (chunks : List (List UInt8)) :
    List TokenChunk × Except String GenerationUsage :=
  let r := (readChunks fromStr chunks).2
  (r.published,
    match r.failed with
    | some data => .error ("decode model SSE event: " ++ data)
    | none =>
        if r.usage.promptTokens = 0 then
          .ok { r.usage with
            promptTokens := estimateTokens (extractPrompt request) }
        else .ok r.usage)

end DataPlane.Ref
