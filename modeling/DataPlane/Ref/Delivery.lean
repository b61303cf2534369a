import DataPlane.Lib.Decimal
import DataPlane.Ref.Frontend
import DataPlane.Ref.Subscription

/-!
# What the client gets back

The handlers that turn a subscription into a response: `stream_generation`,
which sends a frame for every event, and `collect_generation`, which waits for
the end and answers once. Both are loops around `next`, and what a loop does
depends on nothing but what the calls of `next` return; so the loops run over
the list of these results, as far as it goes.

`Streams` is the streams client as the handlers see it. Its reading of a broker
that is left alone is at the end: every `next` finds the first entry behind the
cursor, or nothing once there is none.
-/

namespace DataPlane.Ref

open DataPlane DataPlane.Lib

/-- `SubscribeGenerationRequest`. -/
structure SubscribeGenerationRequest where
  requestId : String
  afterEventId : Option String
  deriving DecidableEq, Repr

/-- The streams client of the handlers: what its calls answer. -/
structure Streams where
  status : String → Except String (Option GenerationStatus)
  subscribe : String → Option String → Except String (Option ResultSubscription)
  results : String → ResultSubscription → List NextResult

/-! ## Frames -/

/-- `put_u32`: four bytes, the highest first. -/
def putU32 (n : Nat) : List UInt8 :=
  [.ofNat (n / 2 ^ 24), .ofNat (n / 2 ^ 16), .ofNat (n / 2 ^ 8), .ofNat n]

section

variable (encodeProto : GenerationEvent → List UInt8)

/-- A flag byte, the length and the message. -/
def connectEnvelope (message : GenerationEvent) (endStream : Bool) :
    List UInt8 :=
  let payload := encodeProto message
  (if endStream then 2 else 0) :: (putU32 payload.length ++ payload)

/-- `connect_error_envelope`, the last frame of a stream that failed. -/
def connectErrorEnvelope (requestId message : String) : List UInt8 :=
  connectEnvelope encodeProto
    { requestId := requestId
      model := ""
      delta := message
      generatedTokens := 0
      finishReason := "error"
      eventId := ""
      attemptId := ""
      promptTokens := 0
      terminal := true } true

/-! ## Streaming -/

/-- A response body as far as it has been sent. -/
structure Body where
  frames : List (List UInt8)
  ended : Bool
  deriving DecidableEq, Repr

/-- A frame in front. -/
def Body.cons (frame : List UInt8) (body : Body) : Body :=
  { body with frames := frame :: body.frames }

/-- The loop of `stream_generation`. -/
def streamLoop (model requestId : String) : List NextResult → Body
  | [] => ⟨[], false⟩
  | .ok (some entry) :: rest =>
      match entry.result.event with
      | some .attemptStarted => streamLoop model requestId rest
      | some (.token token) =>
          (streamLoop model requestId rest).cons (connectEnvelope encodeProto
            { requestId := requestId
              model := model
              delta := token.text
              generatedTokens := token.cumulativeGeneratedTokens
              finishReason := ""
              eventId := entry.eventId
              attemptId := entry.result.attemptId
              promptTokens := 0
              terminal := false } false)
      | some (.completed done) =>
          ⟨[connectEnvelope encodeProto
            { requestId := requestId
              model := model
              delta := ""
              generatedTokens := done.generatedTokens
              finishReason := done.finishReason
              eventId := entry.eventId
              attemptId := entry.result.attemptId
              promptTokens := done.promptTokens
              terminal := true } false], true⟩
      | some (.failed failure) =>
          ⟨[connectEnvelope encodeProto
            { requestId := requestId
              model := model
              delta := failure.message
              generatedTokens := 0
              finishReason := failure.code
              eventId := entry.eventId
              attemptId := entry.result.attemptId
              promptTokens := 0
              terminal := true } false], true⟩
      | none => streamLoop model requestId rest
  | .ok none :: _ =>
      ⟨[connectErrorEnvelope encodeProto requestId "generation timed out"],
        true⟩
  | .error _ :: _ =>
      ⟨[connectErrorEnvelope encodeProto requestId
        "failed reading generation"], true⟩

/-- `stream_generation`. -/
def streamGeneration (state : AppState) (streams : Streams)
    (requestId : String) (cursor : Option String) : Body :=
  match streams.subscribe requestId cursor with
  | .ok (some subscription) =>
      streamLoop encodeProto state.model.id requestId
        (streams.results requestId subscription)
  | .ok none =>
      ⟨[connectErrorEnvelope encodeProto requestId
        "generation is unknown or expired"], true⟩
  | .error _ =>
      ⟨[connectErrorEnvelope encodeProto requestId
        "failed to subscribe to generation"], true⟩

/-- `valid_stream_id`. -/
def validStreamId (value : String) : Bool :=
  match splitOnce '-' value.toList with
  | none => false
  | some (milliseconds, sequence) =>
      (parseUnsigned 64 milliseconds).isSome && (parseUnsigned 64 sequence).isSome

/-- `rpc_subscribe_generation`; `request` is the decoded body or the decoder's
error. -/
def rpcSubscribeGeneration (state : AppState) (streams : Streams)
    (authorization : Option (List UInt8))
    (request : Except String SubscribeGenerationRequest) :
    Except ErrorResponse Body :=
  match authenticate state authorization with
  | .error response => .error response
  | .ok _ =>
      match request with
      | .error message => .error ⟨400, message⟩
      | .ok request =>
          if request.requestId = "" then .error ⟨400, "request_id is required"⟩
          else
            let cursor := request.afterEventId.filter (· ≠ "")
            if cursor.any fun value => !validStreamId value then
              .error ⟨400, "invalid after_event_id"⟩
            else
              match streams.status request.requestId with
              | .ok (some _) =>
                  .ok (streamGeneration encodeProto state streams
                    request.requestId cursor)
              | .ok none => .error ⟨404, "generation is unknown or expired"⟩
              | .error _ => .error ⟨502, "failed to inspect generation"⟩

end

/-! ## Collecting -/

/-- The two variables of `collect_generation`. -/
structure Collected where
  text : String
  currentAttempt : String
  deriving DecidableEq, Repr

/-- What an `AttemptStarted` does to them. -/
def Collected.startAttempt (c : Collected) (attemptId : String) : Collected :=
  { text :=
      if c.currentAttempt ≠ "" ∧ c.currentAttempt ≠ attemptId then ""
      else c.text
    currentAttempt := attemptId }

/-- What a `Token` does to them. -/
def Collected.pushStr (c : Collected) (text : String) : Collected :=
  { c with text := c.text ++ text }

/-- The loop of `collect_generation`: the text and how it ended, or an error
response; nothing as long as it waits. -/
def collectLoop (c : Collected) :
    List NextResult → Option (Except ErrorResponse (String × GenerationCompleted))
  | [] => none
  | .ok (some entry) :: rest =>
      match entry.result.event with
      | some .attemptStarted =>
          collectLoop (c.startAttempt entry.result.attemptId) rest
      | some (.token token) => collectLoop (c.pushStr token.text) rest
      | some (.completed done) => some (.ok (c.text, done))
      | some (.failed failure) => some (.error ⟨502, failure.message⟩)
      | none => collectLoop c rest
  | .ok none :: _ => some (.error ⟨504, "generation timed out"⟩)
  | .error _ :: _ => some (.error ⟨502, "result stream failed"⟩)

/-- A `Generate` response: the message and the two headers. -/
structure GenerateReply where
  body : GenerateResponse
  requestEntryId : String
  reservationId : String
  deriving DecidableEq, Repr

/-- `collect_generation`; nothing as long as it waits. -/
def collectGeneration (state : AppState) (streams : Streams)
    (admission : Admission) : Option (Except ErrorResponse GenerateReply) :=
  match streams.subscribe admission.requestId none with
  | .ok (some subscription) =>
      match collectLoop ⟨"", ""⟩
          (streams.results admission.requestId subscription) with
      | none => none
      | some (.error response) => some (.error response)
      | some (.ok (text, completed)) =>
          some (.ok
            { body :=
                { requestId := admission.requestId
                  model := state.model.id
                  text := text
                  promptTokens := admission.promptTokens
                  generatedTokens := completed.generatedTokens
                  finishReason := completed.finishReason }
              requestEntryId := admission.requestEntryId.text
              reservationId := admission.reservationId })
  | _ => some (.error ⟨502, "result stream unavailable"⟩)

/-! ## A broker that is left alone -/

/-- The result stream as the server keeps it. -/
def Broker.rawLog (codec : Codec) (b : Broker) (requestId : String) :
    List RawEntry :=
  (b.resultLog requestId).map (RawEntry.ofResult codec)

/-- A call of `next` on a log that does not change, over a connection that
holds. An id the server cannot read fails at every attempt. -/
def ResultSubscription.nextOf (codec : Codec) (log : List RawEntry)
    (sub : ResultSubscription) : NextResult × ResultSubscription :=
  match codec.readId sub.lastEventId with
  | none => (.error (.broker invalidId), sub)
  | some cursor =>
      sub.accept codec (xreadReply sub.stream (firstAfter RawEntry.id cursor log))

/-- The results of that many calls. -/
def ResultSubscription.nexts (codec : Codec) (log : List RawEntry) :
    Nat → ResultSubscription → List NextResult
  | 0, _ => []
  | n + 1, sub =>
      (sub.nextOf codec log).1 :: nexts codec log n (sub.nextOf codec log).2

/-- The streams client on such a broker, for that many calls of `next`. -/
def Broker.streams (codec : Codec) (b : Broker) (calls : Nat) : Streams :=
  { status := fun requestId => .ok (b.statusOf requestId)
    subscribe := fun requestId after =>
      .ok (subscribe
        ((b.results.live b.now requestId).toList.length +
          (b.status.live b.now requestId).toList.length) requestId after)
    results := fun requestId sub => sub.nexts codec (b.rawLog codec requestId) calls }

end DataPlane.Ref
