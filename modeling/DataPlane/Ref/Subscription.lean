import DataPlane.Lib.Cursor
import DataPlane.Ref.Broker
import Mathlib.Order.Lattice
import Mathlib.Data.Prod.Lex

/-!
# Result subscriptions

`ResultSubscription::next` and the reply parser under it, in the middle of
what they have to live with: a log that grows while it is read, replies on
their way, connections that break at any of the four attempts and do not come
back. A subscription is a cursor and nothing else, and any number of them read
one log.

The log holds what the server holds, ids and byte strings; whether an entry
can be decoded is found out by whoever reads it. Two things are not in the
repository and are parameters here: the generated protobuf code, and how the
server reads the id argument of `XREAD`.

A subscription also carries its history, which no step reads: the cursor it
started from and the calls of `next` that have returned.
-/

namespace DataPlane.Ref

open DataPlane DataPlane.Lib

/-! ## Ids -/

/-- Ids are ordered by time, then by number. -/
instance : LinearOrder StreamId :=
  LinearOrder.lift' (fun i => toLex (i.ms, i.seq)) fun i j h => by
    cases i; cases j; cases h; rfl

/-- Both halves are 64-bit numbers, as in every id the server gives out. -/
def StreamId.InRange (i : StreamId) : Prop := i.ms < 2 ^ 64 ∧ i.seq < 2 ^ 64

instance (i : StreamId) : Decidable i.InRange := by
  unfold StreamId.InRange; infer_instance

/-- `{ms}-{seq}`. -/
def StreamId.text (i : StreamId) : String :=
  String.ofList (Nat.toDigits 10 i.ms ++ '-' :: Nat.toDigits 10 i.seq)

/-- `str::as_bytes`. -/
def utf8 (text : String) : List UInt8 := text.toUTF8.data.toList

/-- `String::from_utf8`. -/
def fromUtf8 (bytes : List UInt8) : Option String :=
  String.fromUTF8? ⟨bytes.toArray⟩

/-! ## Replies -/

/-- `redis::Value`. The parser tells arrays and bulk strings from the rest, of
which only the nil reply and integers are spelled out. -/
inductive Value
  | nil
  | int (n : Int)
  | bulkString (bytes : List UInt8)
  | array (items : List Value)
  | other

/-- What `next` can fail with: an entry without the `payload` field, an id that
is not UTF-8, a payload that does not decode, the wrong schema version, or a
command or connection that failed. -/
inductive ReadError
  | noPayload
  | utf8
  | decode (text : String)
  | schemaVersion (version : Nat)
  | broker (text : String)
  deriving DecidableEq, Repr

/-- `ResultEntry`, as a subscription hands it out: the id is text again. -/
structure ReceivedEntry where
  eventId : String
  result : GenerationResult
  deriving DecidableEq, Repr

/-- What one call of `next` returns. -/
abbrev NextResult : Type := Except ReadError (Option ReceivedEntry)

/-- The code around the client that is not in the repository. -/
structure Codec where
  encode : GenerationResult → List UInt8
  decode : List UInt8 → Except String GenerationResult
  readId : String → Option StreamId

/-- The loop of `parse_entry` over `fields.chunks(2)`. -/
def payloadField : List Value → Option (List UInt8)
  | .bulkString key :: .bulkString payload :: rest =>
      if key = utf8 "payload" then some payload else payloadField rest
  | _ :: _ :: rest => payloadField rest
  | _ => none

/-- `parse_entry`. -/
def parseEntry (value : Option Value) :
    Except ReadError (Option (String × List UInt8)) :=
  match value with
  | some (.array entry) =>
      match entry.head? with
      | some (.bulkString id) =>
          match entry[1]? with
          | some (Value.array fields) =>
              match payloadField fields with
              | some payload =>
                  match fromUtf8 id with
                  | some id => .ok (some (id, payload))
                  | none => .error .utf8
              | none => .error .noPayload
          | _ => .ok none
      | _ => .ok none
  | _ => .ok none

/-- `parse_xread_payload`. -/
def parseXreadPayload (reply : Value) :
    Except ReadError (Option (String × List UInt8)) :=
  match reply with
  | .array streams =>
      match streams.head? with
      | some (.array stream) =>
          match stream[1]? with
          | some (Value.array entries) => parseEntry entries.head?
          | _ => .ok none
      | _ => .ok none
  | _ => .ok none

/-- `validate_schema`. -/
def validateSchema (version : Nat) : Except ReadError Unit :=
  if version ≠ schemaVersion then .error (.schemaVersion version) else .ok ()

/-- `parse_result_reply`. -/
def parseResultReply (codec : Codec) (reply : Value) : NextResult :=
  match parseXreadPayload reply with
  | .error e => .error e
  | .ok none => .ok none
  | .ok (some (eventId, payload)) =>
      match codec.decode payload with
      | .error text => .error (.decode text)
      | .ok result =>
          match validateSchema result.schemaVersion with
          | .error e => .error e
          | .ok () => .ok (some ⟨eventId, result⟩)

/-! ## The server -/

/-- A stream entry as the server keeps it: an id and fields with their
values. -/
structure RawEntry where
  id : StreamId
  fields : List (List UInt8 × List UInt8)
  deriving DecidableEq, Repr

/-- The entry `publish_result` adds. -/
def RawEntry.ofResult (codec : Codec) (entry : ResultEntry) : RawEntry :=
  ⟨entry.eventId, [(utf8 "payload", codec.encode entry.result)]⟩

/-- An entry in a reply: the id and the fields, one after the other. -/
def RawEntry.toValue (entry : RawEntry) : Value :=
  .array
    [.bulkString (utf8 entry.id.text),
      .array (entry.fields.flatMap fun (key, value) =>
        [.bulkString key, .bulkString value])]

/-- The reply to `XREAD COUNT 1`: nil, or the stream with its one entry. -/
def xreadReply (stream : String) : Option RawEntry → Value
  | none => .nil
  | some entry =>
      .array [.array [.bulkString (utf8 stream), .array [entry.toValue]]]

/-! ## A call of `next` -/

/-- `ResultSubscription`, but for its connection. -/
structure ResultSubscription where
  stream : String
  lastEventId : String
  deriving DecidableEq, Repr

/-- `result_stream`. -/
def resultStream (requestId : String) : String :=
  "inference:results:" ++ requestId

/-- `subscribe`, after `EXISTS` has counted the result stream and the
status. -/
def subscribe (found : Nat) (requestId : String) (after : Option String) :
    Option ResultSubscription :=
  if found = 0 then none
  else some ⟨resultStream requestId, after.getD "0-0"⟩

/-- What `next` makes of a reply. Only an entry moves the cursor. -/
def ResultSubscription.accept (codec : Codec) (sub : ResultSubscription)
    (reply : Value) : NextResult × ResultSubscription :=
  match parseResultReply codec reply with
  | .error e => (.error e, sub)
  | .ok none => (.ok none, sub)
  | .ok (some entry) =>
      (.ok (some entry), { sub with lastEventId := entry.eventId })

/-- Where a call of `next` is: not under way, waiting for the reply to its
`XREAD`, with the reply at hand, reconnecting after an error, or past the end
of its loop. -/
inductive ReadPhase
  | idle
  | reading (attempt : Nat)
  | replied (attempt : Nat) (reply : Except String Value)
  | reconnecting (attempt : Nat)
  | unreachable

/-- `for attempt in 0..4`: the loop body, or what follows the loop. -/
def ReadPhase.enter (attempt : Nat) : ReadPhase :=
  if attempt < 4 then .reading attempt else .unreachable

/-- A call of `next` that has returned: the cursor before it, what it returned
and the cursor after it. -/
structure NextCall where
  before : String
  result : NextResult
  after : String

/-- The entry the call returned, if it returned one. -/
def NextCall.entry (call : NextCall) : Option ReceivedEntry :=
  match call.result with
  | .ok found => found
  | .error _ => none

/-- A subscription, the call it is in and its history. -/
structure Reader where
  sub : ResultSubscription
  phase : ReadPhase
  before : String
  start : String
  calls : List NextCall

/-- The entries a subscription has returned so far. -/
def Reader.returned (r : Reader) : List ReceivedEntry :=
  r.calls.filterMap NextCall.entry

/-- The call returns. -/
def Reader.finish (r : Reader) (result : NextResult)
    (sub : ResultSubscription) : Reader :=
  { r with
    sub := sub
    phase := .idle
    calls := r.calls ++ [⟨r.before, result, sub.lastEventId⟩] }

/-- The `match` of `next`. -/
def Reader.handle (codec : Codec) (r : Reader) (attempt : Nat) :
    Except String Value → Reader
  | .ok reply =>
      let (result, sub) := r.sub.accept codec reply
      r.finish result sub
  | .error text =>
      if attempt < 3 then { r with phase := .reconnecting attempt }
      else r.finish (.error (.broker text)) r.sub

/-! ## The system -/

/-- One result log, its status key and the subscriptions that read it. -/
structure Feed where
  log : List RawEntry
  status : Bool
  readers : List Reader

/-- There is no stream, and nobody reads. -/
def Feed.init : Feed := ⟨[], false, []⟩

/-- What happens to the stream, its readers and their connections. -/
inductive Feed.Label
  /-- `XADD`, by anybody. -/
  | append (entry : RawEntry)
  | setStatus (present : Bool)
  /-- `subscribe`, whose connection may fail. -/
  | subscribe (requestId : String) (after : Option String) (connects : Bool)
  /-- A call of `next`. -/
  | next (reader : Nat)
  /-- The server answers an `XREAD`. -/
  | serve (reader : Nat)
  /-- The block time is over. -/
  | timeout (reader : Nat)
  /-- The connection breaks, or the client gives up waiting. -/
  | fail (reader : Nat) (text : String)
  /-- The reply, or the error, reaches the loop. -/
  | handle (reader : Nat)
  /-- `get_multiplexed_async_connection` after the backoff. -/
  | reconnect (reader : Nat) (failure : Option String)

/-- The id of the newest entry. -/
def Feed.lastId (f : Feed) : StreamId :=
  (f.log.getLast?.map (·.id)).getD ⟨0, 0⟩

/-- What `EXISTS` counts. -/
def Feed.found (f : Feed) : Nat :=
  (if f.log = [] then 0 else 1) + (if f.status then 1 else 0)

/-- The server's error for an id argument it cannot read. -/
def invalidId : String :=
  "Invalid stream ID specified as stream command argument"

/-- What becomes of one subscription. -/
def Reader.step (codec : Codec) (log : List RawEntry) (r : Reader) :
    Feed.Label → Option Reader
  | .next _ =>
      match r.phase with
      | .idle => some { r with phase := .enter 0, before := r.sub.lastEventId }
      | _ => none
  | .serve _ =>
      match r.phase with
      | .reading attempt =>
          match codec.readId r.sub.lastEventId with
          -- an id the server cannot read is answered at once, with an error
          | none =>
              some { r with
                phase := .replied attempt (.error invalidId) }
          | some cursor =>
              match firstAfter RawEntry.id cursor log with
              | none => none
              | some entry =>
                  some { r with
                    phase := .replied attempt
                      (.ok (xreadReply r.sub.stream (some entry))) }
      | _ => none
  | .timeout _ =>
      match r.phase with
      | .reading attempt =>
          some { r with
            phase := .replied attempt (.ok (xreadReply r.sub.stream none)) }
      | _ => none
  | .fail _ text =>
      match r.phase with
      | .reading attempt =>
          some { r with phase := .replied attempt (.error text) }
      | _ => none
  | .handle _ =>
      match r.phase with
      | .replied attempt reply => some (r.handle codec attempt reply)
      | _ => none
  | .reconnect _ failure =>
      match r.phase with
      | .reconnecting attempt =>
          match failure with
          | none => some { r with phase := .enter (attempt + 1) }
          | some text => some (r.finish (.error (.broker text)) r.sub)
      | _ => none
  | _ => none

/-- Which subscription a label is about. -/
def Feed.Label.reader : Feed.Label → Option Nat
  | .next i => some i
  | .serve i => some i
  | .timeout i => some i
  | .fail i _ => some i
  | .handle i => some i
  | .reconnect i _ => some i
  | _ => none

/-- One of these, if it can happen. -/
def Feed.step (codec : Codec) (f : Feed) (l : Feed.Label) : Option Feed :=
  match l with
  | .append entry =>
      if f.lastId < entry.id ∧ entry.id.InRange then
        some { f with log := f.log ++ [entry] }
      else none
  | .setStatus present => some { f with status := present }
  | .subscribe requestId after connects =>
      match subscribe f.found requestId after with
      | some sub =>
          if connects then
            some { f with
              readers := f.readers ++
                [⟨sub, .idle, sub.lastEventId, sub.lastEventId, []⟩] }
          else some f
      | none => some f
  | l =>
      match l.reader with
      | none => none
      | some i =>
          match f.readers[i]? with
          | none => none
          | some r =>
              match r.step codec f.log l with
              | none => none
              | some r => some { f with readers := f.readers.set i r }

end DataPlane.Ref
