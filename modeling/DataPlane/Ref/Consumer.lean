import DataPlane.Ref.Subscription

/-!
# The consume loop and what it is fed

`main` of the engine around `run_job`, on a request stream as the server keeps
it: ids and fields, whoever has written them. `next` and `reclaim_stale` ask for
one entry and parse the reply, the first with `XREADGROUP`, the second with
`XAUTOCLAIM`, and each has a parser of its own. `run_job` may come to anything.

The server answers every command here. `XAUTOCLAIM ... COUNT 1` looks at the
first ten pending entries and claims the first that has been idle for long
enough. Other consumers of the group, and whoever writes to the stream, move
when they like.
-/

namespace DataPlane.Ref

open DataPlane

/-! ## Parsing -/

/-- `ConsumedJob`, as the parsers hand it out: the id is text. -/
structure ReceivedJob where
  entryId : String
  job : GenerationJob
  deriving DecidableEq, Repr

section

variable (decode : List UInt8 → Except String GenerationJob)

/-- `parse_job_reply`. -/
def parseJobReply (reply : Value) : Except ReadError (Option ReceivedJob) :=
  match parseXreadPayload reply with
  | .error e => .error e
  | .ok none => .ok none
  | .ok (some (id, payload)) =>
      match decode payload with
      | .error _ => .error (.decode "decode generation job")
      | .ok job =>
          match validateSchema job.schemaVersion with
          | .error e => .error e
          | .ok () => .ok (some ⟨id, job⟩)

/-- `parse_autoclaim_reply`. -/
def parseAutoclaimReply (reply : Value) :
    Except ReadError (Option ReceivedJob) :=
  match reply with
  | .array parts =>
      match parts[1]? with
      | some (Value.array entries) =>
          match parseEntry entries.head? with
          | .error e => .error e
          | .ok none => .ok none
          | .ok (some (entryId, payload)) =>
              match decode payload with
              | .error text => .error (.decode text)
              | .ok job =>
                  match validateSchema job.schemaVersion with
                  | .error e => .error e
                  | .ok () => .ok (some ⟨entryId, job⟩)
      | _ => .ok none
  | _ => .ok none

end

/-! ## The server -/

/-- `REQUEST_STREAM`. -/
def requestStream : String := "inference:requests"

/-- A delivered and not yet acknowledged entry. -/
structure RawPending where
  entry : RawEntry
  consumer : String
  deliveredAt : Nat
  deriving DecidableEq, Repr

/-- The request stream and its consumer group, at the server's time. -/
structure RequestLog where
  now : Nat
  entries : List RawEntry
  delivered : Nat
  pending : List RawPending
  deriving DecidableEq, Repr

namespace RequestLog

/-- A new stream and its group. -/
def empty (now : Nat) : RequestLog := ⟨now, [], 0, []⟩

/-- `XADD`, by whoever writes to the stream. -/
def xadd (r : RequestLog) (fields : List (List UInt8 × List UInt8)) :
    RequestLog :=
  let last := (r.entries.getLast?.map (·.id)).getD ⟨0, 0⟩
  { r with entries := r.entries ++ [⟨StreamId.next r.now last, fields⟩] }

/-- The entry `XREADGROUP ... >` finds. -/
def fresh (r : RequestLog) : Option RawEntry := r.entries[r.delivered]?

/-- `XREADGROUP ... >` for one entry. -/
def xreadgroup (r : RequestLog) (consumer : String) : RequestLog :=
  match r.fresh with
  | none => r
  | some entry =>
      { r with
        delivered := r.delivered + 1
        pending := r.pending ++ [⟨entry, consumer, r.now⟩] }

/-- The position of the entry `XAUTOCLAIM ... COUNT 1` claims. -/
def stalePosition (r : RequestLog) (idleMs : Nat) : Option Nat :=
  (r.pending.take 10).findIdx? fun p => p.deliveredAt + idleMs ≤ r.now

/-- The entry it claims. -/
def stale (r : RequestLog) (idleMs : Nat) : Option RawEntry :=
  (r.stalePosition idleMs).bind fun position =>
    r.pending[position]?.map (·.entry)

/-- `XAUTOCLAIM ... COUNT 1`. -/
def xautoclaim (r : RequestLog) (consumer : String) (idleMs : Nat) :
    RequestLog :=
  match r.stalePosition idleMs with
  | none => r
  | some position =>
      { r with
        pending := r.pending.modify position fun p =>
          { p with consumer := consumer, deliveredAt := r.now } }

/-- `XACK`. -/
def xack (r : RequestLog) (entryId : String) : RequestLog :=
  { r with pending := r.pending.filter (·.entry.id.text ≠ entryId) }

end RequestLog

/-- The reply to `XAUTOCLAIM COUNT 1`: where to go on, the entry, and what was
found to be deleted. -/
def xautoclaimReply (cursor : List UInt8) (entry : Option RawEntry) : Value :=
  .array
    [.bulkString cursor, .array (entry.toList.map RawEntry.toValue), .array []]

/-! ## `main` -/

/-- What `run_job` comes to: a disposition or an error. -/
inductive JobOutcome
  | acknowledge
  | pending
  | error (message : String)
  deriving DecidableEq, Repr

/-- Where `main` is. -/
inductive MainPhase
  | polling
  | reclaiming
  | reconnecting
  | running (consumed : ReceivedJob)
  | acknowledging (entryId : String)
  | terminated (error : ReadError)
  deriving DecidableEq, Repr

section

variable (decode : List UInt8 → Except String GenerationJob)

/-- The `match` around `consumer.next`. -/
def afterNext (entry : Option RawEntry) : MainPhase :=
  match parseJobReply decode (xreadReply requestStream entry) with
  | .ok (some consumed) => .running consumed
  | .ok none => .reclaiming
  | .error _ => .reconnecting

/-- The `?` behind `reclaim_stale`, and the `let ... else` under it. -/
def afterReclaim (cursor : List UInt8) (entry : Option RawEntry) : MainPhase :=
  match parseAutoclaimReply decode (xautoclaimReply cursor entry) with
  | .ok (some consumed) => .running consumed
  | .ok none => .polling
  | .error e => .terminated e

/-- The `match` around `run_job`. -/
def afterJob (consumed : ReceivedJob) : JobOutcome → MainPhase
  | .acknowledge => .acknowledging consumed.entryId
  | .pending => .polling
  | .error _ => .polling

end

/-- An engine and the stream it consumes. -/
structure Consuming where
  requests : RequestLog
  phase : MainPhase
  deriving DecidableEq, Repr

/-- What the engine's consumer is given. -/
structure ConsumerConfig where
  decode : List UInt8 → Except String GenerationJob
  workerId : String
  reclaimIdleMs : Nat

/-- What happens to the stream, and what the engine does. -/
inductive ConsumeLabel
  | tick (ms : Nat)
  | add (fields : List (List UInt8 × List UInt8))
  /-- Other consumers of the group. -/
  | readBy (consumer : String)
  | claimBy (consumer : String) (idleMs : Nat)
  | acknowledgeBy (entryId : String)
  /-- The engine's own steps, with what the outside has to say to them. -/
  | next
  | reclaim (cursor : List UInt8)
  | reconnect
  | runJob (outcome : JobOutcome)
  | acknowledge
  deriving DecidableEq, Repr

/-- The labels that are steps of `main`. -/
def ConsumeLabel.ofMain : ConsumeLabel → Bool
  | .next | .reclaim _ | .reconnect | .runJob _ | .acknowledge => true
  | .tick _ | .add _ | .readBy _ | .claimBy _ _ | .acknowledgeBy _ => false

/-- One of these, if it can happen. -/
def consumeStep (cfg : ConsumerConfig) (s : Consuming) :
    ConsumeLabel → Option Consuming
  | .tick ms =>
      some { s with requests := { s.requests with now := s.requests.now + ms } }
  | .add fields => some { s with requests := s.requests.xadd fields }
  | .readBy consumer => some { s with requests := s.requests.xreadgroup consumer }
  | .claimBy consumer idleMs =>
      some { s with requests := s.requests.xautoclaim consumer idleMs }
  | .acknowledgeBy entryId =>
      some { s with requests := s.requests.xack entryId }
  | .next =>
      match s.phase with
      | .polling =>
          some ⟨s.requests.xreadgroup cfg.workerId,
            afterNext cfg.decode s.requests.fresh⟩
      | _ => none
  | .reclaim cursor =>
      match s.phase with
      | .reclaiming =>
          some ⟨s.requests.xautoclaim cfg.workerId cfg.reclaimIdleMs,
            afterReclaim cfg.decode cursor
              (s.requests.stale cfg.reclaimIdleMs)⟩
      | _ => none
  | .reconnect =>
      match s.phase with
      | .reconnecting => some { s with phase := .polling }
      | _ => none
  | .runJob outcome =>
      match s.phase with
      | .running consumed => some { s with phase := afterJob consumed outcome }
      | _ => none
  | .acknowledge =>
      match s.phase with
      | .acknowledging entryId =>
          some ⟨s.requests.xack entryId, .polling⟩
      | _ => none

end DataPlane.Ref
