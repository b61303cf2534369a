import DataPlane.Ref.Wire
import DataPlane.Ref.Quota
import Mathlib.Data.List.Basic

/-!
# The broker, as the streams client uses it

The Valkey keyspace under `inference:`, family by family, and the commands of
`StreamsClient` and `JobConsumer` on it. What the client sends as one command,
one script or one `MULTI` pipeline is one function here; what it sends as two
is two, because another process can come between.

A result stream that has expired is gone for every reader. The model keeps its
last contents aside in `archive` so that what was once appended can still be
spoken about; no command reads the archive.

Payloads are the decoded messages: both ends use the generated protobuf code.
An entry of the request stream may also have been written by somebody else, or
by another version, and is then `malformed`.
-/

namespace DataPlane.Ref

open DataPlane DataPlane.Lib

/-- `StreamsConfig`, in milliseconds. -/
structure StreamsConfig where
  activeTtlMs : Nat
  resultRetentionMs : Nat
  leaseDurationMs : Nat
  deriving DecidableEq, Repr

/-- `StreamsConfig::default`. -/
def StreamsConfig.default : StreamsConfig :=
  ⟨3600 * 1000, 600 * 1000, 60 * 1000⟩

/-- The two halves of an entry id, `{ms}-{seq}`. -/
structure StreamId where
  ms : Nat
  seq : Nat
  deriving DecidableEq, Repr

/-- The id `XADD key *` gives out: the clock if it has moved on, else the next
number in the same millisecond. -/
def StreamId.next (now : Nat) (last : StreamId) : StreamId :=
  if last.ms < now then ⟨now, 0⟩ else ⟨last.ms, last.seq + 1⟩

/-- The `state` field of a status hash. -/
inductive GenerationState
  | queued
  | running
  | completed
  deriving DecidableEq, Repr

/-- A status hash, `inference:status:{request_id}`. -/
structure StatusHash where
  state : Option GenerationState
  modelId : Option String
  requestEntryId : Option StreamId
  activeAttemptId : Option String
  terminalEventId : Option StreamId
  deriving DecidableEq, Repr

/-- A hash none of whose fields is set. -/
def StatusHash.empty : StatusHash := ⟨none, none, none, none, none⟩

/-- `GenerationStatus`, what `StreamsClient::status` answers. -/
structure GenerationStatus where
  state : GenerationState
  modelId : String
  activeAttemptId : Option String
  terminalEventId : Option StreamId
  deriving DecidableEq, Repr

/-- An entry of a result stream. -/
structure ResultEntry where
  eventId : StreamId
  result : GenerationResult
  deriving DecidableEq, Repr

/-- What a request stream entry holds. -/
inductive Payload
  | job (job : GenerationJob)
  | malformed
  deriving DecidableEq, Repr

/-- An entry of the request stream. -/
structure RequestEntry where
  entryId : StreamId
  payload : Payload
  deriving DecidableEq, Repr

/-- A delivered and not yet acknowledged entry of the consumer group. -/
structure Pending where
  entry : RequestEntry
  consumer : String
  deliveredAt : Nat
  deriving DecidableEq, Repr

/-- The request stream and its one consumer group. `delivered` counts the
entries handed out so far; `pending` is in entry order. -/
structure RequestStream where
  entries : List RequestEntry
  delivered : Nat
  pending : List Pending
  deriving DecidableEq, Repr

/-- What the server keeps. -/
structure Broker where
  now : Nat
  requests : RequestStream
  results : Keyspace String (List ResultEntry)
  /-- The last contents of expired result streams, oldest first. -/
  archive : String → List (Timed (List ResultEntry))
  status : Keyspace String StatusHash
  lease : Keyspace String String
  quota : QuotaDb

/-- A broker nothing has been written to. -/
def Broker.empty (now : Nat) : Broker :=
  { now := now
    requests := ⟨[], 0, []⟩
    results := fun _ => none
    archive := fun _ => []
    status := fun _ => none
    lease := fun _ => none
    quota := ⟨fun _ => none, fun _ => none⟩ }

namespace Broker

/-! ## Streams -/

/-- The entries a reader of the result stream sees. -/
def resultLog (b : Broker) (requestId : String) : List ResultEntry :=
  (b.results.get b.now requestId).getD []

/-- Every stream that ever existed under the request's key, oldest first. -/
def incarnations (b : Broker) (requestId : String) :
    List (Timed (List ResultEntry)) :=
  b.archive requestId ++ (b.results requestId).toList

/-- The id of the newest entry, `0-0` in an empty stream. -/
def lastResultId (entries : List ResultEntry) : StreamId :=
  (entries.getLast?.map (·.eventId)).getD ⟨0, 0⟩

/-- The `XADD` of `publish_result`. A stream that had expired starts anew. -/
def appendResult (b : Broker) (result : GenerationResult) :
    StreamId × Broker :=
  let key := result.requestId
  let entries := b.resultLog key
  let eventId := StreamId.next b.now (lastResultId entries)
  (eventId,
    { b with
      results := b.results.put b.now key (entries ++ [⟨eventId, result⟩])
      archive :=
        match b.results.live b.now key with
        | some _ => b.archive
        | none => Function.update b.archive key (b.incarnations key) })

/-- `HSET` on a status key: the named fields are set, the others kept. -/
def setStatus (b : Broker) (requestId : String)
    (fields : StatusHash → StatusHash) : Keyspace String StatusHash :=
  b.status.put b.now requestId
    (fields ((b.status.get b.now requestId).getD .empty))

/-- The pipeline of `publish_result`: the new state, and one time to live for
the result stream and the status alike. -/
def recordResult (b : Broker) (cfg : StreamsConfig) (result : GenerationResult)
    (eventId : StreamId) : Broker :=
  let key := result.requestId
  let state := if result.terminal then GenerationState.completed else .running
  let ttl := if result.terminal then cfg.resultRetentionMs else cfg.activeTtlMs
  let status := b.setStatus key fun h =>
    { h with state := some state, activeAttemptId := some result.attemptId }
  let status :=
    if result.terminal then
      { b with status := status }.setStatus key fun h =>
        { h with terminalEventId := some eventId }
    else status
  { b with
    results := b.results.expire b.now key ttl
    status := status.expire b.now key ttl }

/-- The id of the newest entry of the request stream. -/
def lastRequestId (b : Broker) : StreamId :=
  (b.requests.entries.getLast?.map (·.entryId)).getD ⟨0, 0⟩

/-- `XADD inference:requests`. -/
def appendRequest (b : Broker) (payload : Payload) : StreamId × Broker :=
  let entryId := StreamId.next b.now b.lastRequestId
  (entryId,
    { b with
      requests := { b.requests with
        entries := b.requests.entries ++ [⟨entryId, payload⟩] } })

/-- The pipeline of `publish_generation`. -/
def recordQueued (b : Broker) (cfg : StreamsConfig) (job : GenerationJob)
    (entryId : StreamId) : Broker :=
  let status := b.setStatus job.requestId fun h =>
    { h with
      state := some .queued
      modelId := some job.modelId
      requestEntryId := some entryId }
  { b with status := status.expire b.now job.requestId cfg.activeTtlMs }

/-- `StreamsClient::status`. -/
def statusOf (b : Broker) (requestId : String) : Option GenerationStatus :=
  match b.status.get b.now requestId with
  | none => none
  | some hash =>
      match hash.state with
      | none => none
      | some state =>
          some
            { state := state
              modelId := hash.modelId.getD ""
              activeAttemptId := hash.activeAttemptId.filter (· ≠ "")
              terminalEventId := hash.terminalEventId }

/-! ## The consumer group -/

/-- `XREADGROUP ... COUNT 1 ... >`: the next entry nobody has been given. -/
def readGroup (b : Broker) (consumer : String) :
    Option (RequestEntry × Broker) :=
  match b.requests.entries[b.requests.delivered]? with
  | none => none
  | some entry =>
      some (entry,
        { b with
          requests := { b.requests with
            delivered := b.requests.delivered + 1
            pending := b.requests.pending ++ [⟨entry, consumer, b.now⟩] } })

/-- `XAUTOCLAIM` of the pending entry at a position, which must have been idle
for long enough; the delivery clock starts again. -/
def autoClaim (b : Broker) (consumer : String) (idleMs position : Nat) :
    Option (RequestEntry × Broker) :=
  match b.requests.pending[position]? with
  | none => none
  | some p =>
      if p.deliveredAt + idleMs ≤ b.now then
        some (p.entry,
          { b with
            requests := { b.requests with
              pending :=
                b.requests.pending.set position ⟨p.entry, consumer, b.now⟩ } })
      else none

/-- `XACK`, which asks nobody whose entry it is. -/
def acknowledge (b : Broker) (entryId : StreamId) : Broker :=
  { b with
    requests := { b.requests with
      pending := b.requests.pending.filter (·.entry.entryId ≠ entryId) } }

/-! ## Leases -/

/-- `acquire_lease`: `SET key owner NX PX`. The broker refuses a time to live
of zero, and the command is then an error. -/
def acquireLease (b : Broker) (cfg : StreamsConfig)
    (requestId owner : String) : Option (Bool × Broker) :=
  if cfg.leaseDurationMs = 0 then none
  else
    match b.lease.live b.now requestId with
    | some _ => some (false, b)
    | none =>
        some (true, { b with
          lease :=
            b.lease.setEx requestId owner (b.now + cfg.leaseDurationMs) })

/-- `release_lease`: delete the key if it still holds the owner. -/
def releaseLease (b : Broker) (requestId owner : String) : Broker :=
  if b.lease.get b.now requestId = some owner then
    { b with lease := b.lease.del requestId }
  else b

/-- `renew_lease`: restart the clock if the key still holds the owner. -/
def renewLease (b : Broker) (cfg : StreamsConfig)
    (requestId owner : String) : Bool × Broker :=
  if b.lease.get b.now requestId = some owner then
    (true, { b with lease := b.lease.expire b.now requestId cfg.leaseDurationMs })
  else (false, b)

/-! ## Quota -/

/-- `reconcile_quota`. -/
def reconcile (b : Broker) (reservationId : String) (actual : Nat) : Broker :=
  { b with quota := (reconcileQuota b.quota b.now reservationId actual).2 }

/-- `cancel_quota`. -/
def cancel (b : Broker) (reservationId : String) : Broker :=
  { b with quota := cancelQuota b.quota b.now reservationId }

end Broker

end DataPlane.Ref
