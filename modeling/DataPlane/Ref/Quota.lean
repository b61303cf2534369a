import DataPlane.Lib.Expiry
import DataPlane.Lib.Binary64

/-!
# The quota scripts

`reserve_quota`, `reconcile_quota` and `cancel_quota` of `StreamsClient`, each
one Lua script the broker runs atomically. A bucket of one API key and one
minute has three counters; a reservation is a hash that remembers what was
taken from which counters and whether it has been settled.

Lua has one number type, the double. Every number a script computes is
therefore passed through `Binary64.round`; a counter itself is an integer
that `INCRBY` and `DECRBY` change exactly. Both refuse to leave the range of
64-bit integers, which amounts of tokens are taken not to come near. All four
keys a reserve writes get the same time to live.
-/

namespace DataPlane.Ref

open DataPlane.Lib

/-- Which of a bucket's three counters. -/
inductive Dimension
  | requests
  | prompt
  | generated
  deriving DecidableEq, Repr

/-- A counter key, `inference:quota:{key_hash}:{bucket}:{dimension}`. -/
structure CounterKey where
  keyHash : String
  bucket : Nat
  dimension : Dimension
  deriving DecidableEq, Repr

/-- The `status` field of a reservation. -/
inductive ReservationStatus
  | reserved
  | reconciled
  | cancelled
  deriving DecidableEq, Repr

/-- A reservation hash, `inference:reservation:{id}`, field by field. A field
that was never set reads as `none`. -/
structure Reservation where
  status : Option ReservationStatus
  requestsKey : Option CounterKey
  promptKey : Option CounterKey
  generatedKey : Option CounterKey
  prompt : Option Int
  generated : Option Int
  actualGenerated : Option Int
  refunded : Option Int
  deriving DecidableEq, Repr

/-- The part of the keyspace the scripts work on. -/
structure QuotaDb where
  counters : Keyspace CounterKey Int
  reservations : Keyspace String Reservation

/-- A keyspace nothing has been reserved in. -/
def QuotaDb.empty : QuotaDb := ⟨fun _ => none, fun _ => none⟩

/-- `QuotaLimits`. -/
structure QuotaLimits where
  requestsPerMinute : Nat
  promptTokensPerMinute : Nat
  generatedTokensPerMinute : Nat
  deriving DecidableEq, Repr

/-- `QuotaReservation`. -/
structure QuotaReservation where
  id : String
  remainingRequests : Nat
  remainingPromptTokens : Nat
  remainingGeneratedTokens : Nat
  deriving DecidableEq, Repr

/-- `QuotaError`; the last one also stands for a command that did not get an
answer. -/
inductive QuotaError
  | requests
  | promptTokens
  | generatedTokens
  | broker (message : String)
  deriving DecidableEq, Repr

/-- The `Display` of a `QuotaError`. -/
def QuotaError.message : QuotaError → String
  | .requests => "request quota exceeded"
  | .promptTokens => "prompt-token quota exceeded"
  | .generatedTokens => "generated-token quota exceeded"
  | .broker message => message

/-- The 120 seconds `reserve_quota` passes as `ARGV[6]`, in milliseconds. -/
def reservationTtlMs : Nat := 120 * 1000

/-- `INCRBY key n`: a missing key counts from zero and is created without a
time to live; an existing one keeps the time it has. The server refuses a sum
that does not fit into 64 bits, which is not modelled; under limits below
`2 ^ 53` there is none. -/
def incrBy (counters : Keyspace CounterKey Int) (now : Nat) (k : CounterKey)
    (n : Int) : Keyspace CounterKey Int :=
  counters.put now k ((counters.get now k).getD 0 + n)

/-- `DECRBY key n`, with the same treatment of a missing key, and of what does
not fit. -/
def decrBy (counters : Keyspace CounterKey Int) (now : Nat) (k : CounterKey)
    (n : Int) : Keyspace CounterKey Int :=
  counters.put now k ((counters.get now k).getD 0 - n)

/-- `tonumber(redis.call('GET', key) or '0')`. -/
def readCounter (db : QuotaDb) (now : Nat) (k : CounterKey) : Int :=
  Binary64.round ((db.counters.get now k).getD 0)

/-- The hash a reserve writes. `HSET` sets the named fields of whatever hash
is there, so the two fields only a reconcile writes are kept. -/
def reservedHash (old : Option Reservation) (requestsKey promptKey
    generatedKey : CounterKey) (promptAdd generatedAdd : Int) : Reservation :=
  { status := some .reserved
    requestsKey := some requestsKey
    promptKey := some promptKey
    generatedKey := some generatedKey
    prompt := some promptAdd
    generated := some generatedAdd
    actualGenerated := old.bind (·.actualGenerated)
    refunded := old.bind (·.refunded) }

/-- The six commands with which a reserve charges the counters. -/
def chargeCounters (counters : Keyspace CounterKey Int) (now : Nat)
    (key1 key2 key3 : CounterKey) (promptAdd generatedAdd : Int) :
    Keyspace CounterKey Int :=
  let counters := incrBy counters now key1 1
  let counters := incrBy counters now key2 promptAdd
  let counters := incrBy counters now key3 generatedAdd
  let counters := counters.expire now key1 reservationTtlMs
  let counters := counters.expire now key2 reservationTtlMs
  counters.expire now key3 reservationTtlMs

/-- `RESERVE_QUOTA_LUA`. -/
def reserveQuotaLua (db : QuotaDb) (now : Nat)
    (key1 key2 key3 : CounterKey) (key4 : String)
    (argv1 argv2 : Nat) (limits : QuotaLimits) : List Int × QuotaDb :=
  let requests := readCounter db now key1
  let prompt := readCounter db now key2
  let generated := readCounter db now key3
  let promptAdd := Binary64.round argv1
  let generatedAdd := Binary64.round argv2
  let requestsLimit := Binary64.round limits.requestsPerMinute
  let promptLimit := Binary64.round limits.promptTokensPerMinute
  let generatedLimit := Binary64.round limits.generatedTokensPerMinute
  if Binary64.round (requests + 1) > requestsLimit then ([0, 1], db)
  else if Binary64.round (prompt + promptAdd) > promptLimit then ([0, 2], db)
  else if Binary64.round (generated + generatedAdd) > generatedLimit then
    ([0, 3], db)
  else
    let counters := chargeCounters db.counters now key1 key2 key3 promptAdd
      generatedAdd
    let reservations := db.reservations.put now key4
      (reservedHash (db.reservations.get now key4) key1 key2 key3 promptAdd
        generatedAdd)
    let reservations := reservations.expire now key4 reservationTtlMs
    ([1, Binary64.round (Binary64.round (requestsLimit - requests) - 1),
        Binary64.round (Binary64.round (promptLimit - prompt) - promptAdd),
        Binary64.round
          (Binary64.round (generatedLimit - generated) - generatedAdd)],
      ⟨counters, reservations⟩)

/-- The refund a reconcile makes: no command at all when nothing is left
over. -/
def refundGenerated (counters : Keyspace CounterKey Int) (now : Nat)
    (generatedKey : Option CounterKey) (refund : Int) :
    Keyspace CounterKey Int :=
  match generatedKey with
  | some generatedKey =>
      if refund > 0 then decrBy counters now generatedKey refund else counters
  | none => counters

/-- `RECONCILE_QUOTA_LUA`. -/
def reconcileQuotaLua (db : QuotaDb) (now : Nat) (key1 : String)
    (argv1 : Nat) : Int × QuotaDb :=
  match db.reservations.get now key1 with
  | none => (0, db)
  | some hash =>
      if hash.status ≠ some .reserved then (0, db)
      else
        let reserved := Binary64.round (hash.generated.getD 0)
        let actual := Binary64.round argv1
        let refund := max (Binary64.round (reserved - actual)) 0
        let counters := refundGenerated db.counters now hash.generatedKey refund
        let reservations := db.reservations.put now key1
          { hash with
            status := some .reconciled
            actualGenerated := some actual
            refunded := some refund }
        (refund, ⟨counters, reservations⟩)

/-- The three refunds of a cancel, each only if the hash names its key. -/
def refundAll (counters : Keyspace CounterKey Int) (now : Nat)
    (hash : Reservation) (prompt generated : Int) : Keyspace CounterKey Int :=
  let counters :=
    match hash.requestsKey with
    | some requestsKey => decrBy counters now requestsKey 1
    | none => counters
  let counters :=
    match hash.promptKey with
    | some promptKey => decrBy counters now promptKey prompt
    | none => counters
  match hash.generatedKey with
  | some generatedKey => decrBy counters now generatedKey generated
  | none => counters

/-- `CANCEL_QUOTA_LUA`. -/
def cancelQuotaLua (db : QuotaDb) (now : Nat) (key1 : String) :
    Int × QuotaDb :=
  match db.reservations.get now key1 with
  | none => (0, db)
  | some hash =>
      if hash.status ≠ some .reserved then (0, db)
      else
        let prompt := Binary64.round (hash.prompt.getD 0)
        let generated := Binary64.round (hash.generated.getD 0)
        let counters := refundAll db.counters now hash prompt generated
        let reservations := db.reservations.put now key1
          { hash with status := some .cancelled }
        (1, ⟨counters, reservations⟩)

/-- The three counter keys of an API key in a minute bucket. `sha256` is the
hexadecimal digest of the `sha2` crate. -/
def counterKey (sha256 : String → String) (apiKey : String) (bucket : Nat)
    (dimension : Dimension) : CounterKey :=
  ⟨sha256 apiKey, bucket, dimension⟩

/-- `reserve_quota`. The reservation id is the UUID drawn by the call and the
clock is the caller's; the broker has its own. -/
def reserveQuota (sha256 : String → String) (limits : QuotaLimits)
    (db : QuotaDb) (now : Nat) (id : String) (unixMs : Nat) (apiKey : String)
    (promptTokens generatedTokens : Nat) :
    Except QuotaError QuotaReservation × QuotaDb :=
  let bucket := unixMs / 60000
  let (values, db) := reserveQuotaLua db now
    (counterKey sha256 apiKey bucket .requests)
    (counterKey sha256 apiKey bucket .prompt)
    (counterKey sha256 apiKey bucket .generated)
    id promptTokens generatedTokens limits
  match values with
  | [1, requests, prompt, generated] =>
      (.ok ⟨id, requests.toNat, prompt.toNat, generated.toNat⟩, db)
  | 0 :: 1 :: _ => (.error .requests, db)
  | 0 :: 2 :: _ => (.error .promptTokens, db)
  | 0 :: 3 :: _ => (.error .generatedTokens, db)
  | _ => (.error (.broker "invalid quota script response"), db)

/-- `reconcile_quota`. -/
def reconcileQuota (db : QuotaDb) (now : Nat) (reservationId : String)
    (actual : Nat) : Nat × QuotaDb :=
  let (refunded, db) := reconcileQuotaLua db now reservationId actual
  (refunded.toNat, db)

/-- `cancel_quota`. -/
def cancelQuota (db : QuotaDb) (now : Nat) (reservationId : String) :
    QuotaDb :=
  (cancelQuotaLua db now reservationId).2

end DataPlane.Ref
