import DataPlane.Ref.Wire
import DataPlane.Ref.Quota

/-!
# The limiter that keeps its counters in memory

`InMemoryQuotaLimiter` of the crate `generation-quota-limiter`: one window of
counters for every API key, and a map of the reservations nobody has settled
yet. It is the same service as the quota scripts, by other means. A window is
started anew when a reserve comes with another minute than the window's own,
whichever of the two is later, and a settled reservation is removed instead of
marked.

The counters are `u64`. What is added to one is never more than the limit
leaves over, so the sums do not overflow; `saturating_sub` is the subtraction
of natural numbers. Both maps are behind a lock, and `reserve` holds the lock
of the first from the test to the end: what it does after it has read the
clock is one step. `reconcile` takes one lock after the other, and its two
halves have names of their own.
-/

namespace DataPlane.Ref

open DataPlane

/-- `QuotaCheck`. -/
structure QuotaCheck where
  apiKey : String
  promptTokens : Nat
  reservedGeneratedTokens : Nat
  deriving DecidableEq, Repr

/-- `WindowCounters`. -/
structure WindowCounters where
  windowStartEpochMinute : Nat
  requests : Nat
  promptTokens : Nat
  generatedTokensReserved : Nat
  deriving DecidableEq, Repr

/-- `WindowCounters::default`. -/
def WindowCounters.default : WindowCounters := ⟨0, 0, 0, 0⟩

/-- `epoch_minute`, from the milliseconds of the system clock. -/
def epochMinute (unixMs : Nat) : Nat := unixMs / 1000 / 60

namespace InMemoryQuotaLimiter

/-- This crate's `QuotaReservation`. -/
structure QuotaReservation where
  id : Uuid
  apiKey : String
  promptTokens : Nat
  reservedGeneratedTokens : Nat
  remainingRequests : Nat
  remainingPromptTokens : Nat
  remainingGeneratedTokens : Nat
  deriving DecidableEq

/-- This crate's `QuotaError`. -/
inductive QuotaError
  | requestsExceeded (remaining : Nat)
  | promptTokensExceeded (remaining requested : Nat)
  | generatedTokensExceeded (remaining requested : Nat)
  | reservationNotFound
  deriving DecidableEq, Repr

end InMemoryQuotaLimiter

/-- `InMemoryQuotaLimiter`. -/
structure InMemoryQuotaLimiter where
  limits : QuotaLimits
  state : String → Option WindowCounters
  reservations : Uuid → Option InMemoryQuotaLimiter.QuotaReservation

namespace InMemoryQuotaLimiter

/-- `InMemoryQuotaLimiter::new`. -/
def new (limits : QuotaLimits) : InMemoryQuotaLimiter :=
  ⟨limits, fun _ => none, fun _ => none⟩

/-- The window a reserve works on: the key's entry or a new one, started anew
if the minute is not its own. -/
def currentWindow (entry : Option WindowCounters) (minute : Nat) :
    WindowCounters :=
  let counters := entry.getD .default
  if counters.windowStartEpochMinute ≠ minute then
    { WindowCounters.default with windowStartEpochMinute := minute }
  else counters

/-- `reserve` from the moment it has the lock, with the minute it read before
and the id it will draw if it gets that far. -/
def reserve (limiter : InMemoryQuotaLimiter) (minute : Nat) (id : Uuid)
    (check : QuotaCheck) :
    Except QuotaError QuotaReservation × InMemoryQuotaLimiter :=
  let limits := limiter.limits
  let counters := currentWindow (limiter.state check.apiKey) minute
  let limiter := { limiter with
    state := Function.update limiter.state check.apiKey (some counters) }
  let remainingRequests := limits.requestsPerMinute - counters.requests
  let remainingPrompt := limits.promptTokensPerMinute - counters.promptTokens
  let remainingGenerated :=
    limits.generatedTokensPerMinute - counters.generatedTokensReserved
  if remainingRequests < 1 then
    (.error (.requestsExceeded remainingRequests), limiter)
  else if remainingPrompt < check.promptTokens then
    (.error (.promptTokensExceeded remainingPrompt check.promptTokens), limiter)
  else if remainingGenerated < check.reservedGeneratedTokens then
    (.error (.generatedTokensExceeded remainingGenerated
      check.reservedGeneratedTokens), limiter)
  else
    let counters := { counters with
      requests := counters.requests + 1
      promptTokens := counters.promptTokens + check.promptTokens
      generatedTokensReserved :=
        counters.generatedTokensReserved + check.reservedGeneratedTokens }
    let reservation : QuotaReservation :=
      { id := id
        apiKey := check.apiKey
        promptTokens := check.promptTokens
        reservedGeneratedTokens := check.reservedGeneratedTokens
        remainingRequests := limits.requestsPerMinute - counters.requests
        remainingPromptTokens :=
          limits.promptTokensPerMinute - counters.promptTokens
        remainingGeneratedTokens :=
          limits.generatedTokensPerMinute - counters.generatedTokensReserved }
    (.ok reservation,
      { limiter with
        state := Function.update limiter.state check.apiKey (some counters)
        reservations :=
          Function.update limiter.reservations id (some reservation) })

/-- `reconcile`. The refund goes to the key's window, whichever minute it is
at by now. -/
def reconcile (limiter : InMemoryQuotaLimiter) (reservationId : Uuid)
    (actualGeneratedTokens : Nat) :
    Except QuotaError Nat × InMemoryQuotaLimiter :=
  match limiter.reservations reservationId with
  | none => (.error .reservationNotFound, limiter)
  | some reservation =>
      let limiter := { limiter with
        reservations :=
          Function.update limiter.reservations reservationId none }
      let refund := reservation.reservedGeneratedTokens - actualGeneratedTokens
      if refund = 0 then (.ok 0, limiter)
      else
        match limiter.state reservation.apiKey with
        | none => (.ok refund, limiter)
        | some counters =>
            (.ok refund, { limiter with
              state := Function.update limiter.state reservation.apiKey
                (some { counters with
                  generatedTokensReserved :=
                    counters.generatedTokensReserved - refund }) })

/-- What `reconcile` does under the lock of the reservations. -/
def removeReservation (limiter : InMemoryQuotaLimiter) (reservationId : Uuid) :
    InMemoryQuotaLimiter :=
  { limiter with
    reservations := Function.update limiter.reservations reservationId none }

/-- What it does, once it has given that up, under the lock of the counters. -/
def applyRefund (limiter : InMemoryQuotaLimiter) (apiKey : String)
    (refund : Nat) : InMemoryQuotaLimiter :=
  match limiter.state apiKey with
  | none => limiter
  | some counters =>
      { limiter with
        state := Function.update limiter.state apiKey
          (some { counters with
            generatedTokensReserved :=
              counters.generatedTokensReserved - refund }) }

/-- `cancel`. -/
def cancel (limiter : InMemoryQuotaLimiter) (reservationId : Uuid) :
    Except QuotaError Nat × InMemoryQuotaLimiter :=
  limiter.reconcile reservationId 0

end InMemoryQuotaLimiter

end DataPlane.Ref
