import DataPlane.Spec.Windows

/-!
# Settlements in two halves

A settlement of the in-memory limiter takes the reservation out under one lock
and gives the refund back under another. Between the two it holds neither, and
any other call may come in. The state here has the refunds that are on their
way. Every call reads the same minute.

The audit is the history of admissions as before. An admission is settled in
it when its refund has been made, or when there is none to make; `refunded`
lists the reservations for which that has happened, newest first.
-/

namespace DataPlane.Spec

open DataPlane DataPlane.Ref

/-- A refund between the two locks, and what it will have settled. -/
structure Refund where
  id : Uuid
  apiKey : String
  amount : Nat
  outcome : Outcome
  deriving DecidableEq

/-- The limiter, the settlements under way, and the history. -/
structure SettlingState where
  limiter : InMemoryQuotaLimiter
  refunds : List Refund
  drawn : List Uuid
  history : List Admitted
  refunded : List Uuid

/-- A new limiter. -/
def SettlingState.init (limits : QuotaLimits) : SettlingState :=
  ⟨.new limits, [], [], [], []⟩

/-- A reserve, the first half of a settlement, or the second half of one that
is under way. -/
inductive SettlingStep
  | reserve (id : Uuid) (check : QuotaCheck)
  | reconcile (id : Uuid) (actual : Nat)
  | cancel (id : Uuid)
  | refund (position : Nat)
  deriving DecidableEq

/-- The first half: the reservation is gone, and its refund under way unless
there is nothing to refund. -/
def beginSettlement (s : SettlingState) (id : Uuid) (actual : Nat)
    (o : Outcome) : SettlingState :=
  match s.limiter.reservations id with
  | none => s
  | some reservation =>
      let refund := reservation.reservedGeneratedTokens - actual
      if refund = 0 then
        { s with
          limiter := s.limiter.removeReservation id
          history := s.history.map (Admitted.settle id o)
          refunded := id :: s.refunded }
      else
        { s with
          limiter := s.limiter.removeReservation id
          refunds := s.refunds ++ [⟨id, reservation.apiKey, refund, o⟩] }

/-- The second half. -/
def finishSettlement (s : SettlingState) (position : Nat) :
    Option SettlingState :=
  match s.refunds[position]? with
  | none => none
  | some r =>
      some { s with
        limiter := s.limiter.applyRefund r.apiKey r.amount
        refunds := s.refunds.eraseIdx position
        history := s.history.map (Admitted.settle r.id r.outcome)
        refunded := r.id :: s.refunded }

/-- One of these, if it can happen. -/
def settlingStep (minute : Nat) (s : SettlingState) :
    SettlingStep → Option SettlingState
  | .reserve id check =>
      if id ∈ s.drawn then none
      else
        let (result, limiter) := s.limiter.reserve minute id check
        some { s with
          limiter := limiter
          drawn := id :: s.drawn
          history := recordReserve s.history minute id check result }
  | .reconcile id actual =>
      some (beginSettlement s id actual (.reconciled actual))
  | .cancel id => some (beginSettlement s id 0 .cancelled)
  | .refund position => finishSettlement s position

end DataPlane.Spec
