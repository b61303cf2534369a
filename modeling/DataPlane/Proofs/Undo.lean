import DataPlane.Lib.Machine
import DataPlane.Proofs.Windows

/-!
# What a cancellation leaves behind

The cancel script of the quota takes all three amounts of a reservation back.
`cancel` of the in-memory limiter is a `reconcile` that reports no tokens, and
that gives back generated tokens only: the request and its prompt stay charged.
Two runs that make the same calls, one of them with a reservation more, never
come together again in these two counters.
-/

namespace DataPlane.Proofs

open DataPlane DataPlane.Lib DataPlane.Ref DataPlane.Spec
open InMemoryQuotaLimiter (currentWindow)

variable {limiter : InMemoryQuotaLimiter} {minute : Nat} {id : Uuid}
  {check : QuotaCheck} {key : String} {d : Dimension}

/-- A call within the minute: whether it succeeds, and what it leaves. -/
def limiterCall (minute : Nat) (limiter : InMemoryQuotaLimiter) :
    LimiterCall → Bool × InMemoryQuotaLimiter
  | .tick _ => (true, limiter)
  | .reserve id check =>
      ((limiter.reserve minute id check).1.isOk,
        (limiter.reserve minute id check).2)
  | .reconcile id actual =>
      ((limiter.reconcile id actual).1.isOk, (limiter.reconcile id actual).2)
  | .cancel id => ((limiter.cancel id).1.isOk, (limiter.cancel id).2)

/-- The limiter after some calls. -/
def afterCalls (minute : Nat) (limiter : InMemoryQuotaLimiter)
    (calls : List LimiterCall) : InMemoryQuotaLimiter :=
  calls.foldl (fun limiter call => (limiterCall minute limiter call).2) limiter

/-! ## One call -/

/-- A reserve leaves the window it found, charged if it is admitted. -/
theorem reserve_state (limiter : InMemoryQuotaLimiter) (minute : Nat)
    (id : Uuid) (check : QuotaCheck) :
    (limiter.reserve minute id check).2.state =
      Function.update limiter.state check.apiKey (some
        (if (limiter.reserve minute id check).1.isOk then
          chargeWindow (currentWindow (limiter.state check.apiKey) minute) check
        else currentWindow (limiter.state check.apiKey) minute)) := by
  unfold InMemoryQuotaLimiter.reserve
  dsimp only
  split
  · rfl
  · split
    · rfl
    · split
      · rfl
      · dsimp only
        rw [Function.update_idem]
        rfl

theorem countIn_reserve (limiter : InMemoryQuotaLimiter) (minute : Nat)
    (id : Uuid) (check : QuotaCheck) (key : String) (d : Dimension) :
    countIn (limiter.reserve minute id check).2 minute key d =
      countIn limiter minute key d +
        if (limiter.reserve minute id check).1.isOk ∧ check.apiKey = key then
          askedOf check d
        else 0 := by
  unfold countIn
  rw [reserve_state]
  by_cases hk : key = check.apiKey
  · subst hk
    rw [Function.update_self]
    cases (limiter.reserve minute id check).1.isOk with
    | true =>
        simp only [if_true, and_self]
        rw [currentWindow_of_start (chargeWindow_currentWindow_start check),
          countOf_chargeWindow]
    | false =>
        simp only [Bool.false_eq_true, if_false, false_and, Nat.add_zero]
        rw [currentWindow_of_start currentWindow_start]
  · rw [Function.update_of_ne hk, if_neg fun h => hk h.2.symm, Nat.add_zero]

/-- A refund concerns the generated tokens only. -/
theorem countOf_refund_ne {w : WindowCounters} (refund : Nat)
    (hd : d ≠ .generated) :
    countOf (currentWindow (some (refundWindow w refund)) minute) d =
      countOf (currentWindow (some w) minute) d := by
  by_cases hstart : w.windowStartEpochMinute = minute
  · rw [currentWindow_of_start hstart, currentWindow_of_start
      ((refundWindow_start w refund).trans hstart)]
    cases d with
    | requests => rfl
    | prompt => rfl
    | generated => exact absurd rfl hd
  · rw [countOf_currentWindow_of_ne, countOf_currentWindow_of_ne]
    · intro w' hw'
      cases hw'
      exact hstart
    · intro w' hw'
      cases hw'
      exact hstart

theorem countIn_reconcile (limiter : InMemoryQuotaLimiter) (minute : Nat)
    (id : Uuid) (actual : Nat) (key : String) (hd : d ≠ .generated) :
    countIn (limiter.reconcile id actual).2 minute key d =
      countIn limiter minute key d := by
  unfold countIn
  cases hq : limiter.reservations id with
  | none => rw [reconcile_unknown hq]
  | some q =>
      cases hw : limiter.state q.apiKey with
      | none =>
          have hsame : (limiter.reconcile id actual).2.state =
              limiter.state := by
            unfold InMemoryQuotaLimiter.reconcile
            simp only [hq, hw]
            split <;> rfl
          rw [hsame]
      | some w =>
          rw [reconcile_known hq hw]
          dsimp only
          by_cases hk : key = q.apiKey
          · rw [hk, Function.update_self, hw, countOf_refund_ne _ hd]
          · rw [Function.update_of_ne hk]

/-! ## Two runs -/

/-- The first limiter has counted one reservation more than the second. -/
def AheadBy (minute : Nat) (check : QuotaCheck)
    (ahead behind : InMemoryQuotaLimiter) : Prop :=
  ∀ key d, d ≠ .generated → countIn ahead minute key d =
    countIn behind minute key d +
      if check.apiKey = key then askedOf check d else 0

/-- A call that is decided alike leaves the distance as it is. -/
theorem AheadBy.call {ahead behind : InMemoryQuotaLimiter} (call : LimiterCall)
    (h : AheadBy minute check ahead behind)
    (hsame : (limiterCall minute ahead call).1 =
      (limiterCall minute behind call).1) :
    AheadBy minute check (limiterCall minute ahead call).2
      (limiterCall minute behind call).2 := by
  intro key d hd
  have hold := h key d hd
  cases call with
  | tick ms => exact hold
  | reserve id' check' =>
      simp only [limiterCall] at hsame ⊢
      rw [countIn_reserve, countIn_reserve, hsame, hold]
      omega
  | reconcile id' actual =>
      simp only [limiterCall]
      rw [countIn_reconcile _ _ _ _ _ hd, countIn_reconcile _ _ _ _ _ hd, hold]
  | cancel id' =>
      simp only [limiterCall, InMemoryQuotaLimiter.cancel]
      rw [countIn_reconcile _ _ _ _ _ hd, countIn_reconcile _ _ _ _ _ hd, hold]

theorem AheadBy.calls {ahead behind : InMemoryQuotaLimiter}
    (calls : List LimiterCall) (h : AheadBy minute check ahead behind)
    (hsame : answers (limiterCall minute) ahead calls =
      answers (limiterCall minute) behind calls) :
    AheadBy minute check (afterCalls minute ahead calls)
      (afterCalls minute behind calls) := by
  induction calls generalizing ahead behind with
  | nil => exact h
  | cons call calls ih =>
      simp only [answers, List.cons.injEq] at hsame
      exact ih (h.call call hsame.1) hsame.2

theorem aheadBy_reserve {q : InMemoryQuotaLimiter.QuotaReservation}
    (h : (limiter.reserve minute id check).1 = .ok q) :
    AheadBy minute check (limiter.reserve minute id check).2 limiter := by
  intro key d _
  rw [countIn_reserve, h]
  simp [Except.isOk, Except.toBool]

/-- The limiter after a reserve, some calls, and the cancellation of the
reserve. -/
def undone (limiter : InMemoryQuotaLimiter) (minute : Nat) (id : Uuid)
    (check : QuotaCheck) (calls : List LimiterCall) : InMemoryQuotaLimiter :=
  ((afterCalls minute (limiter.reserve minute id check).2 calls).cancel id).2

/-- For every state, every admitted reserve and all calls of the same minute
that are decided as they would be without it: after the cancellation the
request and the prompt are still counted, so the counters are never what they
would be had the reservation not been made. -/
theorem cancel_keeps_charge (limiter : InMemoryQuotaLimiter) (minute : Nat)
    (id : Uuid) (check : QuotaCheck)
    (q : InMemoryQuotaLimiter.QuotaReservation)
    (hadmitted : (limiter.reserve minute id check).1 = .ok q)
    (calls : List LimiterCall)
    (hsame : answers (limiterCall minute)
        (limiter.reserve minute id check).2 calls =
      answers (limiterCall minute) limiter calls) :
    countIn (undone limiter minute id check calls) minute check.apiKey
        .requests =
      countIn (afterCalls minute limiter calls) minute check.apiKey
        .requests + 1 ∧
    countIn (undone limiter minute id check calls) minute check.apiKey
        .prompt =
      countIn (afterCalls minute limiter calls) minute check.apiKey
        .prompt + check.promptTokens ∧
    ¬ (∀ d, countIn (undone limiter minute id check calls) minute
        check.apiKey d =
      countIn (afterCalls minute limiter calls) minute check.apiKey d) ∧
    (undone limiter minute id check calls).state check.apiKey ≠
      (afterCalls minute limiter calls).state check.apiKey := by
  have hahead := (aheadBy_reserve hadmitted).calls calls hsame
  have hcount : ∀ d, d ≠ .generated →
      countIn (undone limiter minute id check calls) minute check.apiKey d =
      countIn (afterCalls minute limiter calls) minute check.apiKey d +
        askedOf check d := by
    intro d hd
    rw [undone, InMemoryQuotaLimiter.cancel, countIn_reconcile _ _ _ _ _ hd,
      hahead _ d hd, if_pos rfl]
  have hrequests := hcount .requests (by decide)
  refine ⟨hrequests, hcount .prompt (by decide), ?_, ?_⟩
  · intro hall
    have hequal := hall .requests
    rw [hrequests] at hequal
    exact absurd hequal (Nat.succ_ne_self _)
  · intro hstate
    unfold countIn at hrequests
    rw [hstate] at hrequests
    exact absurd hrequests.symm (Nat.succ_ne_self _)

/-- With another reservation made and settled in between. -/
theorem cancel_keeps_charge_between :
    countIn (undone (.new ⟨10, 100, 50⟩) 7 (endingIn 'a') ⟨"key", 10, 40⟩
        [.reserve (endingIn 'b') ⟨"key", 5, 5⟩, .reconcile (endingIn 'b') 2])
        7 "key" .requests =
      countIn (afterCalls 7 (.new ⟨10, 100, 50⟩)
        [.reserve (endingIn 'b') ⟨"key", 5, 5⟩, .reconcile (endingIn 'b') 2])
        7 "key" .requests + 1 :=
  (cancel_keeps_charge (.new ⟨10, 100, 50⟩) 7 (endingIn 'a') ⟨"key", 10, 40⟩
    _ rfl _ (by decide)).1

/-- A reservation of ten prompt tokens, cancelled at once: one request and ten
prompt tokens stay charged to a key that had none. -/
theorem cancel_leaves_request :
    ∃ q, ((InMemoryQuotaLimiter.new ⟨10, 100, 50⟩).reserve 7 (endingIn 'a')
        ⟨"key", 10, 40⟩).1 = .ok q ∧
      ([.requests, .prompt, .generated] : List Dimension).map
        (countIn (undone (.new ⟨10, 100, 50⟩) 7 (endingIn 'a')
          ⟨"key", 10, 40⟩ []) 7 "key") = [1, 10, 0] ∧
      ([.requests, .prompt, .generated] : List Dimension).map
        (countIn (.new ⟨10, 100, 50⟩) 7 "key") = [0, 0, 0] :=
  ⟨_, rfl, by decide, by decide⟩

end DataPlane.Proofs
