import DataPlane.Ref.MemoryLimiter
import DataPlane.Proofs.QuotaScripts

/-!
# What the in-memory limiter can do

Both limiters make the same decision, in the same order: the first of the
three dimensions in which the new total would exceed its limit is the one the
refusal names. `firstExceeded` is that decision by itself. For the limiter in
memory it is all there is to a reserve: one equation for each of its two
answers, and two more for a settlement.
-/

namespace DataPlane.Proofs

open DataPlane DataPlane.Lib DataPlane.Ref

/-- The first dimension whose limit is exceeded. -/
def firstExceeded (limits : QuotaLimits) (value amount : Dimension → Nat) :
    Option Dimension :=
  if limitOf limits .requests < value .requests + amount .requests then
    some .requests
  else if limitOf limits .prompt < value .prompt + amount .prompt then
    some .prompt
  else if limitOf limits .generated < value .generated + amount .generated then
    some .generated
  else none

theorem firstExceeded_eq_none {limits : QuotaLimits}
    {value amount : Dimension → Nat} :
    firstExceeded limits value amount = none ↔
      ∀ d, value d + amount d ≤ limitOf limits d := by
  unfold firstExceeded
  constructor
  · intro h d
    split_ifs at h with h1 h2 h3
    cases d <;> omega
  · intro h
    have h1 := h .requests
    have h2 := h .prompt
    have h3 := h .generated
    rw [if_neg (by omega), if_neg (by omega), if_neg (by omega)]

/-! ## Windows -/

/-- A counter of a window. -/
def countOf (w : WindowCounters) : Dimension → Nat
  | .requests => w.requests
  | .prompt => w.promptTokens
  | .generated => w.generatedTokensReserved

/-- What a reserve asks for. -/
def askedOf (check : QuotaCheck) : Dimension → Nat :=
  amount check.promptTokens check.reservedGeneratedTokens

/-- The window after an admission. -/
def chargeWindow (w : WindowCounters) (check : QuotaCheck) : WindowCounters :=
  { w with
    requests := w.requests + 1
    promptTokens := w.promptTokens + check.promptTokens
    generatedTokensReserved :=
      w.generatedTokensReserved + check.reservedGeneratedTokens }

@[simp] theorem chargeWindow_start (w : WindowCounters) (check : QuotaCheck) :
    (chargeWindow w check).windowStartEpochMinute = w.windowStartEpochMinute :=
  rfl

@[simp] theorem countOf_chargeWindow (w : WindowCounters) (check : QuotaCheck)
    (d : Dimension) :
    countOf (chargeWindow w check) d = countOf w d + askedOf check d := by
  cases d <;> rfl

/-- The window after a refund. -/
def refundWindow (w : WindowCounters) (refund : Nat) : WindowCounters :=
  { w with generatedTokensReserved := w.generatedTokensReserved - refund }

@[simp] theorem refundWindow_start (w : WindowCounters) (refund : Nat) :
    (refundWindow w refund).windowStartEpochMinute = w.windowStartEpochMinute :=
  rfl

section Window

open InMemoryQuotaLimiter

variable {entry : Option WindowCounters} {w : WindowCounters} {minute : Nat}

@[simp] theorem currentWindow_start :
    (currentWindow entry minute).windowStartEpochMinute = minute := by
  unfold currentWindow
  dsimp only
  split
  · rfl
  · next h => exact not_not.mp h

theorem chargeWindow_currentWindow_start (check : QuotaCheck) :
    (chargeWindow (currentWindow entry minute) check).windowStartEpochMinute =
      minute :=
  currentWindow_start

theorem currentWindow_of_start (h : w.windowStartEpochMinute = minute) :
    currentWindow (some w) minute = w := by
  simp [currentWindow, h]

/-- A window that has just been started is empty. -/
theorem countOf_currentWindow_of_ne
    (h : ∀ w, entry = some w → w.windowStartEpochMinute ≠ minute)
    (d : Dimension) : countOf (currentWindow entry minute) d = 0 := by
  unfold currentWindow
  dsimp only
  split
  · cases d <;> rfl
  · next hstart =>
      cases entry with
      | none => cases d <;> rfl
      | some w => exact absurd (not_not.mp hstart) (h w rfl)

end Window

/-! ## The counters of a minute -/

/-- What a key has been charged in the minute. -/
def countIn (limiter : InMemoryQuotaLimiter) (minute : Nat) (key : String)
    (d : Dimension) : Nat :=
  countOf (InMemoryQuotaLimiter.currentWindow (limiter.state key) minute) d

section Count

variable {limits : QuotaLimits} {state : String → Option WindowCounters}
  {reservations : Uuid → Option InMemoryQuotaLimiter.QuotaReservation}
  {limiter : InMemoryQuotaLimiter} {minute : Nat} {key : String}
  {w : WindowCounters}

theorem countIn_update_self (hw : w.windowStartEpochMinute = minute)
    (d : Dimension) :
    countIn ⟨limits, Function.update state key (some w), reservations⟩ minute
      key d = countOf w d := by
  simp only [countIn, Function.update_self, currentWindow_of_start hw]

theorem countIn_update_ne {key' : String} (h : key' ≠ key) (d : Dimension) :
    countIn ⟨limiter.limits, Function.update limiter.state key (some w),
      reservations⟩ minute key' d = countIn limiter minute key' d := by
  simp only [countIn, Function.update_of_ne h]

theorem state_update_start (hw : w.windowStartEpochMinute = minute)
    (hold : ∀ {key w}, state key = some w → w.windowStartEpochMinute = minute)
    {key' : String} {w' : WindowCounters}
    (h : Function.update state key (some w) key' = some w') :
    w'.windowStartEpochMinute = minute := by
  by_cases hk : key' = key
  · rw [hk, Function.update_self] at h
    cases h
    exact hw
  · rw [Function.update_of_ne hk] at h
    exact hold h

end Count

/-! ## A reserve -/

/-- The reservation an admission makes. -/
def reservationFor (limits : QuotaLimits) (w : WindowCounters) (id : Uuid)
    (check : QuotaCheck) : InMemoryQuotaLimiter.QuotaReservation :=
  { id := id
    apiKey := check.apiKey
    promptTokens := check.promptTokens
    reservedGeneratedTokens := check.reservedGeneratedTokens
    remainingRequests :=
      limits.requestsPerMinute - countOf (chargeWindow w check) .requests
    remainingPromptTokens :=
      limits.promptTokensPerMinute - countOf (chargeWindow w check) .prompt
    remainingGeneratedTokens :=
      limits.generatedTokensPerMinute -
        countOf (chargeWindow w check) .generated }

/-- The dimension a refusal names. -/
def exceededBy : InMemoryQuotaLimiter.QuotaError → Option Dimension
  | .requestsExceeded _ => some .requests
  | .promptTokensExceeded _ _ => some .prompt
  | .generatedTokensExceeded _ _ => some .generated
  | .reservationNotFound => none

section Limiter

open InMemoryQuotaLimiter (currentWindow)

variable {limiter : InMemoryQuotaLimiter} {minute : Nat} {id : Uuid}
  {check : QuotaCheck} {w : WindowCounters}

theorem reserve_refused (id : Uuid) {d : Dimension}
    (hw : currentWindow (limiter.state check.apiKey) minute = w)
    (hle : ∀ d, countOf w d ≤ limitOf limiter.limits d)
    (h : firstExceeded limiter.limits (countOf w) (askedOf check) = some d) :
    ∃ e, limiter.reserve minute id check =
        (.error e, { limiter with
          state := Function.update limiter.state check.apiKey (some w) }) ∧
      exceededBy e = some d := by
  have hle2 := hle .prompt
  have hle3 := hle .generated
  simp only [limitOf, countOf] at hle2 hle3
  unfold InMemoryQuotaLimiter.reserve
  simp only [hw]
  unfold firstExceeded at h
  split_ifs at h with h1 h2 h3
  · cases h
    simp only [limitOf, countOf, askedOf, amount] at h1
    rw [if_pos (by omega)]
    exact ⟨_, rfl, rfl⟩
  · cases h
    simp only [limitOf, countOf, askedOf, amount] at h1 h2
    rw [if_neg (by omega), if_pos (by omega)]
    exact ⟨_, rfl, rfl⟩
  · cases h
    simp only [limitOf, countOf, askedOf, amount] at h1 h2 h3
    rw [if_neg (by omega), if_neg (by omega), if_pos (by omega)]
    exact ⟨_, rfl, rfl⟩

theorem reserve_admitted
    (hw : currentWindow (limiter.state check.apiKey) minute = w)
    (h : firstExceeded limiter.limits (countOf w) (askedOf check) = none) :
    limiter.reserve minute id check =
      (.ok (reservationFor limiter.limits w id check),
        { limiter with
          state := Function.update limiter.state check.apiKey
            (some (chargeWindow w check))
          reservations := Function.update limiter.reservations id
            (some (reservationFor limiter.limits w id check)) }) := by
  have hfit := firstExceeded_eq_none.mp h
  have h1 := hfit .requests
  have h2 := hfit .prompt
  have h3 := hfit .generated
  simp only [limitOf, countOf, askedOf, amount] at h1 h2 h3
  unfold InMemoryQuotaLimiter.reserve
  simp only [hw]
  rw [if_neg (by omega), if_neg (by omega), if_neg (by omega),
    Function.update_idem]
  rfl

/-- No counter is over its limit. Refunds do not change that, and a reserve is
refused before it would. -/
def Within (limiter : InMemoryQuotaLimiter) : Prop :=
  ∀ key w d, limiter.state key = some w → countOf w d ≤ limitOf limiter.limits d

theorem Within.currentWindow (hI : Within limiter) (key : String) (minute : Nat)
    (d : Dimension) :
    countOf (currentWindow (limiter.state key) minute) d ≤
      limitOf limiter.limits d := by
  by_cases h : ∀ w, limiter.state key = some w →
      w.windowStartEpochMinute ≠ minute
  · rw [countOf_currentWindow_of_ne h]
    exact Nat.zero_le _
  · obtain ⟨w, hw, hstart⟩ : ∃ w, limiter.state key = some w ∧
        w.windowStartEpochMinute = minute := by
      by_contra hnone
      exact h fun w hw hs => hnone ⟨w, hw, hs⟩
    rw [hw, currentWindow_of_start hstart]
    exact hI key w d hw

/-- A reserve is refused and only opens its window, or it is admitted within
all three limits. -/
theorem reserve_cases (hI : Within limiter) (minute : Nat) (id : Uuid)
    (check : QuotaCheck) :
    (∃ e, limiter.reserve minute id check =
      (.error e, { limiter with
        state := Function.update limiter.state check.apiKey
          (some (currentWindow (limiter.state check.apiKey) minute)) })) ∨
    ((∀ d, countOf (currentWindow (limiter.state check.apiKey) minute) d +
        askedOf check d ≤ limitOf limiter.limits d) ∧
      ∃ q : InMemoryQuotaLimiter.QuotaReservation,
        q.apiKey = check.apiKey ∧
        q.reservedGeneratedTokens = check.reservedGeneratedTokens ∧
        limiter.reserve minute id check =
          (.ok q, { limiter with
            state := Function.update limiter.state check.apiKey
              (some (chargeWindow
                (currentWindow (limiter.state check.apiKey) minute) check))
            reservations :=
              Function.update limiter.reservations id (some q) })) := by
  cases h : firstExceeded limiter.limits
      (countOf (currentWindow (limiter.state check.apiKey) minute))
      (askedOf check) with
  | some d =>
      obtain ⟨e, he, _⟩ := reserve_refused id rfl
        (hI.currentWindow check.apiKey minute) h
      exact .inl ⟨e, he⟩
  | none =>
      exact .inr ⟨firstExceeded_eq_none.mp h, _, rfl, rfl,
        reserve_admitted rfl h⟩

theorem Within.update (hI : Within limiter) {key : String}
    (hw : ∀ d, countOf w d ≤ limitOf limiter.limits d)
    (reservations : Uuid → Option InMemoryQuotaLimiter.QuotaReservation) :
    Within ⟨limiter.limits, Function.update limiter.state key (some w),
      reservations⟩ := by
  intro key' w' d hw'
  dsimp only at hw' ⊢
  by_cases he : key' = key
  · subst he
    rw [Function.update_self] at hw'
    cases hw'
    exact hw d
  · rw [Function.update_of_ne he] at hw'
    exact hI key' w' d hw'

theorem within_reserve (hI : Within limiter) (minute : Nat) (id : Uuid)
    (check : QuotaCheck) : Within (limiter.reserve minute id check).2 := by
  rcases reserve_cases hI minute id check with ⟨e, he⟩ | ⟨hfit, q, _, _, hq⟩
  · rw [he]
    exact hI.update (hI.currentWindow check.apiKey minute) _
  · rw [hq]
    refine hI.update (fun d => ?_) _
    rw [countOf_chargeWindow]
    exact hfit d

/-! ## A settlement -/

theorem reconcile_unknown (h : limiter.reservations id = none) (actual : Nat) :
    limiter.reconcile id actual = (.error .reservationNotFound, limiter) := by
  unfold InMemoryQuotaLimiter.reconcile
  rw [h]

/-- The refund of a reservation that is there, into the window its key has by
now. With nothing to refund the window is not touched, which is the same as
refunding nothing. -/
theorem reconcile_known {q : InMemoryQuotaLimiter.QuotaReservation}
    (h : limiter.reservations id = some q) (hw : limiter.state q.apiKey = some w)
    (actual : Nat) :
    limiter.reconcile id actual =
      (.ok (q.reservedGeneratedTokens - actual),
        { limiter with
          state := Function.update limiter.state q.apiKey
            (some (refundWindow w (q.reservedGeneratedTokens - actual)))
          reservations := Function.update limiter.reservations id none }) := by
  unfold InMemoryQuotaLimiter.reconcile
  rw [h]
  simp only [hw]
  split
  · next hzero =>
      rw [hzero, refundWindow, Nat.sub_zero, ← hw, Function.update_eq_self]
  · rfl

theorem countOf_refundWindow_le (w : WindowCounters) (refund : Nat)
    (d : Dimension) : countOf (refundWindow w refund) d ≤ countOf w d := by
  cases d with
  | requests => exact Nat.le_refl _
  | prompt => exact Nat.le_refl _
  | generated => exact Nat.sub_le _ _

end Limiter

/-- Ids that differ in their last digit, for the runs that follow. -/
def endingIn (digit : Char) : Uuid where
  text := "00000000-0000-4000-8000-00000000000".push digit
  length_eq := by rw [String.length_push]; rfl

end DataPlane.Proofs
