import Mathlib.Algebra.Order.Ring.Int
import Mathlib.Data.Nat.Log
import Mathlib.Tactic.NormNum

/-!
# Integers in a binary64

A scripting language whose only number is the IEEE double computes on
integers exactly up to `2 ^ 53` and rounds to 53 significant bits, ties to
even, beyond. `round` is that rounding on the integers; every arithmetic
result of such a language is the exact one passed through it.

Callers need three facts only. Below the bound rounding is the identity, and
above it a rounded number does not fall back below: so a comparison against
a bound under `2 ^ 53` comes out as it would in exact arithmetic, however
large the other side. And what has been rounded once stays as it is, so an
amount that is added and later taken away again is the same amount.
-/

namespace DataPlane.Lib.Binary64

/-- The first integer that a double cannot tell from its successor. -/
def bound : Nat := 2 ^ 53

/-- Round a natural number to 53 significant bits, ties to even. -/
def roundNat (n : Nat) : Nat :=
  if n < bound then n
  else
    let e := Nat.log 2 n - 52
    let q := n / 2 ^ e
    let r := n % 2 ^ e
    if 2 * r < 2 ^ e ∨ (2 * r = 2 ^ e ∧ q % 2 = 0) then q * 2 ^ e
    else (q + 1) * 2 ^ e

/-- Round an integer; the sign is kept apart. -/
def round : Int → Int
  | .ofNat n => roundNat n
  | .negSucc n => -(roundNat (n + 1) : Int)

theorem roundNat_of_lt {n : Nat} (h : n < bound) : roundNat n = n := by
  rw [roundNat, if_pos h]

theorem bound_le_roundNat {n : Nat} (h : bound ≤ n) : bound ≤ roundNat n := by
  have hlog : 53 ≤ Nat.log 2 n := Nat.le_log_of_pow_le (by omega) h
  have hpow : 2 ^ Nat.log 2 n ≤ n :=
    Nat.pow_log_le_self 2 (by unfold bound at h; omega)
  obtain ⟨e, he⟩ : ∃ e, Nat.log 2 n = 52 + (e + 1) :=
    ⟨Nat.log 2 n - 53, by omega⟩
  have hq : 2 ^ 52 ≤ n / 2 ^ (e + 1) := by
    rw [Nat.le_div_iff_mul_le (Nat.two_pow_pos _), ← Nat.pow_add, ← he]
    exact hpow
  have hscale : bound ≤ 2 ^ 52 * 2 ^ (e + 1) := by
    rw [← Nat.pow_add]
    exact Nat.pow_le_pow_right (by omega) (by omega)
  rw [roundNat, if_neg (by omega)]
  simp only [he, Nat.add_sub_cancel_left]
  split
  · exact hscale.trans (Nat.mul_le_mul_right _ hq)
  · exact hscale.trans (Nat.mul_le_mul_right _ (by omega))

theorem round_natCast (n : Nat) : round (n : Int) = (roundNat n : Int) := rfl

theorem round_of_lt {z : Int} (h0 : 0 ≤ z) (h : z < bound) : round z = z := by
  obtain ⟨n, rfl⟩ := Int.eq_ofNat_of_zero_le h0
  rw [round_natCast, roundNat_of_lt (by omega)]

theorem bound_le_round {z : Int} (h : (bound : Int) ≤ z) :
    (bound : Int) ≤ round z := by
  obtain ⟨n, rfl⟩ := Int.eq_ofNat_of_zero_le ((Int.natCast_nonneg bound).trans h)
  rw [round_natCast]
  have := bound_le_roundNat (n := n) (by omega)
  omega

theorem round_nonpos {z : Int} (h : z ≤ 0) : round z ≤ 0 := by
  match z, h with
  | .ofNat 0, _ => decide
  | .negSucc n, _ =>
      show -(roundNat (n + 1) : Int) ≤ 0
      omega

/-- A test against a small limit is decided as in exact arithmetic: the sum
of a small counter and an argument of any size, both rounded on the way. -/
theorem limit_lt_round_add {l a : Int} {b : Nat} (hl : l < bound)
    (ha : 0 ≤ a) :
    l < round (a + round b) ↔ l < a + b := by
  rcases Nat.lt_or_ge b bound with hb | hb
  · rw [round_of_lt (z := (b : Int)) (by omega) (by omega)]
    rcases lt_or_ge (a + b) (bound : Int) with hs | hs
    · rw [round_of_lt (by omega) hs]
    · have := bound_le_round hs
      omega
  · have h1 : (bound : Int) ≤ round b := bound_le_round (by omega)
    have h2 : (bound : Int) ≤ round (a + round b) := bound_le_round (by omega)
    omega

/-- The part of a small amount that an argument of any size leaves over. -/
theorem max_round_sub {a : Int} {b : Nat} (ha : a < bound) :
    max (round (a - round b)) 0 = max (a - b) 0 := by
  rcases lt_or_ge a (b : Int) with hab | hab
  · have h1 : a ≤ round b := by
      rcases Nat.lt_or_ge b bound with hb | hb
      · rw [round_of_lt (by omega) (by omega)]; omega
      · have : (bound : Int) ≤ round b := bound_le_round (by omega)
        omega
    have h2 := round_nonpos (z := a - round b) (by omega)
    omega
  · rw [round_of_lt (z := (b : Int)) (by omega) (by omega),
      round_of_lt (by omega) (by omega)]

/-! ## Rounding what is rounded -/

/-- A number of at most 53 significant bits is left alone. -/
theorem roundNat_of_dvd {n : Nat} (h : 2 ^ (Nat.log 2 n - 52) ∣ n) :
    roundNat n = n := by
  rw [roundNat]
  split
  · rfl
  · have hr : n % 2 ^ (Nat.log 2 n - 52) = 0 := Nat.mod_eq_zero_of_dvd h
    have hpos : 0 < 2 ^ (Nat.log 2 n - 52) := Nat.two_pow_pos _
    dsimp only
    rw [hr, if_pos (.inl (by omega)), Nat.div_mul_cancel h]

theorem roundNat_mul_pow {q e : Nat} (hlo : 2 ^ 52 ≤ q) (hhi : q ≤ 2 ^ 53) :
    roundNat (q * 2 ^ e) = q * 2 ^ e := by
  refine roundNat_of_dvd ?_
  rcases Nat.lt_or_ge q (2 ^ 53) with hlt | hge
  · have hlog : Nat.log 2 (q * 2 ^ e) = 52 + e := by
      refine (Nat.log_eq_iff (.inl (by omega))).mpr ⟨?_, ?_⟩
      · rw [Nat.pow_add]
        exact Nat.mul_le_mul_right _ hlo
      · rw [show 52 + e + 1 = 53 + e by omega, Nat.pow_add]
        exact Nat.mul_lt_mul_of_pos_right hlt (Nat.two_pow_pos e)
    rw [hlog, Nat.add_sub_cancel_left]
    exact Nat.dvd_mul_left _ _
  · have hq : q = 2 ^ 53 := by omega
    rw [hq, ← Nat.pow_add, Nat.log_pow (by omega)]
    exact Nat.pow_dvd_pow 2 (by omega)

theorem roundNat_roundNat (n : Nat) : roundNat (roundNat n) = roundNat n := by
  rcases Nat.lt_or_ge n bound with h | h
  · rw [roundNat_of_lt h, roundNat_of_lt h]
  · have hlog : 53 ≤ Nat.log 2 n := Nat.le_log_of_pow_le (by omega) h
    have hn : n ≠ 0 := by unfold bound at h; omega
    have hlo : 2 ^ 52 ≤ n / 2 ^ (Nat.log 2 n - 52) := by
      rw [Nat.le_div_iff_mul_le (Nat.two_pow_pos _), ← Nat.pow_add]
      calc 2 ^ (52 + (Nat.log 2 n - 52)) = 2 ^ Nat.log 2 n := by
            congr 1; omega
        _ ≤ n := Nat.pow_log_le_self 2 hn
    have hhi : n / 2 ^ (Nat.log 2 n - 52) < 2 ^ 53 := by
      rw [Nat.div_lt_iff_lt_mul (Nat.two_pow_pos _), ← Nat.pow_add]
      calc n < 2 ^ (Nat.log 2 n + 1) := Nat.lt_pow_succ_log_self (by omega) n
        _ = 2 ^ (53 + (Nat.log 2 n - 52)) := by congr 1; omega
    have hform : ∃ q, 2 ^ 52 ≤ q ∧ q ≤ 2 ^ 53 ∧
        roundNat n = q * 2 ^ (Nat.log 2 n - 52) := by
      rw [roundNat, if_neg (by omega)]
      dsimp only
      split
      · exact ⟨_, hlo, hhi.le, rfl⟩
      · exact ⟨_, by omega, by omega, rfl⟩
    obtain ⟨q, hq, hq', hround⟩ := hform
    rw [hround, roundNat_mul_pow hq hq']

/-- Rounding twice is rounding once. -/
theorem round_round (z : Int) : round (round z) = round z := by
  have hneg : ∀ n : Nat, round (-(n : Int)) = -(roundNat n : Int) := by
    intro n
    cases n with
    | zero => decide
    | succ n => rfl
  match z with
  | .ofNat n =>
      show round (roundNat n : Int) = roundNat n
      rw [round_natCast, roundNat_roundNat]
  | .negSucc n =>
      show round (-(roundNat (n + 1) : Int)) = -(roundNat (n + 1) : Int)
      rw [hneg, roundNat_roundNat]

end DataPlane.Lib.Binary64
