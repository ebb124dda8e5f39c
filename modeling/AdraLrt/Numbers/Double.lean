import Mathlib.Data.Int.Log
import Mathlib.Data.Rat.Floor

/-!
# Doubles

The values of double-precision numbers as rationals. An operation rounds its exact result to the
nearest number with 53 binary digits, and to the even one of two that are equally near. The range of
the exponent is left out, so the values have to be far from overflow and underflow.

Integers with at most 53 digits are doubles, so a difference that is such an integer is exact
(`sub_eq_of_natCast`). In general a difference of two doubles is rounded once more.
-/

set_option autoImplicit false

namespace Double

/-- The nearest integer, and the even one of two. -/
def roundEven (q : ℚ) : ℤ :=
  if q - ⌊q⌋ < 1 / 2 then ⌊q⌋
  else if 1 / 2 < q - ⌊q⌋ then ⌊q⌋ + 1
  else ⌊q⌋ + ⌊q⌋ % 2

/-- The distance of neighbouring doubles at `q`. -/
def ulp (q : ℚ) : ℚ := 2 ^ (Int.log 2 |q| - 52)

/-- The nearest double. -/
def round (q : ℚ) : ℚ := roundEven (q / ulp q) * ulp q

/-- The subtraction of doubles. -/
def sub (x y : ℚ) : ℚ := round (x - y)

/-- The division of doubles. -/
def div (x y : ℚ) : ℚ := round (x / y)

@[simp] theorem roundEven_intCast (n : ℤ) : roundEven n = n := by
  simp [roundEven]

@[simp] theorem round_zero : round 0 = 0 := by
  have h : roundEven 0 = 0 := roundEven_intCast 0
  simp [round, h]

/-- A multiple of the distance of its neighbours is a double. -/
theorem round_of_dvd {q : ℚ} {n : ℤ} (h : q / ulp q = n) : round q = q := by
  have hulp : ulp q ≠ 0 := zpow_ne_zero _ two_ne_zero
  rw [round, h, roundEven_intCast, ← h, div_mul_cancel₀ q hulp]

/-- Short integers are doubles. -/
theorem round_intCast {n : ℤ} (h : |n| < 2 ^ 53) : round n = n := by
  rcases eq_or_ne n 0 with rfl | hn
  · simp
  have hpos : (0 : ℚ) < |(n : ℚ)| := abs_pos.2 (Int.cast_ne_zero.2 hn)
  have hlt : |(n : ℚ)| < 2 ^ (53 : ℤ) := by
    have hcast : ((|n| : ℤ) : ℚ) < ((2 ^ 53 : ℤ) : ℚ) := Int.cast_lt.2 h
    rwa [Int.cast_abs, Int.cast_pow] at hcast
  have hlog : Int.log 2 |(n : ℚ)| < 53 := (Int.lt_zpow_iff_log_lt one_lt_two hpos).1 (by exact hlt)
  -- the neighbours of a short integer are at most one apart
  obtain ⟨k, hk⟩ : ∃ k : ℕ, Int.log 2 |(n : ℚ)| - 52 = -(k : ℤ) :=
    ⟨(52 - Int.log 2 |(n : ℚ)|).toNat, by omega⟩
  apply round_of_dvd (n := n * 2 ^ k)
  rw [ulp, hk, zpow_neg, div_inv_eq_mul, zpow_natCast]
  push_cast
  rfl

theorem sub_same (x : ℚ) : sub x x = 0 := by
  rw [sub, sub_self, round_zero]

theorem round_natCast {n : ℕ} (h : n < 2 ^ 53) : round n = n := by
  have habs : |(n : ℤ)| < 2 ^ 53 := by
    rw [Nat.abs_cast]
    exact_mod_cast h
  exact_mod_cast round_intCast habs

theorem sub_eq_of_natCast {x y : ℚ} {n : ℕ} (hn : n < 2 ^ 53) (h : x - y = n) : sub x y = n := by
  rw [sub, h, round_natCast hn]

/-- Two and two tenths less one and two tenths is not one. -/
example : sub (div 22 10) (div 12 10) ≠ 1 := by decide +kernel

end Double
