import Mathlib.Data.Int.Log
import Mathlib.Data.Rat.Floor
import Mathlib.Tactic.FieldSimp
import Mathlib.Tactic.NormNum
/-!
# The binary64 deadline `time.monotonic() + timeout / 1000` (rabbitmq.py:336, :386)

Both deadlines of the adapter are Python floats: `timeout / 1000` is the correctly rounded
quotient of two ints, and adding the float `time.monotonic()` rounds once more. Values are kept
as exact rationals and rounded where the code rounds: `f64 x` is `x` rounded to the nearest
binary64 value, ties to even (IEEE 754 roundTiesToEven), on the grid of `2 ^ ulpExp x`. The
exponent range is not bounded above, so no deadline overflows to infinity (a timeout above
`10 ^ 311` ms would make `timeout / 1000` raise `OverflowError` instead). `deadlineAfter_pos`: a
positive timeout from a clock at or after `0` gives a positive, so truthy, deadline;
`deadlineAfter_natCast` evaluates the deadlines of whole seconds.
-/
namespace Remoulade

/-- Round half to even: the integer nearest to `x`, the even one of two at a tie. -/
def roundHalfEven (x : ℚ) : Int :=
  if x - ⌊x⌋ < 1 / 2 then ⌊x⌋
  else if 1 / 2 < x - ⌊x⌋ then ⌊x⌋ + 1
  else if ⌊x⌋ % 2 = 0 then ⌊x⌋ else ⌊x⌋ + 1

/-- The exponent of the last significand bit of a binary64 value of the size of `x`: 52 bits
below the leading bit of `|x|`, and never below that of the subnormals. -/
def ulpExp (x : ℚ) : Int := max (Int.log 2 |x| - 52) (-1074)

/-- `x` rounded to binary64, round half to even. -/
def f64 (x : ℚ) : ℚ := roundHalfEven (x / 2 ^ ulpExp x) * 2 ^ ulpExp x

/-- `time.monotonic() + timeout / 1000` with `start` the reading of `time.monotonic()`. -/
def deadlineAfter (start : ℚ) (timeout : Int) : ℚ := f64 (start + f64 (timeout / 1000))

@[simp] theorem roundHalfEven_intCast (n : Int) : roundHalfEven n = n := by
  simp [roundHalfEven]

theorem floor_le_roundHalfEven (x : ℚ) : ⌊x⌋ ≤ roundHalfEven x := by
  unfold roundHalfEven; split_ifs <;> omega

/-! ## Values on the grid are exact -/

theorem f64_of_grid {x : ℚ} (m : Int) (hx : x = m * 2 ^ ulpExp x) : f64 x = x := by
  have hq : x / 2 ^ ulpExp x = m := by rw [div_eq_iff (zpow_ne_zero _ two_ne_zero)]; exact hx
  rw [f64, hq, roundHalfEven_intCast, ← hx]

theorem ulpExp_natCast_nonpos {n : Nat} (h : n < 2 ^ 53) : ulpExp n ≤ 0 := by
  rcases Nat.eq_zero_or_pos n with rfl | hn
  · simp [ulpExp]
  · have : Nat.log 2 n < 53 := Nat.log_lt_of_lt_pow hn.ne' h
    simp only [ulpExp, Nat.abs_cast, Int.log_natCast]
    omega

theorem f64_natCast {n : Nat} (h : n < 2 ^ 53) : f64 n = n := by
  obtain ⟨k, hk⟩ : ∃ k : Nat, ulpExp n = -k := ⟨(-ulpExp n).toNat, by have := ulpExp_natCast_nonpos h; omega⟩
  refine f64_of_grid (n * 2 ^ k) ?_
  rw [hk, zpow_neg, zpow_natCast]
  push_cast
  field_simp

/-- A deadline of whole seconds from a whole-second reading is exact. -/
theorem deadlineAfter_natCast (a b : Nat) (h : a + b < 2 ^ 53) :
    deadlineAfter a (1000 * b : Nat) = a + b := by
  have hb : ((((1000 * b : Nat) : Int) : ℚ) / 1000) = (b : Nat) := by push_cast; ring
  rw [deadlineAfter, hb, f64_natCast (by omega), ← Nat.cast_add, f64_natCast h]

/-! ## Positive deadlines -/

theorem zpow_ulpExp_le {x : ℚ} (h : 2 ^ (-1074 : Int) ≤ x) : (2 : ℚ) ^ ulpExp x ≤ x := by
  have hx : 0 < x := lt_of_lt_of_le (zpow_pos two_pos _) h
  rcases max_cases (Int.log 2 |x| - 52) (-1074) with ⟨he, -⟩ | ⟨he, -⟩ <;> rw [ulpExp, he]
  · calc (2 : ℚ) ^ (Int.log 2 |x| - 52) ≤ 2 ^ Int.log 2 |x| := zpow_le_zpow_right₀ one_le_two (by omega)
      _ ≤ |x| := by exact_mod_cast Int.zpow_log_le_self one_lt_two (abs_pos.2 hx.ne')
      _ = x := abs_of_pos hx
  · exact h

theorem f64_ge {x : ℚ} (h : 2 ^ (-1074 : Int) ≤ x) : 2 ^ (-1074 : Int) ≤ f64 x := by
  have h2 : (0 : ℚ) < 2 ^ ulpExp x := zpow_pos two_pos _
  have hr : (1 : ℚ) ≤ roundHalfEven (x / 2 ^ ulpExp x) := by
    have : (1 : Int) ≤ ⌊x / 2 ^ ulpExp x⌋ := Int.le_floor.2 (by rw [Int.cast_one, one_le_div h2]; exact zpow_ulpExp_le h)
    exact_mod_cast this.trans (floor_le_roundHalfEven _)
  calc (2 : ℚ) ^ (-1074 : Int) ≤ 2 ^ ulpExp x := zpow_le_zpow_right₀ one_le_two (le_max_right _ _)
    _ = 1 * 2 ^ ulpExp x := (one_mul _).symm
    _ ≤ f64 x := mul_le_mul_of_nonneg_right hr h2.le

/-- **A positive timeout sets a deadline**: from a reading at or after `0`, the computed
deadline is positive. -/
theorem deadlineAfter_pos {start : ℚ} {t : Int} (h0 : 0 ≤ start) (ht : 0 < t) : 0 < deadlineAfter start t := by
  have h1 : (2 : ℚ) ^ (-1074 : Int) ≤ t / 1000 :=
    calc (2 : ℚ) ^ (-1074 : Int) ≤ 2 ^ (-10 : Int) := zpow_le_zpow_right₀ one_le_two (by norm_num)
      _ ≤ 1 / 1000 := by norm_num
      _ ≤ t / 1000 := div_le_div_of_nonneg_right (by exact_mod_cast (show (1 : Int) ≤ t from ht)) (by norm_num)
  exact lt_of_lt_of_le (zpow_pos two_pos _) (f64_ge (le_add_of_nonneg_of_le h0 (f64_ge h1)))

end Remoulade
