import Mathlib.Algebra.Order.Floor.Ring
import Mathlib.Data.Int.Log
import Mathlib.Data.Rat.Floor
import Mathlib.Tactic.Linarith
import Mathlib.Tactic.Positivity

/-!
# Rounding to binary64

A rational number rounded to the nearest number with a mantissa of 53 bits, ties to even. The
exponents are those of normal numbers: neither underflow nor overflow is modelled.
-/
namespace Binary64

/-- The nearest integer, ties to even. -/
def roundHalfEven (x : ℚ) : ℤ :=
  if Int.fract x < 1 / 2 then ⌊x⌋
  else if 1 / 2 < Int.fract x then ⌊x⌋ + 1
  else if ⌊x⌋ % 2 = 0 then ⌊x⌋
  else ⌊x⌋ + 1

theorem roundHalfEven_nonneg {x : ℚ} (hx : 0 ≤ x) : 0 ≤ roundHalfEven x := by
  have hfloor : 0 ≤ ⌊x⌋ := Int.floor_nonneg.mpr hx
  unfold roundHalfEven
  split_ifs <;> omega

theorem roundHalfEven_le (x : ℚ) : (roundHalfEven x : ℚ) ≤ x + 1 / 2 := by
  have hfloor : (⌊x⌋ : ℚ) ≤ x := Int.floor_le x
  have hsplit : (⌊x⌋ : ℚ) + Int.fract x = x := Int.floor_add_fract x
  unfold roundHalfEven
  split_ifs with hlow hhigh heven
  · linarith
  · push_cast
    linarith
  · linarith
  · push_cast
    linarith

/-- The place of the last bit of the mantissa. -/
def lastPlace (x : ℚ) : ℚ := 2 ^ (Int.log 2 |x| - 52)

theorem lastPlace_pos (x : ℚ) : 0 < lastPlace x := zpow_pos (by norm_num) _

theorem lastPlace_le {x : ℚ} (hx : 0 < x) : lastPlace x ≤ x / 2 ^ 52 := by
  have hlog : (2 : ℚ) ^ Int.log 2 |x| ≤ |x| := by
    have h : ((2 : Nat) : ℚ) ^ Int.log 2 |x| ≤ |x| :=
      Int.zpow_log_le_self (by omega) (abs_pos.mpr hx.ne')
    exact_mod_cast h
  rw [abs_of_pos hx] at hlog
  unfold lastPlace
  rw [abs_of_pos hx, zpow_sub₀ (by norm_num), le_div_iff₀ (by positivity)]
  have hpow : (2 : ℚ) ^ (52 : ℤ) = 2 ^ 52 := by norm_num
  rw [hpow, div_mul_cancel₀ _ (by positivity)]
  exact hlog

def toDouble (x : ℚ) : ℚ := roundHalfEven (x / lastPlace x) * lastPlace x

theorem toDouble_nonneg {x : ℚ} (hx : 0 ≤ x) : 0 ≤ toDouble x := by
  have hquotient : 0 ≤ x / lastPlace x := div_nonneg hx (lastPlace_pos x).le
  have hrounded : (0 : ℚ) ≤ roundHalfEven (x / lastPlace x) := by
    exact_mod_cast roundHalfEven_nonneg hquotient
  exact mul_nonneg hrounded (lastPlace_pos x).le

/-- Rounding adds no more than one part in `2 ^ 53`. -/
theorem toDouble_le {x : ℚ} (hx : 0 ≤ x) : toDouble x ≤ x * (1 + 1 / 2 ^ 53) := by
  rcases hx.eq_or_lt with rfl | hpos
  · simp [toDouble, roundHalfEven]
  · have hplace := lastPlace_pos x
    have hquotient := roundHalfEven_le (x / lastPlace x)
    calc toDouble x ≤ (x / lastPlace x + 1 / 2) * lastPlace x :=
          mul_le_mul_of_nonneg_right hquotient hplace.le
      _ = x + lastPlace x / 2 := by field_simp
      _ ≤ x * (1 + 1 / 2 ^ 53) := by
          have := lastPlace_le hpos
          linarith

end Binary64
