import Mathlib.Data.Rat.Floor
import Mathlib.Tactic.Linarith
import Mathlib.Tactic.Positivity

/-!
# Rounding to a number of decimals

Python's `round` on exact numbers: to the nearest, and to the even one of two equally near.
-/

namespace Rounding
set_option autoImplicit false

def roundHalfEven (x : ℚ) : ℤ :=
  let r := x - ⌊x⌋
  if r < 1 / 2 then ⌊x⌋
  else if 1 / 2 < r then ⌊x⌋ + 1
  else if ⌊x⌋ % 2 = 0 then ⌊x⌋ else ⌊x⌋ + 1

/-- `round(x, digits)` -/
def roundTo (digits : Nat) (x : ℚ) : ℚ := roundHalfEven (x * 10 ^ digits) / 10 ^ digits

theorem floor_le_roundHalfEven (x : ℚ) : ⌊x⌋ ≤ roundHalfEven x := by
  simp only [roundHalfEven]
  split_ifs <;> omega

theorem roundHalfEven_le (x : ℚ) : roundHalfEven x ≤ ⌊x⌋ + 1 := by
  simp only [roundHalfEven]
  split_ifs <;> omega

@[simp] theorem roundHalfEven_intCast (n : ℤ) : roundHalfEven (n : ℚ) = n := by
  simp [roundHalfEven]

/-- Numbers with one integer part are rounded by their fractions. -/
theorem roundHalfEven_mono {x y : ℚ} (h : x ≤ y) : roundHalfEven x ≤ roundHalfEven y := by
  rcases lt_or_eq_of_le (Int.floor_le_floor h) with hlt | heq
  · have hx := roundHalfEven_le x
    have hy := floor_le_roundHalfEven y
    omega
  · have hfraction : x - ⌊x⌋ ≤ y - ⌊y⌋ := by
      rw [heq]
      linarith
    simp only [roundHalfEven]
    rw [heq] at hfraction ⊢
    split_ifs <;> first | omega | (exfalso; linarith)

theorem roundTo_mono (digits : Nat) {x y : ℚ} (h : x ≤ y) :
    roundTo digits x ≤ roundTo digits y := by
  have hscale : (0 : ℚ) < 10 ^ digits := by positivity
  have hscaled : x * 10 ^ digits ≤ y * 10 ^ digits := mul_le_mul_of_nonneg_right h hscale.le
  have hround : (roundHalfEven (x * 10 ^ digits) : ℚ) ≤ roundHalfEven (y * 10 ^ digits) :=
    Int.cast_le.mpr (roundHalfEven_mono hscaled)
  exact div_le_div_of_nonneg_right hround hscale.le

theorem roundTo_intCast (digits : Nat) (n : ℤ) : roundTo digits n = n := by
  have hscale : (10 : ℚ) ^ digits ≠ 0 := by positivity
  have hscaled : (n : ℚ) * 10 ^ digits = ((n * 10 ^ digits : ℤ) : ℚ) := by push_cast; rfl
  rw [roundTo, hscaled, roundHalfEven_intCast, ← hscaled]
  exact mul_div_cancel_right₀ _ hscale

/-- Rounding stays between integers. -/
theorem roundTo_mem_Icc (digits : Nat) {x : ℚ} {a b : ℤ} (ha : a ≤ x) (hb : x ≤ b) :
    (a : ℚ) ≤ roundTo digits x ∧ roundTo digits x ≤ b := by
  constructor
  · rw [← roundTo_intCast digits a]
    exact roundTo_mono digits ha
  · rw [← roundTo_intCast digits b]
    exact roundTo_mono digits hb

end Rounding
