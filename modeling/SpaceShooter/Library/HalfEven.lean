/-
# Rounding half to even

The nearest integer, and of two that are equally near the even one; and the remainder of a
division whose quotient is rounded so.
-/

import Mathlib.Algebra.Order.Floor.Ring
import Mathlib.Data.Rat.Floor
import Mathlib.Tactic.Linarith
import Mathlib.Tactic.NormNum

namespace SpaceShooter.Library.HalfEven

variable {F : Type*} [Field F] [LinearOrder F] [FloorRing F]

def roundHalfEven (q : F) : ℤ :=
  let fraction := Int.fract q
  if fraction + fraction < 1 then ⌊q⌋
  else if 1 < fraction + fraction then ⌊q⌋ + 1
  else if ⌊q⌋ % 2 = 0 then ⌊q⌋ else ⌊q⌋ + 1

/-- What a division leaves when its quotient is rounded. -/
def remainder (a b : F) : F := a - roundHalfEven (a / b) * b

variable [IsStrictOrderedRing F] {q a b : F}

/-- The rounded number is at most a half away. -/
theorem abs_sub_roundHalfEven_le (q : F) : |q - roundHalfEven q| + |q - roundHalfEven q| ≤ 1 := by
  have hlow : q - ⌊q⌋ = Int.fract q := rfl
  have hhigh : q - ((⌊q⌋ + 1 : ℤ) : F) = Int.fract q - 1 := by
    rw [Int.cast_add, Int.cast_one, ← sub_sub, hlow]
  have hfloor : |Int.fract q| = Int.fract q := abs_of_nonneg (Int.fract_nonneg q)
  have hceil : |Int.fract q - 1| = 1 - Int.fract q := by
    rw [abs_sub_comm, abs_of_pos (sub_pos.mpr (Int.fract_lt_one q))]
  unfold roundHalfEven
  dsimp only
  split_ifs with hless hmore heven
  · rw [hlow, hfloor]
    exact hless.le
  · rw [hhigh, hceil]
    linarith
  · rw [hlow, hfloor]
    exact not_lt.mp hmore
  · rw [hhigh, hceil]
    linarith

/-- What is left is at most half of the divisor. -/
theorem abs_remainder_le (a : F) (hb : 0 < b) : |remainder a b| + |remainder a b| ≤ b := by
  have hfactor : remainder a b = (a / b - roundHalfEven (a / b)) * b := by
    rw [remainder, sub_mul, div_mul_cancel₀ a hb.ne']
  rw [hfactor, abs_mul, abs_of_pos hb, ← add_mul]
  exact mul_le_of_le_one_left hb.le (abs_sub_roundHalfEven_le _)

example : roundHalfEven (5 / 2 : ℚ) = 2 ∧ roundHalfEven (7 / 2 : ℚ) = 4 := by
  decide +kernel

end SpaceShooter.Library.HalfEven
