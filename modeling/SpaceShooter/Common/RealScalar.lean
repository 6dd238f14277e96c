/-
# Real scalars

The real numbers with the functions that the standard library approximates.
-/

import Mathlib.Algebra.Order.Floor.Semiring
import Mathlib.Analysis.SpecialFunctions.Trigonometric.Basic
import SpaceShooter.Common.ExtendedScalar
import SpaceShooter.Library.HalfEven
import SpaceShooter.Library.Plane

namespace SpaceShooter

noncomputable section

namespace RealScalar

/-- The largest finite `double`. -/
def max : ℝ := RationalScalar.max

@[reducible]
def stdMath : StdMath ℝ where
  sqrt := Real.sqrt
  sqrt_pos := Real.sqrt_pos.mpr
  cos := Real.cos
  sin := Real.sin
  pi := Real.pi
  max := max
  remainder := Library.HalfEven.remainder
  toUInt16 a := UInt16.ofNat ⌊a⌋.toNat
  doublings a := Nat.log 2 ⌊max / a⌋₊ + 1

end RealScalar

end

namespace Math

attribute [local instance] RealScalar.stdMath

theorem exactRoots_real : ExactRoots ℝ where
  sqrt_nonneg _ := Real.sqrt_nonneg _
  sqrt_mul_self := Real.mul_self_sqrt

theorem unit_heading (a : ℝ) : Library.Plane.sqrNorm (StdMath.cos a) (StdMath.sin a) = 1 :=
  Real.cos_sq_add_sin_sq a

end Math

end SpaceShooter
