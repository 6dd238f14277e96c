/-
# Lengths in the plane

Squared lengths of plane vectors over an ordered ring, where no root need exist: what adding
a multiple of a unit vector can do to a length, and what scaling does. Real vectors have polar
coordinates.
-/

import Mathlib.Algebra.Order.Ring.Abs
import Mathlib.Analysis.SpecialFunctions.Complex.Arg
import Mathlib.Tactic.Linarith
import Mathlib.Tactic.Ring

namespace SpaceShooter.Library.Plane

variable {F : Type} [CommRing F]

def sqrNorm (x y : F) : F := x ^ 2 + y ^ 2

theorem sqrNorm_zero : sqrNorm (0 : F) 0 = 0 := by
  rw [sqrNorm, zero_pow two_ne_zero, add_zero]

theorem sqrNorm_scale (x y k : F) : sqrNorm (x * k) (y * k) = sqrNorm x y * k ^ 2 := by
  rw [sqrNorm, sqrNorm]
  ring

theorem sqrNorm_unit {u v : F} (huv : sqrNorm u v = 1) (k : F) :
    sqrNorm (u * k) (v * k) = k ^ 2 := by
  rw [sqrNorm_scale, huv, one_mul]

theorem sqrNorm_sub_comm (x y a b : F) : sqrNorm (x - a) (y - b) = sqrNorm (a - x) (b - y) := by
  rw [sqrNorm, sqrNorm]
  ring

variable [LinearOrder F] [IsStrictOrderedRing F] {x y u v s a : F}

theorem sqrNorm_nonneg (x y : F) : 0 ≤ sqrNorm x y := add_nonneg (sq_nonneg x) (sq_nonneg y)

/-- The component along a unit vector is no longer than the vector. -/
theorem component_le (hs : 0 ≤ s) (hxy : sqrNorm x y ≤ s ^ 2) (huv : sqrNorm u v = 1) :
    x * u + y * v ≤ s := by
  refine abs_le_of_sq_le_sq' ?_ hs |>.2
  -- The square of the other component makes up the difference.
  calc (x * u + y * v) ^ 2 ≤ (x * u + y * v) ^ 2 + (x * v - y * u) ^ 2 :=
        le_add_of_nonneg_right (sq_nonneg _)
    _ = sqrNorm x y * sqrNorm u v := by
        rw [sqrNorm, sqrNorm]
        ring
    _ ≤ s ^ 2 := by rwa [huv, mul_one]

/-- A push in some direction makes a vector longer by no more than its own length. -/
theorem sqrNorm_push_le (hs : 0 ≤ s) (ha : 0 ≤ a) (hxy : sqrNorm x y ≤ s ^ 2)
    (huv : sqrNorm u v = 1) : sqrNorm (x + u * a) (y + v * a) ≤ (s + a) ^ 2 := by
  have hcomponent : x * u + y * v ≤ s := component_le hs hxy huv
  calc sqrNorm (x + u * a) (y + v * a)
      = sqrNorm x y + 2 * (a * (x * u + y * v)) + sqrNorm u v * a ^ 2 := by
        rw [sqrNorm, sqrNorm, sqrNorm]
        ring
    _ ≤ s ^ 2 + 2 * (a * s) + a ^ 2 := by
        have hpush := mul_le_mul_of_nonneg_left hcomponent ha
        rw [huv, one_mul]
        linarith
    _ = (s + a) ^ 2 := by ring

/-- A step of bounded length toward a point ends as near to it as the bound allows. -/
theorem exists_step_near {D R s : F} (huv : sqrNorm u v = 1) (hD : 0 ≤ D) (hR : 0 ≤ R)
    (hs : 0 ≤ s) (hnear : D ≤ R + s) :
    ∃ r, 0 ≤ r ∧ r ≤ R ∧ sqrNorm (u * r - u * D) (v * r - v * D) ≤ s ^ 2 := by
  refine ⟨min R D, le_min hR hD, min_le_left R D, ?_⟩
  have hleft : |min R D - D| ≤ s := by
    rw [abs_le]
    constructor
    · rcases min_choice R D with hmin | hmin
      · rw [hmin]
        linarith
      · rw [hmin]
        linarith
    · exact (sub_nonpos.mpr (min_le_right R D)).trans hs
  rw [← mul_sub, ← mul_sub, sqrNorm_unit huv]
  exact sq_le_sq' (neg_le_of_abs_le hleft) (le_of_abs_le hleft)

/-- Polar coordinates, the angle as a share of a full turn. -/
theorem exists_polar (x y : ℝ) : ∃ turn D : ℝ, 0 ≤ turn ∧ turn ≤ 1 ∧ 0 ≤ D ∧
    x = Real.cos (2 * Real.pi * turn) * D ∧ y = Real.sin (2 * Real.pi * turn) * D := by
  have hturn : 0 < 2 * Real.pi := Real.two_pi_pos
  have hx : x = Real.cos (Complex.arg ⟨x, y⟩) * ‖(⟨x, y⟩ : ℂ)‖ := by
    rw [mul_comm, Complex.norm_mul_cos_arg]
  have hy : y = Real.sin (Complex.arg ⟨x, y⟩) * ‖(⟨x, y⟩ : ℂ)‖ := by
    rw [mul_comm, Complex.norm_mul_sin_arg]
  have hle := Complex.arg_le_pi ⟨x, y⟩
  have hlow := Complex.neg_pi_lt_arg ⟨x, y⟩
  generalize Complex.arg ⟨x, y⟩ = a at hx hy hle hlow
  by_cases ha : 0 ≤ a
  · refine ⟨a / (2 * Real.pi), ‖(⟨x, y⟩ : ℂ)‖, div_nonneg ha hturn.le, ?_, norm_nonneg _, ?_, ?_⟩
    · rw [div_le_one hturn]
      linarith
    · rwa [mul_div_cancel₀ _ hturn.ne']
    · rwa [mul_div_cancel₀ _ hturn.ne']
  · -- A negative angle is brought back by a full turn.
    refine ⟨(a + 2 * Real.pi) / (2 * Real.pi), ‖(⟨x, y⟩ : ℂ)‖, div_nonneg (by linarith) hturn.le,
      ?_, norm_nonneg _, ?_, ?_⟩
    · rw [div_le_one hturn]
      linarith
    · rwa [mul_div_cancel₀ _ hturn.ne', Real.cos_add_two_pi]
    · rwa [mul_div_cancel₀ _ hturn.ne', Real.sin_add_two_pi]

end SpaceShooter.Library.Plane
