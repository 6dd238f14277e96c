/-
# Elastic collisions

Two bodies with masses exchange an impulse along a unit vector, in any space with a symmetric
bilinear form. The impulse that turns the relative velocity along the vector around keeps the
momentum and the kinetic energy, and it keeps what is orthogonal to the vector.
-/

import Mathlib.Algebra.Order.Field.Basic
import Mathlib.LinearAlgebra.BilinearForm.Properties
import Mathlib.Tactic.LinearCombination
import Mathlib.Tactic.Module

namespace SpaceShooter.Library.Elastic

variable {F V : Type*} [Field F] [AddCommGroup V] [Module F V] (B : LinearMap.BilinForm F V)

/-- The velocity of the second body relative to the first along a vector. -/
def normalVelocity (n : V) (v : V × V) : F := B (v.2 - v.1) n

/-- The impulse of a collision without loss. -/
def impulse (n : V) (m₁ m₂ : F) (v : V × V) : F :=
  -(normalVelocity B n v + normalVelocity B n v) / (m₁⁻¹ + m₂⁻¹)

/-- The velocities after the bodies have exchanged the impulse. -/
def collide (n : V) (m₁ m₂ : F) (v : V × V) : V × V :=
  (v.1 - (impulse B n m₁ m₂ v * m₁⁻¹) • n, v.2 + (impulse B n m₁ m₂ v * m₂⁻¹) • n)

variable {B} {n t : V} {m₁ m₂ : F} {v : V × V}

/-- What one body gains the other loses. -/
theorem collide_momentum (hm₁ : m₁ ≠ 0) (hm₂ : m₂ ≠ 0) :
    m₁ • (collide B n m₁ m₂ v).1 + m₂ • (collide B n m₁ m₂ v).2 = m₁ • v.1 + m₂ • v.2 := by
  have hfirst : m₁ * (impulse B n m₁ m₂ v * m₁⁻¹) = impulse B n m₁ m₂ v := by
    rw [mul_left_comm, mul_inv_cancel₀ hm₁, mul_one]
  have hsecond : m₂ * (impulse B n m₁ m₂ v * m₂⁻¹) = impulse B n m₁ m₂ v := by
    rw [mul_left_comm, mul_inv_cancel₀ hm₂, mul_one]
  rw [collide, smul_sub, smul_add, smul_smul, smul_smul, hfirst, hsecond]
  abel

/-- Across the vector nothing changes. -/
theorem collide_orthogonal (ht : B n t = 0) :
    B (collide B n m₁ m₂ v).1 t = B v.1 t ∧ B (collide B n m₁ m₂ v).2 t = B v.2 t := by
  constructor
  · rw [collide, LinearMap.BilinForm.sub_left, LinearMap.BilinForm.smul_left, ht, mul_zero,
      sub_zero]
  · rw [collide, LinearMap.BilinForm.add_left, LinearMap.BilinForm.smul_left, ht, mul_zero,
      add_zero]

/-- Along the vector the relative velocity is turned around. -/
theorem normalVelocity_collide (hn : B n n = 1) (hm : m₁⁻¹ + m₂⁻¹ ≠ 0) :
    normalVelocity B n (collide B n m₁ m₂ v) = -normalVelocity B n v := by
  have hgain : (collide B n m₁ m₂ v).2 - (collide B n m₁ m₂ v).1 =
      (v.2 - v.1) + (impulse B n m₁ m₂ v * (m₁⁻¹ + m₂⁻¹)) • n := by
    rw [collide]
    module
  have himpulse : impulse B n m₁ m₂ v * (m₁⁻¹ + m₂⁻¹) =
      -(normalVelocity B n v + normalVelocity B n v) := div_mul_cancel₀ _ hm
  calc normalVelocity B n (collide B n m₁ m₂ v)
      = normalVelocity B n v + impulse B n m₁ m₂ v * (m₁⁻¹ + m₂⁻¹) := by
        rw [normalVelocity, hgain, LinearMap.BilinForm.add_left, LinearMap.BilinForm.smul_left, hn,
          mul_one, normalVelocity]
    _ = -normalVelocity B n v := by
        rw [himpulse]
        ring

/-- The energy that an impulse along a unit vector brings to a body. -/
theorem energy_push (hB : B.IsSymm) (hn : B n n = 1) (w : V) (a : F) :
    B (w + a • n) (w + a • n) = B w w + (a + a) * B w n + a * a := by
  rw [LinearMap.BilinForm.add_left, LinearMap.BilinForm.add_right, LinearMap.BilinForm.add_right,
    LinearMap.BilinForm.smul_left, LinearMap.BilinForm.smul_left, LinearMap.BilinForm.smul_right,
    LinearMap.BilinForm.smul_right, hn, hB.eq n w]
  ring

/-- The bodies have together the energy they had. -/
theorem collide_energy (hB : B.IsSymm) (hn : B n n = 1) (hm₁ : m₁ ≠ 0) (hm₂ : m₂ ≠ 0)
    (hm : m₁⁻¹ + m₂⁻¹ ≠ 0) :
    m₁ * B (collide B n m₁ m₂ v).1 (collide B n m₁ m₂ v).1 +
        m₂ * B (collide B n m₁ m₂ v).2 (collide B n m₁ m₂ v).2 =
      m₁ * B v.1 v.1 + m₂ * B v.2 v.2 := by
  have himpulse : impulse B n m₁ m₂ v * (m₁⁻¹ + m₂⁻¹) =
      -(normalVelocity B n v + normalVelocity B n v) := div_mul_cancel₀ _ hm
  have hnormal : normalVelocity B n v = B v.2 n - B v.1 n := LinearMap.BilinForm.sub_left _ _ _
  have hinv₁ : m₁ * m₁⁻¹ = 1 := mul_inv_cancel₀ hm₁
  have hinv₂ : m₂ * m₂⁻¹ = 1 := mul_inv_cancel₀ hm₂
  rw [collide, sub_eq_add_neg, ← neg_smul, energy_push hB hn, energy_push hB hn]
  rw [hnormal] at himpulse
  generalize impulse B n m₁ m₂ v = j at himpulse ⊢
  -- The work of the impulse is `j` times the mean of the relative velocities.
  linear_combination j * himpulse + (j * j * m₁⁻¹ - (j + j) * B v.1 n) * hinv₁ +
    (j * j * m₂⁻¹ + (j + j) * B v.2 n) * hinv₂

end SpaceShooter.Library.Elastic
