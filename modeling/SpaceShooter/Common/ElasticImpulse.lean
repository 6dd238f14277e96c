/-
# The elastic impulse

With exact roots and masses that are positive, `resolveElasticImpulse` is an elastic collision
along the contact normal: it keeps the momentum, the kinetic energy and what is perpendicular
to the normal, and turns an approach around. Bodies that do not approach each other are left
alone, so a second call changes nothing.
-/

import Mathlib.Tactic.FieldSimp
import SpaceShooter.Common.RealScalar
import SpaceShooter.Common.WorldBounds
import SpaceShooter.Library.Elastic

namespace SpaceShooter.Math

open Library Scalar

/-! ### The quantities of a collision -/

section Quantities

variable {K : Type} [Scalar K]

/-- The unit vector from the first body to the second. -/
def contactNormal (pos1 pos2 : Vector2D K) : Vector2D K :=
  (pos2 - pos1) * (lit 1 / (pos2 - pos1).length)

/-- The relative velocity along the contact normal; negative means approaching. -/
def normalVel (pos1 vel1 pos2 vel2 : Vector2D K) : K :=
  (vel2 - vel1).dot (contactNormal pos1 pos2)

/-- The component of a velocity perpendicular to the contact normal. -/
def tangentVel (pos1 pos2 vel : Vector2D K) : K :=
  vel.dot ⟨-(contactNormal pos1 pos2).y, (contactNormal pos1 pos2).x⟩

def momentum (vel1 : Vector2D K) (mass1 : K) (vel2 : Vector2D K) (mass2 : K) : Vector2D K :=
  vel1 * mass1 + vel2 * mass2

def kineticEnergy (vel1 : Vector2D K) (mass1 : K) (vel2 : Vector2D K) (mass2 : K) : K :=
  lit (1 / 2) * mass1 * vel1.lengthSquared + lit (1 / 2) * mass2 * vel2.lengthSquared

/-- The laws of an elastic collision of two bodies, from one pair of velocities to another. -/
structure ElasticLaws (pos1 vel1 : Vector2D K) (mass1 : K) (pos2 vel2 : Vector2D K) (mass2 : K)
    (vel1' vel2' : Vector2D K) : Prop where
  momentum : momentum vel1' mass1 vel2' mass2 = momentum vel1 mass1 vel2 mass2
  energy : kineticEnergy vel1' mass1 vel2' mass2 = kineticEnergy vel1 mass1 vel2 mass2
  tangent1 : tangentVel pos1 pos2 vel1' = tangentVel pos1 pos2 vel1
  tangent2 : tangentVel pos1 pos2 vel2' = tangentVel pos1 pos2 vel2
  reversed : normalVel pos1 vel1 pos2 vel2 < lit 0 →
    normalVel pos1 vel1' pos2 vel2' = -normalVel pos1 vel1 pos2 vel2
  unchanged : lit 0 ≤ normalVel pos1 vel1 pos2 vel2 → vel1' = vel1 ∧ vel2' = vel2
  parted : lit 0 ≤ normalVel pos1 vel1' pos2 vel2'

/-- What a call computes, in the quantities of the collision. -/
theorem resolveElasticImpulse_eq (pos1 vel1 : Vector2D K) (mass1 : K) (pos2 vel2 : Vector2D K)
    (mass2 : K) :
    resolveElasticImpulse pos1 vel1 mass1 pos2 vel2 mass2 =
      if (pos2 - pos1).lengthSquared < kEps then (vel1, vel2)
      else if lit 0 ≤ normalVel pos1 vel1 pos2 vel2 then (vel1, vel2)
      else
        let impulse := contactNormal pos1 pos2 *
          (lit (-2) * normalVel pos1 vel1 pos2 vel2 / (lit 1 / mass1 + lit 1 / mass2))
        (vel1 - impulse * (lit 1 / mass1), vel2 + impulse * (lit 1 / mass2)) := rfl

/-- Bodies that do not approach each other keep their velocities. -/
theorem resolveElasticImpulse_of_parted {pos1 vel1 pos2 vel2 : Vector2D K}
    (h : lit 0 ≤ normalVel pos1 vel1 pos2 vel2) (mass1 mass2 : K) :
    resolveElasticImpulse pos1 vel1 mass1 pos2 vel2 mass2 = (vel1, vel2) := by
  rw [resolveElasticImpulse_eq, if_pos h, ite_self]

end Quantities

variable {F : Type}

/-! ### Exact vectors -/

/-- The vector with exact coordinates. -/
def vec (a : F × F) : Vector2D (Extended F) := ⟨.finite a.1, .finite a.2⟩

theorem exists_vec {v : Vector2D (Extended F)} (hv : FinitePoint v) : ∃ a, v = vec a := by
  obtain ⟨x, y⟩ := v
  obtain ⟨⟨a, rfl⟩, b, rfl⟩ := hv
  exact ⟨(a, b), rfl⟩

variable [Field F]

/-- The dot product of the plane. -/
def planeForm (F : Type) [Field F] : LinearMap.BilinForm F (F × F) :=
  LinearMap.mk₂ F (fun a b => a.1 * b.1 + a.2 * b.2)
    (fun a a' b => by
      rw [Prod.fst_add, Prod.snd_add]
      ring)
    (fun c a b => by
      rw [Prod.smul_fst, Prod.smul_snd, smul_eq_mul, smul_eq_mul, smul_eq_mul]
      ring)
    (fun a b b' => by
      rw [Prod.fst_add, Prod.snd_add]
      ring)
    fun c a b => by
      rw [Prod.smul_fst, Prod.smul_snd, smul_eq_mul, smul_eq_mul, smul_eq_mul]
      ring

theorem planeForm_apply (a b : F × F) : planeForm F a b = a.1 * b.1 + a.2 * b.2 := rfl

theorem planeForm_isSymm : (planeForm F).IsSymm :=
  ⟨fun a b => by
    rw [planeForm_apply, planeForm_apply, mul_comm a.1, mul_comm a.2]⟩

variable [LinearOrder F] [StdMath F]

theorem vec_add (a b : F × F) : vec a + vec b = vec (a + b) := rfl

theorem vec_sub (a b : F × F) : vec a - vec b = vec (a - b) :=
  congrArg₂ Vector2D.mk (Extended.finite_sub _ _) (Extended.finite_sub _ _)

theorem vec_mul (a : F × F) (s : F) : vec a * (.finite s : Extended F) = vec (s • a) :=
  congrArg₂ Vector2D.mk (congrArg Extended.finite (mul_comm _ _))
    (congrArg Extended.finite (mul_comm _ _))

theorem vec_dot (a b : F × F) : (vec a).dot (vec b) = .finite (planeForm F a b) := rfl

theorem vec_lengthSquared (a : F × F) : (vec a).lengthSquared = .finite (planeForm F a a) := rfl

theorem lit_one_div {a : F} (ha : a ≠ 0) : (lit 1 : Extended F) / .finite a = .finite a⁻¹ := by
  change (.finite ((1 : ℚ) : F) : Extended F) / .finite a = _
  rw [Extended.finite_div _ ha, Rat.cast_one, one_div]

theorem lit_zero_le {a : F} : (lit 0 : Extended F) ≤ .finite a ↔ 0 ≤ a := by
  change ((0 : ℚ) : F) ≤ a ↔ _
  rw [Rat.cast_zero]

theorem lt_lit_zero {a : F} : (.finite a : Extended F) < lit 0 ↔ a < 0 := by
  change a < ((0 : ℚ) : F) ↔ _
  rw [Rat.cast_zero]

/-- Positions apart have a contact normal. -/
theorem exists_contactNormal (roots : ExactRoots F) {d : F × F} (hd : 0 < planeForm F d d) :
    ∃ n, vec d * (lit 1 / (vec d).length) = vec n ∧ planeForm F n n = 1 := by
  have hroot := roots.sqrt_mul_self hd.le
  have hpos : 0 < StdMath.sqrt (planeForm F d d) := StdMath.sqrt_pos hd
  have hlength : (vec d).length = .finite (StdMath.sqrt (planeForm F d d)) := by
    rw [Vector2D.length, vec_lengthSquared]
    change (if planeForm F d d < 0 then (.nan : Extended F) else _) = _
    rw [if_neg hd.not_gt]
  refine ⟨(StdMath.sqrt (planeForm F d d))⁻¹ • d, ?_, ?_⟩
  · rw [hlength, lit_one_div hpos.ne', vec_mul]
  · rw [LinearMap.BilinForm.smul_left, LinearMap.BilinForm.smul_right]
    generalize StdMath.sqrt (planeForm F d d) = s at hroot hpos
    rw [← hroot]
    field_simp

/-! ### The call -/

section Call

variable {pos1 pos2 n : F × F} {v : (F × F) × (F × F)} {mass1 mass2 : F}

theorem normalVel_vec (hnormal : contactNormal (vec pos1) (vec pos2) = vec n)
    (v : (F × F) × (F × F)) :
    normalVel (vec pos1) (vec v.1) (vec pos2) (vec v.2) =
      .finite (Elastic.normalVelocity (planeForm F) n v) := by
  rw [normalVel, hnormal, vec_sub, vec_dot]
  rfl

theorem tangentVel_vec (hnormal : contactNormal (vec pos1) (vec pos2) = vec n) (a : F × F) :
    tangentVel (vec pos1) (vec pos2) (vec a) = .finite (planeForm F a (-n.2, n.1)) := by
  rw [tangentVel, hnormal]
  rfl

theorem momentum_vec (a b : F × F) (mass1 mass2 : F) :
    momentum (vec a) (.finite mass1) (vec b) (.finite mass2) = vec (mass1 • a + mass2 • b) := by
  rw [momentum, vec_mul, vec_mul, vec_add]

theorem kineticEnergy_vec (a b : F × F) (mass1 mass2 : F) :
    kineticEnergy (vec a) (.finite mass1) (vec b) (.finite mass2) =
      .finite (((1 / 2 : ℚ) : F) * (mass1 * planeForm F a a + mass2 * planeForm F b b)) := by
  rw [mul_add, ← mul_assoc, ← mul_assoc]
  rfl

variable [IsStrictOrderedRing F]

/-- The impulse of the code is that of a collision without loss. -/
theorem impulse_eq (vn : F) (hmass1 : 0 < mass1) (hmass2 : 0 < mass2) :
    lit (-2) * .finite vn / (lit 1 / .finite mass1 + lit 1 / .finite mass2 : Extended F) =
      .finite (-(vn + vn) / (mass1⁻¹ + mass2⁻¹)) := by
  have hsum : mass1⁻¹ + mass2⁻¹ ≠ 0 := (add_pos (inv_pos.mpr hmass1) (inv_pos.mpr hmass2)).ne'
  have htwo : ((-2 : ℚ) : F) * vn = -(vn + vn) := by
    rw [Rat.cast_neg, Rat.cast_ofNat, neg_mul, two_mul]
  rw [lit_one_div hmass1.ne', lit_one_div hmass2.ne', Extended.finite_add]
  change (.finite (((-2 : ℚ) : F) * vn) : Extended F) / _ = _
  rw [Extended.finite_div _ hsum, htwo]

/-- A call collides bodies that approach each other. -/
theorem resolveElasticImpulse_vec (hmass1 : 0 < mass1) (hmass2 : 0 < mass2)
    (apart : ¬ (vec pos2 - vec pos1).lengthSquared < (kEps : Extended F))
    (hnormal : contactNormal (vec pos1) (vec pos2) = vec n)
    (happroach : ¬ lit 0 ≤ normalVel (vec pos1) (vec v.1) (vec pos2) (vec v.2)) :
    resolveElasticImpulse (vec pos1) (vec v.1) (.finite mass1) (vec pos2) (vec v.2)
        (.finite mass2) =
      (vec (Elastic.collide (planeForm F) n mass1 mass2 v).1,
        vec (Elastic.collide (planeForm F) n mass1 mass2 v).2) := by
  rw [resolveElasticImpulse_eq, if_neg apart, if_neg happroach, hnormal, normalVel_vec hnormal,
    impulse_eq _ hmass1 hmass2, lit_one_div hmass1.ne', lit_one_div hmass2.ne', vec_mul]
  dsimp only
  rw [vec_mul, vec_mul, vec_sub, vec_add, smul_smul, smul_smul, mul_comm mass1⁻¹,
    mul_comm mass2⁻¹]
  rfl

/-- The velocities of an approach that is resolved obey the laws. -/
theorem collide_elastic (hmass1 : 0 < mass1) (hmass2 : 0 < mass2)
    (hnormal : contactNormal (vec pos1) (vec pos2) = vec n) (hunit : planeForm F n n = 1)
    (happroach : Elastic.normalVelocity (planeForm F) n v < 0) :
    ElasticLaws (vec pos1) (vec v.1) (.finite mass1) (vec pos2) (vec v.2) (.finite mass2)
      (vec (Elastic.collide (planeForm F) n mass1 mass2 v).1)
      (vec (Elastic.collide (planeForm F) n mass1 mass2 v).2) := by
  have hsum : mass1⁻¹ + mass2⁻¹ ≠ 0 := (add_pos (inv_pos.mpr hmass1) (inv_pos.mpr hmass2)).ne'
  have hperp : planeForm F n (-n.2, n.1) = 0 := by
    rw [planeForm_apply]
    ring
  have hreversed : Elastic.normalVelocity (planeForm F) n
      (Elastic.collide (planeForm F) n mass1 mass2 v) =
        -Elastic.normalVelocity (planeForm F) n v := Elastic.normalVelocity_collide hunit hsum
  have htangent1 : planeForm F (Elastic.collide (planeForm F) n mass1 mass2 v).1 (-n.2, n.1) =
      planeForm F v.1 (-n.2, n.1) := (Elastic.collide_orthogonal hperp).1
  have htangent2 : planeForm F (Elastic.collide (planeForm F) n mass1 mass2 v).2 (-n.2, n.1) =
      planeForm F v.2 (-n.2, n.1) := (Elastic.collide_orthogonal hperp).2
  constructor
  case momentum =>
    rw [momentum_vec, momentum_vec, Elastic.collide_momentum hmass1.ne' hmass2.ne']
  case energy =>
    rw [kineticEnergy_vec, kineticEnergy_vec,
      Elastic.collide_energy planeForm_isSymm hunit hmass1.ne' hmass2.ne' hsum]
  case tangent1 => rw [tangentVel_vec hnormal, tangentVel_vec hnormal, htangent1]
  case tangent2 => rw [tangentVel_vec hnormal, tangentVel_vec hnormal, htangent2]
  case reversed =>
    intro _
    rw [normalVel_vec hnormal, normalVel_vec hnormal, hreversed]
    rfl
  case unchanged =>
    intro h
    rw [normalVel_vec hnormal, lit_zero_le] at h
    exact absurd h happroach.not_ge
  case parted =>
    rw [normalVel_vec hnormal, hreversed, lit_zero_le]
    exact (neg_pos.mpr happroach).le

/-- A call keeps the laws, and a second call changes nothing. -/
theorem resolveElasticImpulse_elastic (roots : ExactRoots F)
    {pos1 vel1 pos2 vel2 : Vector2D (Extended F)} (hpos1 : FinitePoint pos1)
    (hvel1 : FinitePoint vel1) (hpos2 : FinitePoint pos2) (hvel2 : FinitePoint vel2)
    (hmass1 : 0 < mass1) (hmass2 : 0 < mass2) (apart : kEps ≤ (pos2 - pos1).lengthSquared) :
    ∃ vel1' vel2',
      resolveElasticImpulse pos1 vel1 (.finite mass1) pos2 vel2 (.finite mass2) =
          (vel1', vel2') ∧
        ElasticLaws pos1 vel1 (.finite mass1) pos2 vel2 (.finite mass2) vel1' vel2' ∧
        resolveElasticImpulse pos1 vel1' (.finite mass1) pos2 vel2' (.finite mass2) =
          (vel1', vel2') := by
  obtain ⟨p, rfl⟩ := exists_vec hpos1
  obtain ⟨q, rfl⟩ := exists_vec hpos2
  obtain ⟨a, rfl⟩ := exists_vec hvel1
  obtain ⟨b, rfl⟩ := exists_vec hvel2
  rw [vec_sub] at apart
  have hdistance : eps ≤ planeForm F (q - p) (q - p) := apart
  have hfar : ¬ (vec q - vec p).lengthSquared < (kEps : Extended F) := by
    rw [vec_sub]
    exact not_lt.mpr hdistance
  obtain ⟨n, hnormal, hunit⟩ := exists_contactNormal roots (eps_pos.trans_le hdistance)
  rw [← vec_sub] at hnormal
  have hvn := normalVel_vec hnormal (a, b)
  by_cases hparted : lit 0 ≤ normalVel (vec p) (vec a) (vec q) (vec b)
  · have hsame := resolveElasticImpulse_of_parted hparted (.finite mass1) (.finite mass2)
    refine ⟨vec a, vec b, hsame, ⟨rfl, rfl, rfl, rfl, fun h => ?_, fun _ => ⟨rfl, rfl⟩, hparted⟩,
      hsame⟩
    rw [hvn, lit_zero_le] at hparted
    rw [hvn, lt_lit_zero] at h
    exact absurd hparted h.not_ge
  · have hcall := resolveElasticImpulse_vec (v := (a, b)) hmass1 hmass2 hfar hnormal hparted
    rw [hvn, lit_zero_le, not_le] at hparted
    have hlaws := collide_elastic hmass1 hmass2 hnormal hunit hparted
    exact ⟨_, _, hcall, hlaws, resolveElasticImpulse_of_parted hlaws.parted _ _⟩

end Call

noncomputable section Witness

attribute [local instance] RealScalar.stdMath

/-- A body of two units meets one of three units that comes from above. -/
theorem resolveElasticImpulse_elastic_oblique :
    ∃ vel1' vel2' : Vector2D (Extended ℝ),
      resolveElasticImpulse ⟨.finite 0, .finite 0⟩ ⟨.finite 1, .finite 0⟩ (.finite 2)
          ⟨.finite 1, .finite 1⟩ ⟨.finite 0, .finite (-1)⟩ (.finite 3) = (vel1', vel2') ∧
        momentum vel1' (.finite 2) vel2' (.finite 3) =
          ⟨.finite (1 * 2 + 0 * 3), .finite (0 * 2 + -1 * 3)⟩ := by
  have apart : (kEps : Extended ℝ) ≤ ((⟨.finite 1, .finite 1⟩ : Vector2D (Extended ℝ)) -
      ⟨.finite 0, .finite 0⟩).lengthSquared := by
    change ((1e-12 : ℚ) : ℝ) ≤ (1 + -0) * (1 + -0) + (1 + -0) * (1 + -0)
    norm_num
  have hvel1 : FinitePoint (⟨.finite 1, .finite 0⟩ : Vector2D (Extended ℝ)) :=
    ⟨⟨1, rfl⟩, 0, rfl⟩
  have hvel2 : FinitePoint (⟨.finite 0, .finite (-1)⟩ : Vector2D (Extended ℝ)) :=
    ⟨⟨0, rfl⟩, -1, rfl⟩
  obtain ⟨vel1', vel2', hcall, hlaws, -⟩ := resolveElasticImpulse_elastic exactRoots_real
    ⟨⟨0, rfl⟩, 0, rfl⟩ hvel1 ⟨⟨1, rfl⟩, 1, rfl⟩ hvel2 two_pos three_pos apart
  exact ⟨vel1', vel2', hcall, hlaws.momentum⟩

end Witness

end SpaceShooter.Math
