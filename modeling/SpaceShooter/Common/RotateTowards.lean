/-
# Turning toward a heading

With an exact remainder the code's angles are representatives in `(-pi, pi]` and a call of
`rotateTowards` is one bounded turn, for any positive `pi`. It ends in the interval, shortens
the way to the target by exactly the step or to nothing, and repeated calls arrive.
-/

import SpaceShooter.Common.RealScalar
import SpaceShooter.Common.WorldBounds
import SpaceShooter.Library.Turning

namespace SpaceShooter.Math

open Library Scalar

/-- How far an angle is from a target, the shorter way round. -/
def headingError {K : Type} [Scalar K] (current_angle target_angle : K) : K :=
  fabs (normalizeAngle (target_angle - current_angle))

variable {F : Type} [Field F] [LinearOrder F] [StdMath F]

theorem two_pi_eq : (lit 2 : Extended F) * pi = .finite (StdMath.pi + StdMath.pi) := by
  have htwo : ((2 : ℚ) : F) = 2 := Rat.cast_ofNat 2
  change Extended.finite (((2 : ℚ) : F) * StdMath.pi) = _
  rw [htwo, two_mul]

/-- A step that is not negative takes the sign of the way. -/
theorem copysign_finite [IsStrictOrderedRing F] {s d : F} (hs : 0 ≤ s) :
    copysign (.finite s : Extended F) (.finite d) = .finite (if d < 0 then -s else s) := by
  change (if d < 0 then Extended.finite (-|s|) else .finite |s|) = _
  rw [abs_of_nonneg hs]
  split_ifs
  · rfl
  · rfl

variable [FloorRing F]

variable (F) in
/-- Half a turn is positive, and `std::remainder` rounds its quotient half to even. -/
structure ExactAngles : Prop where
  pi_pos : 0 < (StdMath.pi : F)
  remainder_eq : ∀ a b : F, 0 < b → StdMath.remainder a b = HalfEven.remainder a b

variable [IsStrictOrderedRing F]

/-! ### Normalised angles -/

/-- What the remainder leaves is the angle less some full turns, in `[-pi, pi]`. -/
theorem ExactAngles.remainder_spec (exact : ExactAngles F) (a : F) :
    ∃ r, remainder (.finite a : Extended F) (lit 2 * pi) = .finite r ∧ |r| ≤ StdMath.pi ∧
      ∃ n : ℤ, a = r + n • (StdMath.pi + StdMath.pi) := by
  have hpi := exact.pi_pos
  have hturn : 0 < (StdMath.pi + StdMath.pi : F) := add_pos hpi hpi
  refine ⟨HalfEven.remainder a (StdMath.pi + StdMath.pi), ?_, ?_,
    HalfEven.roundHalfEven (a / (StdMath.pi + StdMath.pi)), ?_⟩
  · rw [two_pi_eq]
    change (if (StdMath.pi + StdMath.pi : F) = 0 then (.nan : Extended F) else _) = _
    rw [if_neg hturn.ne', exact.remainder_eq a _ hturn]
  · have hle := HalfEven.abs_remainder_le a hturn
    linarith
  · rw [zsmul_eq_mul, HalfEven.remainder, sub_add_cancel]

/-- Folding `-pi` onto `pi` makes the result the representative. -/
theorem normalizeAngle_finite (exact : ExactAngles F) (a : F) :
    normalizeAngle (.finite a : Extended F) = .finite (Turning.wrap exact.pi_pos a) := by
  have hpi := exact.pi_pos
  obtain ⟨r, hr, hle, n, hn⟩ := exact.remainder_spec a
  obtain ⟨hlow, hhigh⟩ := abs_le.mp hle
  have heq : Scalar.eq (.finite r : Extended F) (-pi) = decide (r = -StdMath.pi) := rfl
  rw [normalizeAngle, hr, heq]
  by_cases hfold : r = -StdMath.pi
  · rw [if_pos (decide_eq_true hfold)]
    refine congrArg Extended.finite ((Turning.wrap_eq_iff hpi).mpr ⟨⟨?_, le_rfl⟩, n - 1, ?_⟩).symm
    · exact (neg_neg_of_pos hpi).trans hpi
    · rw [hn, hfold, sub_zsmul, one_zsmul]
      abel
  · rw [if_neg (by rwa [decide_eq_true_eq])]
    refine congrArg Extended.finite ((Turning.wrap_eq_iff hpi).mpr ⟨⟨?_, hhigh⟩, n, hn⟩).symm
    exact lt_of_le_of_ne hlow (Ne.symm hfold)

theorem headingError_finite (exact : ExactAngles F) (current target : F) :
    headingError (.finite current : Extended F) (.finite target) =
      .finite |Turning.arc exact.pi_pos current target| := by
  rw [headingError, Extended.finite_sub, normalizeAngle_finite exact]
  rfl

/-! ### One call -/

/-- A call turns toward the target. -/
theorem rotateTowards_finite (exact : ExactAngles F) {v dt : F} (hstep : 0 ≤ v * dt)
    (current target : F) :
    rotateTowards (.finite current : Extended F) (.finite target) (.finite v) (.finite dt) =
      .finite (Turning.turn exact.pi_pos (v * dt) eps current target) := by
  have hpi := exact.pi_pos
  have hdelta : Turning.wrap hpi (Turning.wrap hpi target - Turning.wrap hpi current) =
      Turning.arc hpi current target := Turning.arc_wrap_wrap hpi current target
  have hmargin (d : F) : fabs (.finite d : Extended F) ≤ .finite (v * dt) + kEps ↔
      |d| ≤ v * dt + eps := Iff.rfl
  rw [rotateTowards, normalizeAngle_finite exact, normalizeAngle_finite exact, Extended.finite_sub,
    normalizeAngle_finite exact, hdelta, Extended.finite_mul, copysign_finite hstep,
    Extended.finite_add, normalizeAngle_finite exact, Turning.wrap_wrap_add, Turning.turn]
  simp only [hmargin]
  split_ifs
  · rfl
  · rfl
  · rfl

theorem iterate_rotateTowards (exact : ExactAngles F) {v dt : F} (hstep : 0 ≤ v * dt)
    (current target : F) (n : ℕ) :
    (fun angle : Extended F => rotateTowards angle (.finite target) (.finite v)
        (.finite dt))^[n] (.finite current) =
      .finite ((Turning.turn exact.pi_pos (v * dt) eps · target)^[n] current) := by
  induction n with
  | zero => rfl
  | succ n ih =>
    rw [Function.iterate_succ_apply', Function.iterate_succ_apply', ih,
      rotateTowards_finite exact hstep]

/-- A call ends in `(-pi, pi]` and shortens the way to the target by the step, or to nothing if
the way is longer by no more than the margin; so after as many calls as steps fit into half a
turn the heading is that of the target. -/
theorem rotateTowards_arrives (exact : ExactAngles F) (current target v dt : F)
    (hstep : 0 ≤ v * dt) :
    (∃ heading, rotateTowards (.finite current : Extended F) (.finite target) (.finite v)
        (.finite dt) = .finite heading ∧ -StdMath.pi < heading ∧ heading ≤ StdMath.pi) ∧
      (∃ distance, headingError (.finite current : Extended F) (.finite target) =
          .finite distance ∧
        headingError (rotateTowards (.finite current) (.finite target) (.finite v) (.finite dt))
            (.finite target : Extended F) =
          .finite (if distance ≤ v * dt + eps then 0 else distance - v * dt)) ∧
      (0 < v * dt → ∀ n, ⌈StdMath.pi / (v * dt)⌉₊ ≤ n →
        (fun angle : Extended F => rotateTowards angle (.finite target) (.finite v)
          (.finite dt))^[n] (.finite current) = normalizeAngle (.finite target)) := by
  have hpi := exact.pi_pos
  refine ⟨⟨_, rotateTowards_finite exact hstep current target,
    Turning.turn_mem hpi _ _ _ _⟩, ⟨_, headingError_finite exact current target, ?_⟩, ?_⟩
  · rw [rotateTowards_finite exact hstep, headingError_finite exact,
      Turning.abs_arc_turn hpi hstep eps_nonneg]
  · intro hpos n hn
    have hlong : StdMath.pi ≤ n • (v * dt) := by
      rw [nsmul_eq_mul, ← div_le_iff₀ hpos]
      exact Nat.ceil_le.mp hn
    rw [iterate_rotateTowards exact hstep, normalizeAngle_finite exact,
      Turning.iterate_turn hpi hstep eps_nonneg current target hlong]

section Real

attribute [local instance] RealScalar.stdMath

/-- The real numbers are exact. -/
theorem exactAngles_real : ExactAngles ℝ where
  pi_pos := Real.pi_pos
  remainder_eq _ _ _ := rfl

end Real

section Witness

attribute [local instance] RationalScalar.stdMath

/-- Both ways to round a half to even are the same. -/
theorem roundHalfEven_eq (q : ℚ) :
    RationalScalar.roundHalfEven q = HalfEven.roundHalfEven q := by
  have hless : q - ⌊q⌋ < 1 / 2 ↔ Int.fract q + Int.fract q < 1 := by
    rw [← Int.self_sub_floor]
    constructor
    · intro h
      linarith
    · intro h
      linarith
  have hmore : 1 / 2 < q - ⌊q⌋ ↔ 1 < Int.fract q + Int.fract q := by
    rw [← Int.self_sub_floor]
    constructor
    · intro h
      linarith
    · intro h
      linarith
  rw [RationalScalar.roundHalfEven, HalfEven.roundHalfEven]
  simp only [hless, hmore]

theorem exactAngles_rational : ExactAngles ℚ where
  pi_pos := by decide +kernel
  remainder_eq a b _ := by
    rw [HalfEven.remainder, ← roundHalfEven_eq]
    rfl

/-- Four steps of one radian turn a ship from one side of the seam to the other. -/
theorem rotateTowards_arrives_seam :
    headingError (.finite 3 : Extended ℚ) (.finite (-3)) =
        .finite (StdMath.pi + StdMath.pi - 6) ∧
      (fun angle : Extended ℚ => rotateTowards angle (.finite (-3)) (.finite 1) (.finite 1))^[4]
        (.finite 3) = .finite (-3) := by
  have htarget : normalizeAngle (.finite (-3) : Extended ℚ) = .finite (-3) := by decide +kernel
  have hcount : ⌈(StdMath.pi : ℚ) / (1 * 1)⌉₊ ≤ 4 := Nat.ceil_le.mpr (by decide +kernel)
  obtain ⟨-, -, harrives⟩ := rotateTowards_arrives exactAngles_rational 3 (-3) 1 1 (by norm_num)
  exact ⟨by decide +kernel, (harrives (by norm_num) 4 hcount).trans htarget⟩

end Witness

end SpaceShooter.Math
