/-
# Finite geometry inside the world

From finite values the movement of a ship, the search for free room and the treatment of
the world's edges compute finite values, and points that end up in the world's rectangle.
-/

import Mathlib.Tactic.Linarith
import Mathlib.Tactic.Positivity
import SpaceShooter.Common.ExtendedScalar
import SpaceShooter.Common.MathUtils

namespace SpaceShooter.Math

open Library Scalar

variable {F : Type} [Field F] [LinearOrder F]

def FinitePoint (v : Vector2D (Extended F)) : Prop := v.x.IsFinite ∧ v.y.IsFinite

/-- A finite point of the closed rectangle of a world. -/
def InRectangle (width height : F) (v : Vector2D (Extended F)) : Prop :=
  ∃ x y, v = ⟨.finite x, .finite y⟩ ∧ |x| ≤ width / 2 ∧ |y| ≤ height / 2

/-- A circle around a point lies in the rectangle of a world. -/
def Encloses (width height radius x y : F) : Prop :=
  |x| + radius ≤ width / 2 ∧ |y| + radius ≤ height / 2

/-- A point is in the disc around another. -/
def Reaches (x y radius a b : F) : Prop := (x - a) ^ 2 + (y - b) ^ 2 ≤ radius ^ 2

/-- A disc touches the left and the right wall of a world, or the bottom and the top. -/
def MeetsOppositeWalls (width height radius x y : F) : Prop :=
  ((∃ b, |b| ≤ height / 2 ∧ Reaches x y radius (-(width / 2)) b) ∧
      ∃ b, |b| ≤ height / 2 ∧ Reaches x y radius (width / 2) b) ∨
    ((∃ a, |a| ≤ width / 2 ∧ Reaches x y radius a (-(height / 2))) ∧
      ∃ a, |a| ≤ width / 2 ∧ Reaches x y radius a (height / 2))

theorem InRectangle.finite {width height : F} {v : Vector2D (Extended F)}
    (h : InRectangle width height v) : FinitePoint v := by
  obtain ⟨x, y, rfl, -, -⟩ := h
  exact ⟨⟨x, rfl⟩, y, rfl⟩

/-- The margin of the clamp as an exact number. -/
def eps : F := ((1e-12 : ℚ) : F)

theorem eps_pos [IsStrictOrderedRing F] : 0 < (eps : F) := by
  unfold eps
  positivity

theorem eps_nonneg [IsStrictOrderedRing F] : 0 ≤ (eps : F) := eps_pos.le

variable [StdMath F]

/-! ### Finite points -/

section Points

variable {v u : Vector2D (Extended F)} {s t : Extended F}

theorem isFinite_lit (q : ℚ) : (lit q : Extended F).IsFinite := ⟨q, rfl⟩

theorem lit_zero : (lit 0 : Extended F) = .finite 0 := congrArg Extended.finite Rat.cast_zero

theorem lit_zero_lt_finite {a : F} : (lit 0 : Extended F) < .finite a ↔ 0 < a := by
  rw [lit_zero, Extended.finite_lt]

theorem lit_zero_le_finite {a : F} : (lit 0 : Extended F) ≤ .finite a ↔ 0 ≤ a := by
  rw [lit_zero, Extended.finite_le]

theorem finite_lt_lit_zero {a : F} : (.finite a : Extended F) < lit 0 ↔ a < 0 := by
  rw [lit_zero, Extended.finite_lt]

theorem finite_le_lit_zero {a : F} : (.finite a : Extended F) ≤ lit 0 ↔ a ≤ 0 := by
  rw [lit_zero, Extended.finite_le]

theorem not_lt_lit_zero {a : F} (ha : 0 ≤ a) : ¬ (.finite a : Extended F) < lit 0 :=
  mt finite_lt_lit_zero.mp ha.not_gt

theorem not_le_lit_zero {a : F} (ha : 0 < a) : ¬ (.finite a : Extended F) ≤ lit 0 :=
  mt finite_le_lit_zero.mp ha.not_ge

theorem zero_eq : (Vector2D.zero : Vector2D (Extended F)) = ⟨.finite 0, .finite 0⟩ := by
  unfold Vector2D.zero
  rw [lit_zero]

theorem isFinite_of_isfinite (h : isfinite s = true) : s.IsFinite := by
  cases s with
  | finite a => exact ⟨a, rfl⟩
  | infinite negative => cases h
  | nan => cases h

theorem FinitePoint.add (hv : FinitePoint v) (hu : FinitePoint u) : FinitePoint (v + u) :=
  ⟨hv.1.add hu.1, hv.2.add hu.2⟩

theorem FinitePoint.sub (hv : FinitePoint v) (hu : FinitePoint u) : FinitePoint (v - u) :=
  ⟨hv.1.sub hu.1, hv.2.sub hu.2⟩

theorem FinitePoint.scale (hv : FinitePoint v) (hs : s.IsFinite) : FinitePoint (v * s) :=
  ⟨hv.1.mul hs, hv.2.mul hs⟩

theorem finitePoint_zero : FinitePoint (Vector2D.zero : Vector2D (Extended F)) :=
  ⟨isFinite_lit 0, isFinite_lit 0⟩

theorem isFinite_cos (hs : s.IsFinite) : (cos s).IsFinite := by
  obtain ⟨a, rfl⟩ := hs
  exact ⟨_, rfl⟩

theorem isFinite_sin (hs : s.IsFinite) : (sin s).IsFinite := by
  obtain ⟨a, rfl⟩ := hs
  exact ⟨_, rfl⟩

theorem isFinite_clamp {r : Extended F} (hr : r.IsFinite) (hs : s.IsFinite) (ht : t.IsFinite) :
    (clamp r s t).IsFinite :=
  .ite hs (.ite ht hr)

theorem isFinite_min (hs : s.IsFinite) (ht : t.IsFinite) : (Scalar.min s t).IsFinite :=
  .ite ht hs

theorem isFinite_maxOf (hs : s.IsFinite) (ht : t.IsFinite) : (maxOf s t).IsFinite := .ite ht hs

/-- The root of a finite value that is not negative. -/
theorem sqrt_finite {a : F} (ha : 0 ≤ a) :
    (Scalar.sqrt (.finite a) : Extended F) = .finite (StdMath.sqrt a) := by
  change ExtendedScalar.sqrt (.finite a) = _
  rw [ExtendedScalar.sqrt, if_neg ha.not_gt]

end Points

variable [IsStrictOrderedRing F]

/-! ### Movement -/

/-- A finite point and its squared length. -/
theorem FinitePoint.exists_lengthSquared {v : Vector2D (Extended F)} (hv : FinitePoint v) :
    ∃ x y, v = ⟨.finite x, .finite y⟩ ∧ v.lengthSquared = .finite (x * x + y * y) ∧
      0 ≤ x * x + y * y := by
  obtain ⟨⟨x, hx⟩, y, hy⟩ := hv
  obtain ⟨vx, vy⟩ := v
  obtain rfl := hx
  obtain rfl := hy
  exact ⟨x, y, rfl, rfl, add_nonneg (mul_self_nonneg x) (mul_self_nonneg y)⟩

/-- A ship with finite position, velocity and angle is moved to finite values. -/
theorem finite_updateShipPhysics {position velocity : Vector2D (Extended F)}
    {angle thrust_power drag dt max_speed : Extended F} (is_thrusting : Bool)
    (hposition : FinitePoint position) (hvelocity : FinitePoint velocity)
    (hangle : angle.IsFinite) (hthrust : thrust_power.IsFinite) (hdrag : drag.IsFinite)
    (hdt : dt.IsFinite) (hmax : max_speed.IsFinite) :
    FinitePoint (updateShipPhysics position velocity angle is_thrusting thrust_power drag dt
        max_speed).1 ∧
      FinitePoint (updateShipPhysics position velocity angle is_thrusting thrust_power drag dt
        max_speed).2 := by
  unfold updateShipPhysics
  lift_lets
  extract_lets thrust drag_factor dragged speed_sqr limited stop final
  have hthrusted : FinitePoint thrust := by
    unfold thrust
    split_ifs
    · exact ⟨hvelocity.1.add (((isFinite_cos hangle).mul hthrust).mul hdt),
        hvelocity.2.add (((isFinite_sin hangle).mul hthrust).mul hdt)⟩
    · exact hvelocity
  have hdragged : FinitePoint dragged :=
    hthrusted.scale (isFinite_clamp ((isFinite_lit 1).sub (hdrag.mul hdt)) (isFinite_lit 0)
      (isFinite_lit 1))
  have hlimited : FinitePoint limited := by
    unfold limited
    split_ifs with hfast
    · refine hdragged.scale ?_
      -- The speed exceeds a square, so its root is a divisor.
      obtain ⟨x, y, -, hlength, hnonneg⟩ := hdragged.exists_lengthSquared
      obtain ⟨m, rfl⟩ := hmax
      have hspeed : speed_sqr = .finite (x * x + y * y) := hlength
      rw [hspeed] at hfast ⊢
      have hpos : 0 < x * x + y * y := lt_of_le_of_lt (mul_self_nonneg m) hfast
      rw [sqrt_finite hnonneg]
      exact ⟨_, Extended.finite_div m (StdMath.sqrt_pos hpos).ne'⟩
    · exact hdragged
  have hfinal : FinitePoint final := by
    unfold final
    split_ifs
    · exact finitePoint_zero
    · exact hlimited
  exact ⟨hposition.add (hfinal.scale hdt), hfinal⟩

/-! ### The rectangle -/

variable {width height : F}

theorem inRectangle_zero (hwidth : 0 ≤ width) (hheight : 0 ≤ height) :
    InRectangle width height Vector2D.zero := by
  refine ⟨((0 : ℚ) : F), ((0 : ℚ) : F), rfl, ?_, ?_⟩
  · rw [Rat.cast_zero, abs_zero]
    exact div_nonneg hwidth zero_le_two
  · rw [Rat.cast_zero, abs_zero]
    exact div_nonneg hheight zero_le_two

/-- Half of a side, as the code computes it. -/
theorem half_eq (a : F) : (.finite a * lit (1 / 2) : Extended F) = .finite (a / 2) := by
  change Extended.finite (a * ((1 / 2 : ℚ) : F)) = _
  norm_num [div_eq_mul_inv]

omit [IsStrictOrderedRing F] in
theorem sub_kEps (a : F) : (.finite a - kEps : Extended F) = .finite (a - eps) :=
  Extended.finite_sub a eps

/-- What the clamp makes of one coordinate: it stays half of the side from the centre, one
that was farther out ends a margin away from the wall, and only such a one moves by more than
the margin. -/
structure Inset (side x c : F) : Prop where
  inside : |c| ≤ side / 2
  near : |x| ≤ side / 2 → |c - x| ≤ eps
  right : side / 2 < x → c = side / 2 - eps
  left : x < -(side / 2) → c = -(side / 2 - eps)

theorem clamp_inset {a : F} (hside : 2 * eps ≤ a) (x : F) :
    ∃ c, clamp (.finite x : Extended F) (-(.finite (a / 2 - eps))) (.finite (a / 2 - eps)) =
        .finite c ∧ Inset a x c := by
  have heps : (0 : F) ≤ eps := eps_nonneg
  unfold clamp
  rw [Extended.finite_neg]
  split_ifs with hlow hhigh
  · rw [Extended.finite_lt] at hlow
    refine ⟨_, rfl, ?_, fun hx => ?_, fun hx => ?_, fun _ => rfl⟩
    · rw [abs_le]
      constructor <;> linarith
    · rw [abs_le] at hx ⊢
      constructor <;> linarith
    · linarith
  · rw [Extended.finite_lt] at hlow hhigh
    refine ⟨_, rfl, ?_, fun hx => ?_, fun _ => rfl, fun hx => ?_⟩
    · rw [abs_le]
      constructor <;> linarith
    · rw [abs_le] at hx ⊢
      constructor <;> linarith
    · linarith
  · rw [Extended.finite_lt, not_lt] at hlow hhigh
    refine ⟨x, rfl, ?_, fun _ => ?_, fun hx => ?_, fun hx => ?_⟩
    · rw [abs_le]
      constructor <;> linarith
    · rw [sub_self, abs_zero]
      exact heps
    · linarith
    · linarith

omit [StdMath F] in
/-- The test of the clamped axis, with the margin itself, is an exact boundary test. -/
theorem Inset.eps_lt_iff {side x c : F} (h : Inset side x c) :
    eps < |c - x| ↔ side / 2 < |x| := by
  refine ⟨fun hfar => lt_of_not_ge fun hx => absurd (h.near hx) hfar.not_ge, fun hx => ?_⟩
  rcases lt_abs.mp hx with hright | hleft
  · rw [h.right hright, abs_sub_comm]
    exact lt_abs.mpr (Or.inl (by linarith))
  · rw [h.left (by linarith)]
    exact lt_abs.mpr (Or.inl (by linarith))

omit [IsStrictOrderedRing F] in
theorem kEps_lt_iff (c x : F) :
    (kEps : Extended F) < fabs (.finite c - .finite x) ↔ eps < |c - x| := by
  change Extended.finite _ < ExtendedScalar.fabs (Extended.finite c - Extended.finite x) ↔ _
  rw [Extended.finite_sub]
  rfl

theorem clampToWorldBounds_inset (hwidth : 2 * eps ≤ width) (hheight : 2 * eps ≤ height)
    (x y : F) :
    ∃ cx cy, clampToWorldBounds (⟨.finite x, .finite y⟩ : Vector2D (Extended F)) (.finite width)
        (.finite height) = ⟨.finite cx, .finite cy⟩ ∧ Inset width x cx ∧ Inset height y cy := by
  obtain ⟨cx, hcx, hx⟩ := clamp_inset hwidth x
  obtain ⟨cy, hcy, hy⟩ := clamp_inset hheight y
  refine ⟨cx, cy, ?_, hx, hy⟩
  unfold clampToWorldBounds
  rw [half_eq, half_eq, sub_kEps, sub_kEps]
  exact congrArg₂ Vector2D.mk hcx hcy

/-- Clamping a finite point puts it in the rectangle; a point that the clamp hardly moves
was there already. -/
theorem clampToWorldBounds_spec (hwidth : 2 * eps ≤ width) (hheight : 2 * eps ≤ height)
    {v : Vector2D (Extended F)} (hv : FinitePoint v) :
    InRectangle width height (clampToWorldBounds v (.finite width) (.finite height)) ∧
      (¬ kEps < fabs ((clampToWorldBounds v (.finite width) (.finite height)).x - v.x) →
        ¬ kEps < fabs ((clampToWorldBounds v (.finite width) (.finite height)).y - v.y) →
          InRectangle width height v) := by
  obtain ⟨x, y, rfl, -, -⟩ := hv.exists_lengthSquared
  obtain ⟨cx, cy, hclamped, hx, hy⟩ := clampToWorldBounds_inset hwidth hheight x y
  rw [hclamped]
  refine ⟨⟨cx, cy, rfl, hx.inside, hy.inside⟩, fun hnx hny => ?_⟩
  dsimp only at hnx hny
  rw [kEps_lt_iff, hx.eps_lt_iff, not_lt] at hnx
  rw [kEps_lt_iff, hy.eps_lt_iff, not_lt] at hny
  exact ⟨x, y, rfl, hnx, hny⟩

omit [IsStrictOrderedRing F] in
theorem finite_clampToWorldBounds {v : Vector2D (Extended F)} (hv : FinitePoint v)
    {world_width world_height : Extended F} (hwidth : world_width.IsFinite)
    (hheight : world_height.IsFinite) :
    FinitePoint (clampToWorldBounds v world_width world_height) := by
  have hw := (hwidth.mul (isFinite_lit (1 / 2))).sub (isFinite_lit 1e-12)
  have hh := (hheight.mul (isFinite_lit (1 / 2))).sub (isFinite_lit 1e-12)
  exact ⟨isFinite_clamp hv.1 hw.neg hw, isFinite_clamp hv.2 hh.neg hh⟩

/-! ### Opposite edges -/

/-- A point of a disc is no farther from its centre in either coordinate. -/
theorem abs_sub_le_of_lengthSquared {x y x' y' r : F} (hr : 0 ≤ r)
    (h : ((⟨.finite x, .finite y⟩ : Vector2D (Extended F)) -
      ⟨.finite x', .finite y'⟩).lengthSquared ≤ .finite r * .finite r) :
    |x - x'| ≤ r ∧ |y - y'| ≤ r := by
  have hle : (x + -x') * (x + -x') + (y + -y') * (y + -y') ≤ r * r := h
  rw [← sub_eq_add_neg, ← sub_eq_add_neg] at hle
  have hx := mul_self_nonneg (x - x')
  have hy := mul_self_nonneg (y - y')
  refine ⟨abs_le_of_sq_le_sq ?_ hr, abs_le_of_sq_le_sq ?_ hr⟩
  · rw [sq, sq]
    linarith
  · rw [sq, sq]
    linarith

omit [IsStrictOrderedRing F] in
theorem lengthSquared_le_iff {x y a b r : F} :
    ((⟨.finite x, .finite y⟩ : Vector2D (Extended F)) - ⟨.finite a, .finite b⟩).lengthSquared ≤
        .finite r * .finite r ↔ Reaches x y r a b := by
  change (x + -a) * (x + -a) + (y + -b) * (y + -b) ≤ r * r ↔ _
  rw [Reaches, sq, sq, sq, sub_eq_add_neg, sub_eq_add_neg]

/-- The clamp of a coordinate is the nearest value of the interval. -/
theorem clamp_nearest {c : F} (hc : 0 ≤ c) (x : F) :
    ∃ n, clamp (.finite x : Extended F) (.finite (-c)) (.finite c) = .finite n ∧ |n| ≤ c ∧
      ∀ b, |b| ≤ c → (x - n) ^ 2 ≤ (x - b) ^ 2 := by
  unfold clamp
  split_ifs with hlow hhigh
  · rw [Extended.finite_lt] at hlow
    refine ⟨-c, rfl, (abs_neg c).trans_le (abs_of_nonneg hc).le, fun b hb => ?_⟩
    rw [abs_le] at hb
    exact sq_le_sq.mpr (abs_le_abs_of_nonpos (by linarith) (by linarith))
  · rw [Extended.finite_lt] at hhigh
    refine ⟨c, rfl, (abs_of_nonneg hc).le, fun b hb => ?_⟩
    rw [abs_le] at hb
    exact sq_le_sq.mpr (abs_le_abs_of_nonneg (by linarith) (by linarith))
  · rw [Extended.finite_lt, not_lt] at hlow hhigh
    refine ⟨x, rfl, abs_le.mpr ⟨hlow, hhigh⟩, fun b _ => ?_⟩
    rw [sub_self, zero_pow two_ne_zero]
    exact sq_nonneg _

/-- The test asks the nearest point of each wall. -/
theorem circleIntersectsOppositeWorldBounds_iff {x y r : F} (hr : 0 ≤ r) (hwidth : 0 < width)
    (hheight : 0 < height) :
    circleIntersectsOppositeWorldBounds (⟨.finite x, .finite y⟩ : Vector2D (Extended F)) (.finite r)
        (.finite width) (.finite height) = true ↔
      MeetsOppositeWalls width height r x y := by
  have hvalid : (!isfinite (.finite x : Extended F) || !isfinite (.finite y : Extended F) ||
      !isfinite (.finite r : Extended F) || decide ((.finite r : Extended F) < lit 0)) = false := by
    rw [decide_eq_false (not_lt_lit_zero hr)]
    rfl
  have hsides : (!isfinite (.finite width : Extended F) ||
      !isfinite (.finite height : Extended F) || decide ((.finite width : Extended F) ≤ lit 0) ||
      decide ((.finite height : Extended F) ≤ lit 0)) = false := by
    rw [decide_eq_false (not_le_lit_zero hwidth), decide_eq_false (not_le_lit_zero hheight)]
    rfl
  obtain ⟨ny, hny, hnyin, hnearest_y⟩ := clamp_nearest (half_pos hheight).le y
  obtain ⟨nx, hnx, hnxin, hnearest_x⟩ := clamp_nearest (half_pos hwidth).le x
  have hvertical (a : F) : Reaches x y r a ny ↔ ∃ b, |b| ≤ height / 2 ∧ Reaches x y r a b :=
    ⟨fun h => ⟨ny, hnyin, h⟩, fun ⟨b, hb, h⟩ =>
      (add_le_add_right (hnearest_y b hb) _).trans h⟩
  have hhorizontal (b : F) : Reaches x y r nx b ↔ ∃ a, |a| ≤ width / 2 ∧ Reaches x y r a b :=
    ⟨fun h => ⟨nx, hnxin, h⟩, fun ⟨a, ha, h⟩ =>
      (add_le_add_left (hnearest_x a ha) _).trans h⟩
  unfold circleIntersectsOppositeWorldBounds
  rw [hvalid, if_neg Bool.false_ne_true, hsides, if_neg Bool.false_ne_true, half_eq, half_eq]
  dsimp only
  rw [Extended.finite_neg, Extended.finite_neg, hny, hnx]
  simp only [Bool.or_eq_true, Bool.and_eq_true, decide_eq_true_eq, lengthSquared_le_iff]
  rw [hvertical, hvertical, hhorizontal, hhorizontal, MeetsOppositeWalls]

/-- A circle that is narrower than the world does not touch opposite edges. -/
theorem not_circleIntersectsOppositeWorldBounds {v : Vector2D (Extended F)} (hv : FinitePoint v)
    {r : F} (hr : 0 ≤ r) (hwidth : 2 * r < width) (hheight : 2 * r < height) :
    circleIntersectsOppositeWorldBounds v (.finite r) (.finite width) (.finite height) =
      false := by
  obtain ⟨x, y, rfl, -, -⟩ := hv.exists_lengthSquared
  unfold circleIntersectsOppositeWorldBounds
  rw [half_eq, half_eq]
  dsimp only
  rw [Extended.finite_neg, Extended.finite_neg]
  split_ifs
  · rfl
  · rfl
  · obtain ⟨ny, hny⟩ := isFinite_clamp ⟨y, rfl⟩ ⟨-(height / 2), rfl⟩ ⟨height / 2, rfl⟩
    obtain ⟨nx, hnx⟩ := isFinite_clamp ⟨x, rfl⟩ ⟨-(width / 2), rfl⟩ ⟨width / 2, rfl⟩
    rw [hny, hnx, Bool.or_eq_false_iff, Bool.and_eq_false_iff, Bool.and_eq_false_iff]
    simp only [decide_eq_false_iff_not]
    -- A circle that reaches two opposite edges is as wide as they are apart.
    constructor
    · by_contra hboth
      rw [not_or, not_not, not_not] at hboth
      have hleft := (abs_sub_le_of_lengthSquared hr hboth.1).1
      have hright := (abs_sub_le_of_lengthSquared hr hboth.2).1
      rw [abs_le] at hleft hright
      linarith
    · by_contra hboth
      rw [not_or, not_not, not_not] at hboth
      have hbottom := (abs_sub_le_of_lengthSquared hr hboth.1).2
      have htop := (abs_sub_le_of_lengthSquared hr hboth.2).2
      rw [abs_le] at hbottom htop
      linarith

omit [IsStrictOrderedRing F] in
/-- The collision test takes every radius that is not negative. -/
theorem checkCircleCollision_ok (pos1 pos2 : Vector2D (Extended F)) {r s : F} (hr : 0 ≤ r)
    (hs : 0 ≤ s) :
    ∃ hit, checkCircleCollision pos1 (.finite r) pos2 (.finite s) = .ok hit := by
  have hr' : (.finite 0 : Extended F) ≤ .finite r := hr
  have hs' : (.finite 0 : Extended F) ≤ .finite s := hs
  unfold checkCircleCollision
  rw [lit_zero, if_neg (not_not_intro hr'), if_neg (not_not_intro hs')]
  exact ⟨_, rfl⟩

/-! ### Free room -/

/-- Circles with finite centres and radii. -/
def FiniteCircles (occupied : List (Vector2D (Extended F) × Extended F)) : Prop :=
  ∀ o ∈ occupied, FinitePoint o.1 ∧ o.2.IsFinite

omit [IsStrictOrderedRing F] in
theorem finite_edgeCandidates {half_w half_h : Extended F} (hw : half_w.IsFinite)
    (hh : half_h.IsFinite) {o : Vector2D (Extended F) × Extended F} (hcenter : FinitePoint o.1)
    (hradius : o.2.IsFinite) : ∀ v ∈ edgeCandidates half_w half_h o, FinitePoint v := by
  obtain ⟨pa, ra⟩ := o
  have hhalf : (lit (1 / 2) : Extended F).IsFinite := isFinite_lit _
  simp only [edgeCandidates, List.forall_mem_cons]
  refine ⟨⟨?_, hcenter.2⟩, ⟨?_, hcenter.2⟩, ⟨hcenter.1, ?_⟩, ⟨hcenter.1, ?_⟩, nofun⟩
  · exact hcenter.1.add (((hw.sub hcenter.1).add hradius).mul hhalf)
  · exact hcenter.1.sub (((hw.add hcenter.1).add hradius).mul hhalf)
  · exact hcenter.2.add (((hh.sub hcenter.2).add hradius).mul hhalf)
  · exact hcenter.2.sub (((hh.add hcenter.2).add hradius).mul hhalf)

theorem finite_pairCandidates {a b : Vector2D (Extended F) × Extended F}
    (ha : FinitePoint a.1 ∧ a.2.IsFinite) (hb : FinitePoint b.1 ∧ b.2.IsFinite) :
    ∀ v ∈ pairCandidates a b, FinitePoint v := by
  obtain ⟨pa, ra⟩ := a
  obtain ⟨pb, rb⟩ := b
  rw [pairCandidates]
  dsimp only
  by_cases hdist : (pb - pa).length < kEps
  · rw [if_pos hdist]
    exact nofun
  rw [if_neg hdist]
  -- The line has a direction, since the centres are apart.
  obtain ⟨x, y, -, hlength, hnonneg⟩ := (hb.1.sub ha.1).exists_lengthSquared
  have hvalue : (pb - pa).length = .finite (StdMath.sqrt (x * x + y * y)) := by
    unfold Vector2D.length
    rw [hlength, sqrt_finite hnonneg]
  have hpos : 0 < StdMath.sqrt (x * x + y * y) := by
    rw [hvalue] at hdist
    have hge : (eps : F) ≤ StdMath.sqrt (x * x + y * y) := le_of_not_gt hdist
    refine lt_of_lt_of_le ?_ hge
    unfold eps
    positivity
  have hunit : (lit 1 / (pb - pa).length).IsFinite := by
    rw [hvalue]
    exact ⟨_, Extended.finite_div _ hpos.ne'⟩
  have hfinite : (pb - pa).length.IsFinite := ⟨_, hvalue⟩
  have hdir : FinitePoint ((pb - pa) * (lit 1 / (pb - pa).length)) :=
    (hb.1.sub ha.1).scale hunit
  have hhalf : (lit (1 / 2) : Extended F).IsFinite := isFinite_lit _
  intro v hv
  rw [List.mem_append] at hv
  rcases hv with hv | hv
  · split_ifs at hv
    · rw [List.mem_singleton] at hv
      exact hv ▸ ha.1.add (hdir.scale (((hfinite.add ha.2).sub hb.2).mul hhalf))
    · cases hv
  · rw [List.mem_pair] at hv
    rcases hv with rfl | rfl
    · exact ha.1.sub (hdir.scale ha.2)
    · exact hb.1.add (hdir.scale hb.2)

theorem finite_candidates {half_w half_h : Extended F} (hw : half_w.IsFinite)
    (hh : half_h.IsFinite) {occupied : List (Vector2D (Extended F) × Extended F)}
    (hoccupied : FiniteCircles occupied) :
    ∀ v ∈ candidates half_w half_h occupied, FinitePoint v := by
  induction occupied with
  | nil => exact nofun
  | cons a rest ih =>
    obtain ⟨ha, hrest⟩ := List.forall_mem_cons.mp hoccupied
    intro v hv
    rw [candidates, List.mem_append, List.mem_append, List.mem_flatMap] at hv
    rcases hv with (⟨b, hb, hv⟩ | hv) | hv
    · exact finite_pairCandidates ha (hrest b hb) v hv
    · exact finite_edgeCandidates hw hh ha.1 ha.2 v hv
    · exact ih hrest v hv

omit [IsStrictOrderedRing F] in
/-- The distance of a point from the nearest edge. -/
theorem inside_eq (hw hh x y : F) :
    Scalar.min (.finite hw - fabs (.finite x)) (.finite hh - fabs (.finite y)) =
      (.finite (min (hw - |x|) (hh - |y|)) : Extended F) := by
  change Scalar.min (Extended.finite hw - Extended.finite |x|)
    (Extended.finite hh - Extended.finite |y|) = _
  rw [Extended.finite_sub, Extended.finite_sub, Scalar.min]
  split_ifs with hlt
  · rw [min_eq_right (le_of_lt hlt)]
  · rw [min_eq_left (le_of_not_gt hlt)]

/-- A free circle of positive radius has its centre within the edges. -/
theorem maxRadiusAt_spec {occupied : List (Vector2D (Extended F) × Extended F)}
    (hoccupied : FiniteCircles occupied) (hw hh x y : F) :
    ∃ r, maxRadiusAt occupied (.finite hw) (.finite hh) ⟨.finite x, .finite y⟩ = .finite r ∧
      0 ≤ r ∧ (0 < r → |x| ≤ hw ∧ |y| ≤ hh) := by
  -- Each occupied circle leaves the radius or makes it smaller.
  have hfold (circles : List (Vector2D (Extended F) × Extended F))
      (hcircles : FiniteCircles circles) (r₀ : F) :
      ∃ r, circles.foldl (fun r (pos, rad) =>
          let sqr_d := ((⟨.finite x, .finite y⟩ : Vector2D (Extended F)) - pos).lengthSquared
          let r_plus_rad := r + rad
          if sqr_d < r_plus_rad * r_plus_rad then
            let d := Scalar.sqrt sqr_d - rad
            if d < r then d else r
          else
            r) (.finite r₀) = .finite r ∧ r ≤ r₀ := by
    induction circles generalizing r₀ with
    | nil => exact ⟨r₀, rfl, le_rfl⟩
    | cons circle circles ih =>
      obtain ⟨⟨hpos, rad, hrad⟩, hrest⟩ := List.forall_mem_cons.mp hcircles
      obtain ⟨pos, rad'⟩ := circle
      obtain rfl := hrad
      have hcenter : FinitePoint (⟨.finite x, .finite y⟩ : Vector2D (Extended F)) :=
        ⟨⟨x, rfl⟩, y, rfl⟩
      obtain ⟨dx, dy, -, hlength, hnonneg⟩ := (hcenter.sub hpos).exists_lengthSquared
      rw [List.foldl_cons]
      dsimp only
      rw [hlength, sqrt_finite hnonneg, Extended.finite_sub]
      split_ifs with hnear hcloser
      · obtain ⟨r, hr, hle⟩ := ih hrest (StdMath.sqrt (dx * dx + dy * dy) - rad)
        exact ⟨r, hr, hle.trans (le_of_lt hcloser)⟩
      · exact ih hrest r₀
      · exact ih hrest r₀
  obtain ⟨r, hr, hle⟩ := hfold occupied hoccupied (min (hw - |x|) (hh - |y|))
  have hmax : maxRadiusAt occupied (.finite hw) (.finite hh) ⟨.finite x, .finite y⟩ =
      maxOf (.finite r) (lit 0) := by
    unfold maxRadiusAt
    dsimp only
    rw [inside_eq]
    exact congrArg (fun r => maxOf r (lit 0)) hr
  rw [hmax, lit_zero, maxOf]
  obtain ⟨hlew, hleh⟩ := le_min_iff.mp hle
  split_ifs with hneg
  · exact ⟨0, rfl, le_rfl, fun h => absurd h (lt_irrefl _)⟩
  · rw [Extended.finite_lt, not_lt] at hneg
    refine ⟨r, rfl, hneg, fun hpos => ⟨?_, ?_⟩⟩
    · linarith
    · linarith

/-- The best circle of a search on its way: one of positive radius has its centre within
the edges. -/
def Searching (hw hh : F) (best : Circle (Extended F)) : Prop :=
  ∃ x y r, best = ⟨⟨.finite x, .finite y⟩, .finite r⟩ ∧ (r = -1 ∨ 0 ≤ r) ∧
    (0 < r → |x| ≤ hw ∧ |y| ≤ hh)

theorem Searching.consider {hw hh : F} {occupied : List (Vector2D (Extended F) × Extended F)}
    (hoccupied : FiniteCircles occupied) {best : Circle (Extended F)}
    (h : Searching hw hh best) {v : Vector2D (Extended F)} (hv : FinitePoint v) :
    Searching hw hh (Math.consider occupied (.finite hw) (.finite hh) best v) := by
  obtain ⟨x, y, rfl, -, -⟩ := hv.exists_lengthSquared
  obtain ⟨r, hr, hnonneg, hinside⟩ := maxRadiusAt_spec hoccupied hw hh x y
  unfold Math.consider
  dsimp only
  rw [hr]
  split_ifs
  · exact ⟨x, y, r, rfl, Or.inr hnonneg, hinside⟩
  · exact h

/-- The centre of the world is tried last, and it beats every centre outside. -/
theorem Searching.consider_zero {hw hh : F}
    {occupied : List (Vector2D (Extended F) × Extended F)} (hoccupied : FiniteCircles occupied)
    (hw0 : 0 ≤ hw) (hh0 : 0 ≤ hh) {best : Circle (Extended F)} (h : Searching hw hh best) :
    ∃ x y r, Math.consider occupied (.finite hw) (.finite hh) best Vector2D.zero =
        ⟨⟨.finite x, .finite y⟩, .finite r⟩ ∧ |x| ≤ hw ∧ |y| ≤ hh := by
  obtain ⟨x, y, r, rfl, hr, hinside⟩ := h
  obtain ⟨r₀, hr₀, hnonneg, -⟩ := maxRadiusAt_spec hoccupied hw hh 0 0
  rw [zero_eq]
  unfold Math.consider
  dsimp only
  rw [hr₀]
  split_ifs with hbetter
  · exact ⟨0, 0, r₀, rfl, by rwa [abs_zero], by rwa [abs_zero]⟩
  · refine ⟨x, y, r, rfl, ?_⟩
    have heps : (0 : F) ≤ eps := eps_nonneg
    have hnotbetter : ¬ (r + eps < r₀ ∨
        (|r₀ - r| ≤ eps ∧ (0 : F) * 0 + 0 * 0 < x * x + y * y)) := by
      have hfabs : (fabs (.finite r₀ - .finite r) : Extended F) = .finite |r₀ - r| := by
        rw [Extended.finite_sub]
        rfl
      rw [hfabs] at hbetter
      exact hbetter
    rw [not_or, not_lt, not_and, not_lt] at hnotbetter
    obtain ⟨hle, hcloser⟩ := hnotbetter
    rcases hr with rfl | hr
    · -- Nothing was found before, so the centre is taken.
      have hsmall : (eps : F) < 1 := by
        unfold eps
        norm_num
      linarith
    · rcases hr.lt_or_eq with hpos | rfl
      · exact hinside hpos
      · -- A best radius of zero loses the tie, unless it is found at the origin.
        have hsquares := hcloser (by rw [sub_zero, abs_of_nonneg hnonneg]; linarith)
        have hx : x = 0 := by nlinarith [mul_self_nonneg x, mul_self_nonneg y]
        have hy : y = 0 := by nlinarith [mul_self_nonneg x, mul_self_nonneg y]
        rw [hx, hy, abs_zero]
        exact ⟨hw0, hh0⟩

/-- Among finite circles the search finds a circle in the world's rectangle. -/
theorem largestEmptyCircle_spec {occupied : List (Vector2D (Extended F) × Extended F)}
    (hoccupied : FiniteCircles occupied) (hwidth : 0 ≤ width) (hheight : 0 ≤ height) :
    InRectangle width height
        (largestEmptyCircle occupied (.finite width) (.finite height)).center ∧
      (largestEmptyCircle occupied (.finite width) (.finite height)).radius.IsFinite := by
  have hw0 : 0 ≤ width / 2 := div_nonneg hwidth zero_le_two
  have hh0 : 0 ≤ height / 2 := div_nonneg hheight zero_le_two
  have hzero := inRectangle_zero hwidth hheight
  unfold largestEmptyCircle
  rw [half_eq, half_eq]
  dsimp only
  split_ifs with hempty hneg
  · exact ⟨hzero, isFinite_min ⟨_, rfl⟩ ⟨_, rfl⟩⟩
  · exact ⟨hzero, isFinite_maxOf (isFinite_lit 0) ((isFinite_lit 0).sub (isFinite_lit _))⟩
  · -- The candidates keep the invariant, and the origin, tried last, completes it.
    have hsearching (centers : List (Vector2D (Extended F)))
        (hcenters : ∀ v ∈ centers, FinitePoint v) (best : Circle (Extended F))
        (hbest : Searching (width / 2) (height / 2) best) :
        Searching (width / 2) (height / 2) (centers.foldl
          (consider occupied (.finite (width / 2)) (.finite (height / 2))) best) := by
      induction centers generalizing best with
      | nil => exact hbest
      | cons v centers ih =>
        obtain ⟨hv, hrest⟩ := List.forall_mem_cons.mp hcenters
        exact ih hrest _ (hbest.consider hoccupied hv)
    have hstart : Searching (width / 2) (height / 2)
        (⟨Vector2D.zero, lit (-1)⟩ : Circle (Extended F)) := by
      refine ⟨_, _, _, rfl, Or.inl ?_, fun hpos => absurd hpos ?_⟩
      · norm_num
      · norm_num
    rw [List.foldl_append] at hneg ⊢
    obtain ⟨x, y, r, hbest, hx, hy⟩ := (hsearching _
      (finite_candidates ⟨_, rfl⟩ ⟨_, rfl⟩ hoccupied) _ hstart).consider_zero hoccupied hw0 hh0
    rw [List.foldl_cons, List.foldl_nil, hbest]
    exact ⟨⟨x, y, rfl, hx, hy⟩,
      isFinite_maxOf (isFinite_lit 0) (Extended.IsFinite.sub ⟨r, rfl⟩ (isFinite_lit _))⟩

end SpaceShooter.Math
