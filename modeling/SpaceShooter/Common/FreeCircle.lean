/-
# Soundness of the search for free room

With exact square roots the radius found around a centre is the largest one that fits between
the edges and overlaps no disc. The search tries finitely many centres and keeps one of them,
whose radius is the best up to the margin of its ties.
-/

import Mathlib.Tactic.Ring
import SpaceShooter.Common.RealScalar
import SpaceShooter.Common.WorldBounds
import SpaceShooter.Library.Selection

namespace SpaceShooter.Math

open Library Scalar

variable {F : Type} [Field F] [LinearOrder F]

/-- An occupied circle. -/
structure Disc (F : Type) [Field F] [LinearOrder F] where
  x : F
  y : F
  radius : F
  radius_nonneg : 0 ≤ radius

namespace Disc

/-- The pair that the search is given. -/
def circle (d : Disc F) : Vector2D (Extended F) × Extended F :=
  (⟨.finite d.x, .finite d.y⟩, .finite d.radius)

theorem finiteCircles (discs : List (Disc F)) : FiniteCircles (discs.map circle) := by
  intro o ho
  obtain ⟨d, -, rfl⟩ := List.mem_map.mp ho
  exact ⟨⟨⟨d.x, rfl⟩, d.y, rfl⟩, d.radius, rfl⟩

/-- The square of the distance of a point from the centre. -/
def sqrDist (d : Disc F) (x y : F) : F := (x - d.x) * (x - d.x) + (y - d.y) * (y - d.y)

variable [StdMath F]

/-- The distance of a point from the centre. -/
def dist (d : Disc F) (x y : F) : F := StdMath.sqrt (d.sqrDist x y)

/-- What a disc leaves of a radius around a point. -/
def lower (x y r : F) (d : Disc F) : F :=
  if d.sqrDist x y < (r + d.radius) * (r + d.radius) then min r (d.dist x y - d.radius) else r

end Disc

variable [StdMath F]

/-- The radius found around a point between edges at `hw` and `hh`. -/
def clearance (discs : List (Disc F)) (hw hh x y : F) : F :=
  max (discs.foldl (Disc.lower x y) (min (hw - |x|) (hh - |y|))) 0

/-- A circle lies between the edges and overlaps no disc; it may touch them. -/
structure Fits (discs : List (Disc F)) (hw hh x y s : F) : Prop where
  width_le : |x| + s ≤ hw
  height_le : |y| + s ≤ hh
  apart : ∀ d ∈ discs, s + d.radius ≤ d.dist x y

variable [IsStrictOrderedRing F]

namespace Disc

variable (d : Disc F) (x y : F)

omit [StdMath F] in
theorem sqrDist_nonneg : 0 ≤ d.sqrDist x y :=
  add_nonneg (mul_self_nonneg _) (mul_self_nonneg _)

omit [IsStrictOrderedRing F] in
theorem dist_comm (d' : Disc F) : d.dist d'.x d'.y = d'.dist d.x d.y := by
  have hsqr : d.sqrDist d'.x d'.y = d'.sqrDist d.x d.y := by
    unfold sqrDist
    ring
  rw [dist, dist, hsqr]

theorem dist_nonneg (roots : ExactRoots F) : 0 ≤ d.dist x y :=
  roots.sqrt_nonneg (d.sqrDist_nonneg x y)

theorem dist_mul_self (roots : ExactRoots F) : d.dist x y * d.dist x y = d.sqrDist x y :=
  roots.sqrt_mul_self (d.sqrDist_nonneg x y)

omit [IsStrictOrderedRing F] in
theorem lengthSquared_sub :
    ((⟨.finite x, .finite y⟩ : Vector2D (Extended F)) - d.circle.1).lengthSquared =
      .finite (d.sqrDist x y) := by
  change Extended.finite ((x + -d.x) * (x + -d.x) + (y + -d.y) * (y + -d.y)) = _
  rw [← sub_eq_add_neg, ← sub_eq_add_neg, sqrDist]

variable {d x y}

/-- A disc leaves the largest radius that does not reach into it. A radius whose circle does not
reach it is left as it is. -/
theorem le_lower_iff (roots : ExactRoots F) (r : F) {s : F} (hs : 0 < s) :
    s ≤ d.lower x y r ↔ s ≤ r ∧ s + d.radius ≤ d.dist x y := by
  unfold lower
  split_ifs with hnear
  · rw [le_min_iff, le_sub_iff_add_le]
  · -- The test compares squares, but neither side is negative.
    refine (and_iff_left_of_imp fun hle => ?_).symm
    have hsum : 0 ≤ r + d.radius := add_nonneg (hs.le.trans hle) d.radius_nonneg
    rw [not_lt, ← d.dist_mul_self x y roots] at hnear
    calc s + d.radius ≤ r + d.radius := by linarith
      _ ≤ d.dist x y := (mul_self_le_mul_self_iff hsum (d.dist_nonneg x y roots)).mpr hnear

end Disc

variable {discs : List (Disc F)} {hw hh x y : F}

theorem maxRadiusAt_eq (discs : List (Disc F)) (hw hh x y : F) :
    maxRadiusAt (discs.map Disc.circle) (.finite hw) (.finite hh) ⟨.finite x, .finite y⟩ =
      .finite (clearance discs hw hh x y) := by
  have hloop (r : F) : discs.foldl (fun r d =>
      if (⟨.finite x, .finite y⟩ - d.circle.1).lengthSquared <
          (r + d.circle.2) * (r + d.circle.2) then
        if Scalar.sqrt (⟨.finite x, .finite y⟩ - d.circle.1).lengthSquared - d.circle.2 < r then
          Scalar.sqrt (⟨.finite x, .finite y⟩ - d.circle.1).lengthSquared - d.circle.2
        else r
      else r) (.finite r) = Extended.finite (discs.foldl (Disc.lower x y) r) := by
    refine List.foldl_hom Extended.finite fun r d => ?_
    have hroom : (Scalar.sqrt (⟨.finite x, .finite y⟩ - d.circle.1).lengthSquared - d.circle.2 :
        Extended F) = .finite (d.dist x y - d.radius) := by
      rw [d.lengthSquared_sub, sqrt_finite (d.sqrDist_nonneg x y)]
      exact Extended.finite_sub _ _
    rw [hroom, d.lengthSquared_sub]
    change (if d.sqrDist x y < (r + d.radius) * (r + d.radius) then
      if d.dist x y - d.radius < r then Extended.finite (d.dist x y - d.radius) else .finite r
      else .finite r) = _
    unfold Disc.lower
    split_ifs with hnear hcloser
    · rw [min_eq_right hcloser.le]
    · rw [min_eq_left (le_of_not_gt hcloser)]
    · rfl
  unfold maxRadiusAt clearance
  dsimp only
  rw [inside_eq, List.foldl_map]
  refine (congrArg (fun r => maxOf r (lit 0)) (hloop _)).trans ?_
  rw [lit_zero, maxOf]
  split_ifs with hneg
  · rw [max_eq_right (le_of_lt hneg)]
  · rw [max_eq_left (le_of_not_gt hneg)]

/-- The radius found around a point is the largest one that fits. -/
theorem le_clearance_iff (roots : ExactRoots F) {s : F} (hs : 0 < s) :
    s ≤ clearance discs hw hh x y ↔ Fits discs hw hh x y s := by
  have hloop := foldl_le_iff (f := Disc.lower x y) (l := discs)
    (fun r d _ s hs => Disc.le_lower_iff roots r hs) (min (hw - |x|) (hh - |y|)) hs
  rw [clearance, le_max_iff, or_iff_left hs.not_ge, hloop, le_min_iff]
  constructor
  · rintro ⟨⟨hwidth, hheight⟩, hapart⟩
    exact ⟨by linarith, by linarith, hapart⟩
  · rintro ⟨hwidth, hheight, hapart⟩
    exact ⟨⟨by linarith, by linarith⟩, hapart⟩

/-! ### The search -/

/-- The margin of the result as an exact number. -/
def margin : F := ((1e-6 : ℚ) : F)

omit [StdMath F] in
theorem margin_pos : 0 < (margin : F) := by
  unfold margin
  positivity

/-- The radius found around a point of the search. -/
def clearanceAt (discs : List (Disc F)) (hw hh : F) (v : Vector2D (Extended F)) : F :=
  clearance discs hw hh v.x.value v.y.value

/-- The circle that the search finds around a point. -/
def circleAt (discs : List (Disc F)) (hw hh : F) (v : Vector2D (Extended F)) :
    Circle (Extended F) :=
  ⟨v, .finite (clearanceAt discs hw hh v)⟩

/-- The points that the search tries, in their order. -/
def tried (discs : List (Disc F)) (hw hh : F) : List (Vector2D (Extended F)) :=
  candidates (.finite hw) (.finite hh) (discs.map Disc.circle) ++ [Vector2D.zero]

omit [IsStrictOrderedRing F] in
theorem clearanceAt_nonneg (v : Vector2D (Extended F)) : 0 ≤ clearanceAt discs hw hh v :=
  le_max_right _ _

theorem maxRadiusAt_tried {v : Vector2D (Extended F)} (hv : FinitePoint v) :
    maxRadiusAt (discs.map Disc.circle) (.finite hw) (.finite hh) v =
      .finite (clearanceAt discs hw hh v) := by
  obtain ⟨x, y, rfl, -, -⟩ := hv.exists_lengthSquared
  exact maxRadiusAt_eq discs hw hh x y

theorem finite_tried (discs : List (Disc F)) (hw hh : F) :
    ∀ v ∈ tried discs hw hh, FinitePoint v := by
  intro v hv
  rcases List.mem_append.mp hv with hv | hv
  · exact finite_candidates ⟨hw, rfl⟩ ⟨hh, rfl⟩ (Disc.finiteCircles discs) v hv
  · rw [List.mem_singleton.mp hv]
    exact finitePoint_zero

omit [IsStrictOrderedRing F] in
/-- Two radii are tied. -/
theorem fabs_sub_le_kEps (c r : F) :
    fabs (.finite c - .finite r : Extended F) ≤ kEps ↔ |c - r| ≤ eps := by
  rw [Extended.finite_sub]
  rfl

/-- The search lets a circle go only for one that is worse by no more than the margin of its
ties. -/
theorem consider_selects (discs : List (Disc F)) (hw hh : F) {best : Circle (Extended F)}
    (hbest : best.radius.IsFinite) {v : Vector2D (Extended F)} (hv : FinitePoint v) :
    Selects (fun circle => circle.radius.value) eps best (circleAt discs hw hh v)
      (consider (discs.map Disc.circle) (.finite hw) (.finite hh) best v) := by
  obtain ⟨center, radius⟩ := best
  obtain ⟨r, rfl⟩ := hbest
  unfold consider circleAt
  dsimp only
  rw [maxRadiusAt_tried hv]
  split_ifs with hbetter
  · refine Or.inr ⟨rfl, ?_⟩
    -- A circle that is taken for its centre may be worse, by the margin of a tie at most.
    rcases hbetter with hgain | ⟨htied, -⟩
    · have hlt : r + eps < clearanceAt discs hw hh v := hgain
      have heps : (0 : F) ≤ eps := eps_nonneg
      dsimp only [Extended.value_finite]
      linarith
    · have hnear := abs_le.mp ((fabs_sub_le_kEps _ r).mp htied)
      dsimp only [Extended.value_finite]
      linarith
  · refine Or.inl ⟨rfl, ?_⟩
    exact le_of_not_gt fun hlt => hbetter (Or.inl hlt)

/-- The first point that is tried is taken. -/
theorem consider_start {v : Vector2D (Extended F)} (hv : FinitePoint v) :
    consider (discs.map Disc.circle) (.finite hw) (.finite hh) ⟨Vector2D.zero, lit (-1)⟩ v =
      circleAt discs hw hh v := by
  have hgain : (lit (-1) + kEps : Extended F) < .finite (clearanceAt discs hw hh v) := by
    change ((-1 : ℚ) : F) + eps < clearanceAt discs hw hh v
    have hsmall : ((-1 : ℚ) : F) + eps < 0 := by
      unfold eps
      norm_num
    exact hsmall.trans_le (clearanceAt_nonneg v)
  unfold consider
  dsimp only
  rw [maxRadiusAt_tried hv, if_pos (Or.inl hgain), circleAt]

/-- The search takes the first point and goes on with the others. -/
theorem foldl_tried (discs : List (Disc F)) (hw hh : F) :
    ∃ first rest, tried discs hw hh = first :: rest ∧
      (tried discs hw hh).foldl (consider (discs.map Disc.circle) (.finite hw) (.finite hh))
          ⟨Vector2D.zero, lit (-1)⟩ =
        rest.foldl (consider (discs.map Disc.circle) (.finite hw) (.finite hh))
          (circleAt discs hw hh first) := by
  have hsome : tried discs hw hh ≠ [] := by simp [tried]
  obtain ⟨first, rest, htried⟩ := List.exists_cons_of_ne_nil hsome
  have hfirst : FinitePoint first := by
    refine finite_tried discs hw hh first ?_
    rw [htried]
    exact List.mem_cons_self
  refine ⟨first, rest, htried, ?_⟩
  rw [htried, List.foldl_cons, consider_start hfirst]

/-- The search ends with a circle around one of its points, up to the margins of its ties the
best of them. -/
theorem foldl_consider (discs : List (Disc F)) (hw hh : F) :
    ∃ v ∈ tried discs hw hh,
      (tried discs hw hh).foldl (consider (discs.map Disc.circle) (.finite hw) (.finite hh))
          ⟨Vector2D.zero, lit (-1)⟩ = circleAt discs hw hh v ∧
        ∀ u ∈ tried discs hw hh, clearanceAt discs hw hh u ≤
          clearanceAt discs hw hh v + (tried discs hw hh).length * eps := by
  obtain ⟨first, rest, htried, hsearch⟩ := foldl_tried discs hw hh
  have hselects (best : Circle (Extended F)) (hbest : best.radius.IsFinite)
      (v : Vector2D (Extended F)) (hv : v ∈ rest) := by
    refine consider_selects discs hw hh hbest (finite_tried discs hw hh v ?_)
    rw [htried]
    exact List.mem_cons_of_mem first hv
  obtain ⟨hresult, hlow, hall⟩ := foldl_selects eps_nonneg hselects (fun v _ => ⟨_, rfl⟩)
    (circleAt discs hw hh first) ⟨_, rfl⟩
  rw [hsearch, htried]
  obtain ⟨v, hv, hbest⟩ : ∃ v ∈ first :: rest,
      rest.foldl (consider (discs.map Disc.circle) (.finite hw) (.finite hh))
        (circleAt discs hw hh first) = circleAt discs hw hh v := by
    rcases hresult with hsame | ⟨v, hv, hsame⟩
    · exact ⟨first, List.mem_cons_self, hsame⟩
    · exact ⟨v, List.mem_cons_of_mem first hv, hsame⟩
  rw [hbest] at hlow hall
  refine ⟨v, hv, hbest, fun u hu => ?_⟩
  have hle : clearanceAt discs hw hh u ≤ clearanceAt discs hw hh v + rest.length * eps := by
    rcases List.mem_cons.mp hu with rfl | hu
    · exact hlow
    · exact hall u hu
  have heps : (0 : F) ≤ eps := eps_nonneg
  rw [List.length_cons]
  push_cast
  linarith

/-- Among discs the result is the circle that the search ends with, a margin smaller. -/
theorem largestEmptyCircle_of_foldl (occupied : discs ≠ []) {width height : F}
    {v : Vector2D (Extended F)}
    (hbest : (tried discs (width / 2) (height / 2)).foldl (consider (discs.map Disc.circle)
        (.finite (width / 2)) (.finite (height / 2))) ⟨Vector2D.zero, lit (-1)⟩ =
      circleAt discs (width / 2) (height / 2) v) :
    largestEmptyCircle (discs.map Disc.circle) (.finite width) (.finite height) =
      ⟨v, .finite (max 0 (clearanceAt discs (width / 2) (height / 2) v - margin))⟩ := by
  have hsome : (discs.map Disc.circle).isEmpty = false := by simpa using occupied
  have hkept : ¬ (circleAt discs (width / 2) (height / 2) v).radius < lit 0 := by
    rw [lit_zero]
    exact (clearanceAt_nonneg v).not_gt
  unfold largestEmptyCircle
  rw [half_eq, half_eq, hsome]
  dsimp only
  rw [if_neg Bool.false_ne_true]
  rw [tried] at hbest
  rw [hbest, if_neg hkept, lit_zero]
  change Circle.mk v (maxOf (.finite 0) (Extended.finite _ - Extended.finite margin)) = _
  rw [Extended.finite_sub, maxOf]
  split_ifs with hleft
  · rw [max_eq_right (le_of_lt hleft)]
  · rw [max_eq_left (le_of_not_gt hleft)]

theorem largestEmptyCircle_discs (width height : F) (occupied : discs ≠ []) :
    ∃ v ∈ tried discs (width / 2) (height / 2),
      largestEmptyCircle (discs.map Disc.circle) (.finite width) (.finite height) =
          ⟨v, .finite (max 0 (clearanceAt discs (width / 2) (height / 2) v - margin))⟩ := by
  obtain ⟨v, hv, hbest, -⟩ := foldl_consider discs (width / 2) (height / 2)
  exact ⟨v, hv, largestEmptyCircle_of_foldl occupied hbest⟩

/-- Without discs the result is the circle around the origin that touches the nearest edges. -/
theorem largestEmptyCircle_nil (width height : F) :
    largestEmptyCircle [] (.finite width) (.finite height) =
      (⟨Vector2D.zero, .finite (min (width / 2) (height / 2))⟩ : Circle (Extended F)) := by
  unfold largestEmptyCircle
  rw [half_eq, half_eq, List.isEmpty_nil]
  dsimp only
  rw [if_pos rfl, Scalar.min]
  split_ifs with hlt
  · rw [min_eq_right (le_of_lt hlt)]
  · rw [min_eq_left (le_of_not_gt hlt)]

/-- Among discs a result of positive radius leaves the margin around itself. -/
theorem largestEmptyCircle_fits (roots : ExactRoots F) (width height : F)
    (occupied : discs ≠ []) :
    ∃ x y R, largestEmptyCircle (discs.map Disc.circle) (.finite width) (.finite height) =
        ⟨⟨.finite x, .finite y⟩, .finite R⟩ ∧
      0 ≤ R ∧ (0 < R → Fits discs (width / 2) (height / 2) x y (R + margin)) := by
  obtain ⟨v, hv, hbest⟩ := largestEmptyCircle_discs width height occupied
  obtain ⟨x, y, rfl, -, -⟩ := (finite_tried discs _ _ v hv).exists_lengthSquared
  refine ⟨x, y, _, hbest, le_max_left _ _, fun hpos => ?_⟩
  rw [← le_clearance_iff roots (add_pos hpos margin_pos),
    max_eq_right (le_of_lt ((lt_max_iff.mp hpos).resolve_left (lt_irrefl _))), sub_add_cancel]
  exact le_rfl

/-- The centre of the result is one of the points, with discs and without. -/
theorem center_mem_tried (discs : List (Disc F)) (width height : F) :
    (largestEmptyCircle (discs.map Disc.circle) (.finite width) (.finite height)).center ∈
      tried discs (width / 2) (height / 2) := by
  by_cases hnil : discs = []
  · subst hnil
    rw [List.map_nil, largestEmptyCircle_nil]
    exact List.mem_singleton_self _
  · obtain ⟨v, hv, hresult⟩ := largestEmptyCircle_discs width height hnil
    rw [hresult]
    exact hv

/-- Up to the margins no point of the search has a larger free circle than the result. -/
theorem clearanceAt_le_radius (width height : F) (occupied : discs ≠ []) :
    ∃ R, (largestEmptyCircle (discs.map Disc.circle) (.finite width) (.finite height)).radius =
        .finite R ∧
      ∀ u ∈ tried discs (width / 2) (height / 2), clearanceAt discs (width / 2) (height / 2) u ≤
        R + margin + (tried discs (width / 2) (height / 2)).length * eps := by
  obtain ⟨v, -, hbest, hall⟩ := foldl_consider discs (width / 2) (height / 2)
  rw [largestEmptyCircle_of_foldl occupied hbest]
  refine ⟨_, rfl, fun u hu => (hall u hu).trans ?_⟩
  have hle := le_max_right 0 (clearanceAt discs (width / 2) (height / 2) v - margin)
  linarith

/-- The radius of the result is not negative. -/
theorem radius_nonneg (discs : List (Disc F)) {width height : F} (hwidth : 0 ≤ width)
    (hheight : 0 ≤ height) :
    ∃ R, (largestEmptyCircle (discs.map Disc.circle) (.finite width) (.finite height)).radius =
      .finite R ∧ 0 ≤ R := by
  by_cases hnil : discs = []
  · subst hnil
    rw [List.map_nil, largestEmptyCircle_nil]
    exact ⟨_, rfl, le_min (by positivity) (by positivity)⟩
  · obtain ⟨v, -, hresult⟩ := largestEmptyCircle_discs width height hnil
    rw [hresult]
    exact ⟨_, rfl, le_max_left _ _⟩

/-- A circle of this radius fits around a point and touches no disc. -/
def Seats (discs : List (Disc F)) (hw hh s : F) (v : Vector2D (Extended F)) : Prop :=
  ∃ x y, v = ⟨.finite x, .finite y⟩ ∧ |x| + s ≤ hw ∧ |y| + s ≤ hh ∧
    ∀ d ∈ discs, s + d.radius < d.dist x y

/-- The centre of the result seats every circle that is not larger. -/
theorem seats_of_le_radius (roots : ExactRoots F) (discs : List (Disc F)) (width height : F)
    {s : F} (hs : 0 < s)
    (hle : .finite s ≤
      (largestEmptyCircle (discs.map Disc.circle) (.finite width) (.finite height)).radius) :
    Seats discs (width / 2) (height / 2) s
      (largestEmptyCircle (discs.map Disc.circle) (.finite width) (.finite height)).center := by
  by_cases hnil : discs = []
  · subst hnil
    rw [List.map_nil, largestEmptyCircle_nil] at hle ⊢
    have hmin : s ≤ min (width / 2) (height / 2) := hle
    rw [le_min_iff] at hmin
    refine ⟨0, 0, zero_eq, ?_, ?_, nofun⟩
    · rw [abs_zero, zero_add]
      exact hmin.1
    · rw [abs_zero, zero_add]
      exact hmin.2
  · obtain ⟨x, y, R, hresult, -, hfits⟩ := largestEmptyCircle_fits roots width height hnil
    rw [hresult] at hle ⊢
    have hR : s ≤ R := hle
    have hroom := hfits (hs.trans_le hR)
    have hmargin : (0 : F) < margin := margin_pos
    refine ⟨x, y, rfl, ?_, ?_, fun d hd => ?_⟩
    · linarith [hroom.width_le]
    · linarith [hroom.height_le]
    · linarith [hroom.apart d hd]

/-- For discs anywhere, overlapping or not, the result lies in the world's rectangle, also where
its radius is zero; a result of positive radius does not touch a disc. -/
theorem largestEmptyCircle_sound (roots : ExactRoots F) (discs : List (Disc F))
    {width height : F} (width_pos : 0 < width) (height_pos : 0 < height) :
    ∃ x y R, largestEmptyCircle (discs.map Disc.circle) (.finite width) (.finite height) =
        ⟨⟨.finite x, .finite y⟩, .finite R⟩ ∧
      0 ≤ R ∧ |x| + R ≤ width / 2 ∧ |y| + R ≤ height / 2 ∧
      (0 < R → ∀ d ∈ discs, R + d.radius < d.dist x y) ∧
      |x| ≤ width / 2 ∧ |y| ≤ height / 2 := by
  obtain ⟨⟨x, y, hcenter, hx, hy⟩, -⟩ := largestEmptyCircle_spec (Disc.finiteCircles discs)
    width_pos.le height_pos.le
  obtain ⟨R, hradius, hR⟩ := radius_nonneg discs width_pos.le height_pos.le
  have hresult : largestEmptyCircle (discs.map Disc.circle) (.finite width) (.finite height) =
      ⟨⟨.finite x, .finite y⟩, .finite R⟩ := by
    rw [← hcenter, ← hradius]
  refine ⟨x, y, R, hresult, hR, ?_⟩
  rcases hR.eq_or_lt with rfl | hpos
  · -- There was no room: the centre may lie in a disc, but it lies in the rectangle.
    rw [add_zero, add_zero]
    exact ⟨hx, hy, fun hpos => absurd hpos (lt_irrefl _), hx, hy⟩
  · have hseats := seats_of_le_radius roots discs width height hpos
    rw [hresult] at hseats
    obtain ⟨x', y', hequal, hwidth, hheight, hapart⟩ := hseats le_rfl
    cases hequal
    exact ⟨hwidth, hheight, fun _ => hapart, hx, hy⟩

/-! ### Ties -/

section Reals

attribute [local instance] RealScalar.stdMath

/-- A disc inside the world and one that reaches into it from outside. -/
theorem largestEmptyCircle_sound_two :
    ∃ x y R : ℝ, largestEmptyCircle ([⟨0, 0, 3, by norm_num⟩, ⟨40, 0, 35, by norm_num⟩].map
        Disc.circle) (.finite 20) (.finite 30) = ⟨⟨.finite x, .finite y⟩, .finite R⟩ ∧
      |x| + R ≤ 20 / 2 ∧ |y| + R ≤ 30 / 2 := by
  obtain ⟨x, y, R, hresult, -, hx, hy, -⟩ := largestEmptyCircle_sound exactRoots_real
    [⟨0, 0, 3, by norm_num⟩, ⟨40, 0, 35, by norm_num⟩] (by norm_num : (0 : ℝ) < 20)
    (by norm_num : (0 : ℝ) < 30)
  exact ⟨x, y, R, hresult, hx, hy⟩

end Reals

end SpaceShooter.Math
