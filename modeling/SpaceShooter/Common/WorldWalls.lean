/-
# Discs and the walls of the world

The walls are the four edges of the world's rectangle, each the segment between two corners.
`circleIntersectsOppositeWorldBounds` asks the nearest point of each wall; it answers whether
the disc and two opposite walls have points in common, wherever the centre is.
-/

import Mathlib.Analysis.Convex.Segment
import SpaceShooter.Common.WorldBounds

namespace SpaceShooter.Math

open Library Scalar

inductive Side
  | left
  | right
  | bottom
  | top

section Walls

variable {F : Type} [Field F] [LinearOrder F]

/-- The segment between two corners of the world's rectangle, which has twice the given
extents. -/
def Side.wall (half_width half_height : F) : Side → Set (F × F)
  | left => segment F (-half_width, -half_height) (-half_width, half_height)
  | right => segment F (half_width, -half_height) (half_width, half_height)
  | bottom => segment F (-half_width, -half_height) (half_width, -half_height)
  | top => segment F (-half_width, half_height) (half_width, half_height)

/-- The closed disc around a centre. -/
def disc (x y radius : F) : Set (F × F) := {p | Reaches x y radius p.1 p.2}

/-- A disc has a point of a wall of the rectangle with twice the given extents. -/
def MeetsWall (half_width half_height radius x y : F) (side : Side) : Prop :=
  (disc x y radius ∩ side.wall half_width half_height).Nonempty

variable [IsStrictOrderedRing F] {width height radius x y : F}

/-- A segment between a number and its negative. -/
theorem mem_segment_neg {c : F} (hc : 0 ≤ c) (b : F) : b ∈ segment F (-c) c ↔ |b| ≤ c := by
  rw [segment_eq_Icc (neg_le_self hc), Set.mem_Icc, abs_le]

/-- A wall that stands upright. -/
theorem meets_vertical (a : F) (hheight : 0 < height) :
    (disc x y radius ∩ segment F (a, -(height / 2)) (a, height / 2)).Nonempty ↔
      ∃ b, |b| ≤ height / 2 ∧ Reaches x y radius a b := by
  rw [← Prod.image_mk_segment_right]
  constructor
  · rintro ⟨_, hdisc, b, hb, rfl⟩
    exact ⟨b, (mem_segment_neg (half_pos hheight).le b).mp hb, hdisc⟩
  · rintro ⟨b, hb, hreaches⟩
    exact ⟨(a, b), hreaches, b, (mem_segment_neg (half_pos hheight).le b).mpr hb, rfl⟩

/-- A wall that lies flat. -/
theorem meets_horizontal (b : F) (hwidth : 0 < width) :
    (disc x y radius ∩ segment F (-(width / 2), b) (width / 2, b)).Nonempty ↔
      ∃ a, |a| ≤ width / 2 ∧ Reaches x y radius a b := by
  rw [← Prod.image_mk_segment_left]
  constructor
  · rintro ⟨_, hdisc, a, ha, rfl⟩
    exact ⟨a, (mem_segment_neg (half_pos hwidth).le a).mp ha, hdisc⟩
  · rintro ⟨a, ha, hreaches⟩
    exact ⟨(a, b), hreaches, a, (mem_segment_neg (half_pos hwidth).le a).mpr ha, rfl⟩

theorem meetsOppositeWalls_iff (hwidth : 0 < width) (hheight : 0 < height) :
    MeetsOppositeWalls width height radius x y ↔
      MeetsWall (width / 2) (height / 2) radius x y .left ∧
        MeetsWall (width / 2) (height / 2) radius x y .right ∨
        MeetsWall (width / 2) (height / 2) radius x y .bottom ∧
          MeetsWall (width / 2) (height / 2) radius x y .top :=
  or_congr
    (and_congr (meets_vertical _ hheight).symm (meets_vertical _ hheight).symm)
    (and_congr (meets_horizontal _ hwidth).symm (meets_horizontal _ hwidth).symm)

variable [StdMath F]

/-- The test answers whether the disc has points of two opposite walls. -/
theorem circleIntersectsOppositeWorldBounds_iff_meets (hradius : 0 ≤ radius) (hwidth : 0 < width)
    (hheight : 0 < height) :
    circleIntersectsOppositeWorldBounds (⟨.finite x, .finite y⟩ : Vector2D (Extended F))
        (.finite radius) (.finite width) (.finite height) = true ↔
      MeetsWall (width / 2) (height / 2) radius x y .left ∧
        MeetsWall (width / 2) (height / 2) radius x y .right ∨
        MeetsWall (width / 2) (height / 2) radius x y .bottom ∧
          MeetsWall (width / 2) (height / 2) radius x y .top := by
  rw [circleIntersectsOppositeWorldBounds_iff hradius hwidth hheight,
    meetsOppositeWalls_iff hwidth hheight]

end Walls

section Witness

attribute [local instance] RationalScalar.stdMath

/-- A disc outside of the world that touches both ends of the side walls. -/
theorem circleIntersectsOppositeWorldBounds_iff_meets_outside :
    circleIntersectsOppositeWorldBounds (⟨.finite 0, .finite 12⟩ : Vector2D (Extended ℚ))
        (.finite 13) (.finite 10) (.finite 2) = true ∧
      (MeetsWall (10 / 2 : ℚ) (2 / 2) 13 0 12 .left ∧
          MeetsWall (10 / 2 : ℚ) (2 / 2) 13 0 12 .right ∨
        MeetsWall (10 / 2 : ℚ) (2 / 2) 13 0 12 .bottom ∧
          MeetsWall (10 / 2 : ℚ) (2 / 2) 13 0 12 .top) := by
  have hanswer : circleIntersectsOppositeWorldBounds
      (⟨.finite 0, .finite 12⟩ : Vector2D (Extended ℚ)) (.finite 13) (.finite 10) (.finite 2) =
        true := by
    decide +kernel
  refine ⟨hanswer, ?_⟩
  exact (circleIntersectsOppositeWorldBounds_iff_meets (by norm_num) (by norm_num)
    (by norm_num)).mp hanswer

end Witness

end SpaceShooter.Math
