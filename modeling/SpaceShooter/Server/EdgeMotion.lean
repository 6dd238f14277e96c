/-
# Motion at the edges

In exact arithmetic the clamp to an inset rectangle and the comparison with the same margin
cancel: a bullet is destroyed exactly outside the closed world, a ship slides along the walls
it has passed, and an asteroid comes back once its whole disc has left. Each rule is stated
for one coordinate first.
-/

import SpaceShooter.Server.ShipBounds

namespace SpaceShooter.Server.World

open Scalar Domain Library Math

variable {F : Type} [Field F] [LinearOrder F] {width height : F}

/-! ### One coordinate -/

/-- A coordinate of a ship and its velocity: beyond a wall the ship is set back to a margin
from it and stops on this axis; otherwise it moves by no more than the margin. -/
structure Slides (side x v x' v' : F) : Prop where
  inside : |x'| ≤ side / 2
  right : side / 2 < x → x' = side / 2 - eps ∧ v' = 0
  left : x < -(side / 2) → x' = -(side / 2 - eps) ∧ v' = 0
  kept : |x| ≤ side / 2 → |x' - x| ≤ eps ∧ v' = v

/-- A coordinate of an asteroid: it is moved once the whole disc is beyond a wall. -/
structure Wraps (side radius x x' : F) : Prop where
  inside : |x'| ≤ side / 2 + radius
  right : side / 2 < x - radius → x' = -(side / 2) - radius
  left : x + radius < -(side / 2) → x' = side / 2 + radius
  kept : x - radius ≤ side / 2 → -(side / 2) ≤ x + radius → x' = x

section Coordinates

variable [IsStrictOrderedRing F] {side radius x v c : F}

theorem slides_of_inside (hx : |x| ≤ side / 2) : Slides side x v x v where
  inside := hx
  right hright := absurd (le_of_abs_le hx) hright.not_ge
  left hleft := absurd (neg_le_of_abs_le hx) hleft.not_ge
  kept _ := by
    rw [sub_self, abs_zero]
    exact ⟨eps_nonneg, rfl⟩

theorem slides_of_inset (h : Inset side x c) {v' : F} (hv' : v' = if side / 2 < |x| then 0 else v) :
    Slides side x v c v' where
  inside := h.inside
  right hright := by
    rw [hv', if_pos (hright.trans_le (le_abs_self x))]
    exact ⟨h.right hright, rfl⟩
  left hleft := by
    rw [hv', if_pos (lt_abs.mpr (Or.inr (by linarith)))]
    exact ⟨h.left hleft, rfl⟩
  kept hx := by
    rw [hv', if_neg hx.not_gt]
    exact ⟨h.near hx, rfl⟩

theorem wraps_of_radius (hradius : 0 ≤ radius) (hside : 0 ≤ side) (x : F) :
    Wraps side radius x
      (if x + radius < -(side / 2) then side / 2 + radius
        else if side / 2 < x - radius then -(side / 2) - radius else x) := by
  have hhalf : 0 ≤ side / 2 := div_nonneg hside zero_le_two
  split_ifs with hleft hright
  · refine ⟨?_, fun h => ?_, fun _ => rfl, fun _ h => ?_⟩
    · exact (abs_of_nonneg (add_nonneg hhalf hradius)).le
    · linarith
    · exact absurd hleft h.not_gt
  · refine ⟨?_, fun _ => rfl, fun h => absurd h hleft, fun h _ => absurd hright h.not_gt⟩
    rw [abs_le]
    constructor <;> linarith
  · refine ⟨?_, fun h => absurd h hright, fun h => absurd h hleft, fun _ _ => rfl⟩
    rw [abs_le]
    constructor <;> linarith

end Coordinates

/-! ### Entities -/

/-- All numbers of an entity that movement reads are finite, and no asteroid has a negative
radius. -/
structure Exact (e : Entity (Extended F)) : Prop where
  motion : ∀ {t}, e.transform = some t →
    FinitePoint t.position ∧ FinitePoint t.velocity ∧ t.angle.IsFinite
  engine : ∀ {s}, e.ship = some s → s.thrust_power.IsFinite ∧ s.drag.IsFinite
  asteroid : e.type = .Asteroid → ∃ r, e.radius = .finite r ∧ 0 ≤ r

/-- What the walls make of an entity whose motion has been integrated to a transform. -/
structure AtWalls (width height : F) (e : Entity (Extended F)) (t : TransformComponent (Extended F))
    (x y vx vy : F) (e' : Entity (Extended F)) : Prop where
  bullet : e.type = .Bullet → ∃ out, (out = true ↔ width / 2 < |x| ∨ height / 2 < |y|) ∧
    e' = { e with transform := some t, isDestroyed := out }
  ship : e.type = .Ship → ∃ x' y' vx' vy', Slides width x vx x' vx' ∧ Slides height y vy y' vy' ∧
    e' = { e with transform := some { t with
      position := ⟨.finite x', .finite y'⟩, velocity := ⟨.finite vx', .finite vy'⟩ } }
  asteroid : e.type = .Asteroid → ∃ r x' y', e.radius = .finite r ∧ Wraps width r x x' ∧
    Wraps height r y y' ∧
    e' = { e with transform := some { t with position := ⟨.finite x', .finite y'⟩ } }

variable [StdMath F]

/-- What one tick of movement makes of an entity. Only a ship with its component changes its
velocity before the walls do. -/
structure Moves (width height : F) (dt : Extended F) (e e' : Entity (Extended F)) : Prop where
  skipped : e.type = .None ∨ e.isDestroyed = true ∨ e.transform = none → e' = e
  drifts : e.type ≠ .Ship ∨ e.ship = none → ∀ t,
    integrate e t dt = { t with position := t.position + t.velocity * dt }
  moved : e.type ≠ .None → e.isDestroyed = false → ∀ {t}, e.transform = some t →
    ∃ x y vx vy, integrate e t dt =
        { t with position := ⟨.finite x, .finite y⟩, velocity := ⟨.finite vx, .finite vy⟩ } ∧
      AtWalls width height e (integrate e t dt) x y vx vy e'

variable [IsStrictOrderedRing F] {e : Entity (Extended F)} {t : TransformComponent (Extended F)}
  {x y vx vy : F}

section Walls

variable (hwidth : 2 * eps ≤ width) (hheight : 2 * eps ≤ height)
  (hposition : t.position = ⟨.finite x, .finite y⟩)
include hwidth hheight hposition

/-- The clamp and the two comparisons with the margin. -/
theorem exists_clamped :
    ∃ cx cy, clampToWorldBounds t.position (.finite width) (.finite height) =
        ⟨.finite cx, .finite cy⟩ ∧ Inset width x cx ∧ Inset height y cy ∧
      decide (kEps < fabs ((clampToWorldBounds t.position (.finite width) (.finite height)).x -
        t.position.x)) = decide (width / 2 < |x|) ∧
      decide (kEps < fabs ((clampToWorldBounds t.position (.finite width) (.finite height)).y -
        t.position.y)) = decide (height / 2 < |y|) := by
  obtain ⟨cx, cy, hclamped, hx, hy⟩ := clampToWorldBounds_inset hwidth hheight x y
  rw [hposition, hclamped]
  exact ⟨cx, cy, rfl, hx, hy, decide_eq_decide.mpr ((kEps_lt_iff cx x).trans hx.eps_lt_iff),
    decide_eq_decide.mpr ((kEps_lt_iff cy y).trans hy.eps_lt_iff)⟩

theorem bound_bullet (hbullet : e.type = .Bullet) (hlive : e.isDestroyed = false) :
    ∃ out, (out = true ↔ width / 2 < |x| ∨ height / 2 < |y|) ∧
      bound e t (.finite width) (.finite height) =
        { e with transform := some t, isDestroyed := out } := by
  obtain ⟨cx, cy, -, -, -, hx, hy⟩ := exists_clamped hwidth hheight hposition
  unfold bound
  rw [hbullet, if_neg EntityType.noConfusion]
  dsimp only
  rw [hx, hy]
  -- The code leaves the flag of a bullet alone that is inside; it is live, so it stays down.
  refine ⟨decide (width / 2 < |x|) || decide (height / 2 < |y|), ?_, ?_⟩
  · rw [Bool.or_eq_true, decide_eq_true_eq, decide_eq_true_eq]
  · cases decide (width / 2 < |x|) <;> cases decide (height / 2 < |y|)
    · rw [hlive]
      rfl
    · rfl
    · rfl
    · rfl

theorem bound_ship (hship : e.type = .Ship)
    (hvelocity : t.velocity = ⟨.finite vx, .finite vy⟩) :
    ∃ x' y' vx' vy', Slides width x vx x' vx' ∧ Slides height y vy y' vy' ∧
      bound e t (.finite width) (.finite height) =
        { e with transform := some { t with
          position := ⟨.finite x', .finite y'⟩, velocity := ⟨.finite vx', .finite vy'⟩ } } := by
  obtain ⟨cx, cy, hclamped, hcx, hcy, hx, hy⟩ := exists_clamped hwidth hheight hposition
  unfold bound
  rw [hship, if_neg EntityType.noConfusion]
  dsimp only
  rw [hx, hy, hclamped, hvelocity]
  by_cases hinside : |x| ≤ width / 2 ∧ |y| ≤ height / 2
  · refine ⟨x, y, vx, vy, slides_of_inside hinside.1, slides_of_inside hinside.2, ?_⟩
    rw [decide_eq_false hinside.1.not_gt, decide_eq_false hinside.2.not_gt, ← hposition,
      ← hvelocity]
    rfl
  · -- One of the two walls has stopped the ship.
    have hout : (!decide (width / 2 < |x|) && !decide (height / 2 < |y|)) = false := by
      rw [Bool.and_eq_false_iff, Bool.not_eq_false', Bool.not_eq_false', decide_eq_true_eq,
        decide_eq_true_eq, ← not_le, ← not_le]
      exact not_and_or.mp hinside
    have hstops (p : Prop) [Decidable p] (v : F) :
        (if decide p = true then (.finite 0 : Extended F) else .finite v) =
          .finite (if p then 0 else v) := by
      by_cases hp : p
      · rw [decide_eq_true hp, if_pos rfl, if_pos hp]
      · rw [decide_eq_false hp, if_neg Bool.false_ne_true, if_neg hp]
    refine ⟨cx, cy, _, _, slides_of_inset hcx rfl, slides_of_inset hcy rfl, ?_⟩
    rw [hout, if_neg Bool.false_ne_true, lit_zero]
    dsimp only
    rw [hstops, hstops]

omit hwidth hheight in
theorem bound_asteroid (hasteroid : e.type = .Asteroid) {r : F} (hr : e.radius = .finite r)
    (hradius : 0 ≤ r) (hwidth : 0 ≤ width) (hheight : 0 ≤ height) :
    ∃ x' y', Wraps width r x x' ∧ Wraps height r y y' ∧
      bound e t (.finite width) (.finite height) =
        { e with transform := some { t with position := ⟨.finite x', .finite y'⟩ } } := by
  refine ⟨_, _, wraps_of_radius hradius hwidth x, wraps_of_radius hradius hheight y, ?_⟩
  -- Both coordinates go through the same two comparisons.
  have hcoordinate (side x : F) :
      (if (.finite x + .finite r : Extended F) < -.finite (side / 2) then
          .finite (side / 2) + .finite r
        else if (.finite (side / 2) : Extended F) < .finite x - .finite r then
          -.finite (side / 2) - .finite r
        else .finite x : Extended F) =
      .finite (if x + r < -(side / 2) then side / 2 + r
        else if side / 2 < x - r then -(side / 2) - r else x) := by
    rw [Extended.finite_add, Extended.finite_neg, Extended.finite_add, Extended.finite_sub,
      Extended.finite_sub, apply_ite Extended.finite, apply_ite Extended.finite]
    rfl
  unfold bound wrapCircleThroughWorldBounds
  rw [if_pos hasteroid, hposition, hr, half_eq, half_eq]
  dsimp only
  rw [hcoordinate, hcoordinate]

end Walls

/-! ### The pass -/

variable (hwidth : 2 * eps ≤ width) (hheight : 2 * eps ≤ height)
include hwidth hheight

theorem moves_moveEntity (h : Exact e) (d : F) :
    Moves width height (.finite d) e
      (moveEntity (.finite d) (.finite width) (.finite height) e) where
  skipped hskipped := by
    unfold moveEntity
    split_ifs with hskip
    · rfl
    · rw [Bool.or_eq_true, decide_eq_true_eq, not_or] at hskip
      rw [(hskipped.resolve_left hskip.1).resolve_left hskip.2]
  drifts hdrifts t := by
    unfold integrate
    split
    · next s hship hs =>
      rw [hs] at hdrifts
      exact absurd (hdrifts.resolve_left (not_not_intro hship)) (Option.some_ne_none s)
    · rfl
  moved hnone hlive {t} ht := by
    obtain ⟨hposition, hvelocity, hangle⟩ := h.motion ht
    obtain ⟨hposition', hvelocity', hangle'⟩ :=
      finite_integrate hposition hvelocity (fun _ => hangle) h.engine ⟨d, rfl⟩
    obtain ⟨x, y, hxy, -, -⟩ := hposition'.exists_lengthSquared
    obtain ⟨vx, vy, hvxy, -, -⟩ := hvelocity'.exists_lengthSquared
    -- From here on only what the walls do to the kind of the entity matters.
    have hmove : moveEntity (.finite d) (.finite width) (.finite height) e =
        bound e (integrate e t (.finite d)) (.finite width) (.finite height) := by
      unfold moveEntity
      rw [hlive, decide_eq_false hnone, ht]
      rfl
    refine ⟨x, y, vx, vy, ?_, ?_, ?_, ?_⟩
    · rw [← hxy, ← hvxy, ← hangle']
    · intro hbullet
      rw [hmove]
      exact bound_bullet hwidth hheight hxy hbullet hlive
    · intro hship
      rw [hmove]
      exact bound_ship hwidth hheight hxy hship hvxy
    · intro hasteroid
      have heps : (0 : F) ≤ eps := eps_nonneg
      have hwidth' : 0 ≤ width := by linarith
      have hheight' : 0 ≤ height := by linarith
      obtain ⟨r, hr, hradius⟩ := h.asteroid hasteroid
      obtain ⟨x', y', hx, hy, hbound⟩ :=
        bound_asteroid hxy hasteroid hr hradius hwidth' hheight'
      rw [hmove]
      exact ⟨r, x', y', hr, hx, hy, hbound⟩

/-- The movement pass: it writes to the entities only, and to each what its kind asks for. -/
theorem updateMovementAndBounds_moves {pool : EntityPool (Extended F)}
    (hexact : ∀ {i e}, pool.at? i = some e → Exact e) (d : F) :
    let pool' := updateMovementAndBounds pool (.finite d) (.finite width) (.finite height)
    { pool' with storage_ := pool.storage_ } = pool ∧
      pool'.storage_.length = pool.storage_.length ∧
      ∀ i, (pool.at? i = none → pool'.at? i = none) ∧
        ∀ e, pool.at? i = some e → ∃ e', pool'.at? i = some e' ∧
          Moves width height (.finite d) e e' := by
  intro pool'
  have hat (i : ℕ) : pool'.at? i =
      (pool.at? i).map (moveEntity (.finite d) (.finite width) (.finite height)) :=
    EntityPool.at?_map pool _ i
  refine ⟨rfl, List.length_map _, fun i => ⟨fun hnone => ?_, fun e he => ?_⟩⟩
  · rw [hat, hnone, Option.map_none]
  · rw [hat, he]
    exact ⟨_, rfl, moves_moveEntity hwidth hheight (hexact he) d⟩

omit hwidth hheight

section Witness

attribute [local instance] RationalScalar.stdMath

def leavingBullet : Entity (Extended ℚ) :=
  { Entity.fresh 0 with
    type := .Bullet
    transform := some ⟨⟨lit 999, lit 0⟩, ⟨lit 500, lit 0⟩, lit 0⟩ }

/-- An asteroid with its centre out of the world, but not its whole disc. -/
def halfOutAsteroid : Entity (Extended ℚ) :=
  { Entity.fresh 1 with
    type := .Asteroid
    radius := lit 30
    transform := some ⟨⟨lit 1010, lit 0⟩, ⟨lit 0, lit 0⟩, lit 0⟩ }

def crossingPool : EntityPool (Extended ℚ) :=
  { storage_ := [some leavingBullet, none, some halfOutAsteroid] }

theorem exact_of_crossingPool {i : ℕ} {e : Entity (Extended ℚ)}
    (he : crossingPool.at? i = some e) : Exact e := by
  have hmem := List.mem_of_getElem? (EntityPool.at?_eq_some.mp he)
  simp only [crossingPool, List.mem_cons, Option.some.injEq, reduceCtorEq, List.not_mem_nil,
    or_false, false_or] at hmem
  rcases hmem with rfl | rfl
  · refine ⟨fun ht => ?_, fun hs => (by cases hs), fun htype => (by cases htype)⟩
    obtain rfl := Option.some.inj ht
    exact ⟨⟨⟨_, rfl⟩, _, rfl⟩, ⟨⟨_, rfl⟩, _, rfl⟩, _, rfl⟩
  · refine ⟨fun ht => ?_, fun hs => (by cases hs), fun _ => ⟨30, rfl, by norm_num⟩⟩
    obtain rfl := Option.some.inj ht
    exact ⟨⟨⟨_, rfl⟩, _, rfl⟩, ⟨⟨_, rfl⟩, _, rfl⟩, _, rfl⟩

/-- The bullet is destroyed and the asteroid stays where it is. -/
theorem updateMovementAndBounds_moves_crossing :
    let pool' := updateMovementAndBounds crossingPool (.finite (1 / 60)) (.finite 2000)
      (.finite 2000)
    (pool'.at? 0).map (·.isDestroyed) = some true ∧
      (pool'.at? 2).map (·.transform) = (crossingPool.at? 2).map (·.transform) ∧
      ∀ i, (crossingPool.at? i = none → pool'.at? i = none) ∧
        ∀ e, crossingPool.at? i = some e → ∃ e', pool'.at? i = some e' ∧
          Moves 2000 2000 (.finite (1 / 60)) e e' := by
  intro pool'
  have hside : 2 * eps ≤ (2000 : ℚ) := by
    rw [eps]
    norm_num
  exact ⟨by decide +kernel, by decide +kernel,
    (updateMovementAndBounds_moves hside hside exact_of_crossingPool (1 / 60)).2.2⟩

end Witness

end SpaceShooter.Server.World
