/-
# The placement of asteroids

The factory draws the centre of an asteroid from the free circle and its radius from its
weight, each without regard to the other. A ship is out of reach of all draws only if it is
farther away than the free circle and the largest asteroid together.
-/

import SpaceShooter.Common.RealScalar
import SpaceShooter.Library.Plane
import SpaceShooter.Server.AsteroidBudget
import SpaceShooter.Server.SpawnRoom

namespace SpaceShooter.Server.World

open Scalar Domain Library Library.Plane Math AsteroidFactory

section Draws

variable {F : Type} [Field F] [LinearOrder F] [StdMath F] [IsStrictOrderedRing F]
  {uniform : Uniform (Extended F)}

/-! ### What is drawn -/

/-- A weight that fits into what remains of the budget. -/
def FittingWeight (remaining : F) (weight : Extended F) : Prop :=
  ∃ w, weight = .finite w ∧ ((10 : ℚ) : F) ≤ w ∧ w ≤ ((80 : ℚ) : F) ∧ w ≤ remaining

omit [StdMath F] [IsStrictOrderedRing F] in
theorem fittingWeight_finite {remaining w : F} (hmin : 10 ≤ w) (hmax : w ≤ 80)
    (hrest : w ≤ remaining) : FittingWeight remaining (.finite w) := by
  refine ⟨w, rfl, ?_, ?_, hrest⟩
  · rwa [Rat.cast_ofNat]
  · rwa [Rat.cast_ofNat]

theorem fittingWeight_of_mem_drawWeights (hdraws : DrawsInRange uniform) (rounds draw : ℕ)
    {remaining : F} {weight : Extended F}
    (hweight : weight ∈ drawWeights uniform rounds draw (.finite remaining)) :
    FittingWeight remaining weight := by
  induction rounds generalizing draw remaining with
  | zero => cases hweight
  | succ rounds ih =>
    rw [drawWeights, minAsteroidWeight_eq] at hweight
    split_ifs at hweight with hroom
    · obtain ⟨u, w, hu, hw, hmin, hle, hmax, hrest⟩ := draw_solo_weight hdraws draw hroom
      rw [minAsteroidWeight_eq] at hw
      dsimp only at hweight
      rw [hu, hw] at hweight
      rcases List.mem_cons.mp hweight with rfl | hlater
      · exact fittingWeight_finite hmin (hle.trans hmax) (hle.trans hrest)
      · -- The later weights share what this one leaves.
        obtain ⟨w', hw', hmin', hmax', hrest'⟩ := ih (draw + 1) hlater
        exact ⟨w', hw', hmin', hmax', by linarith⟩
    · cases hweight

/-- Weights are generated from a budget that has room for one, and none exceeds it. -/
theorem fittingWeight_of_mem (hdraws : DrawsInRange uniform) {mass : F} {weight : Extended F}
    (hweight : weight ∈ generateAsteroidWeight uniform (.finite mass)) :
    10 ≤ 500 - mass ∧ FittingWeight (500 - mass) weight := by
  unfold generateAsteroidWeight at hweight
  rw [minAsteroidsWeight_eq, minAsteroidWeight_eq, Extended.finite_sub] at hweight
  dsimp only at hweight
  split_ifs at hweight with hfull hscarce
  · cases hweight
  · cases hweight
  · have hroom : 10 ≤ 500 - mass := le_of_not_gt hscarce
    obtain ⟨drawn, hdrawn, -, hle⟩ := hdraws 0 10 (500 - mass) hroom
    rw [hdrawn] at hweight
    obtain ⟨w, hw, hmin, hmax, hrest⟩ := fittingWeight_of_mem_drawWeights hdraws _ _ hweight
    exact ⟨hroom, w, hw, hmin, hmax, hrest.trans hle⟩

/-- A point at some angle from the centre of a circle, within its radius. -/
def PointOf (x y R : F) (position : Vector2D (Extended F)) : Prop :=
  ∃ a r, 0 ≤ r ∧ r ≤ R ∧
    position = ⟨.finite (x + r * StdMath.cos a), .finite (y + r * StdMath.sin a)⟩

omit [IsStrictOrderedRing F] in
theorem lit_one : (lit 1 : Extended F) = .finite 1 := congrArg Extended.finite Rat.cast_one

theorem sqrt_le_one (roots : ExactRoots F) {a : F} (ha : 0 ≤ a) (hone : a ≤ 1) :
    StdMath.sqrt a ≤ 1 := by
  have hroot := roots.sqrt_nonneg ha
  refine abs_le_one_iff_mul_self_le_one.mpr ?_ |> le_of_abs_le
  rwa [roots.sqrt_mul_self ha]

theorem pointOf_of_mem (roots : ExactRoots F) (hdraws : DrawsInRange uniform) {x y R : F}
    (draw pos_count : ℕ) {position : Vector2D (Extended F)}
    (hposition : position ∈
      generatePositions uniform draw pos_count ⟨⟨.finite x, .finite y⟩, .finite R⟩) :
    0 < R ∧ PointOf x y R position := by
  unfold generatePositions at hposition
  split_ifs at hposition with hnone
  · cases hposition
  · have hR : 0 < R := by
      rw [not_or, finite_le_lit_zero, not_le] at hnone
      exact hnone.2
    obtain ⟨i, -, rfl⟩ := List.mem_map.mp hposition
    obtain ⟨a, ha, -, -⟩ := hdraws (draw + 2 * i) 0 1 zero_le_one
    obtain ⟨b, hb, hlow, hhigh⟩ := hdraws (draw + 2 * i + 1) 0 1 zero_le_one
    refine ⟨hR, ((2 : ℚ) : F) * StdMath.pi * a, R * StdMath.sqrt b, ?_, ?_, ?_⟩
    · exact mul_nonneg hR.le (roots.sqrt_nonneg hlow)
    · exact mul_le_of_le_one_right hR.le (sqrt_le_one roots hlow hhigh)
    · dsimp only
      rw [lit_zero, lit_one, ha, hb, sqrt_finite hlow]
      rfl

/-! ### What is created -/

/-- An asteroid in a free circle, with a weight that fits into the budget. -/
def CreatedIn (x y R remaining : F) (e : Entity (Extended F)) : Prop :=
  ∃ weight position, FittingWeight remaining weight ∧ PointOf x y R position ∧
    e.transform = some ⟨position, Vector2D.zero, lit 0⟩ ∧ e.radius = weight * lit 30

omit [IsStrictOrderedRing F] in
/-- The two counters of the radius are equal. -/
theorem extends_createAsteroids_of {P : Entity (Extended F) → Prop}
    (asteroids : List (Extended F × Vector2D (Extended F))) {pool : EntityPool (Extended F)}
    (wf : pool.WellFormed)
    (hP : ∀ weight position, (weight, position) ∈ asteroids → ∀ e : Entity (Extended F),
      e.transform = some ⟨position, Vector2D.zero, lit 0⟩ → e.radius = weight * lit 30 → P e) :
    EntityPool.Extends P pool (asteroids.foldl
      (fun pool (weight, position) => createAsteroid pool weight position) pool) := by
  induction asteroids generalizing pool with
  | nil => exact .refl wf
  | cons asteroid asteroids ih =>
    have hcreate : EntityPool.Extends P pool (createAsteroid pool asteroid.1 asteroid.2) :=
      EntityPool.extends_acquire_modify wf (fun _ => rfl)
        (hP asteroid.1 asteroid.2 List.mem_cons_self _ rfl (ite_self _))
    exact hcreate.trans (ih hcreate.wellFormed fun weight position hmem =>
      hP weight position (List.mem_cons_of_mem _ hmem))

omit [IsStrictOrderedRing F] in
theorem exists_at?_createAsteroid {pool : EntityPool (Extended F)} (wf : pool.WellFormed)
    (weight : Extended F) (position : Vector2D (Extended F)) :
    ∃ e, (createAsteroid pool weight position).at? pool.acquire.1 = some e ∧
      e.transform = some ⟨position, Vector2D.zero, lit 0⟩ ∧ e.radius = weight * lit 30 :=
  ⟨_, (EntityPool.at?_acquire_modify wf _ _).trans (if_pos rfl), rfl, ite_self _⟩

theorem createdIn_of_update (roots : ExactRoots F) (hdraws : DrawsInRange uniform)
    {pool : EntityPool (Extended F)} (wf : pool.WellFormed) (massive : Massive pool) {x y R : F}
    {i : ℕ} {e : Entity (Extended F)} (hnone : pool.at? i = none)
    (hat : (AsteroidFactory.update uniform ⟨⟨.finite x, .finite y⟩, .finite R⟩ pool).at? i =
      some e) :
    0 < R ∧ 10 ≤ 500 - totalMass pool ∧ CreatedIn x y R (500 - totalMass pool) e := by
  unfold AsteroidFactory.update at hat
  rw [calculateCurrentWeight_eq massive] at hat
  dsimp only at hat
  split_ifs at hat with hfull
  · cases hnone.symm.trans hat
  · generalize hasteroids : List.zip _ _ = asteroids at hat
    have hextends : EntityPool.Extends
        (fun e => 0 < R ∧ 10 ≤ 500 - totalMass pool ∧ CreatedIn x y R (500 - totalMass pool) e)
        pool (asteroids.foldl
          (fun pool (weight, position) => createAsteroid pool weight position) pool) := by
      refine extends_createAsteroids_of asteroids wf fun weight position hmem e ht hradius => ?_
      rw [← hasteroids] at hmem
      obtain ⟨hweight, hposition⟩ := List.of_mem_zip hmem
      obtain ⟨hroom, hfits⟩ := fittingWeight_of_mem hdraws hweight
      obtain ⟨hR, hpoint⟩ := pointOf_of_mem roots hdraws _ _ hposition
      exact ⟨hR, hroom, weight, position, hfits, hpoint, ht, hradius⟩
    rcases hextends.added hat with hold | ⟨-, hcreated, -⟩
    · cases hnone.symm.trans hold
    · exact hcreated

/-! ### Reach -/

/-- The circles of two entities overlap or touch. -/
def Touches (e e' : Entity (Extended F)) : Prop :=
  ∃ t t', e.transform = some t ∧ e'.transform = some t' ∧
    checkCircleCollision t.position e.radius t'.position e'.radius = .ok true

omit [StdMath F] [IsStrictOrderedRing F] in
theorem sqrDist_eq (d : Disc F) (x y : F) : d.sqrDist x y = sqrNorm (x - d.x) (y - d.y) := by
  rw [Disc.sqrDist, sqrNorm, sq, sq]

omit [IsStrictOrderedRing F] in
theorem touches_iff {e e' : Entity (Extended F)} {t : TransformComponent (Extended F)}
    {x y r : F} {d : Disc F} (ht : e.transform = some t)
    (hposition : t.position = ⟨.finite x, .finite y⟩) (hradius : e.radius = .finite r)
    (hr : 0 ≤ r) (hcovers : Covers e' d) :
    Touches e e' ↔ sqrNorm (x - d.x) (y - d.y) ≤ (r + d.radius) ^ 2 := by
  obtain ⟨t', ht', hcircle⟩ := hcovers
  obtain ⟨hposition', hradius'⟩ := Prod.mk.inj hcircle
  have hcheck : checkCircleCollision t.position e.radius t'.position e'.radius =
      .ok (decide (sqrNorm (x - d.x) (y - d.y) ≤ (r + d.radius) ^ 2)) := by
    have hle : (lit 0 : Extended F) ≤ .finite r := lit_zero_le_finite.mpr hr
    have hle' : (lit 0 : Extended F) ≤ .finite d.radius := lit_zero_le_finite.mpr d.radius_nonneg
    unfold checkCircleCollision
    rw [hposition, hposition', hradius, hradius', if_neg (not_not_intro hle),
      if_neg (not_not_intro hle')]
    refine congrArg Except.ok (decide_eq_decide.mpr ?_)
    rw [← sqrDist_eq, sq, ← Extended.finite_le, ← Extended.finite_mul, ← Extended.finite_add,
      ← d.lengthSquared_sub]
    exact Iff.rfl
  constructor
  · rintro ⟨u, u', hu, hu', htouch⟩
    obtain rfl := Option.some.inj (ht.symm.trans hu)
    obtain rfl := Option.some.inj (ht'.symm.trans hu')
    exact of_decide_eq_true (Except.ok.inj (hcheck.symm.trans htouch))
  · intro hle
    exact ⟨t, t', ht, ht', hcheck.trans (congrArg Except.ok (decide_eq_true hle))⟩

/-- The radius of the largest asteroid that fits into what remains of the budget. -/
def largestRadius (remaining : F) : F := ((30 : ℚ) : F) * min ((80 : ℚ) : F) remaining

/-- A disc is farther from a free circle than any asteroid created there reaches. -/
def OutOfReach (x y R remaining : F) (d : Disc F) : Prop :=
  R + largestRadius remaining + d.radius < d.dist x y

theorem not_touches_of_outOfReach (roots : ExactRoots F)
    (hunit : ∀ a : F, sqrNorm (StdMath.cos a) (StdMath.sin a) = 1) {x y R remaining : F}
    {e ship : Entity (Extended F)} (hcreated : CreatedIn x y R remaining e) {d : Disc F}
    (hcovers : Covers ship d) (hreach : OutOfReach x y R remaining d) : ¬ Touches e ship := by
  obtain ⟨-, -, ⟨w, rfl, hmin, hmax, hrest⟩, ⟨a, r, hr, hle, rfl⟩, ht, hradius⟩ := hcreated
  have hradius' : e.radius = .finite (w * ((30 : ℚ) : F)) := hradius
  have hlargest : w * ((30 : ℚ) : F) ≤ largestRadius remaining := by
    rw [largestRadius, mul_comm]
    exact mul_le_mul_of_nonneg_left (le_min hmax hrest) (by norm_num)
  have hsize : 0 ≤ w * ((30 : ℚ) : F) :=
    mul_nonneg (le_trans (by norm_num) hmin) (by norm_num)
  have hopposite : sqrNorm (-StdMath.cos a) (-StdMath.sin a) = 1 := by
    rw [← hunit a, sqrNorm, sqrNorm, neg_sq, neg_sq]
  rw [touches_iff ht rfl hradius' hsize hcovers]
  intro htouch
  -- Back from the asteroid's centre to the centre of the free circle.
  have hback := sqrNorm_push_le (add_nonneg hsize d.radius_nonneg) hr htouch hopposite
  have hcenter : sqrNorm (x - d.x) (y - d.y) ≤ (w * ((30 : ℚ) : F) + d.radius + r) ^ 2 := by
    refine le_trans (le_of_eq ?_) hback
    rw [sqrNorm, sqrNorm]
    ring
  have hdist : d.dist x y ^ 2 = sqrNorm (x - d.x) (y - d.y) := by
    rw [sq, d.dist_mul_self x y roots, sqrDist_eq]
  rw [← hdist, pow_le_pow_iff_left₀ (d.dist_nonneg x y roots)
    (add_nonneg (add_nonneg hsize d.radius_nonneg) hr) two_ne_zero] at hcenter
  unfold OutOfReach at hreach
  linarith

end Draws

section Reals

attribute [local instance] RealScalar.stdMath

/-! ### Draws that hit a ship -/

/-- One asteroid of the largest weight, at a chosen place. -/
noncomputable def aimed (turn share : ℝ) : Uniform (Extended ℝ) := fun n low high =>
  clamp (if n < 2 then MAX_ASTEROID_WEIGHT else if n = 2 then .finite turn else .finite share)
    low high

theorem clamp_finite (v a b : ℝ) :
    clamp (.finite v : Extended ℝ) (.finite a) (.finite b) =
      .finite (if v < a then a else if b < v then b else v) := by
  rw [apply_ite Extended.finite, apply_ite Extended.finite]
  rfl

theorem clamp_of_mem {v a b : ℝ} (hlow : a ≤ v) (hhigh : v ≤ b) :
    clamp (.finite v : Extended ℝ) (.finite a) (.finite b) = .finite v := by
  rw [clamp_finite, if_neg hlow.not_gt, if_neg hhigh.not_gt]

theorem drawsInRange_aimed (turn share : ℝ) : DrawsInRange (aimed turn share) := by
  intro n a b hle
  have hfinite : ∃ v : ℝ, (if n < 2 then MAX_ASTEROID_WEIGHT
      else if n = 2 then .finite turn else .finite share : Extended ℝ) = .finite v := by
    split_ifs
    · exact ⟨_, rfl⟩
    · exact ⟨_, rfl⟩
    · exact ⟨_, rfl⟩
  obtain ⟨v, hv⟩ := hfinite
  refine ⟨_, by rw [aimed, hv, clamp_finite], ?_⟩
  split_ifs with hlow hhigh
  · exact ⟨le_rfl, hle⟩
  · exact ⟨hle, le_rfl⟩
  · exact ⟨not_lt.mp hlow, not_lt.mp hhigh⟩

theorem aimed_weight (turn share : ℝ) {n : ℕ} (hn : n < 2) (remaining : ℝ) :
    aimed turn share n (.finite 10) (.finite remaining) =
      .finite (min ((80 : ℚ) : ℝ) remaining) := by
  have hmax : ¬ ((80 : ℚ) : ℝ) < 10 := by norm_num
  have hclamp := clamp_finite ((80 : ℚ) : ℝ) 10 remaining
  rw [if_neg hmax] at hclamp
  rw [aimed, if_pos hn]
  refine hclamp.trans (congrArg Extended.finite ?_)
  rcases lt_or_ge remaining ((80 : ℚ) : ℝ) with hless | hmore
  · rw [if_pos hless, min_eq_right hless.le]
  · rw [if_neg hmore.not_gt, min_eq_left hmore]

/-- The budget is drawn so that a single weight uses it up. -/
theorem generateAsteroidWeight_aimed (turn share : ℝ) {mass : ℝ} (hroom : 10 ≤ 500 - mass) :
    generateAsteroidWeight (aimed turn share) (.finite mass) =
      [.finite (min ((80 : ℚ) : ℝ) (500 - mass))] := by
  have hmin : (.finite 10 : Extended ℝ) ≤ .finite (min ((80 : ℚ) : ℝ) (500 - mass)) := by
    rw [Extended.finite_le]
    exact le_min (by norm_num) hroom
  have hupper : Scalar.min MAX_ASTEROID_WEIGHT
      (.finite (min ((80 : ℚ) : ℝ) (500 - mass)) : Extended ℝ) =
        .finite (min ((80 : ℚ) : ℝ) (500 - mass)) := by
    refine ite_eq_left_iff.mpr fun hge => ?_
    have hle : ((80 : ℚ) : ℝ) ≤ min ((80 : ℚ) : ℝ) (500 - mass) := not_lt.mp hge
    exact congrArg Extended.finite (hle.antisymm (min_le_left _ _))
  have hspent : ¬ (.finite 10 : Extended ℝ) ≤ .finite 0 := by
    rw [Extended.finite_le]
    norm_num
  have hfull : ¬ (.finite 500 : Extended ℝ) ≤ .finite mass := by
    rw [Extended.finite_le]
    linarith
  have hscarce : ¬ (.finite (500 - mass) : Extended ℝ) < .finite 10 := by
    rw [Extended.finite_lt, not_lt]
    exact hroom
  have hrounds : kMaxRounds = 48 + 1 + 1 := rfl
  unfold generateAsteroidWeight
  rw [minAsteroidsWeight_eq, minAsteroidWeight_eq, Extended.finite_sub, if_neg hfull]
  dsimp only
  rw [if_neg hscarce, aimed_weight turn share zero_lt_two, hrounds, drawWeights,
    minAsteroidWeight_eq, if_pos hmin]
  dsimp only
  rw [hupper, aimed_weight turn share one_lt_two, min_eq_right (min_le_left _ _),
    Extended.finite_sub, sub_self, drawWeights, minAsteroidWeight_eq, if_neg hspent]

theorem generatePositions_aimed {turn share : ℝ} (hturn : 0 ≤ turn) (hturn' : turn ≤ 1)
    (hshare : 0 ≤ share) (hshare' : share ≤ 1) (x y : ℝ) {R : ℝ} (hR : 0 < R) :
    generatePositions (aimed turn share) 2 1 ⟨⟨.finite x, .finite y⟩, .finite R⟩ =
      [⟨.finite (x + R * √share * Real.cos (2 * Real.pi * turn)),
        .finite (y + R * √share * Real.sin (2 * Real.pi * turn))⟩] := by
  have hturned : aimed turn share 2 (lit 0) (lit 1) = .finite turn := by
    rw [lit_zero, lit_one]
    exact clamp_of_mem hturn hturn'
  have hshared : aimed turn share 3 (lit 0) (lit 1) = .finite share := by
    rw [lit_zero, lit_one]
    exact clamp_of_mem hshare hshare'
  have htwo : ((2 : ℚ) : ℝ) = 2 := Rat.cast_ofNat 2
  have hroom : ¬ (1 = 0 ∨ (.finite R : Extended ℝ) ≤ lit 0) :=
    not_or.mpr ⟨one_ne_zero, not_le_lit_zero hR⟩
  unfold generatePositions
  rw [if_neg hroom]
  change [_] = _
  dsimp only [Nat.mul_zero, Nat.add_zero]
  rw [hturned, hshared, sqrt_finite hshare, ← htwo]
  rfl

/-- The pass then creates a single asteroid. -/
theorem update_aimed {pool : EntityPool (Extended ℝ)} (massive : Massive pool)
    (hroom : 10 ≤ 500 - totalMass pool) {turn share : ℝ} (hturn : 0 ≤ turn) (hturn' : turn ≤ 1)
    (hshare : 0 ≤ share) (hshare' : share ≤ 1) (x y : ℝ) {R : ℝ} (hR : 0 < R) :
    AsteroidFactory.update (aimed turn share) ⟨⟨.finite x, .finite y⟩, .finite R⟩ pool =
      createAsteroid pool (.finite (min ((80 : ℚ) : ℝ) (500 - totalMass pool)))
        ⟨.finite (x + R * √share * Real.cos (2 * Real.pi * turn)),
          .finite (y + R * √share * Real.sin (2 * Real.pi * turn))⟩ := by
  have hfull : ¬ (.finite 500 : Extended ℝ) ≤ .finite (totalMass pool) := by
    rw [Extended.finite_le]
    linarith
  unfold AsteroidFactory.update
  rw [calculateCurrentWeight_eq massive]
  dsimp only
  rw [generateAsteroidWeight_aimed _ _ hroom, minAsteroidsWeight_eq, if_neg hfull,
    List.length_singleton, generatePositions_aimed hturn hturn' hshare hshare' x y hR]
  rfl

/-- A ship that is not out of reach is hit by some outcome of the draws. -/
theorem exists_touching {pool : EntityPool (Extended ℝ)} (wf : pool.WellFormed)
    (massive : Massive pool) (hroom : 10 ≤ 500 - totalMass pool) {x y R : ℝ} (hR : 0 < R)
    {ship : Entity (Extended ℝ)} {d : Disc ℝ} (hcovers : Covers ship d)
    (hreach : ¬ OutOfReach x y R (500 - totalMass pool) d) :
    ∃ uniform, DrawsInRange uniform ∧ ∃ i e, pool.at? i = none ∧
      (AsteroidFactory.update uniform ⟨⟨.finite x, .finite y⟩, .finite R⟩ pool).at? i = some e ∧
      Touches e ship := by
  obtain ⟨turn, D, hturn, hturn', hD, hx, hy⟩ := exists_polar (d.x - x) (d.y - y)
  have hunit := unit_heading (2 * Real.pi * turn)
  have hsize : 0 ≤ largestRadius (500 - totalMass pool) :=
    mul_nonneg (by norm_num) (le_min (by norm_num) (by linarith))
  have hdist : d.dist x y = D := by
    have hsquare : d.sqrDist x y = D ^ 2 := by
      rw [sqrDist_eq, sqrNorm_sub_comm, hx, hy]
      exact sqrNorm_unit hunit D
    change √(d.sqrDist x y) = D
    rw [hsquare, Real.sqrt_sq hD]
  have hnear : D ≤ R + (largestRadius (500 - totalMass pool) + d.radius) := by
    unfold OutOfReach at hreach
    rw [hdist] at hreach
    linarith
  obtain ⟨r, hr, hle, hclose⟩ :=
    exists_step_near hunit hD hR.le (add_nonneg hsize d.radius_nonneg) hnear
  -- The draw whose root is the part of the radius that leads there.
  have hshare : 0 ≤ r / R := div_nonneg hr hR.le
  have hshare' : (r / R) ^ 2 ≤ 1 := pow_le_one₀ hshare ((div_le_one hR).mpr hle)
  have hpart : R * √((r / R) ^ 2) = r := by
    rw [Real.sqrt_sq hshare, mul_div_cancel₀ _ hR.ne']
  have hupdate := update_aimed massive hroom hturn hturn' (sq_nonneg (r / R)) hshare' x y hR
  rw [hpart] at hupdate
  obtain ⟨e, hat, ht, hradius⟩ := exists_at?_createAsteroid wf
    (.finite (min ((80 : ℚ) : ℝ) (500 - totalMass pool)))
    ⟨.finite (x + r * Real.cos (2 * Real.pi * turn)),
      .finite (y + r * Real.sin (2 * Real.pi * turn))⟩
  have hradius' : e.radius = .finite (largestRadius (500 - totalMass pool)) := by
    rw [hradius, largestRadius, mul_comm]
    rfl
  refine ⟨aimed turn ((r / R) ^ 2), drawsInRange_aimed _ _, pool.acquire.1, e,
    (EntityPool.placed_acquire wf).empty, by rw [hupdate, hat], ?_⟩
  rw [touches_iff ht rfl hradius' hsize hcovers]
  refine le_trans (le_of_eq ?_) hclose
  have hx' : x + r * Real.cos (2 * Real.pi * turn) - d.x =
      Real.cos (2 * Real.pi * turn) * r - (d.x - x) := by ring
  have hy' : y + r * Real.sin (2 * Real.pi * turn) - d.y =
      Real.sin (2 * Real.pi * turn) * r - (d.y - y) := by ring
  rw [hx', hy', hx, hy]
  rfl

/-! ### Worlds -/

/-- The numbers of live entities are finite, and neither radii nor the masses of asteroids are
negative. -/
structure Solid (pool : EntityPool (Extended ℝ)) : Prop where
  massive : Massive pool
  covers : ∀ {i e t}, pool.at? i = some e → e.isDestroyed = false → e.transform = some t →
    ∃ d, Covers e d

theorem Solid.covered {pool : EntityPool (Extended ℝ)} (h : Solid pool) : Covered pool := by
  intro e he
  unfold collectLiveEntities at he
  rw [List.mem_filter, List.reduceOption_mem_iff, EntityPool.mem_storage] at he
  obtain ⟨⟨i, hat⟩, hlive⟩ := he
  rw [Bool.and_eq_true, Bool.and_eq_true, EntityPool.isActive, Bool.and_eq_true,
    Bool.not_eq_true', Option.isSome_iff_exists] at hlive
  obtain ⟨⟨⟨-, hdestroyed⟩, t, ht⟩, -⟩ := hlive
  exact h.covers hat hdestroyed ht

/-- No asteroid that the factory creates touches a ship that is live, whatever is drawn. -/
def SparesShips (world : World (Extended ℝ)) : Prop :=
  ∀ choice : TickChoice (Extended ℝ), DrawsInRange choice.uniform → ∀ {i e},
    world.entities_.at? i = none →
    (world.maintainAsteroidPopulation choice).entities_.at? i = some e → ∀ {j ship},
      world.entities_.at? j = some ship → ship.LiveShip → ¬ Touches e ship

/-- What the masses of the asteroids leave of their budget. -/
noncomputable def budgetLeft (pool : EntityPool (Extended ℝ)) : ℝ :=
  ((500 : ℚ) : ℝ) - totalMass pool

/-- There is no room or no budget for an asteroid, or every live ship is out of reach of the
free circle. -/
def ShipsOutOfReach (world : World (Extended ℝ)) : Prop :=
  world.freePosition.radius ≤ lit 0 ∨ budgetLeft world.entities_ < ((10 : ℚ) : ℝ) ∨
    ∀ {x y R}, world.freePosition = ⟨⟨.finite x, .finite y⟩, .finite R⟩ → ∀ {j ship},
      world.entities_.at? j = some ship → ship.LiveShip → ∀ {d}, Covers ship d →
        OutOfReach x y R (budgetLeft world.entities_) d

theorem budgetLeft_eq (pool : EntityPool (Extended ℝ)) :
    budgetLeft pool = 500 - totalMass pool := by
  rw [budgetLeft, Rat.cast_ofNat]

section World

variable {world : World (Extended ℝ)} {width height : ℝ}

theorem ShipsOutOfReach.sparesShips (wf : world.entities_.WellFormed)
    (solid : Solid world.entities_) {x y R : ℝ}
    (harea : world.freePosition = ⟨⟨.finite x, .finite y⟩, .finite R⟩)
    (h : ShipsOutOfReach world) : SparesShips world := by
  intro choice hdraws i e hnone hcreated j ship hat hship htouches
  unfold maintainAsteroidPopulation at hcreated
  rw [harea] at hcreated
  obtain ⟨hR, hroom, hin⟩ :=
    createdIn_of_update exactRoots_real hdraws wf solid.massive hnone hcreated
  rw [← budgetLeft_eq] at hroom hin
  rcases h with hfull | hscarce | hreach
  · rw [harea] at hfull
    exact not_le_lit_zero hR hfull
  · rw [Rat.cast_ofNat] at hscarce
    exact hroom.not_gt hscarce
  · obtain ⟨-, t', -, ht', -⟩ := id htouches
    obtain ⟨d, hcovers⟩ := solid.covers hat hship.2 ht'
    exact not_touches_of_outOfReach exactRoots_real unit_heading hin hcovers
      (hreach harea hat hship hcovers) htouches

theorem SparesShips.shipsOutOfReach (wf : world.entities_.WellFormed)
    (massive : Massive world.entities_) (h : SparesShips world) : ShipsOutOfReach world := by
  by_contra hnot
  unfold ShipsOutOfReach at hnot
  push Not at hnot
  obtain ⟨hR, hroom, x, y, R, harea, j, ship, hat, hship, d, hcovers, hreach⟩ := hnot
  rw [harea, finite_le_lit_zero, not_le] at hR
  rw [Rat.cast_ofNat, budgetLeft_eq] at hroom
  rw [budgetLeft_eq] at hreach
  obtain ⟨uniform, hdraws, i, e, hnone, hcreated, htouches⟩ :=
    exists_touching wf massive hroom hR hcovers hreach
  rw [← harea] at hcreated
  exact h ⟨uniform, fun _ => none, id, fun _ => .refl _⟩ hdraws hnone hcreated hat hship htouches

/-- New asteroids keep off the ships under all outcomes of the draws exactly in worlds without
room or budget, and where every live ship is out of reach. -/
theorem sparesShips_iff (wf : world.entities_.WellFormed) (solid : Solid world.entities_)
    (hwidth : world.world_width_ = .finite width) (hheight : world.world_height_ = .finite height)
    (width_pos : 0 < width) (height_pos : 0 < height) :
    SparesShips world ↔ ShipsOutOfReach world := by
  obtain ⟨discs, -, -, hposition⟩ := exists_freePosition hwidth hheight solid.covered
  obtain ⟨x, y, R, hresult, -⟩ :=
    largestEmptyCircle_sound exactRoots_real discs width_pos height_pos
  exact ⟨SparesShips.shipsOutOfReach wf solid.massive,
    ShipsOutOfReach.sparesShips wf solid (hposition.trans hresult)⟩

end World

/-! ### A world with one ship -/

/-- A world of the default size after its first player has joined. -/
noncomputable def lonelyWorld : World (Extended ℝ) :=
  (vacant ((2000 : ℚ) : ℝ) ((2000 : ℚ) : ℝ)).spawnShip ⟨1, []⟩

theorem covers_of_lonelyWorld {e : Entity (Extended ℝ)}
    (he : some e ∈ lonelyWorld.entities_.storage_) :
    e.LiveShip ∧ Covers e (shipDisc 0 0) := by
  rcases (mem_spawnShip EntityPool.wellFormed_empty ⟨1, []⟩).mp he with rfl | hold
  · refine ⟨⟨rfl, rfl⟩, covers_newShip ?_⟩
    rw [freePosition_vacant]
  · cases hold

theorem wellFormed_lonelyWorld : lonelyWorld.entities_.WellFormed :=
  (extends_spawnShip EntityPool.wellFormed_empty _).wellFormed

theorem solid_lonelyWorld : Solid lonelyWorld.entities_ where
  massive hat htype _ := by
    have hship := (covers_of_lonelyWorld (EntityPool.mem_storage.mpr ⟨_, hat⟩)).1.1
    exact absurd (hship.symm.trans htype) EntityType.noConfusion
  covers hat _ _ := ⟨_, (covers_of_lonelyWorld (EntityPool.mem_storage.mpr ⟨_, hat⟩)).2⟩

theorem totalMass_lonelyWorld : totalMass lonelyWorld.entities_ = 0 :=
  (totalMass_acquire_modify EntityPool.wellFormed_empty _).trans (add_zero _)

theorem exists_ship_lonelyWorld : ∃ ship, lonelyWorld.entities_.at? 0 = some ship :=
  ⟨_, rfl⟩

/-- The walls of the world are nearer to the ship than the largest asteroid is wide. -/
theorem not_sparesShips_lonelyWorld : ¬ SparesShips lonelyWorld := by
  intro h
  have hside : (100 : ℝ) ≤ ((2000 : ℚ) : ℝ) := by norm_num
  have hpos : (0 : ℝ) < ((2000 : ℚ) : ℝ) := by norm_num
  obtain ⟨x, y, R, hresult, hR, -, -, -, hx, hy⟩ :=
    largestEmptyCircle_sound exactRoots_real [shipDisc (0 : ℝ) 0] hpos hpos
  have harea : lonelyWorld.freePosition = ⟨⟨.finite x, .finite y⟩, .finite R⟩ :=
    (freePosition_spawnShip_vacant _ _ _).trans hresult
  rcases h.shipsOutOfReach wellFormed_lonelyWorld solid_lonelyWorld.massive with
    hfull | hscarce | hreach
  · -- There is room for an asteroid.
    have hroom := radius_spawnShip_vacant hside hside ⟨1, []⟩
    change _ ≤ lonelyWorld.freePosition.radius at hroom
    rw [harea] at hroom hfull
    rw [lit_zero] at hfull
    have hroom' : (shipRadius : ℝ) ≤ R := hroom
    exact (shipRadius_pos.trans_le hroom').not_ge hfull
  · -- The whole budget is left.
    rw [budgetLeft_eq, totalMass_lonelyWorld] at hscarce
    norm_num at hscarce
  · obtain ⟨ship, hat⟩ := exists_ship_lonelyWorld
    obtain ⟨hship, hcovers⟩ := covers_of_lonelyWorld (EntityPool.mem_storage.mpr ⟨0, hat⟩)
    have hfar := hreach harea hat hship hcovers
    have hsize : (2400 : ℝ) ≤ largestRadius (budgetLeft lonelyWorld.entities_) := by
      rw [budgetLeft_eq, totalMass_lonelyWorld, largestRadius]
      norm_num
    -- No point of the world is as far from the ship as the asteroid reaches.
    have hdist : (shipDisc 0 0).dist x y ≤ 2000 := by
      refine Real.sqrt_le_iff.mpr ⟨by norm_num, ?_⟩
      rw [sqrDist_eq, sqrNorm]
      change (x - 0) ^ 2 + (y - 0) ^ 2 ≤ _
      have hx' := pow_le_pow_left₀ (abs_nonneg x) hx 2
      have hy' := pow_le_pow_left₀ (abs_nonneg y) hy 2
      rw [sq_abs] at hx' hy'
      rw [sub_zero, sub_zero]
      norm_num at hx' hy' ⊢
      linarith
    unfold OutOfReach at hfar
    have hradius := (shipDisc (0 : ℝ) 0).radius_nonneg
    linarith

/-! ### A world with room on its other side -/

/-- A ship at the right edge of a wide world. -/
noncomputable def wideShip : Entity (Extended ℝ) → Entity (Extended ℝ) :=
  outfitShip ⟨⟨.finite 9000, .finite 0⟩, .finite 1000⟩ []

noncomputable def wideWorld : World (Extended ℝ) :=
  { vacant 20000 3000 with
    entities_ := (vacant 20000 3000).entities_.acquire.2.modify
      (vacant 20000 3000).entities_.acquire.1 wideShip }

theorem wellFormed_wideWorld : wideWorld.entities_.WellFormed :=
  (EntityPool.extends_acquire_modify (P := fun e => e.type = .Ship) EntityPool.wellFormed_empty
    (f := wideShip) (fun _ => rfl) rfl).wellFormed

theorem covers_of_wideWorld {e : Entity (Extended ℝ)}
    (he : some e ∈ wideWorld.entities_.storage_) : e.LiveShip ∧ Covers e (shipDisc 9000 0) := by
  obtain rfl := Option.some.inj (List.mem_singleton.mp he)
  exact ⟨⟨rfl, rfl⟩, _, rfl, rfl⟩

theorem solid_wideWorld : Solid wideWorld.entities_ where
  massive hat htype _ := by
    have hship := (covers_of_wideWorld (EntityPool.mem_storage.mpr ⟨_, hat⟩)).1.1
    exact absurd (hship.symm.trans htype) EntityType.noConfusion
  covers hat _ _ := ⟨_, (covers_of_wideWorld (EntityPool.mem_storage.mpr ⟨_, hat⟩)).2⟩

theorem totalMass_wideWorld : totalMass wideWorld.entities_ = 0 :=
  (totalMass_acquire_modify EntityPool.wellFormed_empty _).trans (add_zero _)

theorem freePosition_wideWorld : wideWorld.freePosition =
    largestEmptyCircle ([shipDisc 9000 0].map Disc.circle) (.finite 20000) (.finite 3000) := by
  have hlive : collectLiveEntities wideWorld.entities_ =
      wideWorld.entities_.storage_.reduceOption :=
    List.filter_cons_of_pos (not_decide_of_not not_kShipDefaultRadius_le)
  have hoccupied : occupied wideWorld.entities_ = [shipDisc 9000 0].map Disc.circle := by
    rw [occupied, hlive]
    rfl
  rw [← hoccupied]
  rfl

/-- The free circle lies in the left half of the world. -/
theorem exists_area_wideWorld : ∃ x y R : ℝ,
    wideWorld.freePosition = ⟨⟨.finite x, .finite y⟩, .finite R⟩ ∧ x ≤ 0 ∧ 900 ≤ R ∧
      R ≤ 1500 := by
  have hship : (shipRadius : ℝ) = 5 := by norm_num [shipRadius]
  obtain ⟨x, y, R, hresult, -, hx, hy, -⟩ := largestEmptyCircle_sound exactRoots_real
    [shipDisc (9000 : ℝ) 0] (by norm_num : (0 : ℝ) < 20000) (by norm_num : (0 : ℝ) < 3000)
  obtain ⟨R', hradius, hle⟩ := clearanceAt_le_radius (20000 : ℝ) 3000
    (List.cons_ne_nil (shipDisc 9000 0) [])
  have hcenter := center_mem_tried [shipDisc (9000 : ℝ) 0] 20000 3000
  rw [hresult] at hcenter hradius
  obtain rfl : R = R' := Extended.finite.inj hradius
  have hcount : (tried [shipDisc (9000 : ℝ) 0] (20000 / 2) (3000 / 2)).length = 5 := rfl
  have horigin : (1000 : ℝ) ≤ clearanceAt [shipDisc 9000 0] (20000 / 2) (3000 / 2)
      Vector2D.zero := by
    rw [zero_eq]
    apply (le_clearance_iff exactRoots_real (by norm_num)).mpr
    refine ⟨by norm_num, by norm_num, fun d hd => ?_⟩
    rw [List.mem_singleton.mp hd]
    refine Real.le_sqrt_of_sq_le ?_
    change (1000 + shipRadius) ^ 2 ≤ (0 - 9000 : ℝ) * (0 - 9000) + (0 - 0) * (0 - 0)
    rw [hship]
    norm_num
  have hbest := horigin.trans (hle _ (List.mem_append_right _ (List.mem_singleton_self _)))
  rw [hcount] at hbest
  norm_num [margin, eps] at hbest
  refine ⟨x, y, R, freePosition_wideWorld.trans hresult, ?_, by linarith, ?_⟩
  · simp only [tried, List.map_cons, List.map_nil, candidates, List.flatMap_nil, List.nil_append,
      List.append_nil, edgeCandidates, List.mem_append, List.mem_cons, List.not_mem_nil, or_false]
      at hcenter
    -- Right of the ship, above and below it there is less room.
    rcases hcenter with (hright | hleft | hup | hdown) | hzero
    · have hx' : x = 9000 + (20000 / 2 + -9000 + shipRadius) * ((1 / 2 : ℚ) : ℝ) :=
        congrArg (fun v => v.x.value) hright
      norm_num [hship] at hx'
      rw [hx', abs_of_pos (by norm_num)] at hx
      linarith
    · have hx' : x = 9000 + -((20000 / 2 + 9000 + shipRadius) * ((1 / 2 : ℚ) : ℝ)) :=
        congrArg (fun v => v.x.value) hleft
      norm_num [hship] at hx'
      linarith
    · have hy' : y = 0 + (3000 / 2 + -0 + shipRadius) * ((1 / 2 : ℚ) : ℝ) :=
        congrArg (fun v => v.y.value) hup
      norm_num [hship] at hy'
      rw [hy', abs_of_pos (by norm_num)] at hy
      linarith
    · have hy' : y = 0 + -((3000 / 2 + 0 + shipRadius) * ((1 / 2 : ℚ) : ℝ)) :=
        congrArg (fun v => v.y.value) hdown
      norm_num [hship] at hy'
      rw [hy', abs_of_neg (by norm_num)] at hy
      linarith
    · rw [zero_eq] at hzero
      cases hzero
      exact le_rfl
  · linarith [abs_nonneg y]

/-- There is room for asteroids, and the whole budget is left for them, but none of them reaches
the ship. -/
theorem sparesShips_wideWorld :
    ¬ wideWorld.freePosition.radius ≤ lit 0 ∧ budgetLeft wideWorld.entities_ = 500 ∧
      SparesShips wideWorld := by
  obtain ⟨x, y, R, harea, hx, hlow, hhigh⟩ := exists_area_wideWorld
  have hbudget : budgetLeft wideWorld.entities_ = 500 := by
    rw [budgetLeft_eq, totalMass_wideWorld, sub_zero]
  have hwidth : (0 : ℝ) < 20000 := by norm_num
  have hheight : (0 : ℝ) < 3000 := by norm_num
  refine ⟨?_, hbudget, (sparesShips_iff wellFormed_wideWorld solid_wideWorld rfl rfl hwidth
    hheight).mpr (Or.inr (Or.inr ?_))⟩
  · rw [harea]
    exact not_le_lit_zero (by linarith)
  intro x' y' R' harea' j ship hat hship d hcovers
  cases harea.symm.trans harea'
  obtain rfl := (covers_of_wideWorld (EntityPool.mem_storage.mpr ⟨j, hat⟩)).2.unique hcovers
  have hreach : largestRadius (500 : ℝ) ≤ 2400 := by norm_num [largestRadius]
  have hship : (shipDisc (9000 : ℝ) 0).radius = 5 := by norm_num [shipDisc, shipRadius]
  have hdist : (9000 : ℝ) ≤ (shipDisc 9000 0).dist x y := by
    refine Real.le_sqrt_of_sq_le ?_
    change (9000 : ℝ) ^ 2 ≤ (x - 9000) * (x - 9000) + (y - 0) * (y - 0)
    nlinarith [mul_self_nonneg (y - 0)]
  rw [OutOfReach, hbudget, hship]
  linarith

end Reals

end SpaceShooter.Server.World
