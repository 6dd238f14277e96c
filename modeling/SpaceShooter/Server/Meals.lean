/-
# Meals

A ship that meets an asteroid eats all of it or none: which of the two happens is decided
before anything is written. A ship is destroyed by a meal only when it has no room for the
radius that its new mass pays for.
-/

import SpaceShooter.Server.Growth

namespace SpaceShooter.Server.World

open Scalar Domain Library Math Entity

variable {F : Type} [Field F] [LinearOrder F] [StdMath F]

/-! ### What a meal is -/

/-- An asteroid that a ship can eat: both are valid and damageable, and the asteroid weighs
between a fifth and half of the ship. -/
structure Edible (ship asteroid : Entity (Extended F)) : Prop where
  valid : ship.isValid = true ∧ asteroid.isValid = true
  damageable : ship.isDamageable = true ∧ asteroid.isDamageable = true
  massive : lit 0 < ship.mass ∧ lit 0 < asteroid.mass
  heavy : lit (1 / 5) < asteroid.mass / ship.mass
  light : asteroid.mass / ship.mass < lit (1 / 2)

/-- The asteroid is gone, and the ship has got its mass and the reward for it. -/
structure Eaten (ship asteroid ship' asteroid' : Entity (Extended F)) : Prop where
  destroyed : asteroid.isDestroyed = false ∧ asteroid' = { asteroid with isDestroyed := true }
  mass : ship'.mass = ship.mass + asteroid.mass
  score : ∀ {s a}, ship.ship = some s → asteroid.asteroid = some a → ∃ s',
    ship'.ship = some s' ∧
      s'.score.toNat = min (s.score.toNat + a.score_reward.toNat) (2 ^ 32 - 1)
  unrewarded : ship.ship = none ∨ asteroid.asteroid = none → ship'.ship = ship.ship
  health : ship'.health = ship.health

/-- A level that the mass of both pays for, after levels that had room, is refused: around
the clamped position its disc touches two opposite walls. -/
def OutOfRoom (width height : F) (world : World (Extended F))
    (ship asteroid : Entity (Extended F)) : Prop :=
  ∃ m a r t k, TakesIn ship asteroid.mass m a r t ∧
    (∀ j < k, ¬ StopsAt world.can_grow r t.position .CanGrow (m + a) j) ∧
    levelMass r k ≤ m + a ∧
    ∃ x y, clampToWorldBounds (asked world.can_grow r t.position .CanGrow k).1 (.finite width)
        (.finite height) = ⟨.finite x, .finite y⟩ ∧
      MeetsOppositeWalls width height (levelRadius r (k + 1)) x y

/-! ### The score -/

omit [Field F] [LinearOrder F] [StdMath F] in
/-- The score saturates. -/
theorem toNat_addScore (s : ShipComponent (Extended F)) (reward : UInt16) :
    (addScore s reward.toUInt32).score.toNat =
      min (s.score.toNat + reward.toNat) (2 ^ 32 - 1) := by
  have hscore := s.score.toNat_lt
  have hmax : (0xFFFFFFFF : UInt32).toNat = 2 ^ 32 - 1 := rfl
  have hle : s.score ≤ 0xFFFFFFFF := by
    rw [UInt32.le_iff_toNat_le, hmax]
    omega
  have hroom : (0xFFFFFFFF - s.score).toNat = 2 ^ 32 - 1 - s.score.toNat := by
    rw [UInt32.toNat_sub_of_le _ _ hle, hmax]
  unfold addScore maxScore
  dsimp only
  split_ifs with hfull
  · rw [UInt32.lt_iff_toNat_lt, hroom, UInt16.toNat_toUInt32] at hfull
    omega
  · rw [UInt32.lt_iff_toNat_lt, hroom, UInt16.toNat_toUInt32] at hfull
    rw [UInt32.toNat_add, UInt16.toNat_toUInt32, Nat.mod_eq_of_lt (by omega)]
    omega

variable {width height : F} {world : World (Extended F)} {ship asteroid : Entity (Extended F)}

/-! ### Room -/

section Room

variable [IsStrictOrderedRing F] (hw : world.world_width_ = .finite width)
  (hh : world.world_height_ = .finite height) (hwidth : 0 < width) (hheight : 0 < height)
include hw hh hwidth hheight

theorem meetsOppositeWalls_of_cannotFit {v : Vector2D (Extended F)} {ρ : F} (hρ : 0 ≤ ρ)
    (h : (world.tryGrowShip v (.finite ρ)).1 = .CannotFit) :
    ∃ x y, clampToWorldBounds v (.finite width) (.finite height) = ⟨.finite x, .finite y⟩ ∧
      MeetsOppositeWalls width height ρ x y := by
  unfold tryGrowShip at h
  dsimp only at h
  split_ifs at h with hvalid hmeets
  simp only [Bool.or_eq_true, Bool.not_eq_true', not_or, Bool.not_eq_false] at hvalid
  have hv : FinitePoint v :=
    ⟨isFinite_of_isfinite hvalid.1.1.1.1.1.1.1, isFinite_of_isfinite hvalid.1.1.1.1.1.1.2⟩
  obtain ⟨x, y, hclamped, -, -⟩ :=
    (finite_clampToWorldBounds hv ⟨width, rfl⟩ ⟨height, rfl⟩).exists_lengthSquared
  rw [hw, hh, hclamped, circleIntersectsOppositeWorldBounds_iff hρ hwidth hheight] at hmeets
  exact ⟨x, y, hclamped, hmeets⟩

/-- A growth that ends without room has ended at a level that was refused. -/
theorem outOfRoom_of_endsAt {r m : F} {position : Vector2D (Extended F)} {k asks : ℕ}
    (hr : 0 < r) (hpasses : ∀ j < k, ¬ StopsAt world.can_grow r position .CanGrow m j)
    (hends : EndsAt world.can_grow r position .CanGrow m k asks)
    (hstatus : (asked world.can_grow r position .CanGrow asks).2 = .CannotFit) :
    levelMass r k ≤ m ∧
      ∃ x y, clampToWorldBounds (asked world.can_grow r position .CanGrow k).1 (.finite width)
          (.finite height) = ⟨.finite x, .finite y⟩ ∧
        MeetsOppositeWalls width height (levelRadius r (k + 1)) x y := by
  -- The status is that of the last question, and what was accepted was not refused.
  have hasked : asks ≠ k := by
    rintro rfl
    cases asks with
    | zero => exact GrowStatus.noConfusion hstatus
    | succ j =>
      have haccepted := hpasses j j.lt_succ_self
      rw [StopsAt, not_or, Bool.not_eq_false] at haccepted
      have hcan : (asked world.can_grow r position .CanGrow (j + 1)).2 = .CanGrow :=
        of_decide_eq_true haccepted.2
      exact GrowStatus.noConfusion (hcan.symm.trans hstatus)
  have hradius : 0 ≤ levelRadius r (k + 1) := by
    rw [levelRadius_eq]
    exact mul_nonneg hr.le (pow_nonneg zero_le_two _)
  cases hends with
  | refused hpays _ =>
    exact ⟨hpays, meetsOppositeWalls_of_cannotFit hw hh hwidth hheight hradius hstatus⟩
  | light _ => exact absurd rfl hasked
  | large _ => exact absurd rfl hasked

end Room

/-! ### Edible asteroids -/

/-- The values of a valid entity. -/
theorem values_of_isValid {e : Entity (Extended F)} (h : e.isValid = true) :
    e.isDestroyed = false ∧ e.transform.isSome = true ∧ e.mass.IsFinite ∧ e.radius.IsFinite := by
  unfold isValid at h
  simp only [Bool.and_eq_true, Bool.not_eq_true', decide_eq_true_eq] at h
  exact ⟨h.1.1.1.1.1.2, h.1.1.1.1.2, isFinite_of_isfinite h.1.1.1.2, isFinite_of_isfinite h.1.2⟩

/-- The comparisons of the rule, for valid entities. -/
theorem edible_iff (hship : ship.isValid = true) (hasteroid : asteroid.isValid = true)
    (hdamageable : ship.isDamageable = true ∧ asteroid.isDamageable = true) :
    Edible ship asteroid ↔
      ¬ (ship.mass ≤ lit 0 ∨ asteroid.mass ≤ lit 0) ∧
        ¬ asteroid.mass / ship.mass ≤ lit (1 / 5) ∧ asteroid.mass / ship.mass < lit (1 / 2) := by
  have hm := (values_of_isValid hship).2.2.1
  have ha := (values_of_isValid hasteroid).2.2.1
  have hmassive : ¬ (ship.mass ≤ lit 0 ∨ asteroid.mass ≤ lit 0) ↔
      lit 0 < ship.mass ∧ lit 0 < asteroid.mass := by
    rw [not_or, hm.not_le (isFinite_lit 0), ha.not_le (isFinite_lit 0)]
  have hratio (hpos : lit 0 < ship.mass) : (asteroid.mass / ship.mass).IsFinite := by
    obtain ⟨m, hm⟩ := hm
    obtain ⟨a, ha⟩ := ha
    rw [hm, lit_zero_lt_finite] at hpos
    rw [hm, ha, Extended.finite_div a hpos.ne']
    exact ⟨a / m, rfl⟩
  rw [hmassive]
  constructor
  · intro h
    refine ⟨h.massive, ?_, h.light⟩
    rw [(hratio h.massive.1).not_le (isFinite_lit _)]
    exact h.heavy
  · rintro ⟨hpos, hheavy, hlight⟩
    rw [(hratio hpos.1).not_le (isFinite_lit _)] at hheavy
    exact ⟨⟨hship, hasteroid⟩, hdamageable, hpos, hheavy, hlight⟩

section Rule

variable {γ : Type} {can_grow : GrowthPredicate F γ} {g : γ}

theorem eatAsteroid_of_not_edible (hinedible : ¬ Edible ship asteroid) :
    Collision.eatAsteroid can_grow ship asteroid g = (ship, asteroid, g) := by
  unfold Collision.eatAsteroid
  dsimp only
  split
  · rfl
  · split
    · rfl
    next hvalid =>
    split
    · rfl
    next hdamageable =>
    split
    · rfl
    next hmassive =>
    split
    · rfl
    next hheavy =>
    split
    · next hlight =>
      -- No guard has refused the asteroid.
      simp only [Bool.or_eq_true, Bool.not_eq_true', not_or, Bool.not_eq_false, decide_eq_true_eq]
        at hvalid hdamageable hmassive
      rw [edible_iff hvalid.1 hvalid.2 hdamageable, not_or] at hinedible
      exact absurd ⟨hmassive, hheavy, hlight⟩ hinedible
    · rfl

/-- A ship that takes in the mass of an edible asteroid gets the reward for it. -/
theorem eatAsteroid_of_edible (hship : ship.type = .Ship) (hasteroid : asteroid.type = .Asteroid)
    (h : Edible ship asteroid) {fed : Entity (Extended F)} {g' : γ}
    (hadd : ship.addMass asteroid.mass can_grow g = (true, fed, g')) :
    ∃ s, Collision.eatAsteroid can_grow ship asteroid g =
        ({ fed with ship := s }, { asteroid with isDestroyed := true }, g') ∧
      (∀ {s' a}, fed.ship = some s' → asteroid.asteroid = some a →
        s = some (addScore s' a.score_reward.toUInt32)) ∧
      (fed.ship = none ∨ asteroid.asteroid = none → s = fed.ship) := by
  have htype : (decide (ship.type ≠ .Ship) || decide (asteroid.type ≠ .Asteroid)) = false := by
    rw [hship, hasteroid]
    rfl
  have hvalid : (!ship.isValid || !asteroid.isValid) = false := by
    rw [h.valid.1, h.valid.2]
    rfl
  have hdamageable : (!ship.isDamageable || !asteroid.isDamageable) = false := by
    rw [h.damageable.1, h.damageable.2]
    rfl
  obtain ⟨hmassive, hheavy, hlight⟩ := (edible_iff h.valid.1 h.valid.2 h.damageable).mp h
  unfold Collision.eatAsteroid
  rw [htype, if_neg Bool.false_ne_true, hvalid, if_neg Bool.false_ne_true, hdamageable,
    if_neg Bool.false_ne_true, if_neg (by simpa using hmassive)]
  dsimp only
  rw [if_neg hheavy, if_pos hlight, hadd]
  dsimp only
  rw [if_pos rfl]
  split
  · next s a hs ha =>
    refine ⟨some (addScore s a.score_reward.toUInt32), rfl, fun hs' ha' => ?_, fun hnone => ?_⟩
    · rw [Option.some.inj (hs.symm.trans hs'), Option.some.inj (ha.symm.trans ha')]
    · rw [hs, ha] at hnone
      rcases hnone with hnone | hnone <;> cases hnone
  · next hnone =>
    exact ⟨fed.ship, rfl, fun hs ha => (hnone _ _ hs ha).elim, fun _ => rfl⟩

end Rule

/-! ### All or nothing -/

/-- What becomes of a ship and an asteroid that meet. -/
structure Dines (width height : F) (world : World (Extended F))
    (ship asteroid ship' asteroid' : Entity (Extended F)) : Prop where
  all : Edible ship asteroid → Eaten ship asteroid ship' asteroid'
  nothing : ¬ Edible ship asteroid → ship' = ship ∧ asteroid' = asteroid
  flagged : ship.isDestroyed = false → ship'.isDestroyed = true →
    Edible ship asteroid ∧ OutOfRoom width height world ship asteroid

theorem dines_of_meal [IsStrictOrderedRing F] (std : StandardMath F)
    (hw : world.world_width_ = .finite width) (hh : world.world_height_ = .finite height)
    (hwidth : 0 < width) (hheight : 0 < height) {i j : ℕ} (hij : i ≠ j)
    (hi : world.entities_.at? i = some ship) (hj : world.entities_.at? j = some asteroid)
    (hship : ship.type = .Ship) (hasteroid : asteroid.type = .Asteroid)
    (hradius : lit 0 < ship.radius) :
    ∃ ship' asteroid', Dines width height world ship asteroid ship' asteroid' ∧
      (∀ k, (world.onCollisionShipAsteroid i ship j asteroid).entities_.at? k =
        if k = i then some ship' else if k = j then some asteroid' else world.entities_.at? k) := by
  have hrule : Collision.onCollisionShipAsteroid world.can_grow ship asteroid .CanGrow =
      Collision.eatAsteroid world.can_grow ship asteroid .CanGrow := by
    unfold Collision.onCollisionShipAsteroid
    rw [hship, hasteroid]
    rfl
  unfold onCollisionShipAsteroid
  rw [hrule]
  by_cases hedible : Edible ship asteroid
  · obtain ⟨hlive, htransform, ⟨m, hm⟩, r, hr⟩ := values_of_isValid hedible.valid.1
    obtain ⟨-, -, ⟨a, ha⟩, -⟩ := values_of_isValid hedible.valid.2
    obtain ⟨t, ht⟩ := Option.isSome_iff_exists.mp htransform
    have hm0 : 0 < m := lit_zero_lt_finite.mp (hm ▸ hedible.massive.1)
    have ha0 : 0 < a := lit_zero_lt_finite.mp (ha ▸ hedible.massive.2)
    have hr0 : 0 < r := lit_zero_lt_finite.mp (hr ▸ hradius)
    -- Eating means growing with both masses.
    have htakes : TakesIn ship asteroid.mass m a r t :=
      ⟨hship, hm, hm0.le, hr, hr0, ht, ha, ha0.le⟩
    have hfuel : StdMath.max / 2 < r * 2 ^ doublings ship.radius := by
      rw [hr]
      exact std.doublings hr0
    obtain ⟨k, asks, hpasses, hends, hgrow⟩ := grow_levels
      (e := { ship with mass := .finite (m + a) }) world.can_grow .CanGrow rfl hr ht hfuel
    obtain ⟨s, heats, hscored, hunscored⟩ := eatAsteroid_of_edible hship hasteroid hedible
      ((htakes.addMass GrowStatus.CanGrow).trans hgrow)
    have heaten (b : Bool) : Eaten ship asteroid
        { ship with
          mass := .finite (m + a)
          radius := .finite (levelRadius r k)
          transform := some { t with
            position := (asked world.can_grow r t.position .CanGrow asks).1 }
          ship := s
          isDestroyed := b } { asteroid with isDestroyed := true } :=
      ⟨⟨(values_of_isValid hedible.valid.2).1, rfl⟩, by rw [hm, ha]; rfl,
        fun hs ha => ⟨_, hscored hs ha, toNat_addScore _ _⟩, hunscored, rfl⟩
    rw [heats]
    dsimp only
    -- The ship is flagged only if the growth has found no room.
    by_cases hstatus : (asked world.can_grow r t.position .CanGrow asks).2 = .CannotFit
    · obtain ⟨hpays, hmeets⟩ :=
        outOfRoom_of_endsAt hw hh hwidth hheight hr0 hpasses hends hstatus
      rw [if_pos hstatus]
      exact ⟨_, _, ⟨fun _ => heaten true, fun h => absurd hedible h, fun _ _ =>
        ⟨hedible, m, a, r, t, k, htakes, hpasses, hpays, hmeets⟩⟩, at?_writePair hij hi hj _ _⟩
    · rw [if_neg hstatus]
      refine ⟨_, _, ⟨fun _ => heaten ship.isDestroyed, fun h => absurd hedible h,
        fun hlive hflagged => ?_⟩, at?_writePair hij hi hj _ _⟩
      exact Bool.noConfusion (hlive.symm.trans hflagged)
  · rw [eatAsteroid_of_not_edible hedible]
    dsimp only
    rw [if_neg GrowStatus.noConfusion]
    refine ⟨ship, asteroid, ⟨fun h => absurd h hedible, fun _ => ⟨rfl, rfl⟩,
      fun hlive hflagged => ?_⟩, at?_writePair hij hi hj ship asteroid⟩
    exact Bool.noConfusion (hlive.symm.trans hflagged)

section Exact

attribute [local instance] RationalScalar.stdMath

/-- A ship as it is spawned, but heavier. -/
def heavyShip : Entity (Extended ℚ) :=
  { outfitShip ⟨⟨lit 0, lit 0⟩, lit 0⟩ [] (fresh 0) with mass := .finite 300 }

/-- An asteroid of a third of its mass. -/
def ripeAsteroid : Entity (Extended ℚ) :=
  { fresh 1 with
    type := .Asteroid
    mass := .finite 100
    radius := .finite 3
    transform := some ⟨⟨lit 0, lit 0⟩, ⟨lit 0, lit 0⟩, lit 0⟩
    asteroid := some ⟨100⟩
    health := some {} }

/-- Both in a world that is too narrow for the next radius of the ship. -/
def crampedMeal : World (Extended ℚ) where
  world_width_ := .finite 15
  world_height_ := .finite 15
  entities_ := { storage_ := [some heavyShip, some ripeAsteroid] }

/-- The ship eats the asteroid and is destroyed. -/
theorem dines_crampedMeal :
    ∃ ship' asteroid', Edible heavyShip ripeAsteroid ∧
      Dines 15 15 crampedMeal heavyShip ripeAsteroid ship' asteroid' ∧
      ship'.isDestroyed = true := by
  have hside : (0 : ℚ) < 15 := by norm_num
  have hedible : Edible heavyShip ripeAsteroid := by constructor <;> decide +kernel
  obtain ⟨ship', asteroid', hdines, hslots⟩ := dines_of_meal standardMath_rational
    (rfl : crampedMeal.world_width_ = .finite 15) rfl hside hside zero_ne_one
    (rfl : crampedMeal.entities_.at? 0 = some heavyShip)
    (rfl : crampedMeal.entities_.at? 1 = some ripeAsteroid) rfl rfl (by decide +kernel)
  have hflagged : ((crampedMeal.onCollisionShipAsteroid 0 heavyShip 1 ripeAsteroid).entities_.at?
      0).map (·.isDestroyed) = some true := by decide +kernel
  rw [hslots 0] at hflagged
  exact ⟨ship', asteroid', hedible, hdines, Option.some.inj hflagged⟩

end Exact

end SpaceShooter.Server.World
