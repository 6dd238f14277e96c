/-
# The condition of ships

In exact arithmetic every live ship weighs less than six of the heaviest asteroids: it eats
only what weighs more than a fifth of it. This module has the condition of a live ship and of
the entities around it, and what movement and the collision rules keep of it.
-/

import SpaceShooter.Server.CollisionPass
import SpaceShooter.Server.ShipBounds

namespace SpaceShooter.Server.World

open Scalar Domain Library Library.Outcome Math

variable {F : Type} [Field F] [LinearOrder F] [StdMath F]

/-! ### Conditions -/

/-- What the standard library promises of its constants, and that the rounds of the growth
loop do not run out before its bound on the radius is reached. -/
structure StandardMath (F : Type) [Field F] [LinearOrder F] [StdMath F] : Prop where
  three_lt_pi : 3 < (StdMath.pi : F)
  le_max : 10 ^ 37 ≤ (StdMath.max : F)
  doublings : ∀ {a : F}, 0 < a → StdMath.max / 2 < a * 2 ^ StdMath.doublings a

section Exact

attribute [local instance] RationalScalar.stdMath

theorem standardMath_rational : StandardMath ℚ where
  three_lt_pi := by
    change (3 : ℚ) < 884279719003555 / 281474976710656
    norm_num
  le_max := RationalScalar.ten_pow_le_max
  doublings := RationalScalar.half_max_lt_doublings

end Exact

/-- The condition of every live ship. -/
structure Hale (e : Entity (Extended F)) : Prop where
  transform : e.transform.isSome = true
  ship : e.ship.isSome = true
  combat : e.combat.isSome = true
  health : ∃ health, e.health = some health ∧ 0 < health.current ∧
    health.current ≤ health.max ∧ health.max = 100
  build : ∃ m, e.mass = .finite m ∧ 7854 / 100 ≤ m ∧ m < 480 ∧
    e.radius = .finite (if m < 100 * StdMath.pi then 5 else 10)

/-- An entity with finite components and a positive radius, that is no more than the heaviest
asteroid if it is one. -/
structure Formed (e : Entity (Extended F)) : Prop where
  mass : e.mass.IsFinite
  radius : ∃ r, e.radius = .finite r ∧ 0 < r
  engine : ∀ {s}, e.ship = some s → s.thrust_power.IsFinite ∧ s.drag.IsFinite
  motion : ∀ {t}, e.transform = some t →
    FinitePoint t.position ∧ FinitePoint t.velocity ∧ t.angle.IsFinite
  asteroid : e.type = .Asteroid → ∃ m, e.mass = .finite m ∧ m ≤ 80

structure Sturdy (e : Entity (Extended F)) : Prop extends Formed e where
  live : e.LiveShip → Hale e

variable {e : Entity (Extended F)}

omit [StdMath F] in
theorem Formed.flag (h : Formed e) : Formed { e with isDestroyed := true } :=
  ⟨h.mass, h.radius, h.engine, h.motion, h.asteroid⟩

theorem Sturdy.flag (h : Sturdy e) : Sturdy { e with isDestroyed := true } :=
  ⟨h.toFormed.flag, fun hlive => (by cases hlive.2)⟩

omit [StdMath F] in
theorem Formed.place (h : Formed e) {t : TransformComponent (Extended F)}
    (ht : FinitePoint t.position ∧ FinitePoint t.velocity ∧ t.angle.IsFinite) :
    Formed { e with transform := some t } := by
  refine ⟨h.mass, h.radius, h.engine, fun heq => ?_, h.asteroid⟩
  obtain rfl := Option.some.inj heq
  exact ht

theorem Hale.place (h : Hale e) (t : TransformComponent (Extended F)) :
    Hale { e with transform := some t } :=
  ⟨rfl, h.ship, h.combat, h.health, h.build⟩

/-- A new place, speed and angle for an entity. -/
theorem Sturdy.place (h : Sturdy e) {t : TransformComponent (Extended F)}
    (ht : FinitePoint t.position ∧ FinitePoint t.velocity ∧ t.angle.IsFinite) :
    Sturdy { e with transform := some t } :=
  ⟨h.toFormed.place ht, fun hlive => (h.live hlive).place t⟩

omit [StdMath F] in
theorem Formed.score (h : Formed e) {s s' : ShipComponent (Extended F)} (hs : e.ship = some s)
    (hengine : s'.thrust_power = s.thrust_power ∧ s'.drag = s.drag) :
    Formed { e with ship := some s' } := by
  refine ⟨h.mass, h.radius, fun heq => ?_, h.motion, h.asteroid⟩
  obtain rfl := Option.some.inj heq
  rw [hengine.1, hengine.2]
  exact h.engine hs

theorem Hale.score (h : Hale e) (s : ShipComponent (Extended F)) :
    Hale { e with ship := some s } :=
  ⟨h.transform, rfl, h.combat, h.health, h.build⟩

theorem Sturdy.score (h : Sturdy e) {s s' : ShipComponent (Extended F)} (hs : e.ship = some s)
    (hengine : s'.thrust_power = s.thrust_power ∧ s'.drag = s.drag) :
    Sturdy { e with ship := some s' } :=
  ⟨h.toFormed.score hs hengine, fun hlive => (h.live hlive).score s'⟩

/-! ### Damage -/

theorem applyDamage_spec (health : HealthComponent) (damage : UInt16) :
    (applyDamage health damage).max = health.max ∧
      (applyDamage health damage).current ≤ health.current := by
  unfold applyDamage
  split_ifs with hle
  · exact ⟨rfl, UInt16.zero_le⟩
  · refine ⟨rfl, ?_⟩
    rw [UInt16.not_le] at hle
    exact UInt16.sub_le (UInt16.le_of_lt hle)

/-- A ship that survives a damage is in the condition it was in. -/
theorem Sturdy.damage (h : Sturdy e) {health : HealthComponent} (hhealth : e.health = some health)
    (damage : UInt16) :
    Sturdy { e with
      health := some (applyDamage health damage)
      isDestroyed := e.isDestroyed || !isAlive (applyDamage health damage) } := by
  obtain ⟨hmax, hle⟩ := applyDamage_spec health damage
  generalize applyDamage health damage = left at hmax hle
  refine ⟨⟨h.mass, h.radius, h.engine, h.motion, h.asteroid⟩, fun hlive => ?_⟩
  obtain ⟨hdestroyed, halive⟩ := Bool.or_eq_false_iff.mp hlive.2
  -- It was alive before, and it is alive now.
  have hhale := h.live ⟨hlive.1, hdestroyed⟩
  obtain ⟨old, hold, -, hcurrent, hhundred⟩ := hhale.health
  obtain rfl := Option.some.inj (hhealth.symm.trans hold)
  have hpos : 0 < left.current := by
    rw [Bool.not_eq_false'] at halive
    exact of_decide_eq_true halive
  exact ⟨hhale.transform, hhale.ship, hhale.combat,
    ⟨left, rfl, hpos, hmax ▸ UInt16.le_trans hle hcurrent, hmax.trans hhundred⟩, hhale.build⟩

/-- Two ships that meet. -/
theorem sturdy_onCollisionShipShip {ship1 ship2 : Entity (Extended F)} (h1 : Sturdy ship1)
    (h2 : Sturdy ship2) :
    Sturdy (Collision.onCollisionShipShip ship1 ship2).1 ∧
      Sturdy (Collision.onCollisionShipShip ship1 ship2).2 := by
  unfold Collision.onCollisionShipShip
  split
  · exact ⟨h1, h2⟩
  · split
    · exact ⟨h1, h2⟩
    · split
      · exact ⟨h1, h2⟩
      · split
        · next s1 s2 health1 health2 hs1 hs2 hhealth1 hhealth2 =>
          -- The score changes, then the health.
          have hdamaged {ship : Entity (Extended F)} {s s' : ShipComponent (Extended F)}
              {health : HealthComponent} (h : Sturdy ship) (hs : ship.ship = some s)
              (hhealth : ship.health = some health)
              (hengine : s'.thrust_power = s.thrust_power ∧ s'.drag = s.drag) (damage : UInt16) :
              Sturdy { ship with
                ship := some s', health := some (applyDamage health damage)
                isDestroyed := ship.isDestroyed || !isAlive (applyDamage health damage) } :=
            (h.score hs hengine).damage hhealth damage
          have hlost1 := Collision.subtractScore_engine s1 5
          have hlost2 := Collision.subtractScore_engine s2 5
          have hkill1 := Collision.rewardKill_engine (subtractScore s1 5)
          have hkill2 := Collision.rewardKill_engine (subtractScore s2 5)
          rw [hlost1.1, hlost1.2] at hkill1
          rw [hlost2.1, hlost2.2] at hkill2
          dsimp only
          split_ifs
          · exact ⟨hdamaged h1 hs1 hhealth1 hlost1 _, hdamaged h2 hs2 hhealth2 hkill2 _⟩
          · exact ⟨hdamaged h1 hs1 hhealth1 hkill1 _, hdamaged h2 hs2 hhealth2 hlost2 _⟩
          · exact ⟨hdamaged h1 hs1 hhealth1 hlost1 _, hdamaged h2 hs2 hhealth2 hlost2 _⟩
        · exact ⟨h1, h2⟩

/-- An owner of a bullet gets points. -/
theorem Sturdy.credit (h : Sturdy e) (owner_id : EntityId) (points : UInt32) :
    Sturdy (credit owner_id points e) := by
  unfold World.credit
  split_ifs
  · cases hs : e.ship with
    | none =>
      have hsame : { e with ship := none } = e := by rw [← hs]
      exact hsame.symm ▸ h
    | some s => exact h.score hs (Collision.addScore_engine s points)
  · exact h

variable [IsStrictOrderedRing F] {width height : F} {world : World (Extended F)}

/-! ### Movement -/

omit [IsStrictOrderedRing F] in
/-- At the edges an entity keeps its condition. -/
theorem Sturdy.bound (h : Sturdy e) {t : TransformComponent (Extended F)}
    (ht : FinitePoint t.position ∧ FinitePoint t.velocity ∧ t.angle.IsFinite) :
    Sturdy (bound e t (.finite width) (.finite height)) := by
  obtain ⟨r, hr, -⟩ := h.radius
  have hclamped := finite_clampToWorldBounds ht.1 ⟨width, rfl⟩ ⟨height, rfl⟩
  unfold Domain.bound
  split_ifs
  · exact h.place
      ⟨finite_wrapCircleThroughWorldBounds ht.1 ⟨r, hr⟩ ⟨_, rfl⟩ ⟨_, rfl⟩, ht.2⟩
  · dsimp only
    split
    · exact h.place ht
    · split
      · exact (h.place ht).flag
      · refine h.place ⟨hclamped, ⟨?_, ?_⟩, ht.2.2⟩
        · exact .ite (isFinite_lit 0) ht.2.1.1
        · exact .ite (isFinite_lit 0) ht.2.1.2
      · exact h.place ht

theorem Sturdy.moveEntity (h : Sturdy e) {dt : Extended F} (hdt : dt.IsFinite) :
    Sturdy (moveEntity dt (.finite width) (.finite height) e) := by
  unfold Domain.moveEntity
  split
  · exact h
  · cases ht : e.transform with
    | none => exact h
    | some t =>
      obtain ⟨hposition, hvelocity, hangle⟩ := h.motion ht
      obtain ⟨hposition', hvelocity', hangle'⟩ :=
        finite_integrate hposition hvelocity (fun _ => hangle) h.engine hdt
      exact h.bound ⟨hposition', hvelocity', hangle'.symm ▸ hangle⟩

/-! ### Growth -/

/-- Room to grow is found or not, from finite values in a world with an extent. -/
theorem tryGrowShip_cases (hw : world.world_width_ = .finite width)
    (hh : world.world_height_ = .finite height) (hwidth : 0 < width) (hheight : 0 < height)
    {v : Vector2D (Extended F)} (hv : FinitePoint v) {r : F} (hr : 0 ≤ r) :
    FinitePoint (world.tryGrowShip v (.finite r)).2 ∧
      (world.tryGrowShip v (.finite r)).1 ≠ .InvalidInput ∧
      (2 * r < width → 2 * r < height → (world.tryGrowShip v (.finite r)).1 ≠ .CannotFit) := by
  have hclamped := finite_clampToWorldBounds hv ⟨width, rfl⟩ ⟨height, rfl⟩
  -- The guard against invalid input refuses nothing here.
  have hvalid : (!isfinite v.x || !isfinite v.y || !isfinite (.finite r : Extended F) ||
      decide ((.finite r : Extended F) < lit 0) || !isfinite (.finite width : Extended F) ||
      !isfinite (.finite height : Extended F) || decide (.finite width ≤ (lit 0 : Extended F)) ||
      decide (.finite height ≤ (lit 0 : Extended F))) = false := by
    obtain ⟨x, y, rfl, -, -⟩ := hv.exists_lengthSquared
    have hfinite (a : F) : isfinite (.finite a : Extended F) = true := rfl
    simp [hfinite, lit_zero, hr, hwidth, hheight]
  unfold tryGrowShip
  rw [hw, hh, hvalid, if_neg Bool.false_ne_true]
  dsimp only
  split_ifs with hoverlaps
  · refine ⟨hclamped, nofun, fun hw' hh' => ?_⟩
    rw [not_circleIntersectsOppositeWorldBounds hclamped hr hw' hh'] at hoverlaps
    cases hoverlaps
  · exact ⟨hclamped, nofun, fun _ _ => nofun⟩

omit [IsStrictOrderedRing F] in
/-- The mass that a doubled radius asks for. -/
theorem massForRadius_double (r : F) :
    Entity.massForRadius (.finite r * lit 2 : Extended F) =
      .finite (StdMath.pi * (2 * r) * (2 * r)) := by
  change Extended.finite (StdMath.pi * (r * ((2 : ℚ) : F)) * (r * ((2 : ℚ) : F))) = _
  rw [Rat.cast_ofNat, mul_comm r 2]

theorem half_max :
    (Scalar.max / lit 2 : Extended F) = .finite (StdMath.max / 2) := by
  change Extended.finite StdMath.max / Extended.finite ((2 : ℚ) : F) = _
  rw [Rat.cast_ofNat, Extended.finite_div _ two_ne_zero]

section Rounds

variable {γ : Type}
  {can_grow : Vector2D (Extended F) → Extended F → γ → Bool × Vector2D (Extended F) × γ}

/-- A ship and an amount that `addMass` accepts: nothing but their values is required. -/
structure TakesIn (e : Entity (Extended F)) (amount : Extended F) (m a r : F)
    (t : TransformComponent (Extended F)) : Prop where
  type : e.type = .Ship
  mass : e.mass = .finite m
  mass_nonneg : 0 ≤ m
  radius : e.radius = .finite r
  radius_pos : 0 < r
  transform : e.transform = some t
  amount : amount = .finite a
  amount_nonneg : 0 ≤ a

omit [IsStrictOrderedRing F] in
theorem TakesIn.addMass {amount : Extended F} {m a r : F} {t : TransformComponent (Extended F)}
    (h : TakesIn e amount m a r t) (g : γ) :
    e.addMass amount can_grow g =
      Entity.grow can_grow (doublings e.radius) { e with mass := .finite (m + a) } g := by
  have hamount : (!isfinite amount || decide (amount < lit 0)) = false := by
    rw [h.amount, decide_eq_false (not_lt_lit_zero h.amount_nonneg)]
    rfl
  have hbody : (!isfinite e.mass || decide (e.mass < lit 0) || !isfinite e.radius ||
      decide (e.radius ≤ lit 0) || e.transform.isNone) = false := by
    rw [h.mass, h.radius, decide_eq_false (not_lt_lit_zero h.mass_nonneg),
      decide_eq_false (not_le_lit_zero h.radius_pos), h.transform]
    rfl
  have hsum : (!isfinite (.finite m + .finite a : Extended F)) = false := rfl
  -- No guard of `addMass` applies.
  unfold Entity.addMass
  rw [if_neg (not_not_intro h.type), hamount, if_neg Bool.false_ne_true, hbody,
    if_neg Bool.false_ne_true]
  dsimp only
  rw [h.mass, h.amount, hsum, if_neg Bool.false_ne_true]
  rfl

omit [IsStrictOrderedRing F] in
theorem takesIn_of_addMass {amount : Extended F} {g : γ}
    (h : (e.addMass amount can_grow g).1 = true) : ∃ m a r t, TakesIn e amount m a r t := by
  unfold Entity.addMass at h
  dsimp only at h
  split_ifs at h with htype hamount hbody
  simp only [Bool.or_eq_true, Bool.not_eq_true', decide_eq_true_eq, not_or, Bool.not_eq_false]
    at hamount hbody
  obtain ⟨⟨⟨⟨hmass, hnonneg⟩, hradius⟩, hpos⟩, htransform⟩ := hbody
  obtain ⟨m, hm⟩ := isFinite_of_isfinite hmass
  obtain ⟨a, rfl⟩ := isFinite_of_isfinite hamount.1
  obtain ⟨r, hr⟩ := isFinite_of_isfinite hradius
  obtain ⟨t, ht⟩ := Option.ne_none_iff_exists'.mp (mt Option.isNone_iff_eq_none.mpr htransform)
  rw [hm, finite_lt_lit_zero, not_lt] at hnonneg
  rw [hr, finite_le_lit_zero, not_le] at hpos
  have hamount' := hamount.2
  rw [finite_lt_lit_zero, not_lt] at hamount'
  exact ⟨m, a, r, t, not_not.mp htype, hm, hnonneg, hr, hpos, ht, rfl, hamount'⟩

omit [IsStrictOrderedRing F] in
/-- A ship that is too light for twice its radius does not grow. -/
theorem grow_of_lt {m r : F} (hmass : e.mass = .finite m) (hradius : e.radius = .finite r)
    (hlight : m < StdMath.pi * (2 * r) * (2 * r)) (fuel : ℕ) (g : γ) :
    e.grow can_grow fuel g = (true, e, g) := by
  cases fuel with
  | zero => rfl
  | succ fuel =>
    unfold Entity.grow
    dsimp only
    rw [hmass, hradius, massForRadius_double]
    -- The loop ends at its bound on the radius or at its test of the mass.
    split
    · rfl
    · rw [if_pos]
      rw [Bool.or_eq_true, decide_eq_true_eq]
      exact Or.inr hlight

/-- A ship that is heavy enough asks whether twice its radius has room. -/
theorem grow_of_le {m r : F} {t : TransformComponent (Extended F)} (hmass : e.mass = .finite m)
    (hradius : e.radius = .finite r) (ht : e.transform = some t) (hroom : r ≤ StdMath.max / 2)
    (hheavy : StdMath.pi * (2 * r) * (2 * r) ≤ m) (fuel : ℕ) (g : γ) :
    e.grow can_grow (fuel + 1) g =
      if (can_grow t.position (.finite (2 * r)) g).1 then
        Entity.grow can_grow fuel
          { e with
            transform := some { t with position := (can_grow t.position (.finite (2 * r)) g).2.1 }
            radius := .finite (2 * r) }
          (can_grow t.position (.finite (2 * r)) g).2.2
      else
        (true,
          { e with
            transform := some { t with
              position := (can_grow t.position (.finite (2 * r)) g).2.1 } },
          (can_grow t.position (.finite (2 * r)) g).2.2) := by
  have hdouble : (.finite r * lit 2 : Extended F) = .finite (2 * r) := by
    change Extended.finite (r * ((2 : ℚ) : F)) = _
    rw [Rat.cast_ofNat, mul_comm]
  have hgrows : (!isfinite (.finite (StdMath.pi * (2 * r) * (2 * r)) : Extended F) ||
      decide ((.finite m : Extended F) < .finite (StdMath.pi * (2 * r) * (2 * r)))) = false := by
    rw [Bool.or_eq_false_iff, decide_eq_false_iff_not, Extended.finite_lt, not_lt]
    exact ⟨rfl, hheavy⟩
  have hroom' : (.finite r : Extended F) ≤ .finite (StdMath.max / 2) := hroom
  rw [Entity.grow]
  dsimp only
  rw [half_max, hmass, hradius, massForRadius_double, hgrows, hdouble, ht,
    if_neg (not_not_intro hroom'), if_neg Bool.false_ne_true]

end Rounds

/-- What eating leaves of a ship in good condition: it still is, unless it has no room to
grow, and in a world that is large enough it has. -/
structure Fed (width height : F) (e : Entity (Extended F)) (status : GrowStatus) : Prop where
  formed : Formed e
  hale : status ≠ .CannotFit → Hale e
  fits : 20 < width → 20 < height → status ≠ .CannotFit

omit [IsStrictOrderedRing F] in
/-- A ship in good condition that got a mass below 480, a place and a radius. -/
theorem Hale.fed (hhale : Hale e) (h : Formed e) (hlive : e.LiveShip) {m₀ m r : F}
    (hmass : e.mass = .finite m₀) (hle : m₀ ≤ m) (hlt : m < 480)
    {t : TransformComponent (Extended F)}
    (ht : FinitePoint t.position ∧ FinitePoint t.velocity ∧ t.angle.IsFinite) (hr : 0 < r)
    {status : GrowStatus}
    (hbuild : status ≠ .CannotFit → r = if m < 100 * StdMath.pi then 5 else 10)
    (hfits : 20 < width → 20 < height → status ≠ .CannotFit) :
    Fed width height
      { e with mass := .finite m, transform := some t, radius := .finite r } status := by
  obtain ⟨m₁, hm₁, hlow, -⟩ := hhale.build
  obtain rfl := Extended.finite.inj (hmass.symm.trans hm₁)
  refine ⟨⟨⟨m, rfl⟩, ⟨r, rfl, hr⟩, h.engine, ?_, ?_⟩, fun hstatus => ?_, hfits⟩
  · rintro t' ht'
    obtain rfl := Option.some.inj ht'
    exact ht
  · intro hasteroid
    cases hlive.1.symm.trans hasteroid
  · exact ⟨rfl, hhale.ship, hhale.combat, hhale.health, m, rfl, hlow.trans hle, hlt,
      congrArg Extended.finite (hbuild hstatus)⟩

variable (std : StandardMath F)
include std

/-- A ship of radius 5 that is heavy enough for radius 10 asks for it, and for no more. -/
theorem grow_at_five {m : F} {t : TransformComponent (Extended F)} (hmass : e.mass = .finite m)
    (hradius : e.radius = .finite 5) (ht : e.transform = some t) (hheavy : 100 * StdMath.pi ≤ m)
    (hlt : m < 480) :
    Entity.grow world.can_grow (doublings e.radius) e .CanGrow =
      (true, { e with
        transform :=
          some { t with position := (world.tryGrowShip t.position (.finite (2 * 5))).2 }
        radius := .finite
          (if (world.tryGrowShip t.position (.finite (2 * 5))).1 = .CanGrow then 2 * 5 else 5) },
        (world.tryGrowShip t.position (.finite (2 * 5))).1) := by
  have hpi := std.three_lt_pi
  have hmax : (5 : F) ≤ StdMath.max / 2 := by
    have hle := std.le_max
    linarith
  -- The fuel lasts for a round.
  obtain ⟨fuel, hfuel⟩ : ∃ fuel, StdMath.doublings (5 : F) = fuel + 1 := by
    refine Nat.exists_eq_succ_of_ne_zero fun hzero => ?_
    have hrounds := std.doublings (a := (5 : F)) (by norm_num)
    rw [hzero, pow_zero, mul_one] at hrounds
    exact absurd hmax hrounds.not_ge
  have hfuel' : doublings e.radius = fuel + 1 := by
    rw [hradius]
    exact hfuel
  have hasks : world.can_grow t.position (.finite (2 * 5)) .CanGrow =
      (decide ((world.tryGrowShip t.position (.finite (2 * 5))).1 = .CanGrow),
        (world.tryGrowShip t.position (.finite (2 * 5))).2,
        (world.tryGrowShip t.position (.finite (2 * 5))).1) := rfl
  have hlarge : m < StdMath.pi * (2 * (2 * 5)) * (2 * (2 * 5)) := by linarith
  rw [hfuel', grow_of_le hmass hradius ht hmax (by linarith), hasks]
  by_cases hgrows : (world.tryGrowShip t.position (.finite (2 * 5))).1 = .CanGrow
  · rw [if_pos hgrows, if_pos (decide_eq_true hgrows)]
    refine grow_of_lt ?_ ?_ hlarge _ _
    · exact hmass
    · rfl
  · rw [if_neg hgrows, if_neg fun h => hgrows (of_decide_eq_true h), ← hradius]

variable (hw : world.world_width_ = .finite width) (hh : world.world_height_ = .finite height)
  (hwidth : 0 < width) (hheight : 0 < height)
include hw hh hwidth hheight

/-- The growth of a ship in good condition whose mass has increased, but not to 480. -/
theorem fed_grow (h : Formed e) (hlive : e.LiveShip) (hhale : Hale e) {m₀ m : F}
    (hmass : e.mass = .finite m₀) (hle : m₀ ≤ m) (hlt : m < 480) :
    ∃ e' status, Entity.grow world.can_grow (doublings e.radius)
        { e with mass := .finite m } .CanGrow = (true, e', status) ∧
      Fed width height e' status := by
  have hpi := std.three_lt_pi
  obtain ⟨m₁, hm₁, -, -, hradius⟩ := hhale.build
  obtain rfl := Extended.finite.inj (hmass.symm.trans hm₁)
  obtain ⟨t, ht⟩ := Option.isSome_iff_exists.mp hhale.transform
  have hmotion := h.motion ht
  -- A ship that is too light for twice its radius only gets the mass.
  have hstops {r : F} (hr : e.radius = .finite r) (hpos : 0 < r)
      (hlight : m < StdMath.pi * (2 * r) * (2 * r))
      (hbuild : r = if m < 100 * StdMath.pi then 5 else 10) :
      ∃ e' status, Entity.grow world.can_grow (doublings e.radius)
          { e with mass := .finite m } .CanGrow = (true, e', status) ∧
        Fed width height e' status := by
    have hfed : Fed width height
        { e with mass := .finite m, transform := some t, radius := .finite r } .CanGrow :=
      hhale.fed h hlive hmass hle hlt hmotion hpos (fun _ => hbuild) fun _ _ => nofun
    rw [← ht, ← hr] at hfed
    exact ⟨_, _, grow_of_lt (e := { e with mass := .finite m }) rfl hr hlight _ _, hfed⟩
  by_cases hlight : m < 100 * StdMath.pi
  · rw [if_pos (lt_of_le_of_lt hle hlight)] at hradius
    exact hstops hradius (by norm_num) (by linarith) (if_pos hlight).symm
  · by_cases hsmall : m₀ < 100 * StdMath.pi
    · -- The mass passes that of radius 10.
      rw [if_pos hsmall] at hradius
      obtain ⟨hplace, hvalid, hfits⟩ :=
        tryGrowShip_cases hw hh hwidth hheight hmotion.1 (r := 2 * 5) (by norm_num)
      refine ⟨_, _, grow_at_five (e := { e with mass := .finite m }) std rfl hradius ht
        (le_of_not_gt hlight) hlt, ?_⟩
      have hmotion' : FinitePoint (world.tryGrowShip t.position (.finite (2 * 5))).2 ∧
          FinitePoint t.velocity ∧ t.angle.IsFinite := ⟨hplace, hmotion.2⟩
      refine hhale.fed h hlive hmass hle hlt ?_ ?_ (fun hstatus => ?_)
        fun hw' hh' => hfits (by linarith) (by linarith)
      · exact hmotion'
      · split_ifs
        · norm_num
        · norm_num
      · have hgrows : (world.tryGrowShip t.position (.finite (2 * 5))).1 = .CanGrow := by
          cases hfound : (world.tryGrowShip t.position (.finite (2 * 5))).1 with
          | CanGrow => rfl
          | CannotFit => exact absurd hfound hstatus
          | InvalidInput => exact absurd hfound hvalid
        rw [if_pos hgrows, if_neg hlight]
        norm_num
    · rw [if_neg hsmall] at hradius
      exact hstops hradius (by norm_num) (by linarith) (if_neg hlight).symm

/-- A ship in good condition takes in mass. -/
theorem fed_addMass (h : Formed e) (hlive : e.LiveShip) (hhale : Hale e) {m₀ a : F}
    (hmass : e.mass = .finite m₀) (ha : 0 ≤ a) (hlt : m₀ + a < 480) :
    ∃ e' status, e.addMass (.finite a) world.can_grow .CanGrow = (true, e', status) ∧
      Fed width height e' status := by
  obtain ⟨r, hradius, hr⟩ := h.radius
  obtain ⟨t, ht⟩ := Option.isSome_iff_exists.mp hhale.transform
  obtain ⟨m, hm, hlow, -⟩ := hhale.build
  obtain rfl := Extended.finite.inj (hmass.symm.trans hm)
  have htakes : TakesIn e (.finite a) m₀ a r t :=
    ⟨hlive.1, hmass, by linarith, hradius, hr, ht, rfl, ha⟩
  rw [htakes.addMass]
  exact fed_grow std hw hh hwidth hheight h hlive hhale hmass (by linarith) hlt

/-! ### Meals -/

omit std hw hh hwidth hheight

omit [IsStrictOrderedRing F] in
/-- A ship that has no room to grow is destroyed. -/
theorem Fed.sturdy {status : GrowStatus} (h : Fed width height e status) :
    Sturdy (if status = .CannotFit then { e with isDestroyed := true } else e) := by
  split_ifs with hstatus
  · exact ⟨h.formed.flag, fun hlive => (by cases hlive.2)⟩
  · exact ⟨h.formed, fun _ => h.hale hstatus⟩

/-- What a ship eats is more than a fifth of its mass, and an asteroid has at most 80, so the
ship stays below 480. -/
theorem edible_spec {ship asteroid : Entity (Extended F)} (hship : Sturdy ship)
    (hasteroid : Sturdy asteroid) (htype : ship.type = .Ship ∧ asteroid.type = .Asteroid)
    (hvalid : ship.isValid = true) (hmass : ¬ asteroid.mass ≤ lit 0)
    (hratio : ¬ asteroid.mass / ship.mass ≤ lit (1 / 5)) :
    ship.LiveShip ∧ ∃ m a, ship.mass = .finite m ∧ asteroid.mass = .finite a ∧ 0 ≤ a ∧
      m + a < 480 := by
  have hlive : ship.LiveShip := by
    refine ⟨htype.1, ?_⟩
    unfold Entity.isValid at hvalid
    simp only [Bool.and_eq_true, Bool.not_eq_true'] at hvalid
    exact hvalid.1.1.1.1.1.2
  obtain ⟨m, hm, hlow, -⟩ := (hship.live hlive).build
  obtain ⟨a, ha, hmax⟩ := hasteroid.asteroid htype.2
  have hmpos : 0 < m := by linarith
  have hapos : 0 < a := by
    rwa [ha, finite_le_lit_zero, not_le] at hmass
  -- The lower end of the window bounds the mass of the ship.
  have hlarge : m < 5 * a := by
    rw [hm, ha, Extended.finite_div a hmpos.ne'] at hratio
    have hfifth : ¬ a / m ≤ ((1 / 5 : ℚ) : F) := hratio
    rw [not_le, lt_div_iff₀ hmpos] at hfifth
    norm_num at hfifth
    linarith
  exact ⟨hlive, m, a, hm, ha, hapos.le, by linarith⟩

include std hw hh hwidth hheight

/-- A ship meets an asteroid. -/
theorem sturdy_eatAsteroid {ship asteroid : Entity (Extended F)} (hship : Sturdy ship)
    (hasteroid : Sturdy asteroid) :
    ∃ ship' asteroid' status,
      Collision.eatAsteroid world.can_grow ship asteroid .CanGrow = (ship', asteroid', status) ∧
        Sturdy (if status = .CannotFit then { ship' with isDestroyed := true } else ship') ∧
        Sturdy asteroid' ∧ (20 < width → 20 < height → status ≠ .CannotFit) := by
  have hkeep : ∃ ship' asteroid' status,
      (ship, asteroid, GrowStatus.CanGrow) = (ship', asteroid', status) ∧
        Sturdy (if status = .CannotFit then { ship' with isDestroyed := true } else ship') ∧
        Sturdy asteroid' ∧ (20 < width → 20 < height → status ≠ .CannotFit) :=
    ⟨_, _, _, rfl, hship, hasteroid, fun _ _ => nofun⟩
  unfold Collision.eatAsteroid
  by_cases htype : (decide (ship.type ≠ .Ship) || decide (asteroid.type ≠ .Asteroid)) = true
  · rwa [if_pos htype]
  rw [if_neg htype]
  by_cases hvalid : (!ship.isValid || !asteroid.isValid) = true
  · rwa [if_pos hvalid]
  rw [if_neg hvalid]
  by_cases hdamageable : (!ship.isDamageable || !asteroid.isDamageable) = true
  · rwa [if_pos hdamageable]
  rw [if_neg hdamageable]
  split
  · exact hkeep
  next hmasses =>
  dsimp only
  split
  · exact hkeep
  next hratio =>
  split
  · -- The ratio is in the window: the ship takes in the asteroid's mass.
    simp only [Bool.or_eq_true, decide_eq_true_eq, not_or, not_not] at htype hmasses
    simp only [Bool.or_eq_true, Bool.not_eq_true', not_or, Bool.not_eq_false] at hvalid
    obtain ⟨hlive, m, a, hm, ha, hnonneg, hlt⟩ :=
      edible_spec hship hasteroid htype hvalid.1 hmasses.2 hratio
    obtain ⟨ship', status, hadd, hfed⟩ := fed_addMass std hw hh hwidth hheight hship.toFormed
      hlive (hship.live hlive) hm hnonneg hlt
    rw [← ha] at hadd
    rw [hadd]
    dsimp only
    rw [if_pos rfl]
    refine ⟨_, _, _, rfl, Fed.sturdy (?_ : Fed width height _ status), hasteroid.flag, hfed.fits⟩
    split
    · next s reward hs hreward =>
      -- The reward is credited to the ship component.
      exact ⟨hfed.formed.score hs (Collision.addScore_engine s _),
        fun hstatus => (hfed.hale hstatus).score _, hfed.fits⟩
    · exact hfed
  · exact hkeep

end SpaceShooter.Server.World
