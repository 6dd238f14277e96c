/-
# Collision rules

What a collision does to the two entities it involves. A rule that finds entities of
the wrong kind, invalid or no longer damageable changes nothing.
-/

import SpaceShooter.Server.Entity

namespace SpaceShooter.Domain.Collision

open Scalar

variable {K : Type} [Scalar K] {γ : Type}

/-- A ship meets an asteroid: between a fifth and half of its mass it is swallowed. The
rules for other masses do nothing yet. -/
def eatAsteroid (can_grow : Math.Vector2D K → K → γ → Bool × Math.Vector2D K × γ)
    (ship asteroid : Entity K) (g : γ) : Entity K × Entity K × γ :=
  if ship.type ≠ .Ship || asteroid.type ≠ .Asteroid then
    (ship, asteroid, g)
  else if !ship.isValid || !asteroid.isValid then
    (ship, asteroid, g)
  else if !ship.isDamageable || !asteroid.isDamageable then
    (ship, asteroid, g)
  else if ship.mass ≤ lit 0 || asteroid.mass ≤ lit 0 then
    (ship, asteroid, g)
  else
    let mass_ratio := asteroid.mass / ship.mass
    if mass_ratio ≤ lit (1 / 5) then
      (ship, asteroid, g)
    else if mass_ratio < lit (1 / 2) then
      let (grown, ship, g) := ship.addMass asteroid.mass can_grow g
      if grown then
        -- The reward goes to a ship that has a ship component.
        let ship :=
          match ship.ship, asteroid.asteroid with
          | some s, some a =>
            { ship with ship := some (addScore s a.score_reward.toUInt32) }
          | _, _ => ship
        (ship, { asteroid with isDestroyed := true }, g)
      else
        (ship, asteroid, g)
    else
      (ship, asteroid, g)

def onCollisionShipAsteroid (can_grow : Math.Vector2D K → K → γ → Bool × Math.Vector2D K × γ)
    (ship asteroid : Entity K) (g : γ) : Entity K × Entity K × γ :=
  if ship.type = .Asteroid && asteroid.type = .Ship then
    let (ship', asteroid', g) := eatAsteroid can_grow asteroid ship g
    (asteroid', ship', g)
  else
    eatAsteroid can_grow ship asteroid g

/-- Credit a surviving ship with the destruction of the other. -/
def rewardKill (ship : ShipComponent K) : ShipComponent K :=
  let ship := addScore ship 30
  if ship.frags < 0xFFFF then { ship with frags := ship.frags + 1 } else ship

/-- The damage two colliding ships take: the lighter one takes more. -/
def shipDamages (ship1 ship2 : Entity K) : UInt16 × UInt16 :=
  if ship1.mass < ship2.mass then (10, 5)
  else if ship2.mass < ship1.mass then (5, 10)
  else (7, 7)

def onCollisionShipShip (ship1 ship2 : Entity K) : Entity K × Entity K :=
  if ship1.type ≠ .Ship || ship2.type ≠ .Ship then
    (ship1, ship2)
  else if !ship1.isValid || !ship2.isValid then
    (ship1, ship2)
  else if !ship1.isDamageable || !ship2.isDamageable then
    (ship1, ship2)
  else
    match ship1.ship, ship2.ship, ship1.health, ship2.health with
    | some s1, some s2, some h1, some h2 =>
      let (damage1, damage2) := shipDamages ship1 ship2
      let s1 := subtractScore s1 5
      let s2 := subtractScore s2 5
      let h1 := applyDamage h1 damage1
      let h2 := applyDamage h2 damage2
      -- Both lose score; a sole survivor is credited with the kill.
      let dead1 := ship1.isDestroyed || !isAlive h1
      let dead2 := ship2.isDestroyed || !isAlive h2
      let (s1, s2) :=
        if dead1 && !dead2 then (s1, rewardKill s2)
        else if dead2 && !dead1 then (rewardKill s1, s2)
        else (s1, s2)
      ({ ship1 with ship := some s1, health := some h1, isDestroyed := dead1 },
        { ship2 with ship := some s2, health := some h2, isDestroyed := dead2 })
    | _, _, _, _ => (ship1, ship2)

/-- A hit to report: the owner of the bullet and whether the ship was destroyed. -/
structure Hit where
  owner_id : EntityId
  ship_destroyed : Bool
  deriving DecidableEq, Repr

def kBulletDamage : UInt16 := 25

/-- A bullet meets a ship that is not its owner's. -/
def hitShip (bullet ship : Entity K) : Entity K × Entity K × Option Hit :=
  if bullet.type ≠ .Bullet || ship.type ≠ .Ship then
    (bullet, ship, none)
  else if !bullet.isValid || !ship.isValid then
    (bullet, ship, none)
  else
    match bullet.combat, ship.health, ship.ship with
    | some combat, some health, some _ =>
      if !ship.isDamageable then
        (bullet, ship, none)
      else if combat.owner_id = ship.id then
        -- A bullet starts on its owner's edge and passes through.
        (bullet, ship, none)
      else
        let health := applyDamage health kBulletDamage
        let ship_destroyed := !isAlive health
        ({ bullet with isDestroyed := true },
          { ship with health := some health, isDestroyed := ship.isDestroyed || ship_destroyed },
          some ⟨combat.owner_id, ship_destroyed⟩)
    | _, _, _ => (bullet, ship, none)

def onCollisionBulletShip (bullet ship : Entity K) : Entity K × Entity K × Option Hit :=
  if bullet.type = .Ship && ship.type = .Bullet then
    let (bullet', ship', hit) := hitShip ship bullet
    (ship', bullet', hit)
  else
    hitShip bullet ship

/-! ### Engines -/

omit [Scalar K] in
theorem engine_of_score (s : ShipComponent K) (score : UInt32) :
    { s with score := score }.thrust_power = s.thrust_power ∧
      { s with score := score }.drag = s.drag :=
  ⟨rfl, rfl⟩

omit [Scalar K] in
theorem addScore_engine (s : ShipComponent K) (points : UInt32) :
    (addScore s points).thrust_power = s.thrust_power ∧ (addScore s points).drag = s.drag :=
  engine_of_score s (if maxScore - s.score < points then maxScore else s.score + points)

omit [Scalar K] in
theorem subtractScore_engine (s : ShipComponent K) (penalty : UInt32) :
    (subtractScore s penalty).thrust_power = s.thrust_power ∧
      (subtractScore s penalty).drag = s.drag :=
  engine_of_score s (if s.score ≤ penalty then 0 else s.score - penalty)

omit [Scalar K] in
/-- Credit for a kill keeps the engine of a ship. -/
theorem rewardKill_engine (s : ShipComponent K) :
    (rewardKill s).thrust_power = s.thrust_power ∧ (rewardKill s).drag = s.drag := by
  obtain ⟨hthrust, hdrag⟩ := addScore_engine s 30
  unfold rewardKill
  generalize addScore s 30 = credited at hthrust hdrag
  dsimp only
  split_ifs
  · exact ⟨hthrust, hdrag⟩
  · exact ⟨hthrust, hdrag⟩

/-! ### What the rules do to an entity -/

/-- A relation between an entity and what collisions leave of it: it contains every single
change that the rules make. -/
structure Pass (can_grow : Math.Vector2D K → K → γ → Bool × Math.Vector2D K × γ)
    (R : Entity K → Entity K → Prop) : Prop where
  refl : ∀ e, R e e
  trans : ∀ a b c, R a b → R b c → R a c
  destroyed : ∀ e, R e { e with isDestroyed := true }
  damaged : ∀ e health,
    R e { e with health := some health, isDestroyed := e.isDestroyed || !isAlive health }
  /-- Scores and frags change, the engine does not. -/
  scored : ∀ e s s', e.ship = some s → s'.thrust_power = s.thrust_power → s'.drag = s.drag →
    R e { e with ship := some s' }
  gained : ∀ e mass, isfinite mass = true → R e { e with mass := mass }
  moved : ∀ e t radius g, e.transform = some t →
    R e { e with transform := some { t with position := (can_grow t.position radius g).2.1 } }
  grown : ∀ e, R e { e with radius := e.radius * lit 2 }

theorem continues_pass (can_grow : Math.Vector2D K → K → γ → Bool × Math.Vector2D K × γ) :
    Pass can_grow Entity.Continues where
  refl := .refl
  trans _ _ _ := .trans
  destroyed := Entity.continues_destroyed
  damaged := Entity.continues_damaged
  scored e _ _ _ _ _ := e.continues_ship fun _ => rfl
  gained _ _ _ := ⟨rfl, rfl, fun h => h, fun hfit => hfit⟩
  moved e _ _ _ _ := e.continues_moved e.radius _
  grown _ := ⟨rfl, rfl, fun h => h, fun hfit => hfit⟩

variable {can_grow : Math.Vector2D K → K → γ → Bool × Math.Vector2D K × γ}
  {R : Entity K → Entity K → Prop}

theorem Pass.grow (h : Pass can_grow R) (fuel : ℕ) (e : Entity K) (g : γ) :
    R e (e.grow can_grow fuel g).2.1 := by
  induction fuel generalizing e g with
  | zero => exact h.refl e
  | succ fuel ih =>
    unfold Entity.grow
    dsimp only
    split
    · exact h.refl e
    · split
      · exact h.refl e
      · split
        · exact h.refl e
        · next t htransform =>
          have hmoved := h.moved e t (e.radius * lit 2) g htransform
          split
          · exact h.trans _ _ _ hmoved (h.trans _ _ _ (h.grown _) (ih _ _))
          · exact hmoved

theorem Pass.addMass (h : Pass can_grow R) (amount : K) (e : Entity K) (g : γ) :
    R e (e.addMass amount can_grow g).2.1 := by
  unfold Entity.addMass
  dsimp only
  split
  · exact h.refl e
  · split
    · exact h.refl e
    · split
      · exact h.refl e
      · split
        · exact h.refl e
        · next hfinite =>
          rw [Bool.not_eq_true', Bool.not_eq_false] at hfinite
          exact h.trans _ _ _ (h.gained e _ hfinite) (h.grow _ _ _)

theorem Pass.eatAsteroid (h : Pass can_grow R) (ship asteroid : Entity K) (g : γ) :
    R ship (eatAsteroid can_grow ship asteroid g).1 ∧
      R asteroid (eatAsteroid can_grow ship asteroid g).2.1 := by
  have hadd := h.addMass asteroid.mass ship g
  have hkeep : R ship ship ∧ R asteroid asteroid := ⟨h.refl ship, h.refl asteroid⟩
  unfold Collision.eatAsteroid
  by_cases htype : (decide (ship.type ≠ .Ship) || decide (asteroid.type ≠ .Asteroid)) = true
  · rwa [if_pos htype]
  rw [if_neg htype]
  by_cases hvalid : (!ship.isValid || !asteroid.isValid) = true
  · rwa [if_pos hvalid]
  rw [if_neg hvalid]
  by_cases hdamageable : (!ship.isDamageable || !asteroid.isDamageable) = true
  · rwa [if_pos hdamageable]
  rw [if_neg hdamageable]
  split
  · exact hkeep
  · dsimp only
    split
    · exact hkeep
    · split
      · split
        · refine ⟨h.trans _ _ _ hadd ?_, h.destroyed asteroid⟩
          split
          · next hship _ =>
            -- The reward is credited to the ship component.
            exact h.scored _ _ _ hship (addScore_engine _ _).1 (addScore_engine _ _).2
          · exact h.refl _
        · exact ⟨hadd, h.refl asteroid⟩
      · exact hkeep

theorem Pass.onCollisionShipAsteroid (h : Pass can_grow R) (ship asteroid : Entity K) (g : γ) :
    R ship (onCollisionShipAsteroid can_grow ship asteroid g).1 ∧
      R asteroid (onCollisionShipAsteroid can_grow ship asteroid g).2.1 := by
  unfold Collision.onCollisionShipAsteroid
  split_ifs
  · exact (h.eatAsteroid asteroid ship g).symm
  · exact h.eatAsteroid ship asteroid g

theorem Pass.onCollisionShipShip (h : Pass can_grow R) (ship1 ship2 : Entity K) :
    R ship1 (onCollisionShipShip ship1 ship2).1 ∧
      R ship2 (onCollisionShipShip ship1 ship2).2 := by
  have hkeep : R ship1 ship1 ∧ R ship2 ship2 := ⟨h.refl ship1, h.refl ship2⟩
  unfold Collision.onCollisionShipShip
  split
  · exact hkeep
  · split
    · exact hkeep
    · split
      · exact hkeep
      · split
        · next s1 s2 h1 h2 hs1 hs2 _ _ =>
          -- The score changes, then the health.
          have hdamaged (ship : Entity K) (s s' : ShipComponent K) (health : HealthComponent)
              (hship : ship.ship = some s)
              (hengine : s'.thrust_power = s.thrust_power ∧ s'.drag = s.drag) :
              R ship { ship with
                ship := some s', health := some health
                isDestroyed := ship.isDestroyed || !isAlive health } :=
            h.trans _ _ _ (h.scored ship s s' hship hengine.1 hengine.2)
              (h.damaged { ship with ship := some s' } health)
          obtain ⟨hthrust1, hdrag1⟩ := subtractScore_engine s1 5
          obtain ⟨hthrust2, hdrag2⟩ := subtractScore_engine s2 5
          generalize subtractScore s1 5 = lost1 at hthrust1 hdrag1
          generalize subtractScore s2 5 = lost2 at hthrust2 hdrag2
          have hkill1 := rewardKill_engine lost1
          have hkill2 := rewardKill_engine lost2
          rw [hthrust1, hdrag1] at hkill1
          rw [hthrust2, hdrag2] at hkill2
          dsimp only
          split_ifs
          · exact ⟨hdamaged ship1 s1 _ _ hs1 ⟨hthrust1, hdrag1⟩,
              hdamaged ship2 s2 _ _ hs2 hkill2⟩
          · exact ⟨hdamaged ship1 s1 _ _ hs1 hkill1,
              hdamaged ship2 s2 _ _ hs2 ⟨hthrust2, hdrag2⟩⟩
          · exact ⟨hdamaged ship1 s1 _ _ hs1 ⟨hthrust1, hdrag1⟩,
              hdamaged ship2 s2 _ _ hs2 ⟨hthrust2, hdrag2⟩⟩
        · exact hkeep

theorem Pass.hitShip (h : Pass can_grow R) (bullet ship : Entity K) :
    R bullet (hitShip bullet ship).1 ∧ R ship (hitShip bullet ship).2.1 := by
  have hkeep : R bullet bullet ∧ R ship ship := ⟨h.refl bullet, h.refl ship⟩
  unfold Collision.hitShip
  split
  · exact hkeep
  · split
    · exact hkeep
    · split
      · split
        · exact hkeep
        · split
          · exact hkeep
          · exact ⟨h.destroyed bullet, h.damaged ship _⟩
      · exact hkeep

theorem Pass.onCollisionBulletShip (h : Pass can_grow R) (bullet ship : Entity K) :
    R bullet (onCollisionBulletShip bullet ship).1 ∧
      R ship (onCollisionBulletShip bullet ship).2.1 := by
  unfold Collision.onCollisionBulletShip
  split_ifs
  · exact (h.hitShip ship bullet).symm
  · exact h.hitShip bullet ship

end SpaceShooter.Domain.Collision
