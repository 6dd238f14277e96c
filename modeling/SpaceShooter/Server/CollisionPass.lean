/-
# Pairs of the collision pass

The pass goes through the pairs of slots one by one. What one pair does: nothing, or it writes
two entities back, and a bullet that hits credits the slot of its owner.
-/

import SpaceShooter.Server.WorldInvariant

namespace SpaceShooter.Server.World

open Scalar Domain Library Library.Outcome

variable {K : Type} [Scalar K]

/-! ### Pairs of the collision pass -/

/-- The pairs of slots in the order of the pass. -/
def pairs (n : ℕ) : List (ℕ × ℕ) :=
  (List.range n).flatMap fun i => (List.range' (i + 1) (n - (i + 1))).map (i, ·)

theorem lt_of_mem_pairs {n i j : ℕ} (h : (i, j) ∈ pairs n) : i < j := by
  obtain ⟨i', -, hi⟩ := List.mem_flatMap.mp h
  obtain ⟨j', hj, heq⟩ := List.mem_map.mp hi
  obtain ⟨rfl, rfl⟩ := Prod.mk.inj heq
  exact (List.mem_range'_1.mp hj).1

/-- The pass collides its pairs one after the other. -/
theorem collidePairs_apply (world : World K) :
    collidePairs world =
      (pairs world.entities_.storage_.length).forM (fun pair => collidePair pair.1 pair.2)
        world := by
  have hrow (n i : ℕ) : ((List.range' (i + 1) (n - (i + 1))).map (i, ·)).forM
      (fun pair => collidePair pair.1 pair.2) = (collideRow n i : Action K PUnit) := by
    rw [List.forM_eq_forM, List.forM_map]
    rfl
  rw [pairs, forM_flatMap]
  simp only [hrow]
  rfl

/-- A pair returns if the collision test of its colliders does. -/
theorem collidePair_ok {world : World K} {i j : ℕ}
    (h : ∀ {a ta b tb}, collider world.entities_ i = some (a, ta) →
      collider world.entities_ j = some (b, tb) →
        ∃ hit, Math.checkCircleCollision ta.position a.radius tb.position b.radius = .ok hit) :
    ∃ world', collidePair i j world = .ok ⟨⟩ world' := by
  unfold collidePair
  rw [bind_apply, show (get : Action K (World K)) world = .ok world world from rfl]
  dsimp only
  rcases hi : collider world.entities_ i with _ | ⟨a, ta⟩
  · exact ⟨_, rfl⟩
  · rcases hj : collider world.entities_ j with _ | ⟨b, tb⟩
    · exact ⟨_, rfl⟩
    · dsimp only
      split
      · obtain ⟨hit, hhit⟩ := h hi hj
        rw [hhit]
        cases hit with
        | false => exact ⟨_, rfl⟩
        | true => exact ⟨_, rfl⟩
      · exact ⟨_, rfl⟩

/-- What two entities of different slots do to each other: nothing, or two ships ram each other, a
ship meets an asteroid or a bullet meets a ship. -/
theorem dispatchCollision_cases {P : World K → Prop} {world : World K} {i j : ℕ}
    {a b : Entity K} (hij : i ≠ j) (hi : world.entities_.at? i = some a)
    (hj : world.entities_.at? j = some b) (same : P world)
    (ships : a.type = .Ship → b.type = .Ship → P (world.onCollisionShipShip i a j b))
    (asteroid : ∀ {p q ship asteroid}, p ≠ q → world.entities_.at? p = some ship →
      world.entities_.at? q = some asteroid → ship.type = .Ship → asteroid.type = .Asteroid →
        P (world.onCollisionShipAsteroid p ship q asteroid))
    (bullet : ∀ {p q bullet ship}, p ≠ q → world.entities_.at? p = some bullet →
      world.entities_.at? q = some ship → bullet.type = .Bullet → ship.type = .Ship →
        P (world.onCollisionBulletShip p bullet q ship)) :
    P (world.dispatchCollision i a j b) := by
  unfold dispatchCollision
  split
  · next ha hb => exact ships ha hb
  · next ha hb => exact asteroid hij hi hj ha hb
  · next ha hb => exact asteroid hij.symm hj hi hb ha
  · next ha hb => exact bullet hij hi hj ha hb
  · next ha hb => exact bullet hij.symm hj hi hb ha
  · exact same
  · exact same
  · exact same

/-! ### Asteroids -/

/-- The rule does not swap the two if the ship comes first. -/
theorem onCollisionShipAsteroid_of_ship {γ : Type}
    (can_grow : Math.Vector2D K → K → γ → Bool × Math.Vector2D K × γ) {ship : Entity K}
    (asteroid : Entity K) (g : γ) (hship : ship.type = .Ship) :
    Collision.onCollisionShipAsteroid can_grow ship asteroid g =
      Collision.eatAsteroid can_grow ship asteroid g := by
  unfold Collision.onCollisionShipAsteroid
  rw [hship]
  rfl

/-- An asteroid is eaten or left as it is. -/
theorem eatAsteroid_asteroid {γ : Type}
    (can_grow : Math.Vector2D K → K → γ → Bool × Math.Vector2D K × γ)
    (ship asteroid : Entity K) (g : γ) :
    (Collision.eatAsteroid can_grow ship asteroid g).2.1 = asteroid ∨
      (Collision.eatAsteroid can_grow ship asteroid g).2.1 =
        { asteroid with isDestroyed := true } := by
  unfold Collision.eatAsteroid
  dsimp only
  split_ifs
  · exact Or.inl rfl
  · exact Or.inl rfl
  · exact Or.inl rfl
  · exact Or.inl rfl
  · exact Or.inl rfl
  · exact Or.inr rfl
  · exact Or.inl rfl
  · exact Or.inl rfl

/-! ### What a hit does -/

/-- A bullet misses, or it is used up and damages a ship other than its owner's. -/
theorem hitShip_cases (bullet ship : Entity K) :
    Collision.hitShip bullet ship = (bullet, ship, none) ∨
      ∃ combat health, bullet.combat = some combat ∧ ship.health = some health ∧
        combat.owner_id ≠ ship.id ∧ Collision.hitShip bullet ship =
          ({ bullet with isDestroyed := true },
            { ship with
              health := some (applyDamage health Collision.kBulletDamage)
              isDestroyed := ship.isDestroyed ||
                !isAlive (applyDamage health Collision.kBulletDamage) },
            some ⟨combat.owner_id, !isAlive (applyDamage health Collision.kBulletDamage)⟩) := by
  unfold Collision.hitShip
  split
  · exact Or.inl rfl
  · split
    · exact Or.inl rfl
    · split
      · next combat health s hcombat hhealth hship =>
        split
        · exact Or.inl rfl
        · split
          · exact Or.inl rfl
          · next howner => exact Or.inr ⟨combat, health, hcombat, hhealth, howner, rfl⟩
      · exact Or.inl rfl

/-- The rule does not swap the two if the bullet comes first. -/
theorem onCollisionBulletShip_of_bullet {bullet : Entity K} (ship : Entity K)
    (hbullet : bullet.type = .Bullet) :
    Collision.onCollisionBulletShip bullet ship = Collision.hitShip bullet ship := by
  unfold Collision.onCollisionBulletShip
  rw [hbullet]
  rfl

/-- What a hit is worth to an entity: points for the owner of the bullet, if it is a live
ship. -/
def credit (owner_id : EntityId) (points : UInt32) (e : Entity K) : Entity K :=
  if e.LiveShip ∧ e.id = owner_id then
    { e with ship := e.ship.map fun ship => addScore ship points }
  else
    e

omit [Scalar K] in
theorem credit_of_not {owner_id : EntityId} {points : UInt32} {e : Entity K}
    (h : ¬ (e.LiveShip ∧ e.id = owner_id)) : credit owner_id points e = e := if_neg h

omit [Scalar K] in
theorem holdsLive_iff {id : EntityId} {slot : Option (Entity K)} :
    holdsLive id slot = true ↔ ∃ e, slot = some e ∧ e.isDestroyed = false ∧ e.id = id := by
  cases slot with
  | none => simp [holdsLive]
  | some e => simp [holdsLive]

omit [Scalar K] in
/-- The scan for the owner credits one slot at most: the one that carries its identifier. -/
theorem at?_creditHit {pool : EntityPool K} (unique : pool.UniqueIds) (hit : Collision.Hit)
    (k : ℕ) :
    (creditHit pool hit).at? k =
      (pool.at? k).map (credit hit.owner_id (if hit.ship_destroyed then 50 else 5)) := by
  unfold creditHit
  cases hfind : pool.storage_.findIdx? (holdsLive hit.owner_id) with
  | none =>
    -- Nobody is live under this identifier.
    rw [List.findIdx?_eq_none_iff] at hfind
    dsimp only
    cases hat : pool.at? k with
    | none => rfl
    | some e =>
      rw [Option.map_some, credit_of_not]
      rintro ⟨hlive, hid⟩
      have hholds := hfind _ (EntityPool.mem_storage.mpr ⟨k, hat⟩)
      rw [holdsLive_iff.mpr ⟨e, rfl, hlive.2, hid⟩] at hholds
      cases hholds
  | some m =>
    obtain ⟨hm, hholds, -⟩ := List.findIdx?_eq_some_iff_getElem.mp hfind
    obtain ⟨owner, howner, hlive, hid⟩ := holdsLive_iff.mp hholds
    have hat : pool.at? m = some owner :=
      EntityPool.at?_eq_some.mpr (List.getElem?_eq_some_iff.mpr ⟨hm, howner⟩)
    dsimp only
    rw [EntityPool.at?_modify]
    by_cases hk : m = k
    · subst hk
      rw [if_pos rfl, hat, Option.map_some, Option.map_some]
      by_cases htype : owner.type = .Ship
      · rw [if_neg (not_not_intro htype)]
        exact congrArg some (if_pos ⟨⟨htype, hlive⟩, hid⟩).symm
      · rw [if_pos htype, credit_of_not fun h => htype h.1.1]
    · rw [if_neg hk]
      cases hatk : pool.at? k with
      | none => rfl
      | some e =>
        rw [Option.map_some, credit_of_not]
        rintro ⟨-, hide⟩
        exact hk (unique _ _ _ _ hat hatk (hid.trans hide.symm))

omit [Scalar K] in
theorem at?_writePair {pool : EntityPool K} {i j : ℕ} {a b : Entity K} (hij : i ≠ j)
    (hi : pool.at? i = some a) (hj : pool.at? j = some b) (a' b' : Entity K) (k : ℕ) :
    (writePair pool i a' j b').at? k =
      if k = i then some a' else if k = j then some b' else pool.at? k := by
  rw [writePair, EntityPool.at?_modify, EntityPool.at?_modify]
  by_cases hki : k = i
  · subst hki
    rw [if_neg hij.symm, if_pos rfl, if_pos rfl, hi, Option.map_some]
  · by_cases hkj : k = j
    · subst hkj
      rw [if_pos rfl, if_neg hij, if_neg hki, if_pos rfl, hj, Option.map_some]
    · rw [if_neg (Ne.symm hkj), if_neg (Ne.symm hki), if_neg hki, if_neg hkj]

/-- The slots after a bullet met a ship: they are as they were, or the bullet is used up, the
ship is damaged and the owner of the bullet is credited. -/
theorem onCollisionBulletShip_cases {world : World K} (unique : world.entities_.UniqueIds)
    {i j : ℕ} {bullet ship : Entity K} (hij : i ≠ j)
    (hi : world.entities_.at? i = some bullet) (hj : world.entities_.at? j = some ship)
    (hbullet : bullet.type = .Bullet) :
    (∀ k, (world.onCollisionBulletShip i bullet j ship).entities_.at? k =
        world.entities_.at? k) ∨
      ∃ combat health points, bullet.combat = some combat ∧ ship.health = some health ∧
        combat.owner_id ≠ ship.id ∧ (points = 5 ∨ points = 50) ∧
        ∀ k, (world.onCollisionBulletShip i bullet j ship).entities_.at? k =
          (if k = i then some { bullet with isDestroyed := true }
          else if k = j then
            some { ship with
              health := some (applyDamage health Collision.kBulletDamage)
              isDestroyed := ship.isDestroyed ||
                !isAlive (applyDamage health Collision.kBulletDamage) }
          else world.entities_.at? k).map (credit combat.owner_id points) := by
  unfold World.onCollisionBulletShip
  rw [onCollisionBulletShip_of_bullet ship hbullet]
  rcases hitShip_cases bullet ship with hmiss | ⟨combat, health, hcombat, hhealth, howner, hhit⟩
  · rw [hmiss]
    refine Or.inl fun k => ?_
    dsimp only
    rw [at?_writePair hij hi hj]
    split_ifs with hki hkj
    · rw [hki, hi]
    · rw [hkj, hj]
    · rfl
  · rw [hhit]
    -- The identifiers stay, so the points go to the same shooter as before.
    have hpair (left : HealthComponent) :
        EntityPool.Evolves (fun e e' => e'.id = e.id) world.entities_
        (writePair world.entities_ i { bullet with isDestroyed := true } j
          { ship with
            health := some left, isDestroyed := ship.isDestroyed || !isAlive left }) :=
      evolves_writePair (R := fun e e' => e'.id = e.id) (fun _ => rfl)
        (fun _ _ _ hab hbc => hbc.trans hab) hij hi hj rfl rfl
    refine Or.inr ⟨combat, health,
      if !isAlive (applyDamage health Collision.kBulletDamage) then 50 else 5, hcombat, hhealth,
      howner, ?_, fun k => ?_⟩
    · cases isAlive (applyDamage health Collision.kBulletDamage) with
      | false => exact Or.inr rfl
      | true => exact Or.inl rfl
    · dsimp only
      rw [at?_creditHit ((hpair _).uniqueIds (fun h => h) unique), at?_writePair hij hi hj]

end SpaceShooter.Server.World
