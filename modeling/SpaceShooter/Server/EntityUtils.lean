/-
# Movement and snapshots of the pool's entities

The two passes over the pool's slots: the movement of every live entity and the
snapshots of the active ones.
-/

import SpaceShooter.Common.EntitySnapshot
import SpaceShooter.Server.EntityPool

namespace SpaceShooter.Domain

open Scalar

variable {K : Type} [Scalar K]

def toEntitySnapshot (entity : Entity K) : Snapshot.EntitySnapshot K where
  id := entity.id
  type := entity.type
  mass := entity.mass
  radius := entity.radius
  is_destroyed := entity.isDestroyed
  transform := entity.transform.map fun t => ⟨t.position, t.velocity, t.angle⟩
  ship := entity.ship.map fun s =>
    ⟨untilNul s.name.val, s.score, s.thrust_power, s.drag, s.is_thrusting, s.frags⟩
  health := entity.health.map fun h => ⟨h.current, h.max⟩
  combat := entity.combat.map fun c => ⟨c.damage, c.owner_id⟩
  asteroid := entity.asteroid.map fun a => ⟨a.score_reward⟩

/-- The snapshots of the active entities, in slot order. -/
def buildEntitySnapshots (pool : EntityPool K) : List (Snapshot.EntitySnapshot K) :=
  pool.storage_.filterMap fun slot =>
    if EntityPool.isActive slot then slot.map toEntitySnapshot else none

/-! ### Movement -/

/-- Integrate the motion of an entity that has a transform. -/
def integrate (entity : Entity K) (t : TransformComponent K) (dt : K) : TransformComponent K :=
  match entity.type, entity.ship with
  | .Ship, some s =>
    let (position, velocity) := Math.updateShipPhysics t.position t.velocity t.angle
      s.is_thrusting s.thrust_power s.drag dt
    { t with position := position, velocity := velocity }
  | _, _ => { t with position := t.position + t.velocity * dt }

/-- Treat an integrated entity at the edges of the world. -/
def bound (entity : Entity K) (t : TransformComponent K) (world_width world_height : K) :
    Entity K :=
  if entity.type = .Asteroid then
    let position :=
      Math.wrapCircleThroughWorldBounds t.position entity.radius world_width world_height
    { entity with transform := some { t with position := position } }
  else
    let clamped := Math.clampToWorldBounds t.position world_width world_height
    let clamped_x := decide (Math.kEps < fabs (clamped.x - t.position.x))
    let clamped_y := decide (Math.kEps < fabs (clamped.y - t.position.y))
    if !clamped_x && !clamped_y then
      { entity with transform := some t }
    else
      match entity.type with
      -- A bullet ends at the edge, a ship stops there.
      | .Bullet => { entity with transform := some t, isDestroyed := true }
      | .Ship =>
        let velocity : Math.Vector2D K :=
          ⟨if clamped_x then lit 0 else t.velocity.x, if clamped_y then lit 0 else t.velocity.y⟩
        { entity with transform := some { t with position := clamped, velocity := velocity } }
      | _ => { entity with transform := some t }

/-- Move one entity by one tick. -/
def moveEntity (dt world_width world_height : K) (entity : Entity K) : Entity K :=
  if entity.type = .None || entity.isDestroyed then
    entity
  else
    match entity.transform with
    | none => entity
    | some t => bound entity (integrate entity t dt) world_width world_height

def updateMovementAndBounds (pool : EntityPool K) (dt world_width world_height : K) :
    EntityPool K :=
  { pool with storage_ := pool.storage_.map (Option.map (moveEntity dt world_width world_height)) }

/-! ### What movement keeps -/

/-- At the edges the position and the velocity of an entity change, and a bullet ends. -/
theorem bound_eq (e : Entity K) (t : TransformComponent K) (w h : K) :
    ∃ t' out, t'.angle = t.angle ∧ (out = e.isDestroyed ∨ e.type = .Bullet ∧ out = true) ∧
      bound e t w h = { e with transform := some t', isDestroyed := out } := by
  unfold bound
  split
  · refine ⟨_, _, ?_, .inl rfl, rfl⟩
    rfl
  · dsimp only
    split
    · exact ⟨t, _, rfl, .inl rfl, rfl⟩
    · split
      · next hbullet => exact ⟨t, _, rfl, .inr ⟨hbullet, rfl⟩, rfl⟩
      · refine ⟨_, _, ?_, .inl rfl, rfl⟩
        rfl
      · exact ⟨t, _, rfl, .inl rfl, rfl⟩

/-- Moving an entity replaces its transform and may destroy a bullet. -/
theorem moveEntity_eq (dt w h : K) (e : Entity K) :
    ∃ transform out, transform.isSome = e.transform.isSome ∧
      (out = e.isDestroyed ∨ e.type = .Bullet ∧ out = true) ∧
      moveEntity dt w h e = { e with transform := transform, isDestroyed := out } := by
  unfold moveEntity
  split_ifs
  · exact ⟨_, _, rfl, .inl rfl, rfl⟩
  · split
    · exact ⟨_, _, rfl, .inl rfl, rfl⟩
    · next t ht =>
      obtain ⟨t', out, -, hout, heq⟩ := bound_eq e (integrate e t dt) w h
      rw [ht]
      exact ⟨some t', out, rfl, hout, heq⟩

theorem moveEntity_continues (dt w h : K) (e : Entity K) :
    e.Continues (moveEntity dt w h e) := by
  obtain ⟨transform, out, htransform, hout, heq⟩ := moveEntity_eq dt w h e
  rw [heq]
  rcases hout with rfl | ⟨-, rfl⟩
  · refine ⟨rfl, rfl, fun hdestroyed => hdestroyed, fun hfit htype halive => ?_⟩
    obtain ⟨hsome, hrest⟩ := hfit htype halive
    exact ⟨htransform.trans hsome, hrest⟩
  · exact ⟨rfl, rfl, fun _ => rfl, fun _ _ => nofun⟩

/-- A ship survives its movement. -/
theorem moveEntity_liveShip {e : Entity K} (h : e.LiveShip) (dt w height : K) :
    (moveEntity dt w height e).LiveShip := by
  obtain ⟨transform, out, -, hout, heq⟩ := moveEntity_eq dt w height e
  rw [heq]
  refine ⟨h.1, ?_⟩
  rcases hout with rfl | ⟨hbullet, -⟩
  · exact h.2
  · cases h.1.symm.trans hbullet

theorem evolves_updateMovementAndBounds (pool : EntityPool K) (dt w h : K) :
    EntityPool.Evolves Entity.Continues pool (updateMovementAndBounds pool dt w h) :=
  EntityPool.evolves_map pool (moveEntity_continues dt w h)

end SpaceShooter.Domain
