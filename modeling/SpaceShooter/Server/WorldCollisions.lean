/-
# Collisions of the world

The pass over all pairs of slots, what each collision does to the pool, and the
clean-up after the pass: destroyed ships are announced, unmapped and recycled. A pass
may fail in the collision test or in a subscriber of the bus, and then leaves what it
did so far.
-/

import SpaceShooter.Library.Outcome
import SpaceShooter.Server.CollisionUtils
import SpaceShooter.Server.World

namespace SpaceShooter.Server

open Scalar Domain Library.Outcome

inductive GrowStatus
  | CanGrow
  | CannotFit
  | InvalidInput
  deriving DecidableEq, Repr

namespace World

variable {K : Type} [Scalar K]

/-- A computation on the world that may throw. -/
abbrev Action (K : Type) (α : Type) := EStateM StdException (World K) α

/-! ### Single collisions -/

def mayCollide (a b : EntityType) : Bool :=
  if a = .None || b = .None then false
  else if a = .Bullet && b = .Bullet then false
  else if a = .Asteroid && b = .Asteroid then false
  else true

/-- Clamp a position and tell whether a ship of this radius fits there. -/
def tryGrowShip (world : World K) (position : Math.Vector2D K) (radius : K) :
    GrowStatus × Math.Vector2D K :=
  if !isfinite position.x || !isfinite position.y || !isfinite radius || radius < lit 0 ||
      !isfinite world.world_width_ || !isfinite world.world_height_ ||
      world.world_width_ ≤ lit 0 || world.world_height_ ≤ lit 0 then
    -- An invalid position is handed back as it is.
    (.InvalidInput, position)
  else
    let position := Math.clampToWorldBounds position world.world_width_ world.world_height_
    if Math.circleIntersectsOppositeWorldBounds position radius world.world_width_
        world.world_height_ then
      (.CannotFit, position)
    else
      (.CanGrow, position)

/-- The predicate handed to the collision rule; it keeps the last status. -/
def can_grow (world : World K) (position : Math.Vector2D K) (radius : K) (_ : GrowStatus) :
    Bool × Math.Vector2D K × GrowStatus :=
  let (grow_status, position) := world.tryGrowShip position radius
  (decide (grow_status = .CanGrow), position, grow_status)

/-- Write the two entities of a pair back to their slots. -/
def writePair (pool : EntityPool K) (i : ℕ) (a : Entity K) (j : ℕ) (b : Entity K) :
    EntityPool K :=
  (pool.modify i fun _ => a).modify j fun _ => b

def onCollisionShipShip (world : World K) (i : ℕ) (ship1 : Entity K) (j : ℕ)
    (ship2 : Entity K) : World K :=
  let (ship1, ship2) := Collision.onCollisionShipShip ship1 ship2
  { world with entities_ := writePair world.entities_ i ship1 j ship2 }

/-- A ship that outgrows the world is destroyed. -/
def onCollisionShipAsteroid (world : World K) (i : ℕ) (ship : Entity K) (j : ℕ)
    (asteroid : Entity K) : World K :=
  let (ship, asteroid, grow_status) :=
    Collision.onCollisionShipAsteroid world.can_grow ship asteroid .CanGrow
  let ship := if grow_status = .CannotFit then { ship with isDestroyed := true } else ship
  { world with entities_ := writePair world.entities_ i ship j asteroid }

/-- Whether a slot holds the live entity of an identifier. -/
def holdsLive (id : EntityId) : Option (Entity K) → Bool
  | some entity => !entity.isDestroyed && entity.id = id
  | none => false

/-- Credit the owner of a bullet, if it is a live ship. -/
def creditHit (pool : EntityPool K) (hit : Collision.Hit) : EntityPool K :=
  match pool.storage_.findIdx? (holdsLive hit.owner_id) with
  -- The owner is gone, or destroyed in this very pass.
  | none => pool
  | some k =>
    pool.modify k fun owner =>
      if owner.type ≠ .Ship then
        owner
      else
        let score := if hit.ship_destroyed then 50 else 5
        { owner with ship := owner.ship.map fun ship => addScore ship score }

def onCollisionBulletShip (world : World K) (i : ℕ) (proj : Entity K) (j : ℕ)
    (ship : Entity K) : World K :=
  let (proj, ship, hit) := Collision.onCollisionBulletShip proj ship
  let pool := writePair world.entities_ i proj j ship
  { world with
    entities_ :=
      match hit with
      | some hit => creditHit pool hit
      | none => pool }

/-- Bullets pass through asteroids. -/
def onCollisionBulletAsteroid (world : World K) (_ : ℕ) (_ : Entity K) (_ : ℕ)
    (_ : Entity K) : World K := world

def dispatchCollision (world : World K) (i : ℕ) (a : Entity K) (j : ℕ) (b : Entity K) :
    World K :=
  match a.type, b.type with
  | .Ship, .Ship => world.onCollisionShipShip i a j b
  | .Ship, .Asteroid => world.onCollisionShipAsteroid i a j b
  | .Asteroid, .Ship => world.onCollisionShipAsteroid j b i a
  | .Bullet, .Ship => world.onCollisionBulletShip i a j b
  | .Ship, .Bullet => world.onCollisionBulletShip j b i a
  | .Bullet, .Asteroid => world.onCollisionBulletAsteroid i a j b
  | .Asteroid, .Bullet => world.onCollisionBulletAsteroid j b i a
  -- The pairs that `mayCollide` refuses.
  | _, _ => world

/-! ### The pass over all pairs -/

/-- The transform of a slot that takes part in collisions. -/
def collider (pool : EntityPool K) (i : ℕ) : Option (Entity K × TransformComponent K) :=
  match pool.at? i with
  | none => none
  | some entity =>
    if entity.isDestroyed then none
    else entity.transform.map fun transform => (entity, transform)

def collidePair (i j : ℕ) : Action K PUnit := do
  let world ← get
  -- Earlier pairs of the pass may have destroyed either entity.
  match collider world.entities_ i, collider world.entities_ j with
  | some (a, ta), some (b, tb) =>
    if mayCollide a.type b.type then
      match Math.checkCircleCollision ta.position a.radius tb.position b.radius with
      | .error e => throw e
      | .ok false => pure ⟨⟩
      | .ok true => set (world.dispatchCollision i a j b)
    else
      pure ⟨⟩
  | _, _ => pure ⟨⟩

/-- The pairs of a slot with later ones. The code leaves the loop once the entity of the
slot is destroyed; here the remaining pairs find no collider. -/
def collideRow (n i : ℕ) : Action K PUnit :=
  (List.range' (i + 1) (n - (i + 1))).forM (collidePair i)

def collidePairs : Action K PUnit := do
  let world ← get
  let n := world.entities_.storage_.length
  (List.range n).forM (collideRow n)

/-! ### Destroyed ships -/

/-- What the environment of a tick decides: the random draws, the events at which a
subscriber throws, and the iteration order of the unordered map. -/
structure TickChoice (K : Type) where
  uniform : ℕ → K → K → K
  refuses : NetworkEvent K → Option StdException
  order : List SessionId → List SessionId
  order_perm : ∀ sessions, (order sessions).Perm sessions

variable (choice : TickChoice K)

def publish (event : NetworkEvent K) : Action K PUnit :=
  match choice.refuses event with
  | some e => throw e
  | none => modify fun world => { world with published := world.published ++ [event] }

def destroyedIds (pool : EntityPool K) : List EntityId :=
  (pool.storage_.reduceOption.filter (·.isDestroyed)).map (·.id)

def reapSession (destroyed_ids : List EntityId) (session_id : SessionId) :
    Action K PUnit := do
  let world ← get
  match world.session_to_ship_.lookup session_id with
  | none => pure ⟨⟩
  | some ship_id =>
    if ship_id ∈ destroyed_ids then
      -- A subscriber that throws leaves the entry in the mapping.
      publish choice (.ShipDestroyedEvent session_id)
      modify fun world =>
        { world with session_to_ship_ := world.session_to_ship_.erase session_id }
    else
      pure ⟨⟩

def recycleDestroyed : Action K PUnit :=
  modify fun world => { world with entities_ := world.entities_.recycleDestroyed }

def reapDestroyedShips : Action K PUnit := do
  let world ← get
  let destroyed_ids := destroyedIds world.entities_
  -- Every session of the mapping is visited once, in the order of the unordered map.
  (choice.order world.session_to_ship_.keys).forM (reapSession choice destroyed_ids)
  recycleDestroyed

def resolveCollisions : Action K PUnit := do
  collidePairs
  reapDestroyedShips choice

end World

end SpaceShooter.Server
