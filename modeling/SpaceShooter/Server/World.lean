/-
# The world and its input

The state of `WorldInstance` that ticks work on, the subscriptions that queue the
players' actions, and the two halves of a join: `processInputQueue` drains the queue
at the start of a tick and applies moves, shots and quits; the ships of the players
who joined are spawned at its end.
-/

import SpaceShooter.Common.Config
import SpaceShooter.Server.EntityPool
import SpaceShooter.Server.NetworkEvents

namespace SpaceShooter.Server

open Scalar Domain

inductive ActionType
  | Unknown
  | PlayerJoin
  | PlayerQuit
  | MoveAndShoot
  | Respawn
  deriving DecidableEq, Repr

structure ActionEvent (K : Type) where
  session_id : SessionId := 0
  type : ActionType := .Unknown
  angle : K
  is_shooting : Bool := false
  player_name : Bytes := []
  deriving DecidableEq, Repr

/-- `ActionEvent{}`. -/
def ActionEvent.default {K : Type} [Scalar K] : ActionEvent K := { angle := lit 0 }

/-- A player who joined in this tick and has no ship yet. -/
structure PendingJoin where
  session_id : SessionId
  player_name : Bytes
  deriving DecidableEq, Repr

structure World (K : Type) where
  world_width_ : K
  world_height_ : K
  entities_ : EntityPool K := {}
  action_queue_ : List (ActionEvent K) := []
  session_to_ship_ : AList (fun _ : SessionId => EntityId) := ∅
  /-- The events the world has put on the bus. -/
  published : List (NetworkEvent K) := []
  /-- History: every ship that was spawned, with its session. -/
  spawned : List (SessionId × EntityId) := []

namespace World

variable {K : Type} [Scalar K]

/-! ### Subscriptions -/

/-- The action of a move: it does not shoot. -/
def moveAction (session_id : SessionId) (angle : K) : ActionEvent K :=
  { (ActionEvent.default : ActionEvent K) with
    type := .MoveAndShoot, session_id := session_id, angle := angle }

/-- The action of a shot: its angle is the default one. -/
def shotAction (session_id : SessionId) : ActionEvent K :=
  { (ActionEvent.default : ActionEvent K) with
    type := .MoveAndShoot, session_id := session_id, is_shooting := true }

def enqueueAction (world : World K) (action : ActionEvent K) : World K :=
  { world with action_queue_ := world.action_queue_ ++ [action] }

def onClientDisconnected (world : World K) (session_id : SessionId) : World K :=
  world.enqueueAction
    { (ActionEvent.default : ActionEvent K) with type := .PlayerQuit, session_id := session_id }

def onPlayerJoin (world : World K) (session_id : SessionId) (login : Bytes) : World K :=
  world.enqueueAction
    { (ActionEvent.default : ActionEvent K) with
      type := .PlayerJoin, session_id := session_id, player_name := login }

def onShotReceived (world : World K) (session_id : SessionId) : World K :=
  world.enqueueAction (shotAction session_id)

def onPlayerMove (world : World K) (session_id : SessionId) (angle : K) : World K :=
  world.enqueueAction (moveAction session_id angle)

/-- The subscriptions of `setupSubscriptions`; the world ignores other events. -/
def onEvent (event : NetworkEvent K) (world : World K) : World K :=
  match event with
  | .ClientDisconnectedEvent session_id => world.onClientDisconnected session_id
  | .PlayerJoinEvent session_id login => world.onPlayerJoin session_id login
  | .ShotMessageEvent session_id => world.onShotReceived session_id
  | .PlayerMoveEvent session_id angle => world.onPlayerMove session_id angle
  | _ => world

/-- The clean-up of `shutdownTickLoop`. -/
def discardActions (world : World K) : World K := { world with action_queue_ := [] }

/-! ### Draining the input queue -/

/-- The first half of a join; a second join of one drain is ignored. -/
def applyJoin (new_players : List PendingJoin) (action : ActionEvent K) : List PendingJoin :=
  if new_players.any (·.session_id = action.session_id) then new_players
  else new_players ++ [⟨action.session_id, action.player_name⟩]

/-- A quit flags the ship of its session and drops the mapping. -/
def applyQuit (world : World K) (session_id : SessionId) : World K :=
  match world.session_to_ship_.lookup session_id with
  | none => world
  | some ship_id =>
    -- No `ShipDestroyedEvent`: the player is gone, this is not a kill.
    { world with
      entities_ :=
        match world.entities_.findByEntityID ship_id with
        | some (i, _) => world.entities_.modify i fun ship => { ship with isDestroyed := true }
        | none => world.entities_
      session_to_ship_ := world.session_to_ship_.erase session_id }

/-- A bullet in front of a ship whose transform is given. -/
def createBullet (pool : EntityPool K) (ship_id : EntityId) (transform : TransformComponent K)
    (radius : K) : EntityPool K :=
  let (idx, pool) := pool.acquire
  pool.modify idx fun bullet =>
    let angle := transform.angle
    let direction : Math.Vector2D K := ⟨cos angle, sin angle⟩
    -- Its mass stays zero, and it has no health of its own.
    { bullet with
      type := .Bullet
      radius := World.kBulletRadius
      transform := some { TransformComponent.default with
        position := transform.position + direction * radius
        velocity := direction * (World.kBulletSpeed : K) }
      combat := some { damage := World.kBulletDamage.toUInt64.toUInt16, owner_id := ship_id } }

/-- Turn the ship of a session and let it shoot. -/
def applyMoveAndShoot (world : World K) (action : ActionEvent K) : World K :=
  match world.session_to_ship_.lookup action.session_id with
  | none => world
  | some ship_id =>
    match world.entities_.findByEntityID ship_id with
    | none => world
    | some (i, ship) =>
      match ship.transform with
      | none => world
      | some transform =>
        -- The angle is assigned also when the action came without one.
        let transform := { transform with angle := action.angle }
        let entities := world.entities_.modify i fun ship =>
          { ship with transform := some transform }
        { world with
          entities_ :=
            if action.is_shooting then createBullet entities ship_id transform ship.radius
            else entities }

def applyAction : World K × List PendingJoin → ActionEvent K → World K × List PendingJoin
  | (world, new_players), action =>
    match action.type with
    | .PlayerJoin => (world, applyJoin new_players action)
    | .PlayerQuit => (world.applyQuit action.session_id, new_players)
    | .MoveAndShoot => (world.applyMoveAndShoot action, new_players)
    | .Respawn | .Unknown => (world, new_players)

def processInputQueue (world : World K) (new_players : List PendingJoin) :
    World K × List PendingJoin :=
  -- Actions that arrive from here on wait for the next tick.
  world.action_queue_.foldl applyAction ({ world with action_queue_ := [] }, new_players)

/-! ### Spawning ships -/

/-- The active entities that take room. -/
def collectLiveEntities (pool : EntityPool K) : List (Entity K) :=
  pool.storage_.reduceOption.filter fun entity =>
    EntityPool.isActive (some entity) && entity.transform.isSome &&
      !decide (entity.radius ≤ lit 0)

def freePosition (world : World K) : Math.Circle K :=
  let occupied := (collectLiveEntities world.entities_).filterMap fun e =>
    e.transform.map fun transform => (transform.position, e.radius)
  Math.largestEmptyCircle occupied world.world_width_ world.world_height_

/-- The name field of a ship: at most 31 bytes of the player's name, then zeros. -/
def shipName (player_name : Bytes) : ShipName :=
  ⟨player_name.take (kShipNameSize - 1) ++
      List.replicate (kShipNameSize - (player_name.take (kShipNameSize - 1)).length) 0, by
    simp only [List.length_append, List.length_replicate, List.length_take, kShipNameSize]
    omega⟩

/-- Fill in the ship of a new player. -/
def outfitShip (area : Math.Circle K) (player_name : Bytes) (entity : Entity K) : Entity K :=
  { entity with
    type := .Ship
    mass := World.kShipDefaultMass
    radius := World.kShipDefaultRadius
    transform := some ⟨area.center, ⟨lit 0, lit 0⟩, lit 0⟩
    ship := some
      { name := shipName player_name
        thrust_power := World.kShipDefaultThrustPower
        drag := World.kShipDefaultDrag
        is_thrusting := true }
    health := some ⟨World.kShipDefaultHealth, World.kShipDefaultHealth⟩
    combat := some ⟨World.kShipDefaultDamage, entity.id⟩ }

/-- The second half of a join; the identifier of the new entity is the pool's next one. -/
def spawnShip (world : World K) (join : PendingJoin) : World K :=
  -- The free room is computed before the slot is taken.
  let area := world.freePosition
  let ship_id := world.entities_.next_id_
  let (idx, entities) := world.entities_.acquire
  { world with
    entities_ := entities.modify idx (outfitShip area join.player_name)
    -- An entry that the session still has is overwritten, its ship stays in the pool.
    session_to_ship_ := world.session_to_ship_.insert join.session_id ship_id
    spawned := (join.session_id, ship_id) :: world.spawned }

def spawnShips (world : World K) (new_players : List PendingJoin) : World K :=
  new_players.foldl spawnShip world

end World

end SpaceShooter.Server
