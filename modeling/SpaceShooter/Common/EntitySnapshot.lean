/-
# Entity snapshots

What the server tells its clients about one entity.
-/

import SpaceShooter.Common.Scalar

namespace SpaceShooter.Snapshot

structure TransformSnapshot (K : Type) where
  position : Math.Vector2D K
  velocity : Math.Vector2D K
  angle : K
  deriving DecidableEq, Repr

structure ShipSnapshot (K : Type) where
  name : Bytes
  score : UInt32
  thrust_power : K
  drag : K
  is_thrusting : Bool
  frags : UInt16
  deriving DecidableEq, Repr

structure HealthSnapshot where
  current : UInt16
  max : UInt16
  deriving DecidableEq, Repr

structure CombatSnapshot where
  damage : UInt16
  owner_id : EntityId
  deriving DecidableEq, Repr

structure AsteroidSnapshot where
  score_reward : UInt16
  deriving DecidableEq, Repr

structure EntitySnapshot (K : Type) where
  id : EntityId
  type : EntityType
  mass : K
  radius : K
  is_destroyed : Bool
  transform : Option (TransformSnapshot K)
  ship : Option (ShipSnapshot K)
  health : Option HealthSnapshot
  combat : Option CombatSnapshot
  asteroid : Option AsteroidSnapshot
  deriving DecidableEq, Repr

end SpaceShooter.Snapshot
