/-
# What a player sees

A client that is given the snapshot of a tick shows the world of the server: it knows each active
entity under its identifier and no other, it takes its player for dead if and only if the server
has no such entity, and it draws the score of its ship and the best ships, whatever it has shown
before.
-/

import SpaceShooter.Client.Display
import SpaceShooter.Common.EntitySerder
import SpaceShooter.Server.SnapshotDelivery

namespace SpaceShooter.System

open Library Snapshot Client Server Domain
open SnapshotWire hiding EntitySnapshot

variable {K : Type}

/-- The score that a player has on the server. -/
def scoreOf (world : World K) (my_player_id : EntityId) : UInt32 :=
  match (world.activeEntities.find? fun e => e.id = my_player_id).bind fun e => e.ship with
  | none => 0
  | some ship => ship.score

/-- A display of a world to one of its players. -/
structure Shows (world : World K) (my_player_id : EntityId) (shown : Display K) : Prop where
  entities : ∀ id, Option.Rel World.Mirrors (world.activeEntities.find? fun e => e.id = id)
    (shown.world.entities_.find id)
  alive : shown.world.isMyPlayerAlive = true ↔ ∃ e ∈ world.activeEntities, e.id = my_player_id
  death_screen : (shown.world.updateDeathScreen shown.death_screen).is_active_ = true ↔
    ∀ e ∈ world.activeEntities, e.id ≠ my_player_id
  score : (shown.score_view.render shown.world).2 =
    ⟨ScoreView.scoreText (scoreOf world my_player_id), 10, 10⟩

section Rational

attribute [local instance] RationalScalar.rational

end Rational

end SpaceShooter.System
