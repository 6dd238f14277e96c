/-
# Network events

The events that travel over the server's bus, each carrying the session it is
about; session `0` addresses every client.
-/

import SpaceShooter.Common.Types

namespace SpaceShooter.Server

/-- An event of the server's bus, over the scalar type of move angles. -/
inductive NetworkEvent (K : Type)
  | NetworkMessageEvent (session_id : SessionId) (payload : Bytes)
  | SendPacketEvent (session_id : SessionId) (payload : Bytes)
  | ClientConnectedEvent (session_id : SessionId) (remote_address : Bytes)
  | PlayerJoinEvent (session_id : SessionId) (login : Bytes)
  | ClientDisconnectedEvent (session_id : SessionId)
  | ShotMessageEvent (session_id : SessionId)
  | ShipDestroyedEvent (session_id : SessionId)
  | PlayerMoveEvent (session_id : SessionId) (angle : K)
  deriving DecidableEq, Repr

namespace NetworkEvent

variable {K : Type}

def session_id : NetworkEvent K → SessionId
  | NetworkMessageEvent s _ => s
  | SendPacketEvent s _ => s
  | ClientConnectedEvent s _ => s
  | PlayerJoinEvent s _ => s
  | ClientDisconnectedEvent s => s
  | ShotMessageEvent s => s
  | ShipDestroyedEvent s => s
  | PlayerMoveEvent s _ => s

/-- The events that carry a player's command to the world. -/
def isCommand : NetworkEvent K → Bool
  | PlayerJoinEvent _ _ => true
  | ShotMessageEvent _ => true
  | PlayerMoveEvent _ _ => true
  | _ => false

/-- The events the world subscribes to. -/
def isInput : NetworkEvent K → Bool
  | ClientDisconnectedEvent _ => true
  | event => event.isCommand

/-- The event that announces the end of a session. -/
def isDisconnectOf (s : SessionId) : NetworkEvent K → Bool
  | ClientDisconnectedEvent session_id => decide (session_id = s)
  | _ => false

end NetworkEvent

end SpaceShooter.Server
