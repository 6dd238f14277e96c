/-
# The response router

The router turns the payloads of sessions into command events by matching
keyword prefixes, answers a join at once, and passes what it does not recognise
to an external handler. It shares no grammar with the client's encoder: the two
agree on joins and shots, and on no move.
-/

import SpaceShooter.Common.Protocol
import SpaceShooter.Common.Stod
import SpaceShooter.Server.NetworkEvents

namespace SpaceShooter.Server.NetworkResponseRouter

open Protocol NetworkEvent

/-- The session id that marks a broadcast. -/
def kBroadcastSessionId : SessionId := 0

/-- What handling one payload does, in order. -/
inductive Effect (K : Type)
  | publish (event : NetworkEvent K)
  | logError (text : String) (cause : StdException)
  | callHandler (session_id : SessionId) (payload : Bytes)
  deriving DecidableEq

variable {K : Type} [Scalar K]

/-- Handle the payload of a `NetworkMessageEvent`; `handlerSet` tells whether an
external message handler is registered. -/
def onMessageReceived (handlerSet : Bool) (session_id : SessionId) (msg : Bytes) :
    List (Effect K) :=
  if msg = bytesOf "SHOOT" then
    [.publish (ShotMessageEvent session_id)]
  else if (bytesOf "JOIN ").isPrefixOf msg then
    [.publish (PlayerJoinEvent session_id (msg.drop 5)),
      .publish (SendPacketEvent session_id (bytesOf "ACCEPT"))]
  else if (bytesOf "MOVE ").isPrefixOf msg then
    match Text.stod (msg.drop 5) with
    | .error e => [.logError "[NetworkResponseRouter] Invalid in MOVE angle: " e]
    | .ok angle => [.publish (PlayerMoveEvent session_id angle)]
  else if handlerSet then
    [.callHandler session_id msg]
  else
    []

/-- The command events among the effects. -/
def commandEvents (effects : List (Effect K)) : List (NetworkEvent K) :=
  effects.filterMap fun
    | .publish event => if event.isCommand then some event else none
    | _ => none

/-- An event is the server-side counterpart of a client command. -/
def Matches (session_id : SessionId) : ClientCommand → NetworkEvent K → Prop
  | .join name, event => event = PlayerJoinEvent session_id name.text
  | .move _, event => ∃ angle, event = PlayerMoveEvent session_id angle
  | .shoot, event => event = ShotMessageEvent session_id

/-- The router understands a command of a session: it publishes exactly one
command event, the matching one, neither rejects the payload nor hands it to the
message handler. -/
structure Understands (handlerSet : Bool) (session_id : SessionId) (command : ClientCommand) :
    Prop where
  published : ∃ event,
    commandEvents (onMessageReceived (K := K) handlerSet session_id command.encode) = [event] ∧
      Matches session_id command event
  not_rejected : ∀ text cause,
    .logError text cause ∉ onMessageReceived (K := K) handlerSet session_id command.encode
  not_delegated : ∀ session payload,
    .callHandler session payload ∉
      onMessageReceived (K := K) handlerSet session_id command.encode

/-- A join is answered by its event, with the name as it was sent, and by the
acceptance of the session. -/
theorem onMessageReceived_join (handlerSet : Bool) (session_id : SessionId) (name : Bytes) :
    onMessageReceived (K := K) handlerSet session_id (encodeJoin ⟨name⟩) =
      [.publish (PlayerJoinEvent session_id name),
        .publish (SendPacketEvent session_id (bytesOf "ACCEPT"))] := by
  have hjoin : bytesOf "JOIN " = [0x4a, 0x4f, 0x49, 0x4e, 0x20] := rfl
  have hshoot : bytesOf "SHOOT" = [0x53, 0x48, 0x4f, 0x4f, 0x54] := rfl
  unfold onMessageReceived encodeJoin
  rw [hjoin, hshoot]
  simp [List.isPrefixOf]

theorem onMessageReceived_shoot (handlerSet : Bool) (session_id : SessionId) :
    onMessageReceived (K := K) handlerSet session_id encodeShoot =
      [.publish (ShotMessageEvent session_id)] :=
  if_pos rfl

/-- No direction word converts to a number. -/
theorem stod_toWire (direction : Direction) :
    Text.stod (K := K) (toWire direction) = .error (.invalid_argument "stod") := by
  have hnone : Text.unsignedNumber (toWire direction) = none := by
    cases direction <;> decide
  have hsign : Text.sign ((toWire direction).dropWhile Text.isSpace) =
      (false, toWire direction) := by
    cases direction <;> decide
  unfold Text.stod
  rw [hsign]
  simp only [hnone]

/-- Every direction move is rejected as an invalid angle. -/
theorem onMessageReceived_move (handlerSet : Bool) (session_id : SessionId) (m : MoveMsg) :
    onMessageReceived (K := K) handlerSet session_id (encodeMove m) =
      [.logError "[NetworkResponseRouter] Invalid in MOVE angle: "
        (.invalid_argument "stod")] := by
  have hmove : bytesOf "MOVE " = [0x4d, 0x4f, 0x56, 0x45, 0x20] := rfl
  have hjoin : bytesOf "JOIN " = [0x4a, 0x4f, 0x49, 0x4e, 0x20] := rfl
  have hshoot : bytesOf "SHOOT" = [0x53, 0x48, 0x4f, 0x4f, 0x54] := rfl
  have hargument : (encodeMove m).drop 5 = toWire m.direction := rfl
  unfold onMessageReceived
  rw [hargument, stod_toWire, encodeMove, hmove, hjoin, hshoot]
  simp [List.isPrefixOf]

theorem understands_join (handlerSet : Bool) (session_id : SessionId) (name : PlayerName) :
    Understands (K := K) handlerSet session_id (.join name) := by
  have hjoin := onMessageReceived_join (K := K) handlerSet session_id name.text
  refine ⟨⟨PlayerJoinEvent session_id name.text, ?_, rfl⟩, ?_, ?_⟩
  · rw [ClientCommand.encode, hjoin]
    rfl
  · intro text cause
    simp [ClientCommand.encode, hjoin]
  · intro session payload
    simp [ClientCommand.encode, hjoin]

theorem understands_shoot (handlerSet : Bool) (session_id : SessionId) :
    Understands (K := K) handlerSet session_id .shoot := by
  have hshoot := onMessageReceived_shoot (K := K) handlerSet session_id
  refine ⟨⟨ShotMessageEvent session_id, ?_, rfl⟩, ?_, ?_⟩
  · rw [ClientCommand.encode, hshoot]
    rfl
  · intro text cause
    simp [ClientCommand.encode, hshoot]
  · intro session payload
    simp [ClientCommand.encode, hshoot]

theorem not_understands_move (handlerSet : Bool) (session_id : SessionId) (m : MoveMsg) :
    ¬ Understands (K := K) handlerSet session_id (.move m) := by
  intro understood
  obtain ⟨event, hpublished, -⟩ := understood.published
  rw [ClientCommand.encode, onMessageReceived_move] at hpublished
  cases hpublished

/-- **The shared command language.** The router understands every join and every
shot the client can encode, and no move. -/
theorem understands_iff (handlerSet : Bool) (session_id : SessionId)
    (command : ClientCommand) :
    Understands (K := K) handlerSet session_id command ↔ ∀ m, command ≠ .move m := by
  cases command with
  | join name =>
    exact iff_of_true (understands_join handlerSet session_id name) fun m => nofun
  | move m =>
    exact iff_of_false (not_understands_move handlerSet session_id m) fun h => h m rfl
  | shoot => exact iff_of_true (understands_shoot handlerSet session_id) fun m => nofun

section Rational

attribute [local instance] RationalScalar.rational

/-- A client's upward move reaches no world: the payload is rejected. -/
theorem not_understands_move_up :
    ¬ Understands (K := ℚ) false 7 (.move ⟨.Up⟩) := by
  intro understood
  obtain ⟨event, hpublished, -⟩ := understood.published
  have hnothing : commandEvents (onMessageReceived (K := ℚ) false 7
      (ClientCommand.move ⟨.Up⟩).encode) = [] := by decide +kernel
  rw [hnothing] at hpublished
  cases hpublished

example : Text.stod (K := ℚ) (bytesOf " -1.5e1x") = .ok (-15) := by decide +kernel

end Rational

end SpaceShooter.Server.NetworkResponseRouter
