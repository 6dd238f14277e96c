/-
# The text protocol

Commands travel as one line of ASCII, a keyword and an optional argument. The
client encodes its commands here and decodes the server's replies; the server
parses commands on its own, in the response router.
-/

import SpaceShooter.Common.Types

namespace SpaceShooter.Protocol

/-- `"JOIN <playerName>"`. -/
structure JoinMsg where
  playerName : Bytes
  deriving DecidableEq, Repr

/-- `"MOVE <direction>"`. -/
structure MoveMsg where
  direction : Direction
  deriving DecidableEq, Repr

def toWire : Direction → Bytes
  | .Up => bytesOf "up"
  | .Down => bytesOf "down"
  | .Left => bytesOf "left"
  | .Right => bytesOf "right"

def encodeJoin (m : JoinMsg) : Bytes := bytesOf "JOIN " ++ m.playerName

def encodeMove (m : MoveMsg) : Bytes := bytesOf "MOVE " ++ toWire m.direction

def encodeShoot : Bytes := bytesOf "SHOOT"

inductive ServerMsgType
  | Accept
  | Reject
  | GameEnd
  | Unknown
  deriving DecidableEq, Repr

/-- A decoded server message; the argument is empty when there is none. -/
structure ServerMsg where
  type : ServerMsgType
  argument : Bytes
  deriving DecidableEq, Repr

/-- Decode one full wire payload. Malformed or unrecognised bytes are `Unknown`. -/
def decode (wire : Bytes) : ServerMsg :=
  let space : UInt8 := 0x20
  let tab : UInt8 := 0x09
  -- The keyword ends at the first space; without a space it is the whole text.
  let keyword := wire.takeWhile (· ≠ space)
  let afterSpace := (wire.dropWhile (· ≠ space)).drop 1
  let argView := afterSpace.dropWhile fun c => c = space ∨ c = tab
  let type :=
    if keyword = bytesOf "ACCEPT" then ServerMsgType.Accept
    else if keyword = bytesOf "REJECT" then .Reject
    else if keyword = bytesOf "GAME_END" then .GameEnd
    else .Unknown
  ⟨type, argView⟩

/-- `GameController::validatePlayerName`: non-empty, and no byte that is a control
character, a space or DEL. -/
def validatePlayerName (name : Bytes) : Bool :=
  !name.isEmpty && name.all fun c => !(c ≤ 0x20 || c = 0x7f)

/-- A player name that passed the client's validation. -/
structure PlayerName where
  text : Bytes
  valid : validatePlayerName text = true

/-- The commands the client can encode. -/
inductive ClientCommand
  | join (name : PlayerName)
  | move (m : MoveMsg)
  | shoot

/-- The wire payload of a command. -/
def ClientCommand.encode : ClientCommand → Bytes
  | .join name => encodeJoin ⟨name.text⟩
  | .move m => encodeMove m
  | .shoot => encodeShoot

end SpaceShooter.Protocol
