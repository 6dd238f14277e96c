/-
# Shared types

Identifiers, enumerations and exceptions used on both sides of the wire. Session
and entity identifiers count upwards from a fixed origin and are never reused,
so they are natural numbers; enumerations keep the order of their declarations.
-/

import Mathlib.Data.Nat.Notation

namespace SpaceShooter

/-- Identifier of a network session; `0` marks a broadcast. -/
abbrev SessionId := ℕ

/-- Identifier of a world entity. -/
abbrev EntityId := ℕ

/-- A byte string, as payloads and text lines travel. -/
abbrev Bytes := List UInt8

inductive EntityType
  | None
  | Ship
  | Asteroid
  | Bullet
  deriving DecidableEq, Repr

inductive Direction
  | Up
  | Down
  | Left
  | Right
  deriving DecidableEq, Repr

/-- The standard exceptions the code throws, with their `what()` texts. -/
inductive StdException
  | length_error (what : String)
  | invalid_argument (what : String)
  | out_of_range (what : String)
  | runtime_error (what : String)
  deriving DecidableEq, Repr

/-- The bytes of an ASCII source literal. -/
def bytesOf (text : String) : Bytes := text.toList.map fun c => UInt8.ofNat c.toNat

/-- The bytes in front of the first zero. -/
def untilNul (field : Bytes) : Bytes := field.takeWhile (· ≠ 0)

end SpaceShooter
