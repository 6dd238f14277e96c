/-
# Big-endian words

The four-byte network-order image of a 32-bit word, written most significant
byte first and read back by shifting. Reading inverts writing, and writing
inverts reading on every block of four bytes.
-/

import Mathlib.Data.Nat.Bitwise

namespace SpaceShooter.Library.BigEndian

/-- The bytes of a word, most significant first. -/
def toBytes (word : UInt32) : List UInt8 :=
  [(word >>> 24).toUInt8, (word >>> 16).toUInt8, (word >>> 8).toUInt8, word.toUInt8]

/-- Shift the bytes of a block into a word, first byte first. -/
def ofBytes (bytes : List UInt8) : UInt32 :=
  bytes.foldl (fun word byte => (word <<< 8) ||| byte.toUInt32) 0

@[simp] theorem length_toBytes (word : UInt32) : (toBytes word).length = 4 := rfl

/-- Shifting in a byte multiplies by 256 and adds, modulo the word size. -/
theorem toNat_shift_or (word : UInt32) (byte : UInt8) :
    ((word <<< 8) ||| byte.toUInt32).toNat =
      (word.toNat * 256) % 2 ^ 32 + byte.toNat := by
  have hbyte : byte.toNat < 2 ^ 8 := byte.toNat_lt
  have hshift : (word.toNat * 256) % 2 ^ 32 = ((word.toNat * 256 % 2 ^ 32) / 256) <<< 8 := by
    rw [Nat.shiftLeft_eq]
    omega
  rw [UInt32.toNat_or, UInt32.toNat_shiftLeft, UInt8.toNat_toUInt32]
  have hmod : (8 : UInt32).toNat % 32 = 8 := by decide
  rw [hmod, Nat.shiftLeft_eq]
  rw [show word.toNat * 2 ^ 8 % 2 ^ 32 = word.toNat * 256 % 2 ^ 32 from rfl, hshift,
    Nat.shiftLeft_add_eq_or_of_lt hbyte]

/-- The value of a block of four bytes. -/
theorem toNat_ofBytes (b₀ b₁ b₂ b₃ : UInt8) :
    (ofBytes [b₀, b₁, b₂, b₃]).toNat =
      ((b₀.toNat * 256 + b₁.toNat) * 256 + b₂.toNat) * 256 + b₃.toNat := by
  have h₀ := b₀.toNat_lt
  have h₁ := b₁.toNat_lt
  have h₂ := b₂.toNat_lt
  have h₃ := b₃.toNat_lt
  simp only [ofBytes, List.foldl_cons, List.foldl_nil, toNat_shift_or, UInt32.toNat_zero]
  omega

/-- Reading inverts writing. -/
@[simp] theorem ofBytes_toBytes (word : UInt32) : ofBytes (toBytes word) = word := by
  apply UInt32.toNat_inj.mp
  have hword := word.toNat_lt
  rw [toBytes, toNat_ofBytes]
  simp only [UInt32.toNat_toUInt8, UInt32.toNat_shiftRight, UInt32.reduceToNat,
    Nat.reduceMod, Nat.shiftRight_eq_div_pow, Nat.reducePow]
  omega

/-- Writing inverts reading on blocks of four bytes. -/
theorem toBytes_ofBytes {bytes : List UInt8} (four : bytes.length = 4) :
    toBytes (ofBytes bytes) = bytes := by
  obtain ⟨b₀, b₁, b₂, b₃, rfl⟩ : ∃ b₀ b₁ b₂ b₃, bytes = [b₀, b₁, b₂, b₃] := by
    match bytes, four with
    | [b₀, b₁, b₂, b₃], _ => exact ⟨b₀, b₁, b₂, b₃, rfl⟩
  have h₀ := b₀.toNat_lt
  have h₁ := b₁.toNat_lt
  have h₂ := b₂.toNat_lt
  have h₃ := b₃.toNat_lt
  have value := toNat_ofBytes b₀ b₁ b₂ b₃
  rw [toBytes]
  simp only [List.cons.injEq, and_true]
  refine ⟨?_, ?_, ?_, ?_⟩ <;> apply UInt8.toNat_inj.mp <;>
    simp only [UInt32.toNat_toUInt8, UInt32.toNat_shiftRight, UInt32.reduceToNat,
      Nat.reduceMod, Nat.shiftRight_eq_div_pow, Nat.reducePow, value] <;> omega

end SpaceShooter.Library.BigEndian
