/-
# Strongly typed identifiers

The 64-bit identifier behind `EntityId` and the two hashes its tables may use: the value
itself, folded to the width of `size_t`, and a multiply and shift finalizer of it.
-/

import SpaceShooter.Library.Mixing

namespace SpaceShooter

open SpaceShooter.Library

/-- `StrongId<Tag, std::uint64_t>`. -/
structure StrongId where
  value : BitVec 64
  deriving DecidableEq, Repr

namespace StrongId

theorem value_injective : Function.Injective StrongId.value := by
  rintro ⟨a⟩ ⟨b⟩ h
  exact congrArg StrongId.mk h

end StrongId

/-- The values of `sizeof(std::size_t)` that the hashes tell apart. -/
inductive SizeOfSizeT
  | eight
  | four
  deriving DecidableEq, Repr

/-- The width of `size_t` in bits. -/
def SizeOfSizeT.width : SizeOfSizeT → ℕ
  | eight => 64
  | four => 32

namespace StrongIdIdentityHash

def kShift : ℕ := 32

/-- `StrongIdIdentityHash::operator()`. -/
def hash : (size : SizeOfSizeT) → StrongId → BitVec size.width
  | .eight, id => id.value
  | .four, id => (xorShift kShift id.value).setWidth 32

end StrongIdIdentityHash

namespace StrongIdMixedHash

def kMixMul1 : BitVec 64 := 0xbf58476d1ce4e5b9#64
def kMixMul2 : BitVec 64 := 0x94d049bb133111eb#64
def kShift30 : ℕ := 30
def kShift27 : ℕ := 27
def kShift31 : ℕ := 31
def kMixMul32 : BitVec 32 := 0x45d9f3b#32
def kShift16 : ℕ := 16

/-- The finalizer of a 64-bit `size_t`. -/
def mix64 (x : BitVec 64) : BitVec 64 :=
  let x := xorShift kShift30 x
  let x := x * kMixMul1
  let x := xorShift kShift27 x
  let x := x * kMixMul2
  xorShift kShift31 x

/-- The finalizer of a 32-bit `size_t`. -/
def mix32 (low : BitVec 32) : BitVec 32 :=
  let low := xorShift kShift16 low
  let low := low * kMixMul32
  xorShift kShift16 low

/-- `StrongIdMixedHash::operator()`, which `std::hash<StrongId<...>>` delegates to. -/
def hash : (size : SizeOfSizeT) → StrongId → BitVec size.width
  | .eight, id => mix64 id.value
  | .four, id => mix32 ((xorShift 32 id.value).setWidth 32)

theorem mix64_injective : Function.Injective mix64 := by
  intro x y h
  apply xorShift_injective (k := kShift30) (by decide)
  apply mul_odd_injective (c := kMixMul1) (by decide)
  apply xorShift_injective (k := kShift27) (by decide)
  apply mul_odd_injective (c := kMixMul2) (by decide)
  apply xorShift_injective (k := kShift31) (by decide)
  exact h

theorem mix32_injective : Function.Injective mix32 := by
  intro x y h
  apply xorShift_injective (k := kShift16) (by decide)
  apply mul_odd_injective (c := kMixMul32) (by decide)
  apply xorShift_injective (k := kShift16) (by decide)
  exact h

theorem hash_eq_iff (size : SizeOfSizeT) (a b : StrongId) :
    hash size a = hash size b ↔
      StrongIdIdentityHash.hash size a = StrongIdIdentityHash.hash size b := by
  cases size with
  | eight => exact mix64_injective.eq_iff
  | four => exact mix32_injective.eq_iff

theorem hash_eight_bijective : Function.Bijective (hash .eight) := by
  obtain ⟨_, onto⟩ := bijective_of_injective mix64_injective
  constructor
  · intro a b h
    exact StrongId.value_injective (mix64_injective h)
  · intro y
    obtain ⟨x, rfl⟩ := onto y
    exact ⟨⟨x⟩, rfl⟩

/-- Below `2 ^ 32` folding to a 32-bit word keeps the value. -/
theorem fold_of_lt {a : StrongId} (ha : a.value.toNat < 2 ^ 32) :
    ((StrongIdIdentityHash.hash .four a : BitVec 32)).toNat = a.value.toNat := by
  have upper : a.value >>> 32 = 0#64 := by
    apply BitVec.eq_of_toNat_eq
    rw [BitVec.toNat_ushiftRight, Nat.shiftRight_eq_div_pow, Nat.div_eq_of_lt ha]
    rfl
  change ((a.value ^^^ (a.value >>> 32)).setWidth 32).toNat = _
  rw [upper, BitVec.xor_zero, BitVec.toNat_setWidth, Nat.mod_eq_of_lt ha]

/-- Neither hash ever merges two identifiers on a 64-bit platform, where the mixed one is a
permutation of the words; on any platform the two hashes merge the same identifiers, and none
of those below `2 ^ 32`. -/
theorem hash_collisions (size : SizeOfSizeT) :
    (∀ a b : StrongId, hash size a = hash size b ↔
      StrongIdIdentityHash.hash size a = StrongIdIdentityHash.hash size b) ∧
    Function.Bijective (hash .eight) ∧
    ∀ a b : StrongId, a.value.toNat < 2 ^ 32 → b.value.toNat < 2 ^ 32 →
      hash size a = hash size b → a = b := by
  refine ⟨hash_eq_iff size, hash_eight_bijective, fun a b ha hb h => ?_⟩
  have same := (hash_eq_iff size a b).mp h
  apply StrongId.value_injective
  cases size with
  | eight => exact same
  | four =>
    apply BitVec.eq_of_toNat_eq
    rw [← fold_of_lt ha, ← fold_of_lt hb, same]

end StrongIdMixedHash

end SpaceShooter
