/-
# Game snapshots

The state of the world as the server broadcasts it: the tick number, the leaderboard
and one record for each entity. Names travel in fields of fixed length, entities in
FlatBuffers that are opaque to the format.
-/

import SpaceShooter.Common.Config
import SpaceShooter.Common.EntitySnapshot
import SpaceShooter.Library.BigEndian
import SpaceShooter.Library.Reader
import Mathlib.Data.List.TakeWhile

namespace SpaceShooter.Snapshot

open Library Library.Reader

structure LeaderboardEntry where
  name : Bytes
  score : UInt32
  deriving DecidableEq, Repr

structure GameSnapshot (K : Type) where
  snapshots_ : List (EntitySnapshot K)
  leaderboard_ : List LeaderboardEntry
  tick_number_ : UInt32
  deriving DecidableEq, Repr

/-- The conversion of one entity to and from its FlatBuffer. -/
structure EntityWire (K : Type) where
  SerializeEntity : EntitySnapshot K → Bytes
  DeserializeEntity : Bytes → Option (EntitySnapshot K)

/-- The size of a name field. -/
def kNameSize : ℕ := 32

/-- `std::numeric_limits<std::uint32_t>::max()`. -/
def kMaxCount : ℕ := 2 ^ 32 - 1

namespace GameSnapshot

variable {K : Type} (wire : EntityWire K)

def writeU32 (value : UInt32) : Bytes := BigEndian.toBytes value

/-- A name, cut and padded with zeros to the length of its field. -/
def nameField (name : Bytes) : Bytes :=
  let copied := name.take kNameSize
  copied ++ List.replicate (kNameSize - copied.length) 0

def writeEntry (entry : LeaderboardEntry) : Bytes :=
  nameField entry.name ++ writeU32 entry.score

def writeEntity (entity : EntitySnapshot K) : Except StdException Bytes :=
  let bytes := wire.SerializeEntity entity
  if bytes.length > kMaxCount then
    .error (.length_error "GameSnapshot::Serialize: entity payload is too large")
  else
    .ok (writeU32 (UInt32.ofNat bytes.length) ++ bytes)

def Serialize (s : GameSnapshot K) : Except StdException Bytes :=
  if s.snapshots_.length > kMaxCount then
    .error (.length_error "GameSnapshot::Serialize: too many entities")
  else if s.leaderboard_.length > kMaxCount then
    .error (.length_error "GameSnapshot::Serialize: too many leaderboard entries")
  else do
    let entities ← s.snapshots_.mapM (writeEntity wire)
    return writeU32 s.tick_number_ ++
      (writeU32 (UInt32.ofNat s.leaderboard_.length) ++ s.leaderboard_.flatMap writeEntry) ++
      (writeU32 (UInt32.ofNat s.snapshots_.length) ++ entities.flatten)

/-! ### Decoding -/

def truncated : StdException := .invalid_argument "GameSnapshot::Deserialize: truncated input"

def readU32 : Reader UInt8 StdException UInt32 := do
  let bytes ← readBytes 4 truncated
  return BigEndian.ofBytes bytes

def readEntry : Reader UInt8 StdException LeaderboardEntry := do
  let name_bytes ← readBytes kNameSize truncated
  let score ← readU32
  return ⟨untilNul name_bytes, score⟩

def readEntity : Reader UInt8 StdException (EntitySnapshot K) := do
  let payload_size ← readU32
  let payload ← readBytes payload_size.toNat truncated
  match wire.DeserializeEntity payload with
  | none => throw (.invalid_argument "GameSnapshot::Deserialize: invalid entity payload")
  | some entity => return entity

def kMinLeaderboardEntrySize : ℕ := kNameSize + 4

/-- The size of an entity's length field. -/
def kMinEntitySize : ℕ := 4

def readLeaderboard : Reader UInt8 StdException (List LeaderboardEntry) := do
  let leaderboard_count ← readU32
  let left ← remaining
  if leaderboard_count.toNat > World.kMaxLeaderboardSize ∨
      leaderboard_count.toNat > left / kMinLeaderboardEntrySize then
    throw (.invalid_argument "GameSnapshot::Deserialize: impossible leaderboard count")
  else
    readMany readEntry leaderboard_count.toNat

def readEntities : Reader UInt8 StdException (List (EntitySnapshot K)) := do
  let entity_count ← readU32
  let left ← remaining
  if entity_count.toNat > left / kMinEntitySize then
    throw (.invalid_argument "GameSnapshot::Deserialize: impossible entity count")
  else
    readMany (readEntity wire) entity_count.toNat

def requireEnd : Reader UInt8 StdException Unit := do
  let left ← remaining
  if left ≠ 0 then
    throw (.invalid_argument "GameSnapshot::Deserialize: trailing bytes")
  else
    pure ()

def readSnapshot : Reader UInt8 StdException (GameSnapshot K) := do
  let tick_number ← readU32
  let leaderboard ← readLeaderboard
  let snapshots ← readEntities wire
  return ⟨snapshots, leaderboard, tick_number⟩

def Deserialize (buffer : Bytes) : Except StdException (GameSnapshot K) := do
  let (snapshot, rest) ← readSnapshot wire buffer
  let _ ← requireEnd rest
  return snapshot

/-! ### What is written -/

theorem reads_readU32 (value : UInt32) : Reads readU32 (writeU32 value) value := by
  refine (reads_readBytes _ (BigEndian.length_toBytes value) _).then_nil ?_
  rw [BigEndian.ofBytes_toBytes]
  exact reads_pure value

/-- What is left of a leaderboard entry after its field cut the name. -/
def cutEntry (entry : LeaderboardEntry) : LeaderboardEntry :=
  ⟨untilNul (nameField entry.name), entry.score⟩

theorem untilNul_cons {byte : UInt8} (h : byte ≠ 0) (field : Bytes) :
    untilNul (byte :: field) = byte :: untilNul field := by
  unfold untilNul
  rw [List.takeWhile_cons, if_pos (decide_eq_true h)]

/-- A name is cut at its first zero and at the length of its field. -/
theorem cutEntry_eq (entry : LeaderboardEntry) :
    cutEntry entry = ⟨(untilNul entry.name).take kNameSize, entry.score⟩ := by
  have hpad (count : ℕ) : untilNul (List.replicate count 0) = [] := by
    cases count <;> rfl
  have hcut (name : Bytes) (count : ℕ) :
      untilNul (name.take count ++ List.replicate (count - (name.take count).length) 0) =
        (untilNul name).take count := by
    induction name generalizing count with
    | nil =>
      rw [List.take_nil, List.nil_append, hpad]
      exact List.take_nil.symm
    | cons byte name ih =>
      cases count with
      | zero => rfl
      | succ count =>
        by_cases hzero : byte = 0
        · subst hzero
          rfl
        · rw [untilNul_cons hzero, List.take_succ_cons, List.take_succ_cons, List.cons_append,
            List.length_cons, Nat.succ_sub_succ, untilNul_cons hzero, ih]
  rw [cutEntry, nameField]
  exact congrArg (LeaderboardEntry.mk · entry.score) (hcut entry.name kNameSize)

theorem length_nameField (name : Bytes) : (nameField name).length = kNameSize := by
  simp only [nameField, List.length_append, List.length_take, List.length_replicate]
  omega

/-- A name without zeros that fits its field is not cut. -/
theorem cutEntry_of_fits {entry : LeaderboardEntry} (noNul : ∀ byte ∈ entry.name, byte ≠ 0)
    (fits : entry.name.length ≤ kNameSize) : cutEntry entry = entry := by
  have hname : untilNul (nameField entry.name) = entry.name := by
    rw [nameField, List.take_of_length_le fits, untilNul,
      List.takeWhile_append_of_pos (by simpa using noNul)]
    simp
  rw [cutEntry, hname]

theorem untilNul_ne_zero {field : Bytes} : ∀ byte ∈ untilNul field, byte ≠ 0 := by
  intro byte hmem
  exact of_decide_eq_true (List.mem_takeWhile_imp (p := fun byte => decide (byte ≠ 0)) hmem)

theorem length_untilNul_le (field : Bytes) : (untilNul field).length ≤ field.length :=
  (List.takeWhile_prefix _).length_le

/-- What was read off a field fits the field of a leaderboard entry. -/
theorem cutEntry_untilNul {field : Bytes} (fits : field.length ≤ kNameSize) (score : UInt32) :
    cutEntry ⟨untilNul field, score⟩ = ⟨untilNul field, score⟩ := by
  apply cutEntry_of_fits untilNul_ne_zero
  exact (length_untilNul_le field).trans fits

theorem length_writeEntry (entry : LeaderboardEntry) :
    (writeEntry entry).length = kMinLeaderboardEntrySize := by
  rw [writeEntry, List.length_append, length_nameField, writeU32, BigEndian.length_toBytes]
  rfl

theorem toNat_ofNat_of_le {count : ℕ} (h : count ≤ kMaxCount) :
    (UInt32.ofNat count).toNat = count :=
  UInt32.toNat_ofNat_of_lt' (Nat.lt_of_le_of_lt h (by decide))

/-- The record of an entity: its length and its FlatBuffer. -/
def entityRecord (entity : EntitySnapshot K) : Bytes :=
  writeU32 (UInt32.ofNat (wire.SerializeEntity entity).length) ++ wire.SerializeEntity entity

variable {wire}

theorem writeEntity_eq_ok {entity : EntitySnapshot K} {bytes : Bytes}
    (h : writeEntity wire entity = .ok bytes) :
    (wire.SerializeEntity entity).length ≤ kMaxCount ∧ bytes = entityRecord wire entity := by
  unfold writeEntity at h
  dsimp only at h
  split at h
  · cases h
  · next hle => exact ⟨Nat.le_of_not_lt hle, (Except.ok.inj h).symm⟩

theorem mapM_writeEntity_eq_ok {entities : List (EntitySnapshot K)} {records : List Bytes}
    (h : entities.mapM (writeEntity wire) = .ok records) :
    (∀ entity ∈ entities, (wire.SerializeEntity entity).length ≤ kMaxCount) ∧
      records.flatten = entities.flatMap (entityRecord wire) := by
  induction entities generalizing records with
  | nil =>
    obtain rfl := Except.ok.inj h
    exact ⟨List.forall_mem_nil _, rfl⟩
  | cons entity entities ih =>
    rw [List.mapM_cons] at h
    cases hfirst : writeEntity wire entity with
    | error e => rw [hfirst] at h; cases h
    | ok record =>
      cases hrest : entities.mapM (writeEntity wire) with
      | error e => rw [hfirst, hrest] at h; cases h
      | ok rest =>
        rw [hfirst, hrest] at h
        obtain rfl := Except.ok.inj h
        obtain ⟨hle, rfl⟩ := writeEntity_eq_ok hfirst
        obtain ⟨hles, hflatten⟩ := ih hrest
        refine ⟨List.forall_mem_cons.mpr ⟨hle, hles⟩, ?_⟩
        rw [List.flatten_cons, hflatten, List.flatMap_cons]

/-- What an encoding is made of when `Serialize` returns one. -/
theorem Serialize_eq_ok {s : GameSnapshot K} {bytes : Bytes} (h : s.Serialize wire = .ok bytes) :
    s.snapshots_.length ≤ kMaxCount ∧ s.leaderboard_.length ≤ kMaxCount ∧
      (∀ entity ∈ s.snapshots_, (wire.SerializeEntity entity).length ≤ kMaxCount) ∧
      bytes = writeU32 s.tick_number_ ++
        (writeU32 (UInt32.ofNat s.leaderboard_.length) ++ s.leaderboard_.flatMap writeEntry) ++
        (writeU32 (UInt32.ofNat s.snapshots_.length) ++
          s.snapshots_.flatMap (entityRecord wire)) := by
  unfold Serialize at h
  split at h
  · cases h
  · next hsnapshots =>
    split at h
    · cases h
    · next hleaderboard =>
      cases hrecords : s.snapshots_.mapM (writeEntity wire) with
      | error e => rw [hrecords] at h; cases h
      | ok records =>
        rw [hrecords] at h
        obtain ⟨hles, hflatten⟩ := mapM_writeEntity_eq_ok hrecords
        refine ⟨Nat.le_of_not_lt hsnapshots, Nat.le_of_not_lt hleaderboard, hles, ?_⟩
        rw [← hflatten]
        exact (Except.ok.inj h).symm

theorem exists_mapM_writeEntity {entities : List (EntitySnapshot K)}
    (fits : ∀ entity ∈ entities, (wire.SerializeEntity entity).length ≤ kMaxCount) :
    ∃ records, entities.mapM (writeEntity wire) = .ok records := by
  induction entities with
  | nil => exact ⟨[], rfl⟩
  | cons entity entities ih =>
    obtain ⟨hentity, hentities⟩ := List.forall_mem_cons.mp fits
    obtain ⟨records, hrecords⟩ := ih hentities
    have hrecord : writeEntity wire entity = .ok (entityRecord wire entity) := by
      unfold writeEntity
      exact if_neg (Nat.not_lt.mpr hentity)
    refine ⟨entityRecord wire entity :: records, ?_⟩
    rw [List.mapM_cons, hrecord, hrecords]
    rfl

/-- Counts and sizes that fit their fields are encoded. -/
theorem exists_Serialize {s : GameSnapshot K} (hsnapshots : s.snapshots_.length ≤ kMaxCount)
    (hleaderboard : s.leaderboard_.length ≤ kMaxCount)
    (fits : ∀ entity ∈ s.snapshots_, (wire.SerializeEntity entity).length ≤ kMaxCount) :
    ∃ bytes, s.Serialize wire = .ok bytes := by
  obtain ⟨records, hrecords⟩ := exists_mapM_writeEntity fits
  unfold Serialize
  rw [if_neg (Nat.not_lt.mpr hsnapshots), if_neg (Nat.not_lt.mpr hleaderboard), hrecords]
  exact ⟨_, rfl⟩

/-- How long an encoding is. -/
theorem length_of_Serialize {s : GameSnapshot K} {bytes : Bytes}
    (h : s.Serialize wire = .ok bytes) :
    bytes.length = 12 + s.leaderboard_.length * kMinLeaderboardEntrySize +
      (s.snapshots_.map fun entity => kMinEntitySize +
        (wire.SerializeEntity entity).length).sum := by
  obtain ⟨-, -, -, rfl⟩ := Serialize_eq_ok h
  have hword (value : UInt32) : (writeU32 value).length = 4 := BigEndian.length_toBytes value
  have hentries : (s.leaderboard_.flatMap writeEntry).length =
      s.leaderboard_.length * kMinLeaderboardEntrySize := by
    simp [List.length_flatMap, length_writeEntry]
  have hentities : (s.snapshots_.flatMap (entityRecord wire)).length =
      (s.snapshots_.map fun entity => kMinEntitySize +
        (wire.SerializeEntity entity).length).sum := by
    simp [List.length_flatMap, entityRecord, hword, kMinEntitySize]
  simp only [List.length_append, hword, hentries, hentities]
  omega

end GameSnapshot

end SpaceShooter.Snapshot
