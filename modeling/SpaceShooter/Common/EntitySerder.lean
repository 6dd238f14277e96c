/-
# Entities on the wire

The conversion of an entity to the tables of its FlatBuffer and back. The FlatBuffers library,
and what its compiler generates for these tables, is a parameter: it lays out tables as bytes,
verifies bytes, and reads the tables of bytes that it has verified.
-/

import SpaceShooter.Common.SnapshotFormat

namespace SpaceShooter.SnapshotWire

/-! ### Tables -/

structure Vec2 (K : Type) where
  x : K
  y : K
  deriving DecidableEq, Repr

/-- The structs of a table may be missing in a buffer that somebody else has made. -/
structure Transform (K : Type) where
  position : Option (Vec2 K)
  velocity : Option (Vec2 K)
  angle : K
  deriving DecidableEq, Repr

structure Ship (K : Type) where
  name : Option Bytes
  score : UInt32
  thrust_power : K
  drag : K
  is_thrusting : Bool
  frags : UInt16
  deriving DecidableEq, Repr

structure Health where
  current : UInt16
  max : UInt16
  deriving DecidableEq, Repr

structure Combat where
  damage : UInt16
  owner_id : EntityId
  deriving DecidableEq, Repr

structure Asteroid where
  score_reward : UInt16
  deriving DecidableEq, Repr

/-- The root table; its type is any byte. -/
structure EntitySnapshot (K : Type) where
  id : EntityId
  type : UInt8
  mass : K
  radius : K
  is_destroyed : Bool
  transform : Option (Transform K)
  ship : Option (Ship K)
  health : Option Health
  combat : Option Combat
  asteroid : Option Asteroid
  deriving DecidableEq, Repr

/-- The FlatBuffers library with the code generated for the tables. -/
structure FlatBuffers (K : Type) where
  FinishEntitySnapshotBuffer : EntitySnapshot K → Bytes
  VerifyEntitySnapshotBuffer : Bytes → Bool
  /-- Only a verified buffer is read. -/
  GetEntitySnapshot : (buffer : Bytes) → VerifyEntitySnapshotBuffer buffer = true →
    EntitySnapshot K

def kFlatBufferIdOffset : ℕ := 4
def kFileIdentifierLength : ℕ := 4
def kMinFlatBufferSize : ℕ := kFlatBufferIdOffset + kFileIdentifierLength

def EntitySnapshotIdentifier : Bytes := bytesOf "ESNP"

/-- `flatbuffers::BufferHasIdentifier`, of a buffer that has a header. -/
def BufferHasIdentifier (buffer : Bytes) : Bool :=
  (buffer.drop kFlatBufferIdOffset).take kFileIdentifierLength == EntitySnapshotIdentifier

/-! ### The enumeration -/

def kEnumNone : UInt8 := 0
def kEnumShip : UInt8 := 1
def kEnumAsteroid : UInt8 := 2
def kEnumBullet : UInt8 := 3

def ToWire : EntityType → UInt8
  | .None => kEnumNone
  | .Ship => kEnumShip
  | .Asteroid => kEnumAsteroid
  | .Bullet => kEnumBullet

/-- Bytes that name no type are taken for `None`. -/
def FromWire (val : UInt8) : EntityType :=
  if val > kEnumBullet then .None
  else if val = kEnumBullet then .Bullet
  else if val = kEnumAsteroid then .Asteroid
  else if val = kEnumShip then .Ship
  else .None

theorem FromWire_ToWire (t : EntityType) : FromWire (ToWire t) = t := by
  cases t <;> rfl

/-! ### Conversion -/

variable {K : Type}

/-- The tables that `SerializeEntity` creates, children first. -/
def CreateEntitySnapshot (dto : Snapshot.EntitySnapshot K) : EntitySnapshot K where
  id := dto.id
  type := ToWire dto.type
  mass := dto.mass
  radius := dto.radius
  is_destroyed := dto.is_destroyed
  transform := dto.transform.map fun t =>
    ⟨some ⟨t.position.x, t.position.y⟩, some ⟨t.velocity.x, t.velocity.y⟩, t.angle⟩
  ship := dto.ship.map fun s =>
    ⟨some s.name, s.score, s.thrust_power, s.drag, s.is_thrusting, s.frags⟩
  health := dto.health.map fun h => ⟨h.current, h.max⟩
  combat := dto.combat.map fun c => ⟨c.damage, c.owner_id⟩
  asteroid := dto.asteroid.map fun a => ⟨a.score_reward⟩

/-- A transform whose structs are both there. -/
def readTransform (t : Transform K) : Option (Snapshot.TransformSnapshot K) :=
  match t.position, t.velocity with
  | some pos, some vel => some ⟨⟨pos.x, pos.y⟩, ⟨vel.x, vel.y⟩, t.angle⟩
  | _, _ => none

/-- Copy the tables into the DTO, with the transform that was read. -/
def copyEntity (table : EntitySnapshot K) (transform : Option (Snapshot.TransformSnapshot K)) :
    Snapshot.EntitySnapshot K where
  id := table.id
  type := FromWire table.type
  mass := table.mass
  radius := table.radius
  is_destroyed := table.is_destroyed
  transform := transform
  -- A ship without a name has the empty one.
  ship := table.ship.map fun s =>
    ⟨s.name.getD [], s.score, s.thrust_power, s.drag, s.is_thrusting, s.frags⟩
  health := table.health.map fun h => ⟨h.current, h.max⟩
  combat := table.combat.map fun c => ⟨c.damage, c.owner_id⟩
  asteroid := table.asteroid.map fun a => ⟨a.score_reward⟩

/-- What `DeserializeEntity` makes of the tables. -/
def readEntity (table : EntitySnapshot K) : Option (Snapshot.EntitySnapshot K) :=
  match table.transform with
  | none => some (copyEntity table none)
  | some t => (readTransform t).map fun transform => copyEntity table (some transform)

/-- The tables that are read back are those of the entity. -/
theorem readEntity_CreateEntitySnapshot (dto : Snapshot.EntitySnapshot K) :
    readEntity (CreateEntitySnapshot dto) = some dto := by
  obtain ⟨id, type, mass, radius, is_destroyed, transform, ship, health, combat, asteroid⟩ := dto
  have copied (t : Option (Snapshot.TransformSnapshot K)) :
      copyEntity (CreateEntitySnapshot
        ⟨id, type, mass, radius, is_destroyed, transform, ship, health, combat, asteroid⟩) t =
      ⟨id, type, mass, radius, is_destroyed, t, ship, health, combat, asteroid⟩ := by
    simp only [copyEntity, CreateEntitySnapshot, FromWire_ToWire, Option.map_map,
      Function.comp_def, Option.getD_some, Option.map_id']
  cases transform with
  | none => exact congrArg some (copied none)
  | some t => exact congrArg some (copied (some t))

namespace FlatBuffers

variable (fb : FlatBuffers K)

def SerializeEntity (dto : Snapshot.EntitySnapshot K) : Bytes :=
  fb.FinishEntitySnapshotBuffer (CreateEntitySnapshot dto)

def DeserializeEntity (data : Bytes) : Option (Snapshot.EntitySnapshot K) :=
  if data = [] then none
  else if data.length < kMinFlatBufferSize then none
  else if !BufferHasIdentifier data then none
  else if verified : fb.VerifyEntitySnapshotBuffer data = true then
    readEntity (fb.GetEntitySnapshot data verified)
  else none

/-- The conversion that snapshots are made with. -/
def wire : Snapshot.EntityWire K := ⟨fb.SerializeEntity, fb.DeserializeEntity⟩

/-- The library is documented to keep a table: the buffer that it finishes carries the
identifier, is verified, and holds the table. -/
structure Keeps (table : EntitySnapshot K) : Prop where
  identified : BufferHasIdentifier (fb.FinishEntitySnapshotBuffer table) = true
  verified : fb.VerifyEntitySnapshotBuffer (fb.FinishEntitySnapshotBuffer table) = true
  holds : fb.GetEntitySnapshot (fb.FinishEntitySnapshotBuffer table) verified = table

/-- A buffer that may be read: it has a header with the identifier, is verified, and a transform
in it has both of its structs. -/
structure Readable (data : Bytes) : Prop where
  size : kMinFlatBufferSize ≤ data.length
  identified : BufferHasIdentifier data = true
  verified : fb.VerifyEntitySnapshotBuffer data = true
  complete : ∀ t ∈ (fb.GetEntitySnapshot data verified).transform,
    t.position.isSome = true ∧ t.velocity.isSome = true

variable {fb}

theorem readEntity_isSome {table : EntitySnapshot K} :
    (readEntity table).isSome = true ↔
      ∀ t ∈ table.transform, t.position.isSome = true ∧ t.velocity.isSome = true := by
  rw [readEntity]
  cases table.transform with
  | none => exact iff_of_true rfl nofun
  | some t =>
    obtain ⟨position, velocity, angle⟩ := t
    cases position <;> cases velocity <;> simp [readTransform]

/-- The checks are made one after the other; only then the buffer is read. -/
theorem DeserializeEntity_of_readable {data : Bytes} (readable : fb.Readable data) :
    fb.DeserializeEntity data = readEntity (fb.GetEntitySnapshot data readable.verified) := by
  have header := readable.size
  have nonempty : data ≠ [] := by
    rintro rfl
    cases header
  rw [DeserializeEntity, if_neg nonempty, if_neg (Nat.not_lt.mpr header),
    readable.identified, if_neg (by simp), dif_pos readable.verified]

theorem DeserializeEntity_isSome {data : Bytes} :
    (fb.DeserializeEntity data).isSome = true ↔ fb.Readable data := by
  constructor
  · intro accepted
    rw [DeserializeEntity] at accepted
    split_ifs at accepted with nonempty header identified verified
    · cases accepted
    · cases accepted
    · cases accepted
    · exact ⟨Nat.le_of_not_lt header, by simpa using identified, verified,
        readEntity_isSome.mp accepted⟩
    · cases accepted
  · intro readable
    rw [DeserializeEntity_of_readable readable]
    exact readEntity_isSome.mpr readable.complete

theorem Keeps.get {dto : Snapshot.EntitySnapshot K}
    (keeps : fb.Keeps (CreateEntitySnapshot dto)) :
    fb.GetEntitySnapshot (fb.SerializeEntity dto) keeps.verified = CreateEntitySnapshot dto :=
  keeps.holds

theorem Keeps.readable {dto : Snapshot.EntitySnapshot K}
    (keeps : fb.Keeps (CreateEntitySnapshot dto)) : fb.Readable (fb.SerializeEntity dto) where
  size := by
    have identified := eq_of_beq keeps.identified
    have length := congrArg List.length identified
    rw [List.length_take, List.length_drop] at length
    change min 4 (_ - 4) = 4 at length
    change 8 ≤ (fb.FinishEntitySnapshotBuffer _).length
    omega
  identified := keeps.identified
  verified := keeps.verified
  complete := by
    apply readEntity_isSome.mp
    rw [keeps.get, readEntity_CreateEntitySnapshot]
    rfl

theorem DeserializeEntity_SerializeEntity {dto : Snapshot.EntitySnapshot K}
    (keeps : fb.Keeps (CreateEntitySnapshot dto)) :
    fb.DeserializeEntity (fb.SerializeEntity dto) = some dto := by
  rw [DeserializeEntity_of_readable keeps.readable, keeps.get, readEntity_CreateEntitySnapshot]

open Snapshot in
/-- Whatever the FlatBuffers library makes of a buffer: it is accepted exactly if it is readable;
a snapshot that is accepted, whoever has made its bytes, has its entities from readable buffers;
and if the library keeps their tables, which fit a length field, the snapshot is encoded again and
decodes to an equal one. -/
theorem reserialized_of_keeps (fb : FlatBuffers K) :
    (∀ data, (∃ dto, fb.DeserializeEntity data = some dto) ↔ fb.Readable data) ∧
    ∀ buffer s, ByteReader.Deserialize fb.wire buffer = .ok s →
      (∃ payloads : List Bytes, List.Forall₂ (fun payload dto => fb.Readable payload ∧
        fb.DeserializeEntity payload = some dto) payloads s.snapshots_) ∧
      ((∀ dto ∈ s.snapshots_, fb.Keeps (CreateEntitySnapshot dto) ∧
          (fb.SerializeEntity dto).length ≤ kMaxCount) →
        ∃ bytes, s.Serialize fb.wire = .ok bytes ∧
          ByteReader.Deserialize fb.wire bytes = .ok s) := by
  have accepts (data : Bytes) : (∃ dto, fb.DeserializeEntity data = some dto) ↔
      fb.Readable data := by
    rw [← DeserializeEntity_isSome, Option.isSome_iff_exists]
  refine ⟨accepts, fun buffer s decoded => ?_⟩
  obtain ⟨e, -, rfl⟩ := ByteReader.Deserialize_eq_ok_iff.mp decoded
  constructor
  · refine ⟨e.entities.map fun record => record.payload, ?_⟩
    rw [Encoding.snapshot, List.forall₂_map_left_iff, List.forall₂_map_right_iff,
      List.forall₂_same]
    intro record _
    exact ⟨(accepts record.payload).mp ⟨_, record.accepted⟩, record.accepted⟩
  · intro kept
    have roundTrip : ∀ dto ∈ e.snapshot.snapshots_,
        fb.wire.DeserializeEntity (fb.wire.SerializeEntity dto) = some dto :=
      fun dto entity => DeserializeEntity_SerializeEntity (kept dto entity).1
    obtain ⟨bytes, serialized, decoded⟩ :=
      GameSnapshot.Deserialize_snapshot e roundTrip fun dto entity => (kept dto entity).2
    refine ⟨bytes, serialized, ?_⟩
    rw [ByteReader.Deserialize_eq, decoded]
    rfl

/-- A library that writes the number of a table, of a few that it knows. -/
def numbered [DecidableEq K] (tables : List (EntitySnapshot K)) : FlatBuffers K where
  FinishEntitySnapshotBuffer table :=
    [0, 0, 0, 0] ++ EntitySnapshotIdentifier ++ [UInt8.ofNat (tables.idxOf table)]
  VerifyEntitySnapshotBuffer buffer := decide ((buffer.getD 8 0).toNat < tables.length)
  GetEntitySnapshot buffer verified :=
    tables.get ⟨(buffer.getD 8 0).toNat, of_decide_eq_true verified⟩

theorem keeps_numbered [DecidableEq K] {tables : List (EntitySnapshot K)}
    (few : tables.length ≤ 256) {table : EntitySnapshot K} (known : table ∈ tables) :
    (numbered tables).Keeps table := by
  have number : (((numbered tables).FinishEntitySnapshotBuffer table).getD 8 0).toNat =
      tables.idxOf table := by
    apply UInt8.toNat_ofNat_of_lt'
    exact (List.idxOf_lt_length_of_mem known).trans_le few
  have verified : (numbered tables).VerifyEntitySnapshotBuffer
      ((numbered tables).FinishEntitySnapshotBuffer table) = true := by
    apply decide_eq_true
    rw [number]
    exact List.idxOf_lt_length_of_mem known
  refine ⟨rfl, verified, ?_⟩
  change tables.get ⟨_, _⟩ = table
  simp only [number, List.get_eq_getElem, List.getElem_idxOf]

open Snapshot in
/-- A buffer with another header than the library writes, in a snapshot whose name goes on behind
its zero. -/
def otherwiseEncoding : Encoding (numbered [CreateEntitySnapshot bareAsteroid]).wire where
  tick_number := 7
  entries := [⟨[66, 0] ++ List.replicate 30 68, 9, rfl⟩]
  entities := [⟨[1, 2, 3, 4] ++ EntitySnapshotIdentifier ++ [0, 5], bareAsteroid, by decide, rfl⟩]
  length_entries := by decide
  length_entities := by decide

open Snapshot in
theorem reserialized_otherwise : ∃ bytes,
    (⟨[bareAsteroid], [⟨[66], 9⟩], 7⟩ : GameSnapshot ℚ).Serialize
        (numbered [CreateEntitySnapshot bareAsteroid]).wire = .ok bytes ∧
      ByteReader.Deserialize (numbered [CreateEntitySnapshot bareAsteroid]).wire bytes =
        .ok ⟨[bareAsteroid], [⟨[66], 9⟩], 7⟩ := by
  have decoded : ByteReader.Deserialize (numbered [CreateEntitySnapshot bareAsteroid]).wire
      otherwiseEncoding.bytes = .ok ⟨[bareAsteroid], [⟨[66], 9⟩], 7⟩ :=
    ByteReader.Deserialize_eq_ok_iff.mpr ⟨otherwiseEncoding, rfl, rfl⟩
  obtain ⟨-, reserialized⟩ := (reserialized_of_keeps _).2 _ _ decoded
  apply reserialized
  intro dto entity
  obtain rfl := List.mem_singleton.mp entity
  exact ⟨keeps_numbered (by decide) List.mem_cons_self, by decide⟩

end FlatBuffers

end SpaceShooter.SnapshotWire
