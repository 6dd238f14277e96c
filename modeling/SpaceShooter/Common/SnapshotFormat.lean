/-
# The snapshot format

Which byte strings are snapshots. The reader of the code walks the buffer by an offset; it
stays inside, and accepts exactly the strings that a well-formed encoding is made of, each
of which is made of one encoding only. The encoder goes beyond the format in one place: it
writes leaderboards that are longer than the decoder allows.
-/

import SpaceShooter.Common.GameSnapshot
import SpaceShooter.Library.Cursor

namespace SpaceShooter.Snapshot

open Library Library.Reader GameSnapshot

variable {K : Type}

/-! ### The reader -/

namespace ByteReader

def require (count : ℕ) : CursorReader UInt8 StdException Unit := do
  let left ← Cursor.remaining
  if count > left then Cursor.raise truncated else pure ()

/-- Shift `bytes_[offset_++]` into a word, a number of times. -/
def shiftBytes : ℕ → UInt32 → CursorReader UInt8 StdException UInt32
  | 0, value => pure value
  | count + 1, value => do
    let byte ← Cursor.next
    shiftBytes count ((value <<< 8) ||| byte.toUInt32)

def readU32 : CursorReader UInt8 StdException UInt32 := do
  require 4
  shiftBytes 4 0

def readBytes (count : ℕ) : CursorReader UInt8 StdException Bytes := do
  require count
  Cursor.subspan count

def requireEnd : CursorReader UInt8 StdException Unit := do
  let left ← Cursor.remaining
  if left ≠ 0 then
    Cursor.raise (.invalid_argument "GameSnapshot::Deserialize: trailing bytes")
  else
    pure ()

variable (wire : EntityWire K)

def readEntry : CursorReader UInt8 StdException LeaderboardEntry := do
  let name_bytes ← readBytes kNameSize
  let score ← readU32
  pure ⟨untilNul name_bytes, score⟩

def readEntity : CursorReader UInt8 StdException (EntitySnapshot K) := do
  let payload_size ← readU32
  let payload ← readBytes payload_size.toNat
  match wire.DeserializeEntity payload with
  | none => Cursor.raise (.invalid_argument "GameSnapshot::Deserialize: invalid entity payload")
  | some entity => pure entity

def readLeaderboard : CursorReader UInt8 StdException (List LeaderboardEntry) := do
  let leaderboard_count ← readU32
  let left ← Cursor.remaining
  if leaderboard_count.toNat > World.kMaxLeaderboardSize ∨
      leaderboard_count.toNat > left / kMinLeaderboardEntrySize then
    Cursor.raise (.invalid_argument "GameSnapshot::Deserialize: impossible leaderboard count")
  else
    Cursor.readMany readEntry leaderboard_count.toNat

def readEntities : CursorReader UInt8 StdException (List (EntitySnapshot K)) := do
  let entity_count ← readU32
  let left ← Cursor.remaining
  if entity_count.toNat > left / kMinEntitySize then
    Cursor.raise (.invalid_argument "GameSnapshot::Deserialize: impossible entity count")
  else
    Cursor.readMany (readEntity wire) entity_count.toNat

def readSnapshot : CursorReader UInt8 StdException (GameSnapshot K) := do
  let tick_number ← readU32
  let leaderboard ← readLeaderboard
  let snapshots ← readEntities wire
  pure ⟨snapshots, leaderboard, tick_number⟩

/-- `GameSnapshot::Deserialize` on the buffer, with the faults it might have run into. -/
def Deserialize (buffer : Bytes) : Except (Cursor.Fault StdException) (GameSnapshot K) := do
  let (snapshot, reader) ← readSnapshot wire ⟨buffer, 0⟩
  let _ ← requireEnd reader
  return snapshot

/-! ### Reads stay inside the buffer -/

open Cursor

theorem require_apply {c : Cursor UInt8} (hinside : c.Inside) (count : ℕ) :
    require count c =
      if c.bytes.length < c.offset + count then .error (.thrown truncated) else .ok ((), c) := by
  have hle : ¬ c.bytes.length < c.offset := Nat.not_lt.mpr hinside
  change (Cursor.remaining c).bind _ = _
  rw [Cursor.remaining, if_neg hle]
  change (if count > c.bytes.length - c.offset then Cursor.raise truncated else pure ()) c = _
  have hiff : count > c.bytes.length - c.offset ↔ c.bytes.length < c.offset + count := by
    unfold Inside at hinside
    omega
  by_cases hlt : c.bytes.length < c.offset + count
  · rw [if_pos hlt, if_pos (hiff.mpr hlt)]
    rfl
  · rw [if_neg hlt, if_neg (mt hiff.mp hlt)]
    rfl

theorem tracks_readBytes (count : ℕ) :
    Tracks (readBytes count) (Reader.readBytes count truncated) := by
  refine tracks_block (fun c hle => ?_) fun c hinside hlt => ?_
  · have hinside : c.Inside := (Nat.le_add_right _ _).trans hle
    change (require count c).bind _ = _
    rw [require_apply hinside, if_neg (Nat.not_lt.mpr hle)]
    exact if_neg (Nat.not_lt.mpr hle)
  · change (require count c).bind _ = _
    rw [require_apply hinside, if_pos hlt]
    rfl

/-- The bytes are there, so the loop shifts them in one by one. -/
theorem shiftBytes_apply {count : ℕ} {value : UInt32} {c : Cursor UInt8}
    (hle : c.offset + count ≤ c.bytes.length) :
    shiftBytes count value c = .ok
      ((c.rest.take count).foldl (fun word byte => (word <<< 8) ||| byte.toUInt32) value,
        { c with offset := c.offset + count }) := by
  induction count generalizing value c with
  | zero => rfl
  | succ count ih =>
    have hlt : c.offset < c.bytes.length := by omega
    have hrest : c.rest = c.bytes[c.offset] :: { c with offset := c.offset + 1 }.rest :=
      List.drop_eq_getElem_cons hlt
    have hnext : (next c : Except (Fault StdException) _) =
        .ok (c.bytes[c.offset], { c with offset := c.offset + 1 }) := by
      unfold next
      rw [List.getElem?_eq_getElem hlt]
    change (next c).bind _ = _
    rw [hnext]
    change shiftBytes count _ { c with offset := c.offset + 1 } = _
    rw [ih (by dsimp only; omega), hrest, List.take_succ_cons, List.foldl_cons, Nat.add_assoc,
      Nat.add_comm 1 count]

theorem tracks_readU32 : Tracks readU32 GameSnapshot.readU32 := by
  have hblock := (tracks_readBytes 4).bind fun bytes =>
    tracks_pure (ε := StdException) (BigEndian.ofBytes bytes)
  have heq (c : Cursor UInt8) (hinside : c.Inside) :
      readU32 c = (readBytes 4 >>= fun bytes => pure (BigEndian.ofBytes bytes)) c := by
    change (require 4 c).bind _ = (((require 4 c).bind _).bind _)
    rw [require_apply hinside]
    split_ifs with hlt
    · rfl
    · change shiftBytes 4 0 c = (subspan 4 c).bind _
      rw [shiftBytes_apply (Nat.le_of_not_lt hlt), subspan, if_neg hlt]
      rfl
  refine ⟨fun c value left hinside h => ?_, fun c e hinside h => ?_⟩
  · rw [heq c hinside]
    exact hblock.ok hinside h
  · rw [heq c hinside]
    exact hblock.error hinside h

theorem tracks_readEntry : Tracks readEntry GameSnapshot.readEntry :=
  (tracks_readBytes kNameSize).bind fun _ => tracks_readU32.bind fun _ => tracks_pure _

theorem tracks_readEntity : Tracks (readEntity wire) (GameSnapshot.readEntity wire) := by
  refine tracks_readU32.bind fun payload_size => (tracks_readBytes _).bind fun payload => ?_
  cases wire.DeserializeEntity payload with
  | none => exact tracks_raise _
  | some entity => exact tracks_pure entity

theorem tracks_readLeaderboard : Tracks readLeaderboard GameSnapshot.readLeaderboard :=
  tracks_readU32.bind fun _ => tracks_remaining.bind fun _ =>
    (tracks_raise _).ite (tracks_readEntry.readMany _)

theorem tracks_readEntities : Tracks (readEntities wire) (GameSnapshot.readEntities wire) :=
  tracks_readU32.bind fun _ => tracks_remaining.bind fun _ =>
    (tracks_raise _).ite ((tracks_readEntity wire).readMany _)

theorem tracks_readSnapshot : Tracks (readSnapshot wire) (GameSnapshot.readSnapshot wire) :=
  tracks_readU32.bind fun _ => tracks_readLeaderboard.bind fun _ =>
    (tracks_readEntities wire).bind fun _ => tracks_pure _

theorem tracks_requireEnd : Tracks requireEnd GameSnapshot.requireEnd :=
  tracks_remaining.bind fun _ => (tracks_raise _).ite (tracks_pure ())

/-- Walking the buffer answers what reading its list of bytes does, without a fault. -/
theorem Deserialize_eq (buffer : Bytes) :
    Deserialize wire buffer = (GameSnapshot.Deserialize wire buffer).mapError .thrown := by
  have hinside : Inside (⟨buffer, 0⟩ : Cursor UInt8) := Nat.zero_le _
  have hread := tracks_readSnapshot wire
  unfold Deserialize GameSnapshot.Deserialize
  cases hspec : GameSnapshot.readSnapshot wire buffer with
  | error e =>
    rw [hread.error hinside hspec]
    rfl
  | ok found =>
    obtain ⟨snapshot, left⟩ := found
    obtain ⟨c, hc, hinside, rfl⟩ := hread.ok hinside hspec
    rw [hc]
    change (requireEnd c).bind _ = Except.mapError _ ((GameSnapshot.requireEnd c.rest).bind _)
    cases hend : GameSnapshot.requireEnd c.rest with
    | error e =>
      rw [tracks_requireEnd.error hinside hend]
      rfl
    | ok found =>
      obtain ⟨c', hc', -, -⟩ := tracks_requireEnd.ok hinside hend
      rw [hc']
      rfl

end ByteReader

/-! ### Well-formed encodings -/

/-- A leaderboard entry as it stands in an encoding. -/
structure EntryRecord where
  name : Bytes
  score : UInt32
  length_name : name.length = kNameSize

namespace EntryRecord

def bytes (r : EntryRecord) : Bytes := r.name ++ writeU32 r.score

def entry (r : EntryRecord) : LeaderboardEntry := ⟨untilNul r.name, r.score⟩

theorem length_bytes (r : EntryRecord) : r.bytes.length = kMinLeaderboardEntrySize := by
  rw [bytes, List.length_append, r.length_name, writeU32, BigEndian.length_toBytes]
  rfl

theorem bytes_injective : Function.Injective bytes := by
  intro r r' heq
  obtain ⟨hname, hscore⟩ := List.append_inj heq (r.length_name.trans r'.length_name.symm)
  have hscore := congrArg BigEndian.ofBytes hscore
  rw [writeU32, writeU32, BigEndian.ofBytes_toBytes, BigEndian.ofBytes_toBytes] at hscore
  cases r
  cases r'
  cases hname
  cases hscore
  rfl

theorem reads (r : EntryRecord) : Reads readEntry r.bytes r.entry :=
  (reads_readBytes r.name r.length_name _).bind ((reads_readU32 r.score).then_nil (reads_pure _))

end EntryRecord

/-- An entity as it stands in an encoding. -/
structure EntityRecord (wire : EntityWire K) where
  payload : Bytes
  entity : EntitySnapshot K
  length_payload : payload.length ≤ kMaxCount
  accepted : wire.DeserializeEntity payload = some entity

namespace EntityRecord

variable {wire : EntityWire K}

def bytes (r : EntityRecord wire) : Bytes :=
  writeU32 (UInt32.ofNat r.payload.length) ++ r.payload

theorem kMinEntitySize_le (r : EntityRecord wire) : kMinEntitySize ≤ r.bytes.length := by
  rw [bytes, List.length_append]
  exact Nat.le_add_right _ _

theorem ext_payload {r r' : EntityRecord wire} (h : r.payload = r'.payload) : r = r' := by
  have haccepted := r.accepted
  rw [h, r'.accepted] at haccepted
  have hentity := Option.some.inj haccepted
  cases r
  cases r'
  cases h
  cases hentity
  rfl

theorem prefixCode_bytes : PrefixCode (bytes : EntityRecord wire → Bytes) := by
  intro r r' rest rest' heq
  rw [bytes, bytes, List.append_assoc, List.append_assoc] at heq
  obtain ⟨hcount, heq⟩ := (reads_readU32 _).unique (reads_readU32 _) heq
  have hlength := congrArg UInt32.toNat hcount
  rw [toNat_ofNat_of_le r.length_payload, toNat_ofNat_of_le r'.length_payload] at hlength
  obtain ⟨hpayload, hrest⟩ := List.append_inj heq hlength
  exact ⟨ext_payload hpayload, hrest⟩

theorem reads (r : EntityRecord wire) : Reads (readEntity wire) r.bytes r.entity := by
  refine (reads_readU32 _).bind ?_
  refine (reads_readBytes _ (toNat_ofNat_of_le r.length_payload).symm _).then_nil ?_
  rw [r.accepted]
  exact reads_pure r.entity

end EntityRecord

/-- What a snapshot is made of on the wire. -/
structure Encoding (wire : EntityWire K) where
  tick_number : UInt32
  entries : List EntryRecord
  entities : List (EntityRecord wire)
  length_entries : entries.length ≤ World.kMaxLeaderboardSize
  length_entities : entities.length ≤ kMaxCount

namespace Encoding

variable {wire : EntityWire K}

def bytes (e : Encoding wire) : Bytes :=
  writeU32 e.tick_number ++
    (writeU32 (UInt32.ofNat e.entries.length) ++ e.entries.flatMap EntryRecord.bytes ++
      (writeU32 (UInt32.ofNat e.entities.length) ++ e.entities.flatMap EntityRecord.bytes))

def snapshot (e : Encoding wire) : GameSnapshot K where
  snapshots_ := e.entities.map EntityRecord.entity
  leaderboard_ := e.entries.map EntryRecord.entry
  tick_number_ := e.tick_number

theorem prefixCode_bytes : PrefixCode (bytes : Encoding wire → Bytes) := by
  intro e e' rest rest' heq
  simp only [bytes, List.append_assoc] at heq
  obtain ⟨htick, heq⟩ := (reads_readU32 _).unique (reads_readU32 _) heq
  obtain ⟨hentries, heq⟩ := (reads_readU32 _).unique (reads_readU32 _) heq
  have hentries := congrArg UInt32.toNat hentries
  rw [toNat_ofNat_of_le (e.length_entries.trans (by decide)),
    toNat_ofNat_of_le (e'.length_entries.trans (by decide))] at hentries
  have hcode := PrefixCode.of_length EntryRecord.length_bytes EntryRecord.bytes_injective
  obtain ⟨hentries, heq⟩ := hcode.flatMap hentries heq
  obtain ⟨hentities, heq⟩ := (reads_readU32 _).unique (reads_readU32 _) heq
  have hentities := congrArg UInt32.toNat hentities
  rw [toNat_ofNat_of_le e.length_entities, toNat_ofNat_of_le e'.length_entities] at hentities
  obtain ⟨hentities, hrest⟩ := EntityRecord.prefixCode_bytes.flatMap hentities heq
  refine ⟨?_, hrest⟩
  cases e
  cases e'
  cases htick
  cases hentries
  cases hentities
  rfl

/-! ### Encodings are read -/

/-- The checks of the counts let every well-formed encoding pass. -/
theorem reads_entries (e : Encoding wire) :
    Reads readLeaderboard
      (writeU32 (UInt32.ofNat e.entries.length) ++ e.entries.flatMap EntryRecord.bytes)
      (e.entries.map EntryRecord.entry) := by
  have hcount : (UInt32.ofNat e.entries.length).toNat = e.entries.length :=
    toNat_ofNat_of_le (e.length_entries.trans (by decide))
  refine (reads_readU32 _).bind (Reads.bind_remaining fun left hleft => ?_)
  have hlength : (e.entries.flatMap EntryRecord.bytes).length =
      e.entries.length * kMinLeaderboardEntrySize := by
    simp [List.length_flatMap, EntryRecord.length_bytes]
  rw [hcount, if_neg]
  · exact reads_readMany fun r _ => r.reads
  · rw [not_or, Nat.not_lt, Nat.not_lt, Nat.le_div_iff_mul_le (by decide), ← hlength]
    exact ⟨e.length_entries, hleft⟩

theorem reads_entities (e : Encoding wire) :
    Reads (readEntities wire)
      (writeU32 (UInt32.ofNat e.entities.length) ++ e.entities.flatMap EntityRecord.bytes)
      (e.entities.map EntityRecord.entity) := by
  refine (reads_readU32 _).bind (Reads.bind_remaining fun left hleft => ?_)
  have hlength (entities : List (EntityRecord wire)) :
      entities.length * kMinEntitySize ≤ (entities.flatMap EntityRecord.bytes).length := by
    induction entities with
    | nil => exact Nat.le_refl _
    | cons r entities ih =>
      have hsize := r.kMinEntitySize_le
      rw [List.flatMap_cons, List.length_append, List.length_cons, Nat.succ_mul]
      omega
  rw [toNat_ofNat_of_le e.length_entities, if_neg]
  · exact reads_readMany fun r _ => r.reads
  · rw [Nat.not_lt, Nat.le_div_iff_mul_le (by decide)]
    exact (hlength e.entities).trans hleft

theorem reads (e : Encoding wire) : Reads (readSnapshot wire) e.bytes e.snapshot :=
  (reads_readU32 e.tick_number).bind
    (e.reads_entries.bind (e.reads_entities.then_nil (reads_pure _)))

end Encoding

/-! ### What is read is an encoding -/

theorem readU32_eq_ok {input rest : Bytes} {value : UInt32}
    (h : GameSnapshot.readU32 input = .ok (value, rest)) : input = writeU32 value ++ rest := by
  obtain ⟨bytes, middle, hbytes, hvalue⟩ := bind_eq_ok h
  obtain ⟨rfl, rfl⟩ := Prod.mk.inj (Except.ok.inj hvalue)
  obtain ⟨rfl, hlength⟩ := readBytes_eq_ok hbytes
  rw [writeU32, BigEndian.toBytes_ofBytes hlength]

theorem readEntry_eq_ok {input rest : Bytes} {found : LeaderboardEntry}
    (h : readEntry input = .ok (found, rest)) :
    ∃ r : EntryRecord, input = r.bytes ++ rest ∧ found = r.entry := by
  obtain ⟨name, middle, hname, h⟩ := bind_eq_ok h
  obtain ⟨score, last, hscore, h⟩ := bind_eq_ok h
  obtain ⟨rfl, rfl⟩ := Prod.mk.inj (Except.ok.inj h)
  obtain ⟨rfl, hlength⟩ := readBytes_eq_ok hname
  obtain rfl := readU32_eq_ok hscore
  refine ⟨⟨name, score, hlength⟩, ?_, rfl⟩
  rw [EntryRecord.bytes, List.append_assoc]

theorem readEntity_eq_ok {wire : EntityWire K} {input rest : Bytes} {found : EntitySnapshot K}
    (h : readEntity wire input = .ok (found, rest)) :
    ∃ r : EntityRecord wire, input = r.bytes ++ rest ∧ found = r.entity := by
  obtain ⟨size, middle, hsize, hread⟩ := bind_eq_ok h
  obtain ⟨payload, last, hpayload, hentity⟩ := bind_eq_ok hread
  clear h hread
  obtain rfl := readU32_eq_ok hsize
  obtain ⟨rfl, hlength⟩ := readBytes_eq_ok hpayload
  cases haccepted : wire.DeserializeEntity payload with
  | none =>
    rw [haccepted] at hentity
    cases hentity
  | some entity =>
    rw [haccepted] at hentity
    obtain ⟨rfl, rfl⟩ := Prod.mk.inj (Except.ok.inj hentity)
    have hle : payload.length ≤ kMaxCount := by
      rw [hlength]
      exact Nat.le_pred_of_lt size.toNat_lt
    refine ⟨⟨payload, entity, hle, haccepted⟩, ?_, rfl⟩
    rw [EntityRecord.bytes, hlength, UInt32.ofNat_toNat, List.append_assoc]

/-- A count that is possible, and as many records. -/
theorem counted_eq_ok {α δ : Type} {r : Reader UInt8 StdException α} {encode : δ → Bytes}
    {value : δ → α} (hrecord : ∀ {input rest found}, r input = .ok (found, rest) →
      ∃ item, input = encode item ++ rest ∧ found = value item)
    {impossible : UInt32 → ℕ → Prop} [∀ count left, Decidable (impossible count left)]
    {e : StdException} {input rest : Bytes} {found : List α}
    (h : (do
      let count ← readU32
      let left ← remaining
      if impossible count left then throw e else readMany r count.toNat) input =
        .ok (found, rest)) :
    ∃ count left, ¬ impossible count left ∧ ∃ items : List δ, items.length = count.toNat ∧
      input = writeU32 (UInt32.ofNat items.length) ++ items.flatMap encode ++ rest ∧
      found = items.map value := by
  obtain ⟨count, middle, hcount, hread⟩ := bind_eq_ok h
  obtain ⟨left, last, hleft, hmany⟩ := bind_eq_ok hread
  clear h hread
  obtain ⟨rfl, rfl⟩ := Prod.mk.inj (Except.ok.inj hleft)
  obtain rfl := readU32_eq_ok hcount
  split_ifs at hmany with hpossible
  · cases hmany
  · obtain ⟨items, hlength, rfl, rfl⟩ := readMany_eq_ok hrecord hmany
    refine ⟨count, _, hpossible, items, hlength, ?_, rfl⟩
    rw [hlength, UInt32.ofNat_toNat, List.append_assoc]

theorem readLeaderboard_eq_ok {input rest : Bytes} {found : List LeaderboardEntry}
    (h : readLeaderboard input = .ok (found, rest)) :
    ∃ entries : List EntryRecord, entries.length ≤ World.kMaxLeaderboardSize ∧
      input = writeU32 (UInt32.ofNat entries.length) ++ entries.flatMap EntryRecord.bytes ++ rest ∧
      found = entries.map EntryRecord.entry := by
  unfold readLeaderboard at h
  obtain ⟨count, left, hpossible, entries, hlength, hinput, hfound⟩ :=
    counted_eq_ok readEntry_eq_ok h
  refine ⟨entries, ?_, hinput, hfound⟩
  rw [hlength]
  exact Nat.le_of_not_lt (not_or.mp hpossible).1

theorem readEntities_eq_ok {wire : EntityWire K} {input rest : Bytes}
    {found : List (EntitySnapshot K)} (h : readEntities wire input = .ok (found, rest)) :
    ∃ entities : List (EntityRecord wire), entities.length ≤ kMaxCount ∧
      input =
        writeU32 (UInt32.ofNat entities.length) ++ entities.flatMap EntityRecord.bytes ++ rest ∧
      found = entities.map EntityRecord.entity := by
  unfold readEntities at h
  obtain ⟨count, left, -, entities, hlength, hinput, hfound⟩ := counted_eq_ok readEntity_eq_ok h
  refine ⟨entities, ?_, hinput, hfound⟩
  rw [hlength]
  exact Nat.le_pred_of_lt count.toNat_lt

theorem readSnapshot_eq_ok {wire : EntityWire K} {input rest : Bytes} {found : GameSnapshot K}
    (h : readSnapshot wire input = .ok (found, rest)) :
    ∃ e : Encoding wire, input = e.bytes ++ rest ∧ found = e.snapshot := by
  obtain ⟨tick_number, middle, htick, hread⟩ := bind_eq_ok h
  obtain ⟨leaderboard, next, hleaderboard, htail⟩ := bind_eq_ok hread
  obtain ⟨snapshots, last, hsnapshots, hpure⟩ := bind_eq_ok htail
  clear h hread htail
  obtain ⟨rfl, rfl⟩ := Prod.mk.inj (Except.ok.inj hpure)
  obtain rfl := readU32_eq_ok htick
  obtain ⟨entries, hentries, rfl, rfl⟩ := readLeaderboard_eq_ok hleaderboard
  obtain ⟨entities, hentities, rfl, rfl⟩ := readEntities_eq_ok hsnapshots
  refine ⟨⟨tick_number, entries, entities, hentries, hentities⟩, ?_, rfl⟩
  simp only [Encoding.bytes, List.append_assoc]

/-! ### The grammar -/

theorem requireEnd_apply (left : Bytes) :
    GameSnapshot.requireEnd left = if left = [] then .ok ((), left)
      else .error (.invalid_argument "GameSnapshot::Deserialize: trailing bytes") := by
  cases left <;> rfl

/-- A buffer is accepted where it is a well-formed encoding, as what this encodes. -/
theorem Deserialize_eq_ok_iff {wire : EntityWire K} {buffer : Bytes} {s : GameSnapshot K} :
    GameSnapshot.Deserialize wire buffer = .ok s ↔
      ∃ e : Encoding wire, e.bytes = buffer ∧ e.snapshot = s := by
  refine ⟨fun h => ?_, ?_⟩
  · unfold GameSnapshot.Deserialize at h
    cases hread : GameSnapshot.readSnapshot wire buffer with
    | error e =>
      rw [hread] at h
      cases h
    | ok found =>
      obtain ⟨snapshot, left⟩ := found
      rw [hread] at h
      change (GameSnapshot.requireEnd left).bind _ = _ at h
      rw [requireEnd_apply] at h
      obtain ⟨e, hbuffer, hsnapshot⟩ := readSnapshot_eq_ok hread
      split_ifs at h with hleft
      · rw [hleft, List.append_nil] at hbuffer
        exact ⟨e, hbuffer.symm, hsnapshot.symm.trans (Except.ok.inj h)⟩
      · cases h
  · rintro ⟨e, rfl, rfl⟩
    have hread := e.reads []
    rw [List.append_nil] at hread
    rw [GameSnapshot.Deserialize, hread]
    rfl

/-- The reader of the code accepts the same buffers as the same snapshots. -/
theorem ByteReader.Deserialize_eq_ok_iff {wire : EntityWire K} {buffer : Bytes}
    {s : GameSnapshot K} : ByteReader.Deserialize wire buffer = .ok s ↔
      ∃ e : Encoding wire, e.bytes = buffer ∧ e.snapshot = s := by
  rw [← Snapshot.Deserialize_eq_ok_iff, ByteReader.Deserialize_eq]
  cases GameSnapshot.Deserialize wire buffer with
  | error e => exact ⟨fun h => (by cases h), fun h => (by cases h)⟩
  | ok found =>
    exact ⟨fun h => congrArg _ (Except.ok.inj h), fun h => congrArg _ (Except.ok.inj h)⟩

theorem throws_readU32 {P : StdException → Prop} (h : P truncated) :
    Throws GameSnapshot.readU32 P :=
  (throws_readBytes 4 h).bind fun _ => throws_pure _ P

/-- Only `std::invalid_argument` is thrown. -/
theorem invalid_argument_of_Deserialize {wire : EntityWire K} {buffer : Bytes} {e : StdException}
    (h : GameSnapshot.Deserialize wire buffer = .error e) : ∃ what, e = .invalid_argument what := by
  have hword : Throws GameSnapshot.readU32 fun e => ∃ what, e = .invalid_argument what :=
    throws_readU32 ⟨_, rfl⟩
  have hentry : Throws GameSnapshot.readEntry fun e => ∃ what, e = .invalid_argument what :=
    (throws_readBytes _ ⟨_, rfl⟩).bind fun _ => hword.bind fun _ => throws_pure _ _
  have hentity : Throws (GameSnapshot.readEntity wire) fun e =>
      ∃ what, e = .invalid_argument what := by
    refine hword.bind fun size => (throws_readBytes _ ⟨_, rfl⟩).bind fun payload => ?_
    cases wire.DeserializeEntity payload with
    | none => exact throws_throw ⟨_, rfl⟩
    | some entity => exact throws_pure entity _
  have hread : Throws (GameSnapshot.readSnapshot wire) fun e =>
      ∃ what, e = .invalid_argument what :=
    hword.bind fun _ =>
      (hword.bind fun _ => (throws_remaining _).bind fun _ =>
        (throws_throw ⟨_, rfl⟩).ite (hentry.readMany _)).bind fun _ =>
      (hword.bind fun _ => (throws_remaining _).bind fun _ =>
        (throws_throw ⟨_, rfl⟩).ite (hentity.readMany _)).bind fun _ => throws_pure _ _
  unfold GameSnapshot.Deserialize at h
  cases hsnapshot : GameSnapshot.readSnapshot wire buffer with
  | error e' =>
    rw [hsnapshot] at h
    obtain rfl : e' = e := Except.error.inj h
    exact hread hsnapshot
  | ok found =>
    rw [hsnapshot] at h
    change (GameSnapshot.requireEnd found.2).bind _ = _ at h
    rw [requireEnd_apply] at h
    split_ifs at h
    · cases h
    · exact ⟨_, (Except.error.inj h).symm⟩

/-- Deserialization accepts exactly the well-formed encodings: for every buffer it returns or
throws `std::invalid_argument` and never reads outside; it returns what the buffer encodes,
which is unique; and an accepted buffer followed by more is not accepted. -/
theorem accepts_encodings (wire : EntityWire K) (buffer : Bytes) :
    ((∃ s, ByteReader.Deserialize wire buffer = .ok s) ∨
      ∃ what, ByteReader.Deserialize wire buffer = .error (.thrown (.invalid_argument what))) ∧
    (∀ s, ByteReader.Deserialize wire buffer = .ok s ↔
      ∃ e : Encoding wire, e.bytes = buffer ∧ e.snapshot = s) ∧
    (∀ e e' : Encoding wire, e.bytes = buffer → e'.bytes = buffer → e = e') ∧
    (∀ s s' more, ByteReader.Deserialize wire buffer = .ok s →
      ByteReader.Deserialize wire (buffer ++ more) = .ok s' → more = []) := by
  refine ⟨?_, fun s => ByteReader.Deserialize_eq_ok_iff, fun e e' he he' => ?_,
    fun s s' more h h' => ?_⟩
  · rw [ByteReader.Deserialize_eq]
    cases hresult : GameSnapshot.Deserialize wire buffer with
    | error e =>
      obtain ⟨what, rfl⟩ := invalid_argument_of_Deserialize hresult
      exact .inr ⟨what, rfl⟩
    | ok s => exact .inl ⟨s, rfl⟩
  · have heq : e.bytes ++ [] = e'.bytes ++ [] := by rw [he, he']
    exact (Encoding.prefixCode_bytes heq).1
  · obtain ⟨e, he, -⟩ := ByteReader.Deserialize_eq_ok_iff.mp h
    obtain ⟨e', he', -⟩ := ByteReader.Deserialize_eq_ok_iff.mp h'
    have heq : e.bytes ++ more = e'.bytes ++ [] := by rw [he, he', List.append_nil]
    exact (Encoding.prefixCode_bytes heq).2

/-- An asteroid with no components. -/
def bareAsteroid : EntitySnapshot ℚ where
  id := 7
  type := .Asteroid
  mass := 100
  radius := 8
  is_destroyed := false
  transform := none
  ship := none
  health := none
  combat := none
  asteroid := none

/-- Entities that all look the same on the wire. -/
def bareWire : EntityWire ℚ := ⟨fun _ => [1], fun _ => some bareAsteroid⟩

/-- Tick 7, one player on the leaderboard, and one entity. -/
def recordBuffer : Bytes :=
  [0, 0, 0, 7] ++
    ([0, 0, 0, 1] ++ ([65, 99, 101] ++ List.replicate 29 0) ++ [0, 0, 0, 3]) ++
      ([0, 0, 0, 1] ++ [0, 0, 0, 2, 9, 9])

def recordEncoding : Encoding bareWire where
  tick_number := 7
  entries := [⟨[65, 99, 101] ++ List.replicate 29 0, 3, rfl⟩]
  entities := [⟨[9, 9], bareAsteroid, by decide, rfl⟩]
  length_entries := by decide
  length_entities := by decide

theorem accepts_recordBuffer :
    ByteReader.Deserialize bareWire recordBuffer =
        .ok ⟨[bareAsteroid], [⟨[65, 99, 101], 3⟩], 7⟩ ∧
      ∀ s more, ByteReader.Deserialize bareWire (recordBuffer ++ more) = .ok s → more = [] := by
  obtain ⟨-, haccepts, -, hmore⟩ := accepts_encodings bareWire recordBuffer
  have haccepted : ByteReader.Deserialize bareWire recordBuffer =
      .ok ⟨[bareAsteroid], [⟨[65, 99, 101], 3⟩], 7⟩ :=
    (haccepts _).mpr ⟨recordEncoding, by decide, rfl⟩
  exact ⟨haccepted, fun s more => hmore _ s more haccepted⟩

/-! ### What the encoder writes -/

namespace GameSnapshot

variable {wire : EntityWire K}

/-- The encoding of a snapshot that fits the format. -/
def encoding (s : GameSnapshot K)
    (leaderboard_le : s.leaderboard_.length ≤ World.kMaxLeaderboardSize)
    (snapshots_le : s.snapshots_.length ≤ kMaxCount)
    (fits : ∀ entity ∈ s.snapshots_, (wire.SerializeEntity entity).length ≤ kMaxCount)
    (roundTrip : ∀ entity ∈ s.snapshots_,
      wire.DeserializeEntity (wire.SerializeEntity entity) = some entity) : Encoding wire where
  tick_number := s.tick_number_
  entries := s.leaderboard_.map fun entry =>
    ⟨nameField entry.name, entry.score, length_nameField entry.name⟩
  entities := s.snapshots_.attach.map fun entity =>
    { payload := wire.SerializeEntity entity.val
      entity := entity.val
      length_payload := fits entity.val entity.property
      accepted := roundTrip entity.val entity.property }
  length_entries := by rwa [List.length_map]
  length_entities := by rwa [List.length_map, List.length_attach]

/-- Decoding an encoding answers the snapshot, with the names of the leaderboard cut by
their fields. -/
theorem Deserialize_of_Serialize {s : GameSnapshot K} {bytes : Bytes}
    (serialized : s.Serialize wire = .ok bytes)
    (leaderboard_le : s.leaderboard_.length ≤ World.kMaxLeaderboardSize)
    (roundTrip : ∀ entity ∈ s.snapshots_,
      wire.DeserializeEntity (wire.SerializeEntity entity) = some entity) :
    Deserialize wire bytes = .ok { s with leaderboard_ := s.leaderboard_.map cutEntry } := by
  obtain ⟨hsnapshots, -, fits, rfl⟩ := Serialize_eq_ok serialized
  refine Deserialize_eq_ok_iff.mpr
    ⟨s.encoding leaderboard_le hsnapshots fits roundTrip, ?_, ?_⟩
  · have hentities : s.snapshots_.flatMap (entityRecord wire) =
        s.snapshots_.attach.flatMap fun entity => entityRecord wire entity.1 := by
      conv_lhs => rw [← List.attach_map_subtype_val s.snapshots_, List.flatMap_map]
    rw [Encoding.bytes, encoding, hentities]
    simp only [List.length_map, List.length_attach, List.flatMap_map, List.append_assoc]
    rfl
  · rw [Encoding.snapshot, encoding]
    simp only [List.map_map]
    congr 1
    exact List.attach_map_subtype_val s.snapshots_

/-- An encoding that is written and decodes has a leaderboard that the format allows. -/
theorem leaderboard_le_of_decodes {s s' : GameSnapshot K} {bytes : Bytes}
    (serialized : s.Serialize wire = .ok bytes) (decoded : Deserialize wire bytes = .ok s') :
    s.leaderboard_.length ≤ World.kMaxLeaderboardSize := by
  obtain ⟨-, hleaderboard, -, rfl⟩ := Serialize_eq_ok serialized
  obtain ⟨e, heq, -⟩ := Deserialize_eq_ok_iff.mp decoded
  rw [Encoding.bytes, List.append_assoc, List.append_assoc, List.append_assoc] at heq
  -- The tick and the number of entries stand in front of everything else.
  obtain ⟨-, heq⟩ := (reads_readU32 _).unique (reads_readU32 _) heq
  obtain ⟨hcount, -⟩ := (reads_readU32 _).unique (reads_readU32 _) heq
  have hlength := congrArg UInt32.toNat hcount
  rw [toNat_ofNat_of_le (e.length_entries.trans (by decide)),
    toNat_ofNat_of_le hleaderboard] at hlength
  rw [← hlength]
  exact e.length_entries

/-- What `Serialize` writes is decoded, with the names of the leaderboard cut at their first
zero and at the length of their field, exactly if the leaderboard is no longer than the
decoder allows or a count or a size does not fit its field, so that nothing is written. -/
theorem decodes_iff {s : GameSnapshot K}
    (roundTrip : ∀ entity ∈ s.snapshots_,
      wire.DeserializeEntity (wire.SerializeEntity entity) = some entity) :
    (∀ bytes, s.Serialize wire = .ok bytes →
      Deserialize wire bytes = .ok { s with
        leaderboard_ := s.leaderboard_.map fun entry =>
          ⟨(untilNul entry.name).take kNameSize, entry.score⟩ }) ↔
    s.leaderboard_.length ≤ World.kMaxLeaderboardSize ∨
      kMaxCount < s.leaderboard_.length ∨ kMaxCount < s.snapshots_.length ∨
      ∃ entity ∈ s.snapshots_, kMaxCount < (wire.SerializeEntity entity).length := by
  have hcut : s.leaderboard_.map cutEntry = s.leaderboard_.map fun entry =>
      ⟨(untilNul entry.name).take kNameSize, entry.score⟩ :=
    List.map_congr_left fun entry _ => cutEntry_eq entry
  rw [← hcut]
  refine ⟨fun h => ?_, fun h bytes serialized => ?_⟩
  · by_contra hnone
    simp only [not_or, not_exists, not_and, Nat.not_lt] at hnone
    obtain ⟨hlong, hleaderboard, hsnapshots, fits⟩ := hnone
    obtain ⟨bytes, serialized⟩ := exists_Serialize hsnapshots hleaderboard fits
    exact hlong (leaderboard_le_of_decodes serialized (h bytes serialized))
  · obtain ⟨hsnapshots, hleaderboard, fits, -⟩ := Serialize_eq_ok serialized
    rcases h with hle | hlong | hmany | ⟨entity, hmem, hlarge⟩
    · exact Deserialize_of_Serialize serialized hle roundTrip
    · exact absurd hleaderboard (Nat.not_le.mpr hlong)
    · exact absurd hsnapshots (Nat.not_le.mpr hmany)
    · exact absurd (fits entity hmem) (Nat.not_le.mpr hlarge)

/-- A leaderboard name with a zero in it. -/
def bareSnapshot : GameSnapshot ℚ := ⟨[bareAsteroid], [⟨[65, 0, 66], 3⟩], 5⟩

theorem decodes_bareSnapshot : ∃ bytes, bareSnapshot.Serialize bareWire = .ok bytes ∧
    Deserialize bareWire bytes = .ok ⟨[bareAsteroid], [⟨[65], 3⟩], 5⟩ := by
  have roundTrip : ∀ entity ∈ bareSnapshot.snapshots_,
      bareWire.DeserializeEntity (bareWire.SerializeEntity entity) = some entity := by
    intro entity hmem
    rw [List.mem_singleton.mp hmem]
    rfl
  obtain ⟨bytes, hbytes⟩ : ∃ bytes, bareSnapshot.Serialize bareWire = .ok bytes :=
    exists_Serialize (by decide) (by decide) (by decide)
  exact ⟨bytes, hbytes, (decodes_iff roundTrip).mpr (.inl (by decide)) bytes hbytes⟩

/-- One entry more than the decoder allows. -/
def crowdedSnapshot : GameSnapshot ℚ := ⟨[], List.replicate 11 ⟨[65], 3⟩, 5⟩

/-- Its encoding is refused, whatever the entities look like on the wire. -/
theorem not_decodes_crowdedSnapshot : ¬ ∃ wire : EntityWire ℚ,
    ∀ bytes, crowdedSnapshot.Serialize wire = .ok bytes →
      ∃ s, Deserialize wire bytes = .ok s := by
  rintro ⟨wire, h⟩
  have fits : ∀ entity ∈ crowdedSnapshot.snapshots_,
      (wire.SerializeEntity entity).length ≤ kMaxCount := List.forall_mem_nil _
  obtain ⟨bytes, serialized⟩ := exists_Serialize (by decide) (by decide) fits
  obtain ⟨s, decoded⟩ := h bytes serialized
  have hle := leaderboard_le_of_decodes serialized decoded
  exact absurd hle (by decide)

/-! ### What has been received

A buffer need not be what the encoder writes: a name may go on behind its zero, and an entity
may be laid out in another way. What it is decoded as has forgotten both. -/

/-- The names of a decoded snapshot are as their fields leave them. -/
theorem map_cutEntry_snapshot (e : Encoding wire) :
    e.snapshot.leaderboard_.map cutEntry = e.snapshot.leaderboard_ := by
  rw [Encoding.snapshot, List.map_map]
  apply List.map_congr_left
  intro r _
  exact cutEntry_untilNul r.length_name.le r.score

theorem Deserialize_snapshot (e : Encoding wire)
    (roundTrip : ∀ entity ∈ e.snapshot.snapshots_,
      wire.DeserializeEntity (wire.SerializeEntity entity) = some entity)
    (fits : ∀ entity ∈ e.snapshot.snapshots_, (wire.SerializeEntity entity).length ≤ kMaxCount) :
    ∃ bytes, e.snapshot.Serialize wire = .ok bytes ∧
      Deserialize wire bytes = .ok e.snapshot := by
  have hleaderboard : e.snapshot.leaderboard_.length ≤ World.kMaxLeaderboardSize := by
    rw [Encoding.snapshot, List.length_map]
    exact e.length_entries
  have hsnapshots : e.snapshot.snapshots_.length ≤ kMaxCount := by
    rw [Encoding.snapshot, List.length_map]
    exact e.length_entities
  obtain ⟨bytes, serialized⟩ :=
    exists_Serialize hsnapshots (hleaderboard.trans (by decide)) fits
  have decoded := Deserialize_of_Serialize serialized hleaderboard roundTrip
  rw [map_cutEntry_snapshot] at decoded
  exact ⟨bytes, serialized, decoded⟩

/-- A received snapshot is encoded again without an exception, and what is written decodes to
an equal snapshot, whether or not the received bytes are what the encoder writes. Its entities
are taken to survive their own conversion and to fit a length field. -/
theorem reencodes_lossless {buffer : Bytes} {s : GameSnapshot K}
    (accepted : ByteReader.Deserialize wire buffer = .ok s)
    (roundTrip : ∀ entity ∈ s.snapshots_,
      wire.DeserializeEntity (wire.SerializeEntity entity) = some entity)
    (fits : ∀ entity ∈ s.snapshots_, (wire.SerializeEntity entity).length < 2 ^ 32) :
    ∃ bytes, s.Serialize wire = .ok bytes ∧ ByteReader.Deserialize wire bytes = .ok s := by
  obtain ⟨e, -, rfl⟩ := ByteReader.Deserialize_eq_ok_iff.mp accepted
  obtain ⟨bytes, serialized, decoded⟩ :=
    Deserialize_snapshot e roundTrip fun entity hmem => Nat.le_pred_of_lt (fits entity hmem)
  refine ⟨bytes, serialized, ?_⟩
  rw [ByteReader.Deserialize_eq, decoded]
  rfl

/-- A name that goes on behind its zero, and an entity that the encoder lays out otherwise. -/
def paddedEncoding : Encoding bareWire where
  tick_number := 7
  entries := [⟨[65, 0, 66] ++ List.replicate 29 67, 3, rfl⟩]
  entities := [⟨[2, 2], bareAsteroid, by decide, rfl⟩]
  length_entries := by decide
  length_entities := by decide

theorem reencodes_paddedEncoding : ∃ bytes,
    (⟨[bareAsteroid], [⟨[65], 3⟩], 7⟩ : GameSnapshot ℚ).Serialize bareWire = .ok bytes ∧
      ByteReader.Deserialize bareWire bytes = .ok ⟨[bareAsteroid], [⟨[65], 3⟩], 7⟩ := by
  have accepted : ByteReader.Deserialize bareWire paddedEncoding.bytes =
      .ok ⟨[bareAsteroid], [⟨[65], 3⟩], 7⟩ :=
    ByteReader.Deserialize_eq_ok_iff.mpr ⟨paddedEncoding, rfl, rfl⟩
  refine reencodes_lossless accepted ?_ ?_
  · simp [bareWire]
  · simp [bareWire]

end GameSnapshot

end SpaceShooter.Snapshot
