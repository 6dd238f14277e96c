/-
# Delivery of snapshots

What a client decodes from a broadcast: the tick, the active entities in slot order, and
a leaderboard of the best live ships. The entities of the snapshot and the leaderboard
select live ships by two different tests, which agree in a sound world.
-/

import Mathlib.Data.List.Forall2
import Mathlib.Data.List.TakeWhile
import SpaceShooter.Common.SnapshotFormat
import SpaceShooter.Server.WorldInvariant

namespace SpaceShooter.Server.World

open Scalar Domain Library Snapshot

variable {K : Type}

/-! ### What a client is to receive -/

/-- A snapshot mirrors an entity field by field, and has the components it has. -/
structure Mirrors (entity : Entity K) (snapshot : EntitySnapshot K) : Prop where
  id : snapshot.id = entity.id
  type : snapshot.type = entity.type
  mass : snapshot.mass = entity.mass
  radius : snapshot.radius = entity.radius
  is_destroyed : snapshot.is_destroyed = entity.isDestroyed
  transform : Option.Rel (fun t t' => t'.position = t.position ∧ t'.velocity = t.velocity ∧
    t'.angle = t.angle) entity.transform snapshot.transform
  ship : Option.Rel (fun s s' => s'.name = untilNul s.name.val ∧ s'.score = s.score ∧
    s'.thrust_power = s.thrust_power ∧ s'.drag = s.drag ∧ s'.is_thrusting = s.is_thrusting ∧
    s'.frags = s.frags) entity.ship snapshot.ship
  health : Option.Rel (fun h h' => h'.current = h.current ∧ h'.max = h.max)
    entity.health snapshot.health
  combat : Option.Rel (fun c c' => c'.damage = c.damage ∧ c'.owner_id = c.owner_id)
    entity.combat snapshot.combat
  asteroid : Option.Rel (fun a a' => a'.score_reward = a.score_reward)
    entity.asteroid snapshot.asteroid

/-- An entry is the name and the score of a ship. -/
def EntryOf (snapshot : EntitySnapshot K) (entry : LeaderboardEntry) : Prop :=
  ∃ ship, snapshot.ship = some ship ∧ entry = ⟨ship.name, ship.score⟩

/-- The entries are those of some of the ships, sorted by score, and no ship left out has
a higher score than one of them. -/
def ListsBest (ships : List (EntitySnapshot K)) (entries : List LeaderboardEntry) : Prop :=
  entries.Pairwise (fun a b => b.score ≤ a.score) ∧
    ∃ included omitted, (included ++ omitted).Perm ships ∧
      List.Forall₂ EntryOf included entries ∧
      ∀ snapshot ∈ omitted, ∃ ship, snapshot.ship = some ship ∧
        ∀ entry ∈ entries, ship.score ≤ entry.score

/-- The engaged, non-destroyed entities of a type other than `None`, in slot order. -/
def activeEntities (world : World K) : List (Entity K) :=
  world.entities_.storage_.reduceOption.filter fun e => EntityPool.isActive (some e)

def liveShips (world : World K) : List (Entity K) :=
  world.activeEntities.filter fun e => e.type = .Ship

/-- What a decoded snapshot tells about the world and its tick. -/
structure Delivers (world : World K) (current_tick : UInt64) (snapshot : GameSnapshot K) :
    Prop where
  tick : snapshot.tick_number_.toNat = current_tick.toNat % 2 ^ 32
  entities : List.Forall₂ Mirrors world.activeEntities snapshot.snapshots_
  ids : (snapshot.snapshots_.map fun entity => entity.id).Nodup
  count : snapshot.leaderboard_.length =
    min World.kMaxLeaderboardSize world.liveShips.length
  best : ListsBest (snapshot.snapshots_.filter fun entity => entity.type = .Ship)
    snapshot.leaderboard_

/-! ### Entities -/

variable {world : World K}

theorem mem_activeEntities {e : Entity K} :
    e ∈ world.activeEntities ↔
      (∃ i, world.entities_.at? i = some e) ∧ e.type ≠ .None ∧ e.isDestroyed = false := by
  rw [activeEntities, List.mem_filter, List.reduceOption_mem_iff, EntityPool.mem_storage]
  simp [EntityPool.isActive]

theorem mem_liveShips {e : Entity K} :
    e ∈ world.liveShips ↔ (∃ i, world.entities_.at? i = some e) ∧ e.LiveShip := by
  rw [liveShips, List.mem_filter, mem_activeEntities, decide_eq_true_eq]
  constructor
  · rintro ⟨⟨hat, -, hlive⟩, hship⟩
    exact ⟨hat, hship, hlive⟩
  · rintro ⟨hat, hship, hlive⟩
    exact ⟨⟨hat, hship ▸ nofun, hlive⟩, hship⟩

/-- Distinct slots hold distinct identifiers. -/
theorem nodup_ids (wf : world.entities_.WellFormed) :
    (world.activeEntities.map fun e => e.id).Nodup := by
  have hslots : world.entities_.storage_.Pairwise fun a b =>
      ∀ e, a = some e → ∀ f, b = some f → e.id ≠ f.id := by
    rw [List.pairwise_iff_getElem]
    intro i j hi hj hij e he f hf hid
    have hati : world.entities_.at? i = some e :=
      EntityPool.at?_eq_some.mpr (List.getElem?_eq_some_iff.mpr ⟨hi, he⟩)
    have hatj : world.entities_.at? j = some f :=
      EntityPool.at?_eq_some.mpr (List.getElem?_eq_some_iff.mpr ⟨hj, hf⟩)
    exact hij.ne (wf.slot_eq hati hatj hid)
  rw [List.Nodup, List.pairwise_map]
  refine List.Pairwise.filter _ ?_
  rw [List.reduceOption, List.pairwise_filterMap]
  exact hslots.imp fun h e he f hf => h e he f hf

theorem mirrors_toEntitySnapshot (e : Entity K) : Mirrors e (toEntitySnapshot e) := by
  have hmap {α β : Type} {R : α → β → Prop} (f : α → β) (hf : ∀ a, R a (f a)) (o : Option α) :
      Option.Rel R o (o.map f) := by
    cases o with
    | none => exact .none
    | some a => exact .some (hf a)
  exact ⟨rfl, rfl, rfl, rfl, rfl, hmap _ (fun _ => ⟨rfl, rfl, rfl⟩) _,
    hmap _ (fun _ => ⟨rfl, rfl, rfl, rfl, rfl, rfl⟩) _, hmap _ (fun _ => ⟨rfl, rfl⟩) _,
    hmap _ (fun _ => ⟨rfl, rfl⟩) _,
    hmap (R := fun (a : AsteroidComponent) (a' : AsteroidSnapshot) =>
      a'.score_reward = a.score_reward) _ (fun _ => rfl) _⟩

theorem buildEntitySnapshots_eq (world : World K) :
    buildEntitySnapshots world.entities_ = world.activeEntities.map toEntitySnapshot := by
  unfold buildEntitySnapshots activeEntities
  induction world.entities_.storage_ with
  | nil => rfl
  | cons slot slots ih =>
    -- Both passes skip empty slots and look at the same flag.
    cases slot with
    | none => simpa [EntityPool.isActive] using ih
    | some e =>
      cases hactive : EntityPool.isActive (some e) with
      | true => simp [hactive, ih]
      | false => simp [hactive, ih]

theorem filter_ships (world : World K) :
    (buildEntitySnapshots world.entities_).filter (fun entity => entity.type = .Ship) =
      world.liveShips.map toEntitySnapshot := by
  rw [buildEntitySnapshots_eq, liveShips, List.filter_map]
  rfl

/-! ### The leaderboard -/

/-- The entry of a ship. -/
def entryOf (entity : Entity K) : LeaderboardEntry := (leaderboardEntry entity).getD ⟨[], 0⟩

/-- In a sound world the ships that are not destroyed are those with health left. -/
theorem leaderboardEntry_of_liveShip (h : world.Sound) {e : Entity K}
    (hmem : e ∈ world.liveShips) : leaderboardEntry e = some (entryOf e) := by
  obtain ⟨⟨i, hat⟩, htype, hlive⟩ := mem_liveShips.mp hmem
  obtain ⟨-, hship, hdamageable⟩ := h.fit hat htype hlive
  obtain ⟨ship, hship⟩ := Option.isSome_iff_exists.mp hship
  unfold Entity.isDamageable at hdamageable
  cases hhealth : e.health with
  | none => rw [hhealth] at hdamageable; cases hdamageable
  | some health =>
    rw [hhealth] at hdamageable
    simp only [entryOf, leaderboardEntry, hship, hhealth, htype, hlive, hdamageable]
    rfl

theorem leaderboardEntry_eq_none {e : Entity K} (h : ¬ e.LiveShip) :
    leaderboardEntry e = none := by
  unfold leaderboardEntry
  split
  · next ship health _ _ =>
    rw [if_neg]
    intro hcond
    rw [Bool.and_eq_true, Bool.and_eq_true, decide_eq_true_eq, Bool.not_eq_true'] at hcond
    exact h ⟨hcond.1.1, hcond.2⟩
  · rfl

theorem top_players_eq (h : world.Sound) :
    world.entities_.storage_.reduceOption.filterMap leaderboardEntry =
      world.liveShips.map entryOf := by
  have hlive : world.liveShips =
      world.entities_.storage_.reduceOption.filter fun e => decide e.LiveShip := by
    rw [liveShips, activeEntities, List.filter_filter]
    refine List.filter_congr fun e _ => ?_
    cases htype : e.type <;> simp [EntityPool.isActive, Entity.LiveShip, htype]
  have hentries : world.liveShips.map entryOf = world.liveShips.filterMap leaderboardEntry := by
    rw [← List.filterMap_eq_map']
    exact List.filterMap_congr fun e hmem => (leaderboardEntry_of_liveShip h hmem).symm
  rw [hentries, hlive, List.filterMap_filter]
  -- The leaderboard's own test refuses whatever is no live ship.
  refine List.filterMap_congr fun e _ => ?_
  split_ifs with hship
  · rfl
  · exact leaderboardEntry_eq_none (by simpa using hship)

theorem strictWeakOrder_higherScore : StrictWeakOrder higherScore := by
  have heq : higherScore = fun a b => decide (b.score.toNat < a.score.toNat) := by
    funext a b
    rw [higherScore, decide_eq_decide, UInt32.lt_iff_toNat_lt]
  rw [heq]
  exact strictWeakOrder_of_key fun entry : LeaderboardEntry => entry.score.toNat

variable {ext : Externals K}

/-- The leaderboard ranks the live ships. -/
theorem buildLeaderboard_eq (sorts : PartiallySorts ext.partial_sort) (h : world.Sound) :
    ∃ ranked, ranked.Perm world.liveShips ∧
      world.buildLeaderboard ext = (ranked.take (min World.kMaxLeaderboardSize
        world.liveShips.length)).map entryOf ∧
      PartiallySorted (fun a b => higherScore (entryOf a) (entryOf b))
        (min World.kMaxLeaderboardSize world.liveShips.length) world.liveShips ranked := by
  have hsorted := sorts higherScore strictWeakOrder_higherScore
    (min World.kMaxLeaderboardSize (world.liveShips.map entryOf).length)
    (world.liveShips.map entryOf) (Nat.min_le_right _ _)
  obtain ⟨ranked, hperm, heq, hranked⟩ := hsorted.of_map
  rw [List.length_map] at heq hranked
  refine ⟨ranked, hperm, ?_, hranked⟩
  unfold buildLeaderboard
  dsimp only
  rw [top_players_eq h, List.length_map, heq, List.map_take]

/-! ### Names -/

/-- The name of a ship fits the field of a leaderboard entry. -/
theorem cutEntry_shipName (ship : ShipComponent K) :
    GameSnapshot.cutEntry ⟨untilNul ship.name.val, ship.score⟩ =
      ⟨untilNul ship.name.val, ship.score⟩ :=
  GameSnapshot.cutEntry_untilNul ship.name.property.le ship.score

theorem entryOf_liveShip (h : world.Sound) {e : Entity K} (hmem : e ∈ world.liveShips) :
    ∃ ship, e.ship = some ship ∧ entryOf e = ⟨untilNul ship.name.val, ship.score⟩ := by
  obtain ⟨⟨i, hat⟩, htype, hlive⟩ := mem_liveShips.mp hmem
  obtain ⟨ship, hship⟩ := Option.isSome_iff_exists.mp (h.fit hat htype hlive).2.1
  have hentry := leaderboardEntry_of_liveShip h hmem
  refine ⟨ship, hship, ?_⟩
  unfold leaderboardEntry at hentry
  rw [hship] at hentry
  split at hentry
  · next s health heq _ =>
    obtain rfl := Option.some.inj heq
    split at hentry
    · exact (Option.some.inj hentry).symm
    · cases hentry
  · cases hentry

theorem entryOf_toEntitySnapshot (h : world.Sound) {e : Entity K} (hmem : e ∈ world.liveShips) :
    EntryOf (toEntitySnapshot e) (entryOf e) := by
  obtain ⟨ship, hship, heq⟩ := entryOf_liveShip h hmem
  exact ⟨_, by rw [toEntitySnapshot, hship]; rfl, heq⟩

/-! ### Delivery -/

/-- A ranking of the live ships lists the best of them. -/
theorem listsBest_of_ranked (h : world.Sound) {count : ℕ} {ranked : List (Entity K)}
    (hranked : PartiallySorted (fun a b => higherScore (entryOf a) (entryOf b)) count
      world.liveShips ranked) :
    ListsBest (world.liveShips.map toEntitySnapshot) ((ranked.take count).map entryOf) := by
  have hmem {e : Entity K} (he : e ∈ ranked) : e ∈ world.liveShips := hranked.perm.mem_iff.mp he
  have hscore {a b : LeaderboardEntry} (hnot : higherScore b a = false) : b.score ≤ a.score :=
    UInt32.not_lt.mp (of_decide_eq_false hnot)
  refine ⟨?_, (ranked.take count).map toEntitySnapshot,
    (ranked.drop count).map toEntitySnapshot, ?_, ?_, ?_⟩
  · rw [List.pairwise_map]
    exact hranked.sorted.imp hscore
  · rw [← List.map_append, List.take_append_drop]
    exact hranked.perm.map toEntitySnapshot
  · rw [List.forall₂_map_left_iff, List.forall₂_map_right_iff, List.forall₂_same]
    exact fun e he => entryOf_toEntitySnapshot h (hmem (List.mem_of_mem_take he))
  · intro snapshot hsnapshot
    obtain ⟨e, he, rfl⟩ := List.mem_map.mp hsnapshot
    obtain ⟨ship, hship, hentry⟩ :=
      entryOf_toEntitySnapshot h (hmem (List.mem_of_mem_drop he))
    refine ⟨ship, hship, fun entry hmem' => ?_⟩
    obtain ⟨a, ha, rfl⟩ := List.mem_map.mp hmem'
    have hle := hscore (hranked.least a ha e he)
    rwa [hentry] at hle

theorem length_buildLeaderboard (sorts : PartiallySorts ext.partial_sort) (h : world.Sound) :
    (world.buildLeaderboard ext).length =
      min World.kMaxLeaderboardSize world.liveShips.length := by
  obtain ⟨ranked, hperm, hleaderboard, -⟩ := buildLeaderboard_eq sorts h
  rw [hleaderboard, List.length_map, List.length_take, hperm.length_eq, Nat.min_assoc,
    Nat.min_self]

/-- Names were cut when the ships were spawned; the fields of the format cut no more. -/
theorem map_cutEntry_buildLeaderboard (sorts : PartiallySorts ext.partial_sort)
    (h : world.Sound) :
    (world.buildLeaderboard ext).map GameSnapshot.cutEntry = world.buildLeaderboard ext := by
  obtain ⟨ranked, hperm, hleaderboard, -⟩ := buildLeaderboard_eq sorts h
  rw [hleaderboard]
  refine (List.map_map ..).trans (List.map_congr_left fun e he => ?_)
  obtain ⟨ship, -, heq⟩ := entryOf_liveShip h (hperm.mem_iff.mp (List.mem_of_mem_take he))
  rw [Function.comp_apply, heq, cutEntry_shipName]

/-- The snapshot of a sound world is decoded as it was built. -/
theorem Deserialize_buildGameSnapshot (sorts : PartiallySorts ext.partial_sort)
    (h : world.Sound) {current_tick : UInt64} {bytes : Bytes}
    (serialized : (world.buildGameSnapshot ext current_tick).Serialize ext.wire = .ok bytes)
    (roundTrip : ∀ entity ∈ buildEntitySnapshots world.entities_,
      ext.wire.DeserializeEntity (ext.wire.SerializeEntity entity) = some entity) :
    GameSnapshot.Deserialize ext.wire bytes = .ok (world.buildGameSnapshot ext current_tick) := by
  have hlength : (world.buildLeaderboard ext).length ≤ World.kMaxLeaderboardSize := by
    rw [length_buildLeaderboard sorts h]
    exact Nat.min_le_left _ _
  have hdecoded := GameSnapshot.Deserialize_of_Serialize serialized hlength roundTrip
  have hcut := map_cutEntry_buildLeaderboard sorts h
  rw [hdecoded, buildGameSnapshot]
  dsimp only
  rw [hcut]

theorem delivers_buildGameSnapshot (sorts : PartiallySorts ext.partial_sort) (h : world.Sound)
    (current_tick : UInt64) :
    world.Delivers current_tick (world.buildGameSnapshot ext current_tick) := by
  obtain ⟨ranked, -, hleaderboard, hranked⟩ := buildLeaderboard_eq sorts h
  refine ⟨?_, ?_, ?_, ?_, ?_⟩
  · exact UInt64.toNat_toUInt32 current_tick
  · change List.Forall₂ Mirrors _ (buildEntitySnapshots world.entities_)
    rw [buildEntitySnapshots_eq, List.forall₂_map_right_iff, List.forall₂_same]
    exact fun e _ => mirrors_toEntitySnapshot e
  · change ((buildEntitySnapshots world.entities_).map _).Nodup
    rw [buildEntitySnapshots_eq, List.map_map]
    exact nodup_ids h.pool
  · exact length_buildLeaderboard sorts h
  · change ListsBest ((buildEntitySnapshots world.entities_).filter _)
      (world.buildLeaderboard ext)
    rw [filter_ships, hleaderboard]
    exact listsBest_of_ranked h hranked

/-- The snapshot of a sound world reaches the client intact. -/
theorem delivers_of_sound (sorts : PartiallySorts ext.partial_sort) (h : world.Sound)
    (current_tick : UInt64) {bytes : Bytes}
    (serialized : (world.buildGameSnapshot ext current_tick).Serialize ext.wire = .ok bytes)
    (roundTrip : ∀ entity ∈ buildEntitySnapshots world.entities_,
      ext.wire.DeserializeEntity (ext.wire.SerializeEntity entity) = some entity) :
    ∃ snapshot, GameSnapshot.Deserialize ext.wire bytes = .ok snapshot ∧
      world.Delivers current_tick snapshot :=
  ⟨_, Deserialize_buildGameSnapshot sorts h serialized roundTrip,
    delivers_buildGameSnapshot sorts h current_tick⟩

variable [Scalar K]

variable (ext) in
/-- A world between two operations of a run, or one that a tick takes its snapshot of. -/
def Observed (world_width world_height : K) (tick_interval : ℕ) (world : World K) : Prop :=
  (machine ext world_width world_height tick_interval).Reachable world ∨
    ∃ before choice, (machine ext world_width world_height tick_interval).Reachable before ∧
      simulateTick choice tick_interval before = .ok ⟨⟩ world

/-- The snapshot of every reachable world reaches the client intact, provided that
entities survive their own encoding. -/
theorem delivers_of_observed (sorts : PartiallySorts ext.partial_sort)
    {world_width world_height : K} {tick_interval : ℕ}
    (observed : Observed ext world_width world_height tick_interval world)
    (current_tick : UInt64) {bytes : Bytes}
    (serialized : (world.buildGameSnapshot ext current_tick).Serialize ext.wire = .ok bytes)
    (roundTrip : ∀ entity ∈ buildEntitySnapshots world.entities_,
      ext.wire.DeserializeEntity (ext.wire.SerializeEntity entity) = some entity) :
    ∃ snapshot, GameSnapshot.Deserialize ext.wire bytes = .ok snapshot ∧
      world.Delivers current_tick snapshot := by
  have hsound : world.Sound := by
    rcases observed with hreachable | ⟨before, choice, hreachable, hsimulate⟩
    · exact sound_of_reachable ext hreachable
    · exact (sound_of_reachable ext hreachable).simulateTick hsimulate
  exact delivers_of_sound sorts hsound current_tick serialized roundTrip

section Exact

attribute [local instance] RationalScalar.rational

/-- The world in which session 7 is about to join. -/
def joiningWorld : World ℚ :=
  onEvent (.PlayerJoinEvent 7 (bytesOf "Ace"))
    (empty World.kDefaultWidth World.kDefaultHeight)

/-- The world that the next tick takes its snapshot of. -/
def welcomingWorld : World ℚ :=
  Outcome.resultState (simulateTick exactChoice 16666 joiningWorld)

/-- Externals that know the entities of this world by their identifiers. -/
def welcomingExternals : Externals ℚ where
  wire :=
    { SerializeEntity := exactExternals.wire.SerializeEntity
      DeserializeEntity := fun bytes =>
        (buildEntitySnapshots welcomingWorld.entities_).find? fun entity =>
          exactExternals.wire.SerializeEntity entity = bytes }
  partial_sort := exactExternals.partial_sort

theorem delivers_welcomingWorld :
    ∃ bytes snapshot,
      (welcomingWorld.buildGameSnapshot welcomingExternals 5).Serialize welcomingExternals.wire =
        .ok bytes ∧
      GameSnapshot.Deserialize welcomingExternals.wire bytes = .ok snapshot ∧
      welcomingWorld.Delivers 5 snapshot := by
  have hobserved : Observed welcomingExternals World.kDefaultWidth World.kDefaultHeight 16666
      welcomingWorld := by
    refine Or.inr ⟨joiningWorld, exactChoice,
      ⟨[.event (.PlayerJoinEvent 7 (bytesOf "Ace"))], run_machine _ _ _ _ _⟩, ?_⟩
    have hfinishes : (match simulateTick exactChoice 16666 joiningWorld with
        | .ok _ _ => true
        | .error _ _ => false) = true := by decide +kernel
    unfold welcomingWorld
    cases hresult : simulateTick exactChoice 16666 joiningWorld with
    | ok _ world => rfl
    | error e world => rw [hresult] at hfinishes; cases hfinishes
  have hserializes : ((welcomingWorld.buildGameSnapshot welcomingExternals 5).Serialize
      welcomingExternals.wire).isOk = true := by decide +kernel
  cases hbytes : (welcomingWorld.buildGameSnapshot welcomingExternals 5).Serialize
      welcomingExternals.wire with
  | error e => rw [hbytes] at hserializes; cases hserializes
  | ok bytes =>
    obtain ⟨snapshot, hdecoded, hdelivers⟩ :=
      delivers_of_observed partiallySorts_insertionSort hobserved 5 hbytes (by decide +kernel)
    exact ⟨bytes, snapshot, rfl, hdecoded, hdelivers⟩

end Exact

end SpaceShooter.Server.World
