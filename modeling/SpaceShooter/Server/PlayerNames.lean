/-
# Names of players

A name is checked by the client, sent behind the keyword of a join, cut off the payload by
the router, copied into the field of a ship, read back up to its first zero, once for the
ship and once for the leaderboard, and sent in fields of two formats. The field of a ship
cuts it to 31 bytes; no other stage changes it.
-/

import SpaceShooter.Server.CommandDelivery
import SpaceShooter.Server.PoolRuns
import SpaceShooter.Server.SnapshotDelivery

namespace SpaceShooter.Server.World

open Scalar Domain Library Library.Outcome Snapshot Protocol

variable {K : Type}

/-- The bytes of a player's name that everybody sees: the first 31, or all of them. -/
def shownName (player_name : Bytes) : Bytes := player_name.take (min 31 player_name.length)

/-- The ships of a snapshot that its leaderboard lists, in its order: at most ten, and none of
those left out has a higher score than an entry. -/
structure Tops (snapshot : GameSnapshot K) (top : List (EntitySnapshot K)) : Prop where
  entries : List.Forall₂ EntryOf top snapshot.leaderboard_
  length : top.length = min World.kMaxLeaderboardSize
    (snapshot.snapshots_.filter fun entity => entity.type = .Ship).length
  best : ∃ omitted, (top ++ omitted).Perm
      (snapshot.snapshots_.filter fun entity => entity.type = .Ship) ∧
    ∀ other ∈ omitted, ∃ ship, other.ship = some ship ∧
      ∀ entry ∈ snapshot.leaderboard_, ship.score ≤ entry.score

/-- A snapshot shows a ship under a name: in its record, and at its place of the leaderboard if
it is listed. -/
structure Shows (snapshot : GameSnapshot K) (id : EntityId) (name : Bytes) : Prop where
  record : ∃ entity ∈ snapshot.snapshots_, entity.id = id ∧ entity.type = .Ship ∧
    ∃ ship, entity.ship = some ship ∧ ship.name = name
  ranked : ∃ top, Tops snapshot top
  listed : ∀ {top : List (EntitySnapshot K)} {place : ℕ} {entity : EntitySnapshot K},
    Tops snapshot top → top[place]? = some entity → entity.id = id →
      ∃ entry, snapshot.leaderboard_[place]? = some entry ∧ entry.name = name

/-! ### The name field of a ship -/

theorem ne_zero_of_valid (name : PlayerName) : ∀ byte ∈ name.text, byte ≠ 0 := by
  intro byte hmem
  have hvalid := name.valid
  rw [validatePlayerName, Bool.and_eq_true, List.all_eq_true] at hvalid
  rintro rfl
  exact nomatch hvalid.2 0 hmem

/-- Reading a name back stops at the padding, not before. -/
theorem untilNul_shipName {player_name : Bytes} (noNul : ∀ byte ∈ player_name, byte ≠ 0) :
    untilNul (shipName player_name).val = shownName player_name := by
  have hfront : ∀ byte ∈ player_name.take (kShipNameSize - 1), decide (byte ≠ 0) = true := by
    intro byte hmem
    exact decide_eq_true (noNul byte (List.mem_of_mem_take hmem))
  have hshown : shownName player_name = player_name.take (kShipNameSize - 1) := by
    rw [shownName, ← List.take_take, List.take_length]
    rfl
  rw [shipName, untilNul, List.takeWhile_append_of_pos hfront, hshown]
  simp

/-! ### The join that is drained -/

variable [Scalar K] {world : World K}

theorem mem_foldl_applyAction {join : PendingJoin} (actions : List (ActionEvent K))
    (world : World K) {new_players : List PendingJoin} (hmem : join ∈ new_players) :
    join ∈ (actions.foldl applyAction (world, new_players)).2 := by
  induction actions generalizing world new_players with
  | nil => exact hmem
  | cons action actions ih =>
    have hkept : join ∈ (applyAction (world, new_players) action).2 := by
      rw [new_players_applyAction, applyJoin]
      split_ifs
      · exact hmem
      · exact List.mem_append_left _ hmem
      · exact hmem
    exact ih _ hkept

/-- Of several joins of a session in one drain the first one counts. -/
theorem mem_new_players_of_first {front back : List (ActionEvent K)} {action : ActionEvent K}
    (hqueue : world.action_queue_ = front ++ action :: back) (htype : action.type = .PlayerJoin)
    (hfirst : ¬ ∃ other ∈ front, other.type = .PlayerJoin ∧
      other.session_id = action.session_id) :
    ⟨action.session_id, action.player_name⟩ ∈ (world.processInputQueue []).2 := by
  have hnone : ¬ ∃ join ∈ (front.foldl applyAction ({ world with action_queue_ := [] }, [])).2,
      join.session_id = action.session_id := by
    have hiff := exists_new_player_iff { world with action_queue_ := front } action.session_id
    exact fun h => hfirst (hiff.mp h)
  unfold processInputQueue
  rw [hqueue, List.foldl_append, List.foldl_cons]
  generalize front.foldl applyAction ({ world with action_queue_ := [] }, []) = drained at hnone ⊢
  obtain ⟨mid, joins⟩ := drained
  have hadded : ⟨action.session_id, action.player_name⟩ ∈
      (applyAction (mid, joins) action).2 := by
    rw [new_players_applyAction, if_pos htype, applyJoin, if_neg]
    · exact List.mem_append_right _ List.mem_cons_self
    · simpa using hnone
  exact mem_foldl_applyAction back _ hadded

/-! ### The snapshot of the tick -/

omit [Scalar K] in
/-- What was flagged is in no snapshot, so recycling changes none. -/
theorem buildEntitySnapshots_recycleDestroyed {pool : EntityPool K} (wf : pool.WellFormed) :
    buildEntitySnapshots pool.recycleDestroyed = buildEntitySnapshots pool := by
  unfold buildEntitySnapshots
  rw [EntityPool.storage_recycleDestroyed wf, List.filterMap_map]
  apply List.filterMap_congr
  rintro (_ | e) -
  · rfl
  · have hkept : EntityPool.kept (some e) = if e.isDestroyed then none else some e := by
      rw [EntityPool.kept, Option.filter_some]
      cases e.isDestroyed <;> rfl
    rw [Function.comp_apply, hkept]
    cases hdestroyed : e.isDestroyed with
    | false => rfl
    | true =>
      have hinactive : EntityPool.isActive (some e) = false := by
        simp [EntityPool.isActive, hdestroyed]
      rw [hinactive]
      rfl

omit [Scalar K] in
theorem Delivers.exists_tops {current_tick : UInt64} {snapshot : GameSnapshot K}
    (h : world.Delivers current_tick snapshot)
    (ships : (snapshot.snapshots_.filter fun entity => entity.type = .Ship).length =
      world.liveShips.length) : ∃ top, Tops snapshot top := by
  obtain ⟨-, included, omitted, hperm, hentries, hbest⟩ := h.best
  refine ⟨included, hentries, ?_, omitted, hperm, hbest⟩
  rw [hentries.length_eq, h.count, ships]

omit [Scalar K] in
/-- The snapshot of a sound world shows a ship under what its field holds. -/
theorem shows_of_at? {ext : Externals K} (sorts : PartiallySorts ext.partial_sort)
    (h : world.Sound) {i : ℕ} {e : Entity K} {ship : ShipComponent K} {name : Bytes}
    (hat : world.entities_.at? i = some e) (hlive : e.LiveShip) (hship : e.ship = some ship)
    (hname : untilNul ship.name.val = name) (current_tick : UInt64) :
    Shows (world.buildGameSnapshot ext current_tick) e.id name := by
  have hdelivers := delivers_buildGameSnapshot sorts h current_tick
  have hmem : toEntitySnapshot e ∈ (world.buildGameSnapshot ext current_tick).snapshots_ := by
    change _ ∈ buildEntitySnapshots world.entities_
    rw [buildEntitySnapshots_eq]
    exact List.mem_map_of_mem (mem_activeEntities.mpr ⟨⟨i, hat⟩, hlive.1 ▸ nofun, hlive.2⟩)
  have hrecord : ∃ s, (toEntitySnapshot e).ship = some s ∧ s.name = name := by
    rw [toEntitySnapshot, hship]
    exact ⟨_, rfl, hname⟩
  have hships : ((world.buildGameSnapshot ext current_tick).snapshots_.filter fun entity =>
      entity.type = .Ship).length = world.liveShips.length := by
    change ((buildEntitySnapshots world.entities_).filter _).length = _
    rw [filter_ships, List.length_map]
  refine ⟨⟨_, hmem, rfl, hlive.1, hrecord⟩, hdelivers.exists_tops hships, ?_⟩
  intro top place entity htop hplace hid
  obtain ⟨omitted, hperm, -⟩ := htop.best
  have hlisted : entity ∈ (world.buildGameSnapshot ext current_tick).snapshots_ := by
    refine List.mem_of_mem_filter (hperm.mem_iff.mp (List.mem_append_left _ ?_))
    exact List.mem_of_getElem? hplace
  -- Identifiers are unique, so the listed ship is the recorded one.
  obtain rfl : entity = toEntitySnapshot e :=
    List.inj_on_of_nodup_map hdelivers.ids hlisted hmem hid
  obtain ⟨s, hs, hsname⟩ := hrecord
  obtain ⟨hlt, heq⟩ := List.getElem?_eq_some_iff.mp hplace
  have hlt' := htop.entries.length_eq ▸ hlt
  obtain ⟨s', hs', hentry⟩ := htop.entries.get hlt hlt'
  refine ⟨_, List.getElem?_eq_getElem hlt', ?_⟩
  -- Its entry was made from the same field.
  obtain rfl : s = s' := by
    rw [List.get_eq_getElem, heq, hs] at hs'
    exact Option.some.inj hs'
  rw [← hsname]
  exact congrArg LeaderboardEntry.name hentry

/-- A tick that completes has broadcast the world it ends in, new ships included. -/
theorem runTickStages_eq_ok {ext : Externals K} {choice : TickChoice K} {tick_interval : ℕ}
    {current_tick : UInt64} {world' : World K} (hsound : world.Sound)
    (h : runTickStages ext choice tick_interval current_tick world = .ok ⟨⟩ world') :
    ∃ (mid : World K) (payload : Bytes), mid.Sound ∧ Fades { world with action_queue_ := [] } mid ∧
      ((mid.spawnShips (world.processInputQueue []).2).buildGameSnapshot ext
        current_tick).Serialize ext.wire = .ok payload ∧
      world' = { mid.spawnShips (world.processInputQueue []).2 with
        published := (mid.spawnShips (world.processInputQueue []).2).published ++
          [.SendPacketEvent NetworkResponseRouter.kBroadcastSessionId payload]
        entities_ := (mid.spawnShips
          (world.processInputQueue []).2).entities_.recycleDestroyed } := by
  have hdrained := quiet_processInputQueue world [] (hsound.congr rfl rfl rfl)
  have hphysics := (evolved_updatePhysics (world.processInputQueue []).1
    (secondsOfMicros tick_interval)).quiet
  have hcollided := hphysics.trans (keeps_resolveCollisions choice _) hdrained.1
  rw [runTickStages_eq, simulateTick_eq] at h
  cases hresult : resolveCollisions choice
      ((world.processInputQueue []).1.updatePhysics (secondsOfMicros tick_interval)) with
  | error e mid => rw [hresult] at h; cases h
  | ok _ mid =>
    rw [hresult] at h hcollided
    obtain ⟨hasteroids, hadded⟩ := quiet_maintainAsteroidPopulation mid choice hcollided.1
    obtain ⟨payload, hserialize, rfl⟩ := broadcastSnapshot_eq_ok h
    exact ⟨mid.maintainAsteroidPopulation choice, payload, hasteroids,
      hdrained.2.trans (hcollided.2.trans hadded), hserialize, rfl⟩

/-- The join that a session sends first after a drain is the first of its session in the
queue. -/
theorem exists_join_queued {ext : Externals K} {world_width world_height : K}
    {tick_interval : ℕ} {start joined : World K} {handlerSet : Bool} {s : SessionId}
    {name : PlayerName} {waiting : List (Op K)}
    (hnone : ¬ start.Queued .PlayerJoin s)
    (hrun : (machine ext world_width world_height tick_interval).runFrom start
      ((Input.payload s (ClientCommand.join name).encode).ops handlerSet ++ waiting) =
        some joined)
    (hwaiting : ∀ op ∈ waiting, op.drains = false) :
    ⟨s, name.text⟩ ∈ (joined.processInputQueue []).2 := by
  obtain ⟨delivered, hdelivered, hwait⟩ := Machine.runFrom_append.mp hrun
  obtain ⟨actions, hqueue⟩ := queue_of_runFrom ext hwaiting hwait
  have hops : (Input.payload s (ClientCommand.join name).encode).ops handlerSet =
      [.event (.PlayerJoinEvent s name.text),
        .event (.SendPacketEvent s (bytesOf "ACCEPT") : NetworkEvent K)] := by
    rw [Input.ops, ClientCommand.encode, NetworkResponseRouter.onMessageReceived_join]
    rfl
  rw [hops] at hdelivered
  obtain rfl := Option.some.inj hdelivered
  exact mem_new_players_of_first (hqueue.trans (List.append_assoc _ _ _)) rfl hnone

/-- A player's name survives the way from the client to the other clients: once the client's
join is delivered for a session without another join pending, the tick that drains it spawns a
ship, and what the tick broadcasts decodes to a snapshot that shows the ship under the first 31
bytes of the name. -/
theorem name_of_join {ext : Externals K} (sorts : PartiallySorts ext.partial_sort)
    {world_width world_height : K} {tick_interval : ℕ} {start joined ticked : World K}
    {handlerSet : Bool} {s : SessionId} {name : PlayerName} {waiting : List (Op K)}
    {choice : TickChoice K} {current_tick : UInt64}
    (hreachable : (machine ext world_width world_height tick_interval).Reachable start)
    (hnone : ¬ start.Queued .PlayerJoin s)
    (hrun : (machine ext world_width world_height tick_interval).runFrom start
      ((Input.payload s (ClientCommand.join name).encode).ops handlerSet ++ waiting) =
        some joined)
    (hwaiting : ∀ op ∈ waiting, op.drains = false)
    (hticked : runTickStages ext choice tick_interval current_tick joined = .ok ⟨⟩ ticked)
    (roundTrip : ∀ entity ∈ buildEntitySnapshots ticked.entities_,
      ext.wire.DeserializeEntity (ext.wire.SerializeEntity entity) = some entity) :
    ∃ ship_id bytes snapshot, NewShip joined ticked s ship_id ∧
      ticked.session_to_ship_.lookup s = some ship_id ∧
      ticked.published.getLast? =
        some (.SendPacketEvent NetworkResponseRouter.kBroadcastSessionId bytes) ∧
      GameSnapshot.Deserialize ext.wire bytes = .ok snapshot ∧
      Shows snapshot ship_id (shownName name.text) := by
  have hsound : joined.Sound := by
    obtain ⟨before, hbefore⟩ := hreachable
    exact sound_of_reachable ext ⟨before ++ _, Machine.runFrom_append.mpr ⟨start, hbefore, hrun⟩⟩
  have hjoin := exists_join_queued hnone hrun hwaiting
  obtain ⟨mid, bytes, hmid, hfades, hserialize, rfl⟩ := runTickStages_eq_ok hsound hticked
  -- The join is among those the tick has drained, and gets its ship there.
  have hspawned := hmid.spawnShips (joined.processInputQueue []).2
  obtain ⟨ship_id, i, area, hle, hnew, hmapped, hat⟩ :=
    exists_outfitted_of_mem hmid (nodup_new_players joined) hjoin
  dsimp only at roundTrip
  rw [buildEntitySnapshots_recycleDestroyed hspawned.pool] at roundTrip
  refine ⟨ship_id, bytes, _, ⟨hnew, fun hold => ?_⟩, hmapped, List.getLast?_concat,
    Deserialize_buildGameSnapshot sorts hspawned hserialize roundTrip, ?_⟩
  · -- Its identifier exceeds those of all ships the tick found.
    exact absurd (hfades.next_le.trans hle) (Nat.not_le_of_lt (hsound.spawned_lt hold))
  · exact shows_of_at? sorts hspawned hat (liveShip_outfitShip _ _ _) rfl
      (untilNul_shipName (ne_zero_of_valid name)) current_tick

section Exact

attribute [local instance] RationalScalar.rational

/-- A name that is longer than a ship's field. -/
def longName : PlayerName := ⟨List.replicate 40 0x41, by decide⟩

/-- Session 7 joins under it, and session 8 shoots before the next tick. -/
def longJoin : List (Op ℚ) :=
  (Input.payload 7 (ClientCommand.join longName).encode).ops false ++
    [.event (.ShotMessageEvent 8)]

/-- Externals that know the entities of the tick by their identifiers. -/
def longJoinExternals : Externals ℚ where
  wire :=
    { SerializeEntity := exactExternals.wire.SerializeEntity
      DeserializeEntity := fun bytes =>
        (buildEntitySnapshots (Outcome.resultState
          (simulateTick exactChoice 16666 (exactWorld longJoin))).entities_).find? fun entity =>
            exactExternals.wire.SerializeEntity entity = bytes }
  partial_sort := exactExternals.partial_sort

theorem name_of_longJoin :
    ∃ ship_id bytes snapshot,
      NewShip (exactWorld longJoin)
        (step longJoinExternals 16666 (exactWorld longJoin) exactTick) 7 ship_id ∧
      (step longJoinExternals 16666 (exactWorld longJoin) exactTick).session_to_ship_.lookup 7 =
        some ship_id ∧
      (step longJoinExternals 16666 (exactWorld longJoin) exactTick).published.getLast? =
        some (.SendPacketEvent NetworkResponseRouter.kBroadcastSessionId bytes) ∧
      GameSnapshot.Deserialize longJoinExternals.wire bytes = .ok snapshot ∧
      Shows snapshot ship_id (List.replicate 31 0x41) := by
  have hcompletes : Completes longJoinExternals 16666 (exactWorld longJoin) exactTick := by
    decide +kernel
  obtain ⟨ticked, hticked⟩ := hcompletes
  have hstep : step longJoinExternals 16666 (exactWorld longJoin) exactTick = ticked := by
    change resultState (runTickStages longJoinExternals exactChoice 16666 0 _) = _
    rw [hticked]
    rfl
  have hrun : (machine longJoinExternals World.kDefaultWidth World.kDefaultHeight 16666).runFrom
      (empty World.kDefaultWidth World.kDefaultHeight) longJoin = some (exactWorld longJoin) :=
    rfl
  rw [hstep]
  exact name_of_join partiallySorts_insertionSort ⟨[], rfl⟩ (by decide) hrun (by decide) hticked
    (hstep ▸ by decide +kernel)

end Exact

end SpaceShooter.Server.World
