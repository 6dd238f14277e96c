/-
# Sessions and their ships

The mapping of the world, seen as a roster of live ships: each stage of a tick acts on
it as the roster's own operations do. A completed tick therefore keeps the mapping a
bijection between sessions and live ships, unless it spawns a ship for a session that
still has one.
-/

import SpaceShooter.Library.Roster
import SpaceShooter.Server.WorldInvariant

namespace SpaceShooter.Server.World

open Scalar Domain Library Library.Outcome

variable {K : Type}

/-- The live ships and the ship of each session. -/
def roster (world : World K) : Roster SessionId EntityId :=
  ⟨{id | world.entities_.HasLiveShip id}, fun s => world.session_to_ship_.lookup s⟩

/-- The mapping is a bijection between its sessions and the live ships. -/
def Corresponds (world : World K) : Prop := world.roster.Corresponds

theorem corresponds_iff_bijOn (world : World K) :
    world.Corresponds ↔
      Set.BijOn (fun s => world.session_to_ship_.lookup s)
        {s | (world.session_to_ship_.lookup s).isSome}
        (Set.image some {id | world.entities_.HasLiveShip id}) :=
  Roster.corresponds_iff_bijOn

/-- An action of a session is queued. -/
def Queued (world : World K) (type : ActionType) (s : SessionId) : Prop :=
  ∃ action ∈ world.action_queue_, action.type = type ∧ action.session_id = s

instance (world : World K) (type : ActionType) (s : SessionId) :
    Decidable (world.Queued type s) :=
  inferInstanceAs (Decidable (∃ action ∈ world.action_queue_, _))

variable {world world' : World K}

theorem roster_congr (ships : ∀ id, world'.entities_.HasLiveShip id ↔
      world.entities_.HasLiveShip id)
    (mapping : ∀ s, world'.session_to_ship_.lookup s = world.session_to_ship_.lookup s) :
    world'.roster = world.roster :=
  Roster.ext (Set.ext ships) (funext mapping)

/-- The next identifier is no live ship's. -/
theorem Sound.next_not_live (h : world.Sound) : world.entities_.next_id_ ∉ world.roster.live := by
  rintro ⟨i, e, hat, hid, -⟩
  exact absurd hid (h.pool.id_lt hat).ne

/-! ### Quits -/

/-- Flagging the ship of an identifier takes exactly this ship's life. -/
theorem hasLiveShip_destroy {pool : EntityPool K} (wf : pool.WellFormed) {j : ℕ} {e : Entity K}
    (hat : pool.at? j = some e) {id : EntityId} :
    (pool.modify j fun ship => { ship with isDestroyed := true }).HasLiveShip id ↔
      pool.HasLiveShip id ∧ id ≠ e.id := by
  constructor
  · rintro ⟨k, e', hk, hid, hlive⟩
    rw [EntityPool.at?_modify] at hk
    split_ifs at hk with hj
    · obtain ⟨e'', -, rfl⟩ := Option.map_eq_some_iff.mp hk
      exact nomatch hlive.2
    · refine ⟨⟨k, e', hk, hid, hlive⟩, ?_⟩
      rintro rfl
      exact hj (wf.slot_eq hat hk hid.symm)
  · rintro ⟨⟨k, e', hk, hid, hlive⟩, hne⟩
    refine ⟨k, e', ?_, hid, hlive⟩
    rw [EntityPool.at?_modify, if_neg]
    · exact hk
    · rintro rfl
      rw [hat, Option.some.injEq] at hk
      exact hne (hid.symm.trans (congrArg Entity.id hk.symm))

theorem roster_applyQuit (h : world.Sound) (s : SessionId) :
    (world.applyQuit s).roster = world.roster.quit s := by
  unfold applyQuit
  split
  · next hnone =>
    refine Roster.ext (Set.ext fun id => ?_) (funext fun s' => Option.ext fun id => ?_)
    · exact (and_iff_left fun heq => nomatch hnone.symm.trans heq).symm
    · rw [Roster.item_quit]
      refine (and_iff_right_of_imp fun hs' => ?_).symm
      rintro rfl
      exact nomatch hnone.symm.trans hs'
  · next ship_id hmapped =>
    refine Roster.ext (Set.ext fun id => ?_) (funext fun s' => Option.ext fun id =>
      lookup_erase_eq_some.trans (Roster.item_quit (r := world.roster)).symm)
    have hmem : id ∈ (world.roster.quit s).live ↔
        world.entities_.HasLiveShip id ∧ ship_id ≠ id := by
      refine and_congr_right fun _ => not_congr ?_
      change world.session_to_ship_.lookup s = some id ↔ _
      rw [hmapped, Option.some.injEq]
    rw [hmem]
    change EntityPool.HasLiveShip _ id ↔ _
    split
    · next j e hfind =>
      obtain ⟨hat, hid⟩ := h.pool.findByEntityID_eq_some.mp hfind
      exact (hasLiveShip_destroy h.pool hat).trans
        (and_congr_right fun _ => hid ▸ ne_comm)
    · next hfind =>
      -- A mapped identifier without an entity is not live.
      refine (and_iff_left_of_imp ?_).symm
      rintro ⟨j, e, hat, hid, -⟩ rfl
      rw [h.pool.findByEntityID_eq_some.mpr ⟨hat, hid⟩] at hfind
      cases hfind

/-! ### Losses -/

/-- A pass over the entities loses ships and leaves the mapping. -/
theorem roster_evolved (h : Evolved world world') :
    world'.roster = world.roster.lose {id | ¬ world'.entities_.HasLiveShip id} := by
  obtain ⟨pool, hpool, rfl⟩ := h
  refine Roster.ext (Set.ext fun id => ?_) rfl
  change pool.HasLiveShip id ↔ world.entities_.HasLiveShip id ∧ ¬¬ pool.HasLiveShip id
  rw [not_not]
  exact (and_iff_right_of_imp hpool.hasLiveShip).symm

/-- The ships of the mapping are in the pool, destroyed or not. -/
def Anchored (world : World K) : Prop :=
  ∀ s id, world.session_to_ship_.lookup s = some id →
    ∃ i e, world.entities_.at? i = some e ∧ e.id = id ∧ e.type = .Ship

/-- Sessions are mapped to live ships only. -/
def Resolves (world : World K) : Prop :=
  ∀ s id, world.session_to_ship_.lookup s = some id → world.entities_.HasLiveShip id

theorem Resolves.anchored (h : world.Resolves) (hevolved : Evolved world world') :
    world'.Anchored := by
  obtain ⟨pool, hpool, rfl⟩ := hevolved
  intro s id hs
  obtain ⟨i, e, hat, hid, hlive⟩ := h s id hs
  obtain ⟨e', hat', hcontinues⟩ := hpool.some_of_some hat
  exact ⟨i, e', hat', hcontinues.id.trans hid, hcontinues.type.trans hlive.1⟩

theorem Corresponds.anchored (h : world.Corresponds) (hevolved : Evolved world world') :
    world'.Anchored :=
  Resolves.anchored (fun _ _ hs => h.resolves hs) hevolved

theorem mem_destroyedIds {pool : EntityPool K} {id : EntityId} :
    id ∈ destroyedIds pool ↔ ∃ i e, pool.at? i = some e ∧ e.isDestroyed = true ∧ e.id = id := by
  simp only [destroyedIds, List.mem_map, List.mem_filter, List.reduceOption_mem_iff,
    EntityPool.mem_storage, and_assoc]
  constructor
  · rintro ⟨e, ⟨i, hat⟩, hdestroyed, hid⟩
    exact ⟨i, e, hat, hdestroyed, hid⟩
  · rintro ⟨i, e, hat, hdestroyed, hid⟩
    exact ⟨e, ⟨i, hat⟩, hdestroyed, hid⟩

/-- A flagged ship is not alive. -/
theorem not_live_of_mem_destroyedIds {pool : EntityPool K} (wf : pool.WellFormed)
    {id : EntityId} (h : id ∈ destroyedIds pool) : ¬ pool.HasLiveShip id := by
  rintro ⟨j, e', hat', hid', hlive⟩
  obtain ⟨k, e, hat, hdestroyed, hid⟩ := mem_destroyedIds.mp h
  obtain rfl := wf.slot_eq hat' hat (hid'.trans hid.symm)
  obtain rfl := Option.some.inj (hat.symm.trans hat')
  exact nomatch hdestroyed.symm.trans hlive.2

/-- Of the mapped ships, the live ones are those that are not flagged. -/
theorem Anchored.hasLiveShip_iff (h : world.Anchored) (wf : world.entities_.WellFormed)
    {s : SessionId} {id : EntityId} (hs : world.session_to_ship_.lookup s = some id) :
    world.entities_.HasLiveShip id ↔ id ∉ destroyedIds world.entities_ := by
  obtain ⟨i, e, hat, hid, hship⟩ := h s id hs
  constructor
  · exact fun hlive hflagged => not_live_of_mem_destroyedIds wf hflagged hlive
  · intro hnot
    refine ⟨i, e, hat, hid, hship, ?_⟩
    by_contra hdestroyed
    exact hnot (mem_destroyedIds.mpr ⟨i, e, hat, Bool.eq_true_of_not_eq_false hdestroyed, hid⟩)

/-! ### Striking off -/

variable {choice : TickChoice K}

theorem publish_eq_ok {event : NetworkEvent K}
    (h : publish choice event world = .ok ⟨⟩ world') :
    world' = { world with published := world.published ++ [event] } := by
  unfold publish at h
  cases hrefuses : choice.refuses event with
  | some e => rw [hrefuses] at h; cases h
  | none =>
    rw [hrefuses] at h
    cases h
    rfl

theorem reapSession_eq_ok {destroyed_ids : List EntityId} {session_id : SessionId}
    (h : reapSession choice destroyed_ids session_id world = .ok ⟨⟩ world') :
    world'.entities_ = world.entities_ ∧ ∀ s id,
      world'.session_to_ship_.lookup s = some id ↔
        world.session_to_ship_.lookup s = some id ∧
          (s = session_id → id ∉ destroyed_ids) := by
  unfold reapSession at h
  obtain ⟨_, _, hget, h⟩ := bind_eq_ok.mp h
  cases hget
  cases hmapped : world.session_to_ship_.lookup session_id with
  | none =>
    rw [hmapped] at h
    cases h
    -- A session without a ship has nothing to lose.
    refine ⟨rfl, fun s id => (and_iff_left_of_imp fun hs heq => ?_).symm⟩
    rw [heq, hmapped] at hs
    cases hs
  | some ship_id =>
    rw [hmapped] at h
    dsimp only at h
    split at h
    · -- The event was published and the entry dropped.
      next hdestroyed =>
      obtain ⟨_, _, hpublish, hmodify⟩ := bind_eq_ok.mp h
      obtain rfl := publish_eq_ok hpublish
      cases hmodify
      refine ⟨rfl, fun s id => lookup_erase_eq_some.trans ?_⟩
      constructor
      · exact fun hs => ⟨hs.2, fun heq => absurd heq hs.1⟩
      · rintro ⟨hs, hnot⟩
        refine ⟨?_, hs⟩
        rintro rfl
        rw [hmapped, Option.some.injEq] at hs
        exact hnot rfl (hs ▸ hdestroyed)
    · next hdestroyed =>
      cases h
      refine ⟨rfl, fun s id => (and_iff_left_of_imp fun hs heq => ?_).symm⟩
      rw [heq, hmapped, Option.some.injEq] at hs
      exact hs ▸ hdestroyed

theorem forM_reapSession_eq_ok {destroyed_ids : List EntityId} {sessions : List SessionId}
    (h : sessions.forM (reapSession choice destroyed_ids) world = .ok ⟨⟩ world') :
    world'.entities_ = world.entities_ ∧ ∀ s id,
      world'.session_to_ship_.lookup s = some id ↔
        world.session_to_ship_.lookup s = some id ∧ (s ∈ sessions → id ∉ destroyed_ids) := by
  -- Erasing one entry leaves the others as they were, so the order plays no part.
  induction sessions generalizing world with
  | nil =>
    cases h
    exact ⟨rfl, fun s id => (and_iff_left nofun).symm⟩
  | cons session_id sessions ih =>
    obtain ⟨_, mid, hfirst, hrest⟩ := bind_eq_ok.mp h
    obtain ⟨hentities, hmapping⟩ := reapSession_eq_ok hfirst
    obtain ⟨hentities', hmapping'⟩ := ih hrest
    refine ⟨hentities'.trans hentities, fun s id => ?_⟩
    rw [hmapping', hmapping, and_assoc, List.mem_cons, or_imp]

/-- A session whose ship is flagged. -/
def isBereft (world : World K) (destroyed_ids : List EntityId) (s : SessionId) : Bool :=
  (world.session_to_ship_.lookup s).any fun id => id ∈ destroyed_ids

/-- The sessions that a clean-up announces, in its order. -/
def bereft (choice : TickChoice K) (world : World K) : List SessionId :=
  (choice.order world.session_to_ship_.keys).filter
    (world.isBereft (destroyedIds world.entities_))

/-- A visited session is announced if its ship is flagged. -/
theorem published_reapSession {destroyed_ids : List EntityId} {s : SessionId}
    (h : reapSession choice destroyed_ids s world = .ok ⟨⟩ world') :
    world'.published = world.published ++
      if world.isBereft destroyed_ids s then [.ShipDestroyedEvent s] else [] := by
  unfold reapSession at h
  obtain ⟨_, _, hget, h⟩ := bind_eq_ok.mp h
  cases hget
  unfold isBereft
  cases hmapped : world.session_to_ship_.lookup s with
  | none =>
    rw [hmapped] at h
    cases h
    exact (List.append_nil _).symm
  | some ship_id =>
    rw [hmapped] at h
    dsimp only at h
    rw [Option.any_some]
    split at h
    · next hdestroyed =>
      obtain ⟨_, _, hpublish, hmodify⟩ := bind_eq_ok.mp h
      obtain rfl := publish_eq_ok hpublish
      cases hmodify
      rw [if_pos (decide_eq_true hdestroyed)]
    · next hdestroyed =>
      cases h
      rw [if_neg (by simpa using hdestroyed), List.append_nil]

/-- The loop announces the sessions it visits whose ships are flagged, in its order. -/
theorem published_forM_reapSession {destroyed_ids : List EntityId} {sessions : List SessionId}
    (nodup : sessions.Nodup)
    (h : sessions.forM (reapSession choice destroyed_ids) world = .ok ⟨⟩ world') :
    world'.published = world.published ++
      (sessions.filter (world.isBereft destroyed_ids)).map .ShipDestroyedEvent := by
  induction sessions generalizing world with
  | nil =>
    cases h
    exact (List.append_nil _).symm
  | cons s sessions ih =>
    obtain ⟨_, mid, hfirst, hrest⟩ := bind_eq_ok.mp h
    obtain ⟨hfresh, nodup⟩ := List.nodup_cons.mp nodup
    -- The other sessions are still mapped as they were.
    have hsame : ∀ other ∈ sessions,
        mid.isBereft destroyed_ids other = world.isBereft destroyed_ids other := by
      intro other hmem
      have hlookup : mid.session_to_ship_.lookup other = world.session_to_ship_.lookup other := by
        refine Option.ext fun id => ((reapSession_eq_ok hfirst).2 other id).trans ?_
        refine and_iff_left fun heq => ?_
        exact absurd (heq ▸ hmem) hfresh
      rw [isBereft, isBereft, hlookup]
    rw [ih nodup hrest, published_reapSession hfirst, List.filter_congr hsame, List.filter_cons,
      List.append_assoc]
    split <;> rfl

/-- What a finished clean-up did. -/
theorem reapDestroyedShips_eq_ok (h : reapDestroyedShips choice world = .ok ⟨⟩ world') :
    world'.entities_ = world.entities_.recycleDestroyed ∧
      world'.published = world.published ++ (world.bereft choice).map .ShipDestroyedEvent ∧
      ∀ s id, world'.session_to_ship_.lookup s = some id ↔
        world.session_to_ship_.lookup s = some id ∧ id ∉ destroyedIds world.entities_ := by
  unfold reapDestroyedShips at h
  obtain ⟨_, _, hget, h⟩ := bind_eq_ok.mp h
  cases hget
  obtain ⟨_, mid, hloop, hrecycle⟩ := bind_eq_ok.mp h
  obtain ⟨hentities, hmapping⟩ := forM_reapSession_eq_ok hloop
  have hnodup : (choice.order world.session_to_ship_.keys).Nodup :=
    (choice.order_perm _).nodup_iff.mpr world.session_to_ship_.nodupKeys
  have hpublished := published_forM_reapSession hnodup hloop
  cases hrecycle
  refine ⟨congrArg EntityPool.recycleDestroyed hentities, hpublished, fun s id => ?_⟩
  refine (hmapping s id).trans (and_congr_right fun hs => forall_prop_of_true ?_)
  rw [(choice.order_perm _).mem_iff]
  exact AList.mem_keys.mpr (AList.lookup_isSome.mp (hs ▸ rfl))

/-- A finished clean-up strikes off the sessions whose ships are destroyed. -/
theorem roster_reapDestroyedShips (h : world.Sound) (anchored : world.Anchored)
    (hreap : reapDestroyedShips choice world = .ok ⟨⟩ world') :
    world'.roster = world.roster.reap := by
  obtain ⟨hentities, -, hmapping⟩ := reapDestroyedShips_eq_ok hreap
  refine Roster.ext (Set.ext fun id => ?_) (funext fun s => Option.ext fun id => ?_)
  · change world'.entities_.HasLiveShip id ↔ _
    rw [hentities]
    exact EntityPool.hasLiveShip_recycleDestroyed h.pool
  · rw [Roster.item_reap]
    exact (hmapping s id).trans
      (and_congr_right fun hs => (anchored.hasLiveShip_iff h.pool hs).symm)

/-- A broadcast that returns has put the encoded snapshot on the bus. -/
theorem broadcastSnapshot_eq_ok {ext : Externals K} {snapshot : Snapshot.GameSnapshot K}
    (h : broadcastSnapshot ext choice snapshot world = .ok ⟨⟩ world') :
    ∃ payload, snapshot.Serialize ext.wire = .ok payload ∧
      world' = { world with
        published := world.published ++
          [.SendPacketEvent NetworkResponseRouter.kBroadcastSessionId payload]
        entities_ := world.entities_.recycleDestroyed } := by
  unfold broadcastSnapshot at h
  cases hserialize : snapshot.Serialize ext.wire with
  | error e => rw [hserialize] at h; cases h
  | ok payload =>
    rw [hserialize] at h
    obtain ⟨_, mid, hpublish, hrecycle⟩ := bind_eq_ok.mp h
    obtain rfl := publish_eq_ok hpublish
    cases hrecycle
    exact ⟨payload, rfl, rfl⟩

theorem roster_broadcastSnapshot {ext : Externals K} (h : world.Sound)
    {snapshot : Snapshot.GameSnapshot K}
    (hbroadcast : broadcastSnapshot ext choice snapshot world = .ok ⟨⟩ world') :
    world'.roster = world.roster := by
  obtain ⟨payload, -, rfl⟩ := broadcastSnapshot_eq_ok hbroadcast
  exact roster_congr (fun id => EntityPool.hasLiveShip_recycleDestroyed h.pool) fun _ => rfl

/-! ### Draining the queue -/

theorem exists_mem_applyJoin {new_players : List PendingJoin} {action : ActionEvent K}
    {s : SessionId} :
    (∃ join ∈ applyJoin new_players action, join.session_id = s) ↔
      action.session_id = s ∨ ∃ join ∈ new_players, join.session_id = s := by
  unfold applyJoin
  split_ifs with hany
  · -- The session joined before, in the same drain.
    refine (or_iff_right_of_imp ?_).symm
    rintro rfl
    simpa using hany
  · simp [or_and_right, exists_or, or_comm]

theorem nodup_applyJoin {new_players : List PendingJoin} {action : ActionEvent K}
    (h : (new_players.map PendingJoin.session_id).Nodup) :
    ((applyJoin new_players action).map PendingJoin.session_id).Nodup := by
  unfold applyJoin
  split_ifs with hany
  · exact h
  · rw [List.map_append, List.nodup_append]
    refine ⟨h, List.nodup_singleton _, ?_⟩
    rintro s hs t ht rfl
    obtain ⟨join, hjoin, rfl⟩ := List.mem_map.mp hs
    rw [List.map_cons, List.map_nil, List.mem_singleton] at ht
    exact hany (List.any_eq_true.mpr ⟨join, hjoin, decide_eq_true ht⟩)

/-- Turning an entity lets every ship live on. -/
theorem hasLiveShip_turn (pool : EntityPool K) (i : ℕ) (t : TransformComponent K) (id : EntityId) :
    (pool.modify i fun e => { e with transform := some t }).HasLiveShip id ↔
      pool.HasLiveShip id := by
  constructor
  · exact (EntityPool.evolves_turn pool i t).hasLiveShip
  · rintro ⟨j, e, hat, hid, hlive⟩
    by_cases hj : i = j
    · exact ⟨j, { e with transform := some t }, by rw [EntityPool.at?_modify, if_pos hj, hat]; rfl,
        hid, hlive⟩
    · exact ⟨j, e, by rw [EntityPool.at?_modify, if_neg hj, hat], hid, hlive⟩

variable [Scalar K]

theorem roster_applyMoveAndShoot (h : world.Sound) (action : ActionEvent K) :
    (world.applyMoveAndShoot action).roster = world.roster := by
  unfold applyMoveAndShoot
  split
  · rfl
  · split
    · rfl
    · next i ship _ =>
      split
      · rfl
      · next t _ =>
        have hturn := hasLiveShip_turn world.entities_ i { t with angle := action.angle }
        refine roster_congr (fun id => ?_) fun _ => rfl
        dsimp only
        split
        · have hwf := h.pool.turn i { t with angle := action.angle }
          refine ((extends_createBullet hwf _ _ _).hasLiveShip_iff ?_).trans (hturn id)
          intro e hbullet hship
          exact nomatch hbullet.symm.trans hship
        · exact hturn id

/-- A quit takes the ship of its session; no other action touches the roster. -/
theorem roster_applyAction (h : world.Sound) (new_players : List PendingJoin)
    (action : ActionEvent K) :
    (applyAction (world, new_players) action).1.roster =
      if action.type = .PlayerQuit then world.roster.quit action.session_id
      else world.roster := by
  unfold applyAction
  dsimp only
  cases action.type with
  | PlayerQuit => exact roster_applyQuit h action.session_id
  | MoveAndShoot => exact roster_applyMoveAndShoot h action
  | PlayerJoin => rfl
  | Respawn => rfl
  | Unknown => rfl

theorem Corresponds.foldl_applyAction (actions : List (ActionEvent K)) (h : world.Corresponds)
    (hsound : world.Sound) (new_players : List PendingJoin) :
    (actions.foldl applyAction (world, new_players)).1.Corresponds := by
  induction actions generalizing world new_players with
  | nil => exact h
  | cons action actions ih =>
    refine ih ?_ (quiet_applyAction world new_players action hsound).1 _
    unfold Corresponds
    rw [roster_applyAction hsound]
    split_ifs
    · exact Roster.Corresponds.quit h _
    · exact h

theorem Corresponds.processInputQueue (h : world.Corresponds) (hsound : world.Sound)
    (new_players : List PendingJoin) : (world.processInputQueue new_players).1.Corresponds := by
  have hempty : ({ world with action_queue_ := [] } : World K).Corresponds := h
  exact hempty.foldl_applyAction _ (hsound.congr rfl rfl rfl) new_players

/-- Draining actions keeps the ships of the sessions that do not quit. -/
theorem item_foldl_applyAction (actions : List (ActionEvent K)) (h : world.Sound)
    (new_players : List PendingJoin) {s : SessionId} {id : EntityId} :
    (actions.foldl applyAction (world, new_players)).1.roster.item s = some id ↔
      world.roster.item s = some id ∧
        ¬ ∃ action ∈ actions, action.type = .PlayerQuit ∧ action.session_id = s := by
  induction actions generalizing world new_players with
  | nil => simp
  | cons action actions ih =>
    rw [List.foldl_cons, ih (quiet_applyAction world new_players action h).1,
      roster_applyAction h, List.exists_mem_cons_iff, not_or]
    split_ifs with hquit
    · rw [Roster.item_quit, and_comm (a := s ≠ _), and_assoc]
      simp [hquit, eq_comm]
    · simp [hquit]

/-- Draining actions takes the ships of the sessions that quit. -/
theorem live_foldl_applyAction_iff (actions : List (ActionEvent K)) (h : world.Sound)
    (new_players : List PendingJoin) {id : EntityId} :
    id ∈ (actions.foldl applyAction (world, new_players)).1.roster.live ↔
      id ∈ world.roster.live ∧ ∀ s, world.roster.item s = some id →
        ¬ ∃ action ∈ actions, action.type = .PlayerQuit ∧ action.session_id = s := by
  induction actions generalizing world new_players with
  | nil => simp
  | cons action actions ih =>
    rw [List.foldl_cons, ih (quiet_applyAction world new_players action h).1,
      roster_applyAction h]
    simp only [List.exists_mem_cons_iff, not_or]
    split_ifs with hquit
    · constructor
      · rintro ⟨⟨hlive, hother⟩, hrest⟩
        refine ⟨hlive, fun s hs => ?_⟩
        have hne : s ≠ action.session_id := by
          rintro rfl
          exact hother hs
        exact ⟨fun hq => hne hq.2.symm, hrest s (Roster.item_quit.mpr ⟨hne, hs⟩)⟩
      · rintro ⟨hlive, hnone⟩
        refine ⟨⟨hlive, fun hs => (hnone _ hs).1 ⟨hquit, rfl⟩⟩, fun s hs => ?_⟩
        exact (hnone s (Roster.item_quit.mp hs).2).2
    · refine and_congr_right fun _ => forall₂_congr fun s _ => ?_
      exact (and_iff_right fun hq => hquit hq.1).symm

theorem live_processInputQueue_iff (h : world.Sound) {id : EntityId} :
    id ∈ (world.processInputQueue []).1.roster.live ↔
      id ∈ world.roster.live ∧ ∀ s, world.roster.item s = some id →
        ¬ world.Queued .PlayerQuit s := by
  have hempty : ({ world with action_queue_ := [] } : World K).Sound := h.congr rfl rfl rfl
  exact live_foldl_applyAction_iff world.action_queue_ hempty []

theorem item_processInputQueue (h : world.Sound) {s : SessionId} {id : EntityId} :
    (world.processInputQueue []).1.roster.item s = some id ↔
      world.roster.item s = some id ∧ ¬ world.Queued .PlayerQuit s := by
  have hempty : ({ world with action_queue_ := [] } : World K).Sound := h.congr rfl rfl rfl
  exact item_foldl_applyAction world.action_queue_ hempty []

/-- Only joins add new players. -/
theorem new_players_applyAction (world : World K) (new_players : List PendingJoin)
    (action : ActionEvent K) :
    (applyAction (world, new_players) action).2 =
      if action.type = .PlayerJoin then applyJoin new_players action else new_players := by
  unfold applyAction
  dsimp only
  cases action.type with
  | PlayerJoin => rfl
  | PlayerQuit => rfl
  | MoveAndShoot => rfl
  | Respawn => rfl
  | Unknown => rfl

/-- The new players of a drain are the sessions whose join is queued. -/
theorem exists_new_player_iff (world : World K) (s : SessionId) :
    (∃ join ∈ (world.processInputQueue []).2, join.session_id = s) ↔
      world.Queued .PlayerJoin s := by
  have hfold (actions : List (ActionEvent K)) (world : World K)
      (new_players : List PendingJoin) :
      (∃ join ∈ (actions.foldl applyAction (world, new_players)).2, join.session_id = s) ↔
        (∃ action ∈ actions, action.type = .PlayerJoin ∧ action.session_id = s) ∨
          ∃ join ∈ new_players, join.session_id = s := by
    induction actions generalizing world new_players with
    | nil => simp
    | cons action actions ih =>
      rw [List.foldl_cons, ih, new_players_applyAction, List.exists_mem_cons_iff]
      split_ifs with hjoin
      · rw [exists_mem_applyJoin, or_left_comm, ← or_assoc, and_iff_right hjoin]
      · simp [hjoin]
  refine (hfold world.action_queue_ _ []).trans (or_iff_left ?_)
  simp

/-- One drain collects a session once. -/
theorem nodup_new_players (world : World K) :
    ((world.processInputQueue []).2.map PendingJoin.session_id).Nodup := by
  have hfold (actions : List (ActionEvent K)) (world : World K) (new_players : List PendingJoin)
      (h : (new_players.map PendingJoin.session_id).Nodup) :
      ((actions.foldl applyAction (world, new_players)).2.map PendingJoin.session_id).Nodup := by
    induction actions generalizing world new_players with
    | nil => exact h
    | cons action actions ih =>
      have hstep : ((applyAction (world, new_players) action).2.map
          PendingJoin.session_id).Nodup := by
        rw [new_players_applyAction]
        split_ifs
        · exact nodup_applyJoin h
        · exact h
      exact ih _ _ hstep
  exact hfold _ _ [] List.nodup_nil

/-! ### Spawning -/

theorem roster_spawnShip (h : world.Sound) (join : PendingJoin) :
    (world.spawnShip join).roster =
      world.roster.spawn join.session_id world.entities_.next_id_ := by
  refine Roster.ext (Set.ext fun id => ?_) (funext fun s => ?_)
  · exact hasLiveShip_spawnShip h.pool join
  · change _ = Function.update (fun s => world.session_to_ship_.lookup s) _ _ s
    rw [Function.update_apply]
    exact lookup_spawnShip world join s

theorem next_le_spawnShips (h : world.Sound) (joins : List PendingJoin) :
    world.entities_.next_id_ ≤ (world.spawnShips joins).entities_.next_id_ := by
  induction joins generalizing world with
  | nil => exact le_rfl
  | cons join joins ih =>
    refine le_trans ?_ (ih (h.spawnShip join))
    rw [next_id_spawnShip h.pool]
    exact Nat.le_succ _

theorem spawned_subset_spawnShips (world : World K) (joins : List PendingJoin) :
    world.spawned ⊆ (world.spawnShips joins).spawned := by
  induction joins generalizing world with
  | nil => exact List.Subset.refl _
  | cons join joins ih =>
    exact List.Subset.trans (List.subset_cons_self _ _) (ih (world.spawnShip join))

/-- Sessions that do not join keep their ships. -/
theorem lookup_spawnShips_of_ne (world : World K) {s : SessionId} {joins : List PendingJoin}
    (hne : ∀ join ∈ joins, join.session_id ≠ s) :
    (world.spawnShips joins).session_to_ship_.lookup s = world.session_to_ship_.lookup s := by
  induction joins generalizing world with
  | nil => rfl
  | cons join joins ih =>
    obtain ⟨hfirst, hrest⟩ := List.forall_mem_cons.mp hne
    refine (ih (world.spawnShip join) hrest).trans ?_
    rw [lookup_spawnShip, if_neg hfirst.symm]

/-- Spawning adds entities and changes none. -/
theorem extends_spawnShips (h : world.Sound) (joins : List PendingJoin) :
    EntityPool.Extends Entity.Fit world.entities_ (world.spawnShips joins).entities_ := by
  induction joins generalizing world with
  | nil => exact .refl h.pool
  | cons join joins ih => exact (extends_spawnShip h.pool join).trans (ih (h.spawnShip join))

/-- A session that joins is mapped to a new ship, which is outfitted for it. -/
theorem exists_outfitted_of_mem (h : world.Sound) {joins : List PendingJoin}
    (nodup : (joins.map PendingJoin.session_id).Nodup) {join : PendingJoin} (hmem : join ∈ joins) :
    ∃ id i area, world.entities_.next_id_ ≤ id ∧
      (join.session_id, id) ∈ (world.spawnShips joins).spawned ∧
      (world.spawnShips joins).session_to_ship_.lookup join.session_id = some id ∧
      (world.spawnShips joins).entities_.at? i =
        some (outfitShip area join.player_name (Entity.fresh id)) := by
  induction joins generalizing world with
  | nil => cases hmem
  | cons first joins ih =>
    rw [List.map_cons, List.nodup_cons] at nodup
    rcases List.mem_cons.mp hmem with rfl | hmem
    · refine ⟨world.entities_.next_id_, world.entities_.acquire.1, world.freePosition, le_rfl,
        ?_, ?_, ?_⟩
      · exact spawned_subset_spawnShips (world.spawnShip join) joins List.mem_cons_self
      · have hne : ∀ other ∈ joins, other.session_id ≠ join.session_id := by
          intro other hother heq
          exact nodup.1 (heq ▸ List.mem_map_of_mem hother)
        refine (lookup_spawnShips_of_ne (world.spawnShip join) hne).trans ?_
        rw [lookup_spawnShip, if_pos rfl]
      · refine (extends_spawnShips (h.spawnShip join) joins).keeps ?_
        exact (EntityPool.at?_acquire_modify h.pool _ _).trans (if_pos rfl)
    · obtain ⟨id, i, area, hle, hspawned⟩ := ih (h.spawnShip first) nodup.2 hmem
      refine ⟨id, i, area, le_trans ?_ hle, hspawned⟩
      rw [next_id_spawnShip h.pool]
      exact Nat.le_succ _

theorem exists_spawned_of_mem (h : world.Sound) {joins : List PendingJoin}
    (nodup : (joins.map PendingJoin.session_id).Nodup) {join : PendingJoin} (hmem : join ∈ joins) :
    ∃ id, world.entities_.next_id_ ≤ id ∧
      (join.session_id, id) ∈ (world.spawnShips joins).spawned ∧
      (world.spawnShips joins).session_to_ship_.lookup join.session_id = some id := by
  obtain ⟨id, i, area, hle, hspawned, hmapped, -⟩ := exists_outfitted_of_mem h nodup hmem
  exact ⟨id, hle, hspawned, hmapped⟩

/-- The ships that were there before lived before. -/
theorem hasLiveShip_of_spawnShips (h : world.Sound) {id : EntityId} {joins : List PendingJoin}
    (hlt : id < world.entities_.next_id_)
    (hlive : (world.spawnShips joins).entities_.HasLiveShip id) :
    world.entities_.HasLiveShip id := by
  induction joins generalizing world with
  | nil => exact hlive
  | cons join joins ih =>
    have hlt' : id < (world.spawnShip join).entities_.next_id_ := by
      rw [next_id_spawnShip h.pool]
      exact hlt.trans (Nat.lt_succ_self _)
    refine ((hasLiveShip_spawnShip h.pool join).mp
      (ih (h.spawnShip join) hlt' hlive)).resolve_left hlt.ne

theorem hasLiveShip_spawnShips (h : world.Sound) {id : EntityId} (joins : List PendingJoin)
    (hlive : world.entities_.HasLiveShip id) :
    (world.spawnShips joins).entities_.HasLiveShip id := by
  induction joins generalizing world with
  | nil => exact hlive
  | cons join joins ih =>
    exact ih (h.spawnShip join) ((hasLiveShip_spawnShip h.pool join).mpr (.inr hlive))

/-- The ships that were not there before are alive. -/
theorem spawned_of_spawnShips (h : world.Sound) {s : SessionId} {id : EntityId}
    (joins : List PendingJoin) (hmem : (s, id) ∈ (world.spawnShips joins).spawned) :
    (s, id) ∈ world.spawned ∨ (world.spawnShips joins).entities_.HasLiveShip id := by
  induction joins generalizing world with
  | nil => exact .inl hmem
  | cons join joins ih =>
    rcases ih (h.spawnShip join) hmem with hspawned | hlive
    · rcases List.mem_cons.mp hspawned with heq | hold
      · obtain ⟨-, rfl⟩ := Prod.mk.inj heq
        exact .inr (hasLiveShip_spawnShips (h.spawnShip join) joins
          ((hasLiveShip_spawnShip h.pool join).mpr (.inl rfl)))
      · exact .inl hold
    · exact .inr hlive

theorem orphan_spawnShips (h : world.Sound) {id : EntityId} (horphan : world.roster.Orphan id)
    (joins : List PendingJoin) : (world.spawnShips joins).roster.Orphan id := by
  induction joins generalizing world with
  | nil => exact horphan
  | cons join joins ih =>
    refine ih (h.spawnShip join) ?_
    rw [roster_spawnShip h]
    refine horphan.spawn join.session_id ?_
    rintro rfl
    exact h.next_not_live horphan.1

/-- Spawning the ships of distinct sessions keeps the correspondence exactly if none of
them has a ship. -/
theorem corresponds_spawnShips_iff (h : world.Sound) (hcorresponds : world.Corresponds)
    {joins : List PendingJoin} (nodup : (joins.map PendingJoin.session_id).Nodup) :
    (world.spawnShips joins).Corresponds ↔
      ∀ join ∈ joins, world.session_to_ship_.lookup join.session_id = none := by
  induction joins generalizing world with
  | nil => exact iff_of_true hcorresponds nofun
  | cons join joins ih =>
    rw [List.map_cons, List.nodup_cons] at nodup
    rw [List.forall_mem_cons]
    cases hs : world.session_to_ship_.lookup join.session_id with
    | none =>
      have hspawn : (world.spawnShip join).Corresponds := by
        unfold Corresponds
        rw [roster_spawnShip h]
        exact hcorresponds.spawn h.next_not_live hs
      refine (ih (h.spawnShip join) hspawn nodup.2).trans ?_
      rw [and_iff_right rfl]
      refine forall₂_congr fun other hmem => ?_
      rw [lookup_spawnShip, if_neg]
      exact fun heq => nodup.1 (heq ▸ List.mem_map_of_mem hmem)
    | some id =>
      -- The session's ship is left without an owner, and stays so.
      have horphan : (world.spawnShip join).roster.Orphan id := by
        rw [roster_spawnShip h]
        exact hcorresponds.orphan_spawn h.next_not_live hs
      exact iff_of_false (orphan_spawnShips (h.spawnShip join) horphan joins).not_corresponds
        fun hall => nomatch hall.1

/-! ### Ticks -/

variable (ext : Externals K) {tick_interval : ℕ}

/-- The collisions of the coming tick take the life of a ship. -/
def Crashes (world : World K) (choice : TickChoice K) (tick_interval : ℕ) (id : EntityId) :
    Prop :=
  ∀ world', resolveCollisions choice ((world.processInputQueue []).1.updatePhysics
      (secondsOfMicros tick_interval)) = .ok ⟨⟩ world' → ¬ world'.entities_.HasLiveShip id

instance (world : World K) (choice : TickChoice K) (tick_interval : ℕ) (id : EntityId) :
    Decidable (world.Crashes choice tick_interval id) :=
  match h : World.resolveCollisions choice ((world.processInputQueue []).1.updatePhysics
      (secondsOfMicros tick_interval)) with
  | .ok _ world' =>
    decidable_of_iff (¬ world'.entities_.HasLiveShip id)
      ⟨fun hlost _ heq => by cases h.symm.trans heq; exact hlost, fun hlost => hlost world' h⟩
  | .error _ _ => isTrue fun _ heq => nomatch h.symm.trans heq

/-- A session whose join is queued has no ship, or its quit is queued too, or its ship
crashes in this tick. -/
def SpawnsFresh (tick_interval : ℕ) (world : World K) : Op K → Prop
  | .tick choice _ =>
    ∀ join ∈ world.action_queue_, join.type = .PlayerJoin →
      ∀ id ∈ world.session_to_ship_.lookup join.session_id,
        world.Queued .PlayerQuit join.session_id ∨ world.Crashes choice tick_interval id
  | _ => True

instance (tick_interval : ℕ) (world : World K) (op : Op K) :
    Decidable (SpawnsFresh tick_interval world op) :=
  match op with
  | .event _ => isTrue trivial
  | .tick _ _ => inferInstanceAs (Decidable (∀ join ∈ world.action_queue_, _))
  | .discardActions => isTrue trivial

/-- Finished collisions lose ships and strike their sessions off. -/
theorem roster_resolveCollisions (h : world.Corresponds) (hsound : world.Sound) (dt : K)
    (hcollisions : resolveCollisions choice (world.updatePhysics dt) = .ok ⟨⟩ world') :
    world'.Sound ∧ ∃ lost, world'.roster = (world.roster.lose lost).reap := by
  obtain ⟨_, mid, hpairs, hreap⟩ := bind_eq_ok.mp hcollisions
  have hevolved : Evolved world mid := by
    have hloop := evolved_collidePairs (world.updatePhysics dt)
    rw [hpairs] at hloop
    exact (evolved_updatePhysics world dt).trans hloop
  have hmid := (hevolved.quiet hsound).1
  have hclean := clears_quiet.reapDestroyedShips choice mid hmid
  rw [hreap] at hclean
  refine ⟨hclean.1, {id | ¬ mid.entities_.HasLiveShip id}, ?_⟩
  rw [roster_reapDestroyedShips hmid (h.anchored hevolved) hreap, roster_evolved hevolved]

/-- The sessions that queue a join are free for a ship after the collisions exactly if
their joins are fresh. -/
theorem spawnsFresh_iff (h : world.Corresponds) (hsound : world.Sound) (current_tick : UInt64)
    (hcollisions : resolveCollisions choice ((world.processInputQueue []).1.updatePhysics
      (secondsOfMicros tick_interval)) = .ok ⟨⟩ world') :
    (∀ join ∈ (world.processInputQueue []).2,
        world'.session_to_ship_.lookup join.session_id = none) ↔
      SpawnsFresh tick_interval world (.tick choice current_tick) := by
  obtain ⟨-, lost, hroster⟩ := roster_resolveCollisions (h.processInputQueue hsound [])
    (hsound.processInputQueue []) _ hcollisions
  -- A session keeps its ship if it does not quit and its ship does not crash.
  have hitem (s : SessionId) (id : EntityId) :
      world'.session_to_ship_.lookup s = some id ↔
        world.session_to_ship_.lookup s = some id ∧ ¬ world.Queued .PlayerQuit s ∧
          ¬ world.Crashes choice tick_interval id := by
    have hcrash : ¬ world.Crashes choice tick_interval id ↔ id ∈ world'.roster.live := by
      refine ⟨fun hcrash => ?_, fun hlive hcrash => hcrash world' hcollisions hlive⟩
      by_contra hdead
      refine hcrash fun other heq => ?_
      cases hcollisions.symm.trans heq
      exact hdead
    rw [hcrash, ← and_assoc]
    refine Iff.trans ?_ (and_congr_left' (item_processInputQueue hsound))
    change world'.roster.item s = some id ↔ _
    rw [hroster]
    exact Roster.item_reap
  constructor
  · intro hfree join hmem htype id hid
    obtain ⟨new_player, hnew, heq⟩ :=
      (exists_new_player_iff world join.session_id).mpr ⟨join, hmem, htype, rfl⟩
    have hnone := hfree new_player hnew
    rw [heq] at hnone
    by_contra hkeeps
    rw [not_or] at hkeeps
    exact nomatch hnone.symm.trans ((hitem _ _).mpr ⟨hid, hkeeps⟩)
  · intro hfresh join hmem
    obtain ⟨action, haction, htype, heq⟩ :=
      (exists_new_player_iff world join.session_id).mp ⟨join, hmem, rfl⟩
    refine Option.eq_none_iff_forall_ne_some.mpr fun id hid => ?_
    obtain ⟨hmapped, hquit, hcrash⟩ := (hitem _ _).mp hid
    rw [← heq] at hmapped hquit
    exact (hfresh action haction htype id hmapped).elim hquit hcrash

theorem roster_maintainAsteroidPopulation (h : world.Sound) (choice : TickChoice K) :
    (world.maintainAsteroidPopulation choice).roster = world.roster := by
  refine roster_congr (fun id => ?_) fun _ => rfl
  refine (AsteroidFactory.extends_update choice.uniform _ h.pool).hasLiveShip_iff ?_
  intro e hasteroid hship
  exact nomatch hasteroid.symm.trans hship

/-- A completed tick keeps the correspondence exactly if it spawns no second ship. -/
theorem corresponds_tick_iff (h : world.Sound) (hcorresponds : world.Corresponds)
    {current_tick : UInt64}
    (completes : Completes ext tick_interval world (.tick choice current_tick)) :
    (step ext tick_interval world (.tick choice current_tick)).Corresponds ↔
      SpawnsFresh tick_interval world (.tick choice current_tick) := by
  obtain ⟨world', hstages⟩ := completes
  have hstep : (step ext tick_interval world (.tick choice current_tick)).roster =
      world'.roster := by
    change (runTickStep ext choice tick_interval current_tick world).roster = _
    rw [runTickStep, hstages]
    rfl
  rw [runTickStages_eq, simulateTick_eq] at hstages
  cases hcollisions : resolveCollisions choice
      ((world.processInputQueue []).1.updatePhysics (secondsOfMicros tick_interval)) with
  | error e mid => rw [hcollisions] at hstages; cases hstages
  | ok _ mid =>
    rw [hcollisions] at hstages
    obtain ⟨hmid, lost, hroster⟩ := roster_resolveCollisions
      (hcorresponds.processInputQueue h []) (h.processInputQueue []) _ hcollisions
    have hasteroids := (quiet_maintainAsteroidPopulation mid choice hmid).1
    have hasteroidsCorresponds : (mid.maintainAsteroidPopulation choice).Corresponds := by
      unfold Corresponds
      rw [roster_maintainAsteroidPopulation hmid, hroster]
      exact ((hcorresponds.processInputQueue h []).toOwned.lose lost).reap
    have hspawned := hasteroids.spawnShips (world.processInputQueue []).2
    have hspawn := corresponds_spawnShips_iff hasteroids hasteroidsCorresponds
      (nodup_new_players world)
    unfold Corresponds at hspawn ⊢
    rw [hstep, roster_broadcastSnapshot hspawned hstages, hspawn]
    -- Asteroids do not touch the mapping.
    have hfresh := spawnsFresh_iff hcorresponds h current_tick hcollisions
    exact hfresh

/-- In a run whose ticks complete, the mapping is a bijection between sessions and live
ships after every operation exactly if no tick spawns a second ship. -/
theorem corresponds_iff_of_run {world_width world_height : K} {ops : List (Op K)}
    (completes : (machine ext world_width world_height tick_interval).Meets
      (Completes ext tick_interval) ops) :
    (∀ before after, ops = before ++ after → ∀ world,
        (machine ext world_width world_height tick_interval).run before = some world →
          world.Corresponds) ↔
      (machine ext world_width world_height tick_interval).Meets (SpawnsFresh tick_interval)
        ops := by
  have hsound {before : List (Op K)} {world : World K}
      (hrun : (machine ext world_width world_height tick_interval).run before = some world) :
      world.Sound := sound_of_reachable ext ⟨before, hrun⟩
  constructor
  · -- A tick that is not fresh breaks the correspondence it started with.
    rintro hall before op after rfl world hrun
    cases op with
    | event event => trivial
    | discardActions => trivial
    | tick choice current_tick =>
      have hbefore := hall before _ rfl world hrun
      have hafter := hall (before ++ [.tick choice current_tick]) after
        (by rw [List.append_assoc]; rfl) _ (Machine.run_concat.mpr ⟨world, hrun, rfl⟩)
      exact (corresponds_tick_iff ext (hsound hrun) hbefore
        (completes before _ after rfl world hrun)).mp hafter
  · -- Conversely every fresh tick keeps it.
    rintro hfresh before after rfl world hrun
    refine Machine.guarded_induction
      (m := machine ext world_width world_height tick_interval)
      (fun world op => Completes ext tick_interval world op ∧ SpawnsFresh tick_interval world op)
      (motive := fun _ world => world.Corresponds) ?_ ?_
      (fun before' op after' heq world' hrun' => ⟨completes.of_append before' op after' heq world'
        hrun', hfresh.of_append before' op after' heq world' hrun'⟩) hrun
    · exact ⟨⟨nofun, fun ⟨i, e, hat, _⟩ => nomatch hat⟩, nofun⟩
    · rintro labels world op world' hrun - hcorresponds ⟨hcompletes, hspawns⟩ hstep
      obtain rfl := Option.some.inj hstep
      cases op with
      | event event =>
        obtain ⟨actions, heq, -⟩ := onEvent_eq event world
        change (onEvent event world).Corresponds
        rw [heq]
        exact hcorresponds
      | discardActions => exact hcorresponds
      | tick choice current_tick =>
        exact (corresponds_tick_iff ext (hsound hrun) hcorresponds hcompletes).mpr hspawns

section Exact

attribute [local instance] RationalScalar.rational

/-- Sessions 7 and 8 join, and session 7 leaves. -/
def joinsAndQuit : List (Op ℚ) :=
  [.event (.PlayerJoinEvent 7 (bytesOf "Ace")), .event (.PlayerJoinEvent 8 (bytesOf "Bo")),
    exactTick, .event (.ClientDisconnectedEvent 7), exactTick]

theorem corresponds_joinsAndQuit :
    ∃ world, exactMachine.run joinsAndQuit = some world ∧ world.Corresponds := by
  have hcompletes : exactMachine.Meets (Completes exactExternals 16666) joinsAndQuit :=
    Machine.meets_of_checks (by decide +kernel)
  have hfresh : exactMachine.Meets (SpawnsFresh 16666) joinsAndQuit :=
    Machine.meets_of_checks (by decide +kernel)
  exact ⟨_, run_exactMachine joinsAndQuit,
    (corresponds_iff_of_run exactExternals hcompletes).mpr hfresh _ []
      (List.append_nil _).symm _ (run_exactMachine joinsAndQuit)⟩

/-- Session 7 joins twice, in two ticks. -/
def joinsTwice : List (Op ℚ) :=
  [.event (.PlayerJoinEvent 7 (bytesOf "Ace")), exactTick,
    .event (.PlayerJoinEvent 7 (bytesOf "Ace")), exactTick]

/-- The second join leaves the first ship alive without a session. -/
theorem not_corresponds_joinsTwice :
    exactMachine.Meets (Completes exactExternals 16666) joinsTwice ∧
      ∃ world, exactMachine.run joinsTwice = some world ∧ ¬ world.Corresponds := by
  refine ⟨Machine.meets_of_checks (by decide +kernel), _, run_exactMachine joinsTwice,
    fun h => ?_⟩
  have hships : ((exactWorld joinsTwice).entities_.at? 1).map (fun ship => (ship.id, ship.type,
        ship.isDestroyed)) = some (2, .Ship, false) ∧
      (7, 2) ∈ (exactWorld joinsTwice).spawned ∧
      (exactWorld joinsTwice).session_to_ship_.lookup 7 = some 4 := by decide +kernel
  obtain ⟨hship, hspawned, hmapped⟩ := hships
  obtain ⟨ship, hat, heq⟩ := Option.map_eq_some_iff.mp hship
  simp only [Prod.mk.injEq] at heq
  obtain ⟨hid, htype, hlive⟩ := heq
  obtain ⟨s, hs⟩ := h.owned ⟨1, ship, hat, hid, htype, hlive⟩
  have hsound : (exactWorld joinsTwice).Sound :=
    sound_of_reachable exactExternals ⟨joinsTwice, run_exactMachine joinsTwice⟩
  obtain rfl := hsound.spawned_unique (hsound.mapped hs) hspawned
  exact nomatch hmapped.symm.trans hs

end Exact

end SpaceShooter.Server.World
