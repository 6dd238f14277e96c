/-
# Deaths of ships

The clean-up after the collisions announces each destroyed ship that a session is mapped
to, strikes the session off and recycles the slot. Between completed ticks the mapped ships
are alive, and a ship that is dead stays dead, so a run announces a ship once if it is
destroyed in a collision while a session has it, and otherwise never.
-/

import SpaceShooter.Server.SessionShips

namespace SpaceShooter.Server.World

open Scalar Domain Library Library.Outcome

variable {K : Type}

/-- An event announces the death of the ship that its session is mapped to. -/
def isNoticeOf (world : World K) (id : EntityId) : NetworkEvent K → Bool
  | .ShipDestroyedEvent s => world.session_to_ship_.lookup s = some id
  | _ => false

/-! ### Notices -/

variable {world world' : World K} {choice : TickChoice K}

theorem nodup_bereft (choice : TickChoice K) (world : World K) :
    (world.bereft choice).Nodup := by
  have hkeys := (choice.order_perm _).nodup_iff.mpr world.session_to_ship_.nodupKeys
  exact hkeys.filter _

theorem mem_bereft {s : SessionId} :
    s ∈ world.bereft choice ↔
      ∃ id, world.session_to_ship_.lookup s = some id ∧ id ∈ destroyedIds world.entities_ := by
  rw [bereft, List.mem_filter, (choice.order_perm _).mem_iff, isBereft, Option.any_eq_true]
  simp only [decide_eq_true_eq]
  refine and_iff_right_of_imp ?_
  rintro ⟨id, hs, -⟩
  exact AList.mem_keys.mpr (AList.lookup_isSome.mp (hs ▸ rfl))

/-- A flagged ship is announced to its session once. -/
theorem notices_of_flagged (hsound : world.Sound) {s : SessionId} {id : EntityId}
    (hs : world.session_to_ship_.lookup s = some id)
    (hflagged : id ∈ destroyedIds world.entities_) :
    ((world.bereft choice).map .ShipDestroyedEvent).filter (world.isNoticeOf id) =
      [.ShipDestroyedEvent s] := by
  have hsingle : (world.bereft choice).filter (fun other =>
      world.isNoticeOf id (.ShipDestroyedEvent other)) = [s] := by
    have hnodup := (nodup_bereft choice world).filter
      fun other => world.isNoticeOf id (.ShipDestroyedEvent other)
    refine List.perm_singleton.mp
      ((List.perm_ext_iff_of_nodup hnodup (List.nodup_singleton s)).mpr fun other => ?_)
    rw [List.mem_filter, List.mem_singleton, isNoticeOf, decide_eq_true_eq, mem_bereft]
    constructor
    · rintro ⟨-, hother⟩
      exact hsound.mapped_unique hother hs
    · rintro rfl
      exact ⟨⟨id, hs, hflagged⟩, hs⟩
  rw [List.filter_map]
  exact congrArg _ hsingle

/-- Other ships are not announced. -/
theorem notices_eq_nil {id : EntityId} (h : ∀ s, world.session_to_ship_.lookup s = some id →
    id ∉ destroyedIds world.entities_) :
    ((world.bereft choice).map .ShipDestroyedEvent).filter (world.isNoticeOf id) = [] := by
  refine List.filter_eq_nil_iff.mpr fun event hevent hnotice => ?_
  obtain ⟨s, hs, rfl⟩ := List.mem_map.mp hevent
  rw [isNoticeOf, decide_eq_true_eq] at hnotice
  obtain ⟨id', hid', hflagged⟩ := mem_bereft.mp hs
  obtain rfl := Option.some.inj (hnotice.symm.trans hid')
  exact h s hnotice hflagged

/-! ### Ticks -/

variable [Scalar K]

/-- The world whose collisions a tick resolves. -/
def moved (tick_interval : ℕ) (world : World K) : World K :=
  (world.processInputQueue []).1.updatePhysics (secondsOfMicros tick_interval)

/-- The world whose destroyed ships a tick cleans up. -/
def collided (tick_interval : ℕ) (world : World K) : World K :=
  resultState (collidePairs (world.moved tick_interval))

/-- A tick drains the quit of the session that has a ship. -/
def QuitIn (world : World K) (id : EntityId) : Prop :=
  ∃ s, world.session_to_ship_.lookup s = some id ∧ world.Queued .PlayerQuit s

/-- The collisions of a tick flag a ship. -/
def FlaggedIn (tick_interval : ℕ) (world : World K) (id : EntityId) : Prop :=
  (world.moved tick_interval).entities_.HasLiveShip id ∧
    id ∈ destroyedIds (world.collided tick_interval).entities_

/-- The collisions of a tick flag a ship while a session is mapped to it. -/
def DestroyedIn (tick_interval : ℕ) (world : World K) (s : SessionId) (id : EntityId) : Prop :=
  FlaggedIn tick_interval world id ∧
    (world.moved tick_interval).session_to_ship_.lookup s = some id

variable (ext : Externals K) {tick_interval : ℕ} {current_tick : UInt64} {id : EntityId}

/-- The notices of a ship among the events of one step. -/
def stepNotices (tick_interval : ℕ) (world : World K) (op : Op K) (id : EntityId) :
    List (NetworkEvent K) :=
  ((step ext tick_interval world op).published.drop world.published.length).filter
    ((world.collided tick_interval).isNoticeOf id)

/-- The notices of a ship in a run. -/
def deathNotices (tick_interval : ℕ) : World K → List (Op K) → EntityId → List (NetworkEvent K)
  | _, [], _ => []
  | world, op :: ops, id =>
    stepNotices ext tick_interval world op id ++
      deathNotices tick_interval (step ext tick_interval world op) ops id

theorem evolved_collided (tick_interval : ℕ) (world : World K) :
    Evolved (world.processInputQueue []).1 (world.collided tick_interval) :=
  (evolved_updatePhysics _ _).trans (evolved_collidePairs _)

theorem Sound.collided (h : world.Sound) (tick_interval : ℕ) :
    (world.collided tick_interval).Sound :=
  ((evolved_collided tick_interval world).quiet (h.processInputQueue [])).1

theorem mapping_collided (tick_interval : ℕ) (world : World K) :
    (world.collided tick_interval).session_to_ship_ =
      (world.moved tick_interval).session_to_ship_ := by
  obtain ⟨pool, -, hpool⟩ := evolved_collidePairs (world.moved tick_interval)
  rw [World.collided, hpool]

theorem published_collided (tick_interval : ℕ) (world : World K) :
    (world.collided tick_interval).published = world.published := by
  obtain ⟨pool, -, hpool⟩ := evolved_collided tick_interval world
  rw [hpool]
  exact published_processInputQueue world []

/-- Movement takes no ship's life. -/
theorem hasLiveShip_moved :
    (world.moved tick_interval).entities_.HasLiveShip id ↔
      (world.processInputQueue []).1.entities_.HasLiveShip id := by
  constructor
  · exact (evolves_updateMovementAndBounds _ _ _ _).hasLiveShip
  · rintro ⟨i, e, hat, hid, hlive⟩
    have hmoves : EntityPool.Evolves
        (fun e e' => e'.id = e.id ∧ (e.LiveShip → e'.LiveShip))
        (world.processInputQueue []).1.entities_ (world.moved tick_interval).entities_ :=
      EntityPool.evolves_map _ fun e =>
        ⟨(moveEntity_continues _ _ _ e).id, fun h => moveEntity_liveShip h _ _ _⟩
    obtain ⟨e', hat', hid', hlive'⟩ := hmoves.some_of_some hat
    exact ⟨i, e', hat', hid'.trans hid, hlive' hlive⟩

/-- The stages of a tick that completes. -/
theorem completes_tick (h : Completes ext tick_interval world (.tick choice current_tick)) :
    ∃ reaped snapshot,
      reapDestroyedShips choice (world.collided tick_interval) = .ok ⟨⟩ reaped ∧
      broadcastSnapshot ext choice snapshot
          ((reaped.maintainAsteroidPopulation choice).spawnShips (world.processInputQueue []).2) =
        .ok ⟨⟩ (step ext tick_interval world (.tick choice current_tick)) := by
  obtain ⟨world', hstages⟩ := h
  have hstep : step ext tick_interval world (.tick choice current_tick) = world' := by
    change resultState (runTickStages ext choice tick_interval current_tick world) = _
    rw [hstages]
    rfl
  rw [runTickStages_eq, simulateTick_eq] at hstages
  cases hcollisions : resolveCollisions choice (world.moved tick_interval) with
  | error e mid =>
    rw [moved] at hcollisions
    rw [hcollisions] at hstages
    cases hstages
  | ok _ reaped =>
    obtain ⟨_, mid, hpairs, hreap⟩ := bind_eq_ok.mp hcollisions
    rw [moved] at hcollisions
    rw [hcollisions] at hstages
    refine ⟨reaped, _, ?_, hstep ▸ hstages⟩
    rw [collided, hpairs]
    exact hreap

/-- The notices of a ship in a tick that completes are those of its clean-up. -/
theorem stepNotices_tick
    (h : Completes ext tick_interval world (.tick choice current_tick)) :
    stepNotices ext tick_interval world (.tick choice current_tick) id =
      (((world.collided tick_interval).bereft choice).map .ShipDestroyedEvent).filter
        ((world.collided tick_interval).isNoticeOf id) := by
  obtain ⟨reaped, snapshot, hreap, hbroadcast⟩ := completes_tick ext h
  obtain ⟨payload, -, heq⟩ := broadcastSnapshot_eq_ok hbroadcast
  have hpublished := congrArg World.published heq
  obtain ⟨-, hreaped, -⟩ := reapDestroyedShips_eq_ok hreap
  rw [published_collided] at hreaped
  dsimp only at hpublished
  rw [published_spawnShips] at hpublished
  change _ = reaped.published ++ _ at hpublished
  rw [stepNotices, hpublished, hreaped, List.append_assoc, List.drop_left, List.filter_append]
  exact List.append_nil _

/-! ### Mapped ships are alive -/

theorem Resolves.spawnShips (h : world.Resolves) (hsound : world.Sound)
    (joins : List PendingJoin) : (world.spawnShips joins).Resolves := by
  induction joins generalizing world with
  | nil => exact h
  | cons join joins ih =>
    refine ih (fun s id hs => ?_) (hsound.spawnShip join)
    rw [lookup_spawnShip] at hs
    refine (hasLiveShip_spawnShip hsound.pool join).mpr ?_
    split_ifs at hs
    · exact .inl (Option.some.inj hs).symm
    · exact .inr (h s id hs)

/-- After the movement the mapped ships are alive still. -/
theorem Resolves.moved (h : world.Resolves) (hsound : world.Sound) (tick_interval : ℕ) :
    (world.moved tick_interval).Resolves := by
  intro s id hs
  obtain ⟨hmapped, hquit⟩ := (item_processInputQueue hsound).mp hs
  refine hasLiveShip_moved.mpr ((live_processInputQueue_iff hsound).mpr ⟨h s id hmapped, ?_⟩)
  intro s' hs'
  exact hsound.mapped_unique hmapped hs' ▸ hquit

/-- What the clean-up of a completed tick leaves: the ships that survived the collisions, each
with its session. -/
theorem roster_reaped (h : world.Resolves) (hsound : world.Sound) {reaped : World K}
    (hreap : reapDestroyedShips choice (world.collided tick_interval) = .ok ⟨⟩ reaped) :
    reaped.Sound ∧ Fades (world.collided tick_interval) reaped ∧
      reaped.roster = (world.collided tick_interval).roster.reap := by
  have hcollided := hsound.collided tick_interval
  have hanchored : (world.collided tick_interval).Anchored :=
    (h.moved hsound tick_interval).anchored (evolved_collidePairs _)
  have hclean := clears_quiet.reapDestroyedShips choice (world.collided tick_interval) hcollided
  rw [hreap] at hclean
  exact ⟨hclean.1, hclean.2, roster_reapDestroyedShips hcollided hanchored hreap⟩

/-- A completed tick, seen from the world in which it spawned the ships of new players: what
survived the collisions is there, each ship with its session, and the tick ends with these
ships and the new ones. -/
structure CompletedTick (tick_interval : ℕ) (world before world' : World K) : Prop where
  sound : before.Sound
  resolves : before.Resolves
  next_le : world.entities_.next_id_ ≤ before.entities_.next_id_
  spawned : before.spawned = world.spawned
  roster : before.roster = (world.collided tick_interval).roster.reap
  roster_eq : world'.roster = (before.spawnShips (world.processInputQueue []).2).roster
  spawned_eq : world'.spawned = (before.spawnShips (world.processInputQueue []).2).spawned
  le_next : (before.spawnShips (world.processInputQueue []).2).entities_.next_id_ ≤
    world'.entities_.next_id_

theorem exists_completedTick (h : world.Resolves) (hsound : world.Sound)
    (hcompletes : Completes ext tick_interval world (.tick choice current_tick)) :
    ∃ before, CompletedTick tick_interval world before
      (step ext tick_interval world (.tick choice current_tick)) := by
  obtain ⟨reaped, snapshot, hreap, hbroadcast⟩ := completes_tick ext hcompletes
  obtain ⟨hreaped, hclean, hroster⟩ := roster_reaped h hsound hreap
  obtain ⟨hasteroids, hadded⟩ := quiet_maintainAsteroidPopulation reaped choice hreaped
  have hspawned := hasteroids.spawnShips (world.processInputQueue []).2
  have hsame := roster_maintainAsteroidPopulation hreaped choice
  have hfades : Fades { world with action_queue_ := [] }
      (reaped.maintainAsteroidPopulation choice) := by
    have hdrain := (quiet_processInputQueue world [] (hsound.congr rfl rfl rfl)).2
    have hcollided :=
      ((evolved_collided tick_interval world).quiet (hsound.processInputQueue [])).2
    exact hdrain.trans (hcollided.trans (hclean.trans hadded))
  have hfinal := clears_quiet.broadcastSnapshot ext choice snapshot _ hspawned
  rw [hbroadcast] at hfinal
  refine ⟨reaped.maintainAsteroidPopulation choice, hasteroids, fun s id hs => ?_,
    hfades.next_le, hfades.spawned, hsame.trans hroster,
    roster_broadcastSnapshot hspawned hbroadcast, hfinal.2.spawned, hfinal.2.next_le⟩
  change id ∈ (reaped.maintainAsteroidPopulation choice).roster.live
  rw [hsame, hroster]
  have hitem : (reaped.maintainAsteroidPopulation choice).roster.item s = some id := hs
  rw [hsame, hroster, Roster.item_reap] at hitem
  exact hitem.2

/-- The ships alive after a completed tick survived its collisions or are new. -/
theorem CompletedTick.live_iff {before : World K}
    (h : CompletedTick tick_interval world before world') (hlt : id < world.entities_.next_id_) :
    world'.entities_.HasLiveShip id ↔
      (world.collided tick_interval).entities_.HasLiveShip id := by
  have hmem : id ∈ world'.roster.live ↔
      (before.spawnShips (world.processInputQueue []).2).entities_.HasLiveShip id := by
    rw [h.roster_eq]
    rfl
  have hbefore : before.entities_.HasLiveShip id ↔
      id ∈ (world.collided tick_interval).roster.reap.live := by
    rw [← h.roster]
    rfl
  refine hmem.trans (Iff.trans ⟨fun hlive => ?_, fun hlive => ?_⟩ hbefore)
  · exact hasLiveShip_of_spawnShips h.sound (hlt.trans_le h.next_le) hlive
  · exact hasLiveShip_spawnShips h.sound _ hlive

theorem Resolves.step (h : world.Resolves) (hsound : world.Sound) {op : Op K}
    (hcompletes : Completes ext tick_interval world op) :
    (step ext tick_interval world op).Resolves := by
  cases op with
  | event event =>
    obtain ⟨actions, heq, -⟩ := onEvent_eq event world
    change (onEvent event world).Resolves
    rw [heq]
    exact h
  | discardActions => exact h
  | tick choice current_tick =>
    obtain ⟨before, htick⟩ := exists_completedTick ext h hsound hcompletes
    intro s id hs
    have hitem : (World.step ext tick_interval world (.tick choice current_tick)).roster.item s =
      some id := hs
    change id ∈ (World.step ext tick_interval world (.tick choice current_tick)).roster.live
    rw [htick.roster_eq] at hitem ⊢
    exact htick.resolves.spawnShips htick.sound _ s id hitem

/-! ### One death -/

/-- A ship dies in a tick. -/
def DiesIn (tick_interval : ℕ) (world : World K) (id : EntityId) : Prop :=
  world.QuitIn id ∨ FlaggedIn tick_interval world id

theorem live_of_collided_live (hsound : world.Sound)
    (hlive : (world.collided tick_interval).entities_.HasLiveShip id) :
    id ∈ (world.processInputQueue []).1.roster.live :=
  ((evolved_collided tick_interval world).quiet (hsound.processInputQueue [])).2.ships hlive

/-- A ship that neither quits nor is flagged survives the collisions. -/
theorem collided_live_of_not_dies (hsound : world.Sound)
    (halive : world.entities_.HasLiveShip id) (hdies : ¬ DiesIn tick_interval world id) :
    (world.collided tick_interval).entities_.HasLiveShip id := by
  obtain ⟨hquit, hflagged⟩ := not_or.mp hdies
  have hmoved : (world.moved tick_interval).entities_.HasLiveShip id := by
    refine hasLiveShip_moved.mpr ((live_processInputQueue_iff hsound).mpr ⟨halive, ?_⟩)
    exact fun s hs hqueued => hquit ⟨s, hs, hqueued⟩
  have ⟨i, e, hat, hid, hlive⟩ := hmoved
  obtain ⟨pool, hpool, heq⟩ := evolved_collidePairs (world.moved tick_interval)
  obtain ⟨e', hat', hcontinues⟩ := hpool.some_of_some hat
  have hslot : (world.collided tick_interval).entities_.at? i = some e' := by
    rw [World.collided, heq]
    exact hat'
  refine ⟨i, e', hslot, hcontinues.id.trans hid, hcontinues.type.trans hlive.1, ?_⟩
  by_contra hdestroyed
  exact hflagged ⟨hmoved, mem_destroyedIds.mpr
    ⟨i, e', hslot, Bool.eq_true_of_not_eq_false hdestroyed, hcontinues.id.trans hid⟩⟩

/-- A ship that dies in a tick was alive, and is dead afterwards. -/
theorem DiesIn.dead (hdies : DiesIn tick_interval world id) (h : world.Resolves)
    (hsound : world.Sound)
    (hcompletes : Completes ext tick_interval world (.tick choice current_tick)) :
    world.entities_.HasLiveShip id ∧ id < world.entities_.next_id_ ∧
      ¬ (step ext tick_interval world (.tick choice current_tick)).entities_.HasLiveShip id := by
  have halive : world.entities_.HasLiveShip id := by
    rcases hdies with ⟨s, hs, -⟩ | hflagged
    · exact h s id hs
    · exact ((live_processInputQueue_iff hsound).mp (hasLiveShip_moved.mp hflagged.1)).1
  have hlt : id < world.entities_.next_id_ := by
    obtain ⟨i, e, hat, rfl, -⟩ := halive
    exact hsound.pool.id_lt hat
  refine ⟨halive, hlt, fun hlive => ?_⟩
  obtain ⟨before, htick⟩ := exists_completedTick ext h hsound hcompletes
  have hcollided := (htick.live_iff hlt).mp hlive
  rcases hdies with ⟨s, hs, hquit⟩ | hflagged
  · exact ((live_processInputQueue_iff hsound).mp (live_of_collided_live hsound hcollided)).2 s hs
      hquit
  · exact not_live_of_mem_destroyedIds (hsound.collided tick_interval).pool hflagged.2 hcollided

/-- A ship that is destroyed while a session has it is announced to this session. -/
theorem stepNotices_of_destroyed (hsound : world.Sound)
    (hcompletes : Completes ext tick_interval world (.tick choice current_tick)) {s : SessionId}
    (hdestroyed : DestroyedIn tick_interval world s id) :
    stepNotices ext tick_interval world (.tick choice current_tick) id =
      [.ShipDestroyedEvent s] := by
  rw [stepNotices_tick ext hcompletes]
  refine notices_of_flagged (hsound.collided tick_interval) ?_ hdestroyed.1.2
  rw [mapping_collided]
  exact hdestroyed.2

/-- No other ship is announced. -/
theorem stepNotices_eq_nil (h : world.Resolves) (hsound : world.Sound) {op : Op K}
    (hcompletes : Completes ext tick_interval world op)
    (hnone : ∀ choice current_tick, op = .tick choice current_tick →
      ∀ s, ¬ DestroyedIn tick_interval world s id) :
    stepNotices ext tick_interval world op id = [] := by
  cases op with
  | event event =>
    obtain ⟨actions, heq, -⟩ := onEvent_eq event world
    rw [stepNotices, step, heq, List.drop_length]
    rfl
  | discardActions =>
    rw [stepNotices, step, discardActions, List.drop_length]
    rfl
  | tick choice current_tick =>
    rw [stepNotices_tick ext hcompletes]
    refine notices_eq_nil fun s hs hflagged => hnone choice current_tick rfl s ?_
    rw [mapping_collided] at hs
    exact ⟨⟨h.moved hsound tick_interval s id hs, hflagged⟩, hs⟩

/-- The dead are not announced. -/
theorem stepNotices_of_not_live (h : world.Resolves) (hsound : world.Sound) {op : Op K}
    (hcompletes : Completes ext tick_interval world op)
    (hdead : ¬ world.entities_.HasLiveShip id) :
    stepNotices ext tick_interval world op id = [] := by
  refine stepNotices_eq_nil ext h hsound hcompletes ?_
  rintro choice current_tick rfl s ⟨hflagged, -⟩
  exact hdead (DiesIn.dead ext (.inr hflagged) h hsound hcompletes).1

/-- A ship that is there before a step and lives after it lived before and is not announced. -/
theorem live_of_step (h : world.Resolves) (hsound : world.Sound) {op : Op K}
    (hcompletes : Completes ext tick_interval world op) (hlt : id < world.entities_.next_id_)
    (hlive : (step ext tick_interval world op).entities_.HasLiveShip id) :
    world.entities_.HasLiveShip id ∧ stepNotices ext tick_interval world op id = [] := by
  cases op with
  | event event =>
    obtain ⟨actions, heq, -⟩ := onEvent_eq event world
    change (onEvent event world).entities_.HasLiveShip id at hlive
    rw [heq] at hlive
    exact ⟨hlive, stepNotices_eq_nil ext h hsound hcompletes nofun⟩
  | discardActions => exact ⟨hlive, stepNotices_eq_nil ext h hsound hcompletes nofun⟩
  | tick choice current_tick =>
    obtain ⟨before, htick⟩ := exists_completedTick ext h hsound hcompletes
    have hcollided := (htick.live_iff hlt).mp hlive
    refine ⟨((live_processInputQueue_iff hsound).mp
      (live_of_collided_live hsound hcollided)).1, ?_⟩
    refine stepNotices_eq_nil ext h hsound hcompletes ?_
    rintro _ _ - s ⟨⟨-, hflagged⟩, -⟩
    exact not_live_of_mem_destroyedIds (hsound.collided tick_interval).pool hflagged hcollided

theorem next_le_step (h : world.Resolves) (hsound : world.Sound) {op : Op K}
    (hcompletes : Completes ext tick_interval world op) :
    world.entities_.next_id_ ≤ (step ext tick_interval world op).entities_.next_id_ := by
  cases op with
  | event event =>
    obtain ⟨actions, heq, -⟩ := onEvent_eq event world
    change _ ≤ (onEvent event world).entities_.next_id_
    rw [heq]
  | discardActions => exact le_rfl
  | tick choice current_tick =>
    obtain ⟨before, htick⟩ := exists_completedTick ext h hsound hcompletes
    exact htick.next_le.trans ((next_le_spawnShips htick.sound _).trans htick.le_next)

/-! ### Runs -/

/-- What a run says about a ship that died in the tick it started from some world. -/
structure Verdict (tick_interval : ℕ) (start world : World K) (id : EntityId)
    (notices : List (NetworkEvent K)) : Prop where
  dead : ¬ world.entities_.HasLiveShip id
  lt : id < world.entities_.next_id_
  announced : ∀ s, DestroyedIn tick_interval start s id → notices = [.ShipDestroyedEvent s]
  unannounced : (∀ s, ¬ DestroyedIn tick_interval start s id) → notices = []

/-- Where a completed run stands with a ship. -/
structure Ledger (world_width world_height : K) (tick_interval : ℕ) (id : EntityId)
    (ops : List (Op K)) (world : World K) : Prop where
  resolves : world.Resolves
  alive : world.entities_.HasLiveShip id →
    deathNotices ext tick_interval (empty world_width world_height) ops id = []
  unborn : world.entities_.next_id_ ≤ id →
    deathNotices ext tick_interval (empty world_width world_height) ops id = []
  died : ∀ before choice current_tick after start,
    ops = before ++ .tick choice current_tick :: after →
    (machine ext world_width world_height tick_interval).run before = some start →
    DiesIn tick_interval start id →
      Verdict tick_interval start world id
        (deathNotices ext tick_interval (empty world_width world_height) ops id)

theorem deathNotices_concat (world : World K) (ops : List (Op K)) (op : Op K) (id : EntityId) :
    deathNotices ext tick_interval world (ops ++ [op]) id =
      deathNotices ext tick_interval world ops id ++
        stepNotices ext tick_interval (ops.foldl (step ext tick_interval) world) op id := by
  induction ops generalizing world with
  | nil => exact List.append_nil _
  | cons first ops ih =>
    rw [List.cons_append, deathNotices, ih, deathNotices, List.append_assoc, List.foldl_cons]

/-- A step extends the ledger of a ship. -/
theorem Ledger.step {world_width world_height : K} {ops : List (Op K)}
    (h : Ledger ext world_width world_height tick_interval id ops world) (hsound : world.Sound)
    (hrun : (machine ext world_width world_height tick_interval).run ops = some world) {op : Op K}
    (hcompletes : Completes ext tick_interval world op) :
    Ledger ext world_width world_height tick_interval id (ops ++ [op])
      (step ext tick_interval world op) := by
  have hworld : ops.foldl (World.step ext tick_interval) (empty world_width world_height) =
      world := by
    rw [run_machine] at hrun
    exact Option.some.inj hrun
  -- The step adds its own notices to those of the run.
  have hnotices : deathNotices ext tick_interval (empty world_width world_height) (ops ++ [op]) id =
      deathNotices ext tick_interval (empty world_width world_height) ops id ++
        stepNotices ext tick_interval world op id := by
    rw [deathNotices_concat, hworld]
  have hnext := next_le_step ext h.resolves hsound hcompletes
  -- An identifier that is not given out yet has no notices.
  have hunborn (hle : world.entities_.next_id_ ≤ id) :
      deathNotices ext tick_interval (empty world_width world_height) (ops ++ [op]) id = [] := by
    have hdead : ¬ world.entities_.HasLiveShip id := by
      rintro ⟨i, e, hat, rfl, -⟩
      exact absurd hle (Nat.not_le_of_lt (hsound.pool.id_lt hat))
    rw [hnotices, h.unborn hle, stepNotices_of_not_live ext h.resolves hsound hcompletes hdead]
    rfl
  refine ⟨h.resolves.step ext hsound hcompletes, fun hlive => ?_, fun hle => ?_, ?_⟩
  · rcases Nat.lt_or_ge id world.entities_.next_id_ with hlt | hle
    · obtain ⟨halive, hnone⟩ := live_of_step ext h.resolves hsound hcompletes hlt hlive
      rw [hnotices, h.alive halive, hnone]
      rfl
    · exact hunborn hle
  · exact hunborn (hnext.trans hle)
  · intro before choice current_tick after start heq hstart hdies
    rcases List.eq_nil_or_concat after with rfl | ⟨rest, last, rfl⟩
    · -- The ship dies in the last step.
      obtain ⟨rfl, hlast⟩ := List.append_inj' heq rfl
      obtain rfl := List.singleton_inj.mp hlast
      obtain rfl := Option.some.inj (hrun.symm.trans hstart)
      obtain ⟨halive, hlt, hdead⟩ := hdies.dead ext h.resolves hsound hcompletes
      rw [hnotices, h.alive halive, List.nil_append]
      refine ⟨hdead, hlt.trans_le hnext, fun s hs => ?_, fun hnone => ?_⟩
      · exact stepNotices_of_destroyed ext hsound hcompletes hs
      · exact stepNotices_eq_nil ext h.resolves hsound hcompletes fun _ _ _ => hnone
    · -- It died before.
      rw [List.concat_eq_append, ← List.cons_append, ← List.append_assoc] at heq
      obtain ⟨rfl, -⟩ := List.append_inj' heq rfl
      have hverdict := h.died before choice current_tick rest start rfl hstart hdies
      have hnone := stepNotices_of_not_live ext h.resolves hsound hcompletes hverdict.dead
      rw [hnotices, hnone, List.append_nil]
      refine ⟨fun hlive => ?_, hverdict.lt.trans_le hnext, hverdict.announced,
        hverdict.unannounced⟩
      exact hverdict.dead (live_of_step ext h.resolves hsound hcompletes hverdict.lt hlive).1

theorem ledger_of_run {world_width world_height : K} {ops : List (Op K)}
    (completes : (machine ext world_width world_height tick_interval).Meets
      (Completes ext tick_interval) ops)
    (hrun : (machine ext world_width world_height tick_interval).run ops = some world)
    (id : EntityId) : Ledger ext world_width world_height tick_interval id ops world := by
  refine Machine.guarded_induction
    (m := machine ext world_width world_height tick_interval) (Completes ext tick_interval)
    (motive := Ledger ext world_width world_height tick_interval id) ?_ ?_ completes hrun
  · refine ⟨nofun, fun _ => rfl, fun _ => rfl, ?_⟩
    intro before choice current_tick after start heq
    cases before <;> cases heq
  · intro ops world op world' hbefore _ hledger hcompletes hstep
    obtain rfl := Option.some.inj hstep
    exact hledger.step ext (sound_of_reachable ext ⟨ops, hbefore⟩) hbefore hcompletes

/-- The clean-up of a tick that started from some world announced the death of a ship to a
session, struck the session off and emptied the slot of the ship. -/
def CleanedUp (choice : TickChoice K) (tick_interval : ℕ) (start : World K) (s : SessionId)
    (id : EntityId) : Prop :=
  ∃ reaped, reapDestroyedShips choice (start.collided tick_interval) = .ok ⟨⟩ reaped ∧
    .ShipDestroyedEvent s ∈ reaped.published.drop (start.collided tick_interval).published.length ∧
    reaped.session_to_ship_.lookup s = none ∧
    ∀ i e, (start.collided tick_interval).entities_.at? i = some e → e.id = id →
      reaped.entities_.at? i = none

theorem cleanedUp_of_destroyed (hsound : world.Sound)
    (hcompletes : Completes ext tick_interval world (.tick choice current_tick)) {s : SessionId}
    (hdestroyed : DestroyedIn tick_interval world s id) :
    CleanedUp choice tick_interval world s id := by
  obtain ⟨reaped, snapshot, hreap, -⟩ := completes_tick ext hcompletes
  obtain ⟨hentities, hpublished, hmapping⟩ := reapDestroyedShips_eq_ok hreap
  have hcollided := (hsound.collided tick_interval).pool
  have hs : (world.collided tick_interval).session_to_ship_.lookup s = some id := by
    rw [mapping_collided]
    exact hdestroyed.2
  refine ⟨reaped, hreap, ?_, ?_, fun i e hat hid => ?_⟩
  · rw [hpublished, List.drop_left]
    exact List.mem_map_of_mem (mem_bereft.mpr ⟨id, hs, hdestroyed.1.2⟩)
  · refine Option.eq_none_iff_forall_ne_some.mpr fun id' hid' => ?_
    obtain ⟨hs', hnot⟩ := (hmapping s id').mp hid'
    obtain rfl := Option.some.inj (hs.symm.trans hs')
    exact hnot hdestroyed.1.2
  · obtain ⟨j, e', hat', hflagged, hid'⟩ := mem_destroyedIds.mp hdestroyed.1.2
    obtain rfl := hcollided.slot_eq hat hat' (hid.trans hid'.symm)
    obtain rfl := Option.some.inj (hat.symm.trans hat')
    rw [hentities, (EntityPool.recycleDestroyed_spec hcollided).2.2, hat, EntityPool.kept,
      Option.filter_some, hflagged]
    rfl

/-- In a completed run a ship is announced once if the collisions of a tick destroyed it while
a session had it, to this session and with a clean-up of both; it is never announced if its
session quit, if it was destroyed while no session had it, and if it is alive. -/
theorem announced_of_run {world_width world_height : K} {ops : List (Op K)}
    (completes : (machine ext world_width world_height tick_interval).Meets
      (Completes ext tick_interval) ops)
    (hrun : (machine ext world_width world_height tick_interval).run ops = some world)
    (id : EntityId) :
    (∀ before choice current_tick after start, ops = before ++ .tick choice current_tick :: after →
        (machine ext world_width world_height tick_interval).run before = some start →
        (∀ s, DestroyedIn tick_interval start s id →
          deathNotices ext tick_interval (empty world_width world_height) ops id =
              [.ShipDestroyedEvent s] ∧ CleanedUp choice tick_interval start s id) ∧
        (start.QuitIn id →
          deathNotices ext tick_interval (empty world_width world_height) ops id = []) ∧
        (FlaggedIn tick_interval start id →
          (∀ s, (start.moved tick_interval).session_to_ship_.lookup s ≠ some id) →
          deathNotices ext tick_interval (empty world_width world_height) ops id = [])) ∧
      (world.entities_.HasLiveShip id →
        deathNotices ext tick_interval (empty world_width world_height) ops id = []) := by
  have hledger := ledger_of_run ext completes hrun id
  refine ⟨fun before choice current_tick after start heq hstart => ?_, hledger.alive⟩
  have hsound : start.Sound := sound_of_reachable ext ⟨before, hstart⟩
  have hverdict := hledger.died before choice current_tick after start heq hstart
  refine ⟨fun s hdestroyed => ?_, fun hquit => ?_, fun hflagged hunmapped => ?_⟩
  · refine ⟨(hverdict (.inr hdestroyed.1)).announced s hdestroyed, ?_⟩
    exact cleanedUp_of_destroyed ext hsound
      (completes before _ after heq start hstart) hdestroyed
  · refine (hverdict (.inl hquit)).unannounced fun s hdestroyed => ?_
    -- The drain has taken the life of the ship before the collisions.
    obtain ⟨s', hs', hqueued⟩ := hquit
    exact ((live_processInputQueue_iff hsound).mp
      (hasLiveShip_moved.mp hdestroyed.1.1)).2 s' hs' hqueued
  · exact (hverdict (.inr hflagged)).unannounced fun s hdestroyed => hunmapped s hdestroyed.2

/-- Every ship of a completed run is alive or died in one of its ticks. -/
theorem fate_of_spawned {world_width world_height : K} {ops : List (Op K)}
    (completes : (machine ext world_width world_height tick_interval).Meets
      (Completes ext tick_interval) ops)
    (hrun : (machine ext world_width world_height tick_interval).run ops = some world)
    {s : SessionId} (hspawned : (s, id) ∈ world.spawned) :
    world.entities_.HasLiveShip id ∨
      ∃ before choice current_tick after start,
        ops = before ++ .tick choice current_tick :: after ∧
        (machine ext world_width world_height tick_interval).run before = some start ∧
        DiesIn tick_interval start id := by
  refine Machine.guarded_induction
    (m := machine ext world_width world_height tick_interval) (Completes ext tick_interval)
    (motive := fun ops world => (s, id) ∈ world.spawned → world.entities_.HasLiveShip id ∨
      ∃ before choice current_tick after start,
        ops = before ++ .tick choice current_tick :: after ∧
        (machine ext world_width world_height tick_interval).run before = some start ∧
        DiesIn tick_interval start id) ?_ ?_ completes hrun hspawned
  · intro hmem
    cases hmem
  · intro ops world op world' hbefore hmeets ih hcompletes hstep hmem
    obtain rfl := Option.some.inj hstep
    -- A ship that was dead before the step died in an earlier tick.
    have hearlier (hold : (s, id) ∈ world.spawned) (hdead : ¬ world.entities_.HasLiveShip id) :
        ∃ before choice current_tick after start,
          ops ++ [op] = before ++ .tick choice current_tick :: after ∧
          (machine ext world_width world_height tick_interval).run before = some start ∧
          DiesIn tick_interval start id := by
      obtain ⟨before, choice, current_tick, after, start, rfl, hdies⟩ :=
        (ih hold).resolve_left hdead
      exact ⟨before, choice, current_tick, after ++ [op], start, List.append_assoc _ _ _, hdies⟩
    have hsound : world.Sound := sound_of_reachable ext ⟨ops, hbefore⟩
    have hledger := ledger_of_run ext hmeets.of_append hbefore id
    cases op with
    | event event =>
      obtain ⟨actions, heq, -⟩ := onEvent_eq event world
      change (s, id) ∈ (onEvent event world).spawned at hmem
      change (onEvent event world).entities_.HasLiveShip id ∨ _
      rw [heq] at hmem ⊢
      exact or_iff_not_imp_left.mpr (hearlier hmem)
    | discardActions => exact or_iff_not_imp_left.mpr (hearlier hmem)
    | tick choice current_tick =>
      obtain ⟨before, htick⟩ := exists_completedTick ext hledger.resolves hsound hcompletes
      rw [htick.spawned_eq] at hmem
      -- The ship was there before the tick, or the tick has just spawned it.
      rcases spawned_of_spawnShips htick.sound _ hmem with hold | hlive
      · rw [htick.spawned] at hold
        by_cases halive : world.entities_.HasLiveShip id
        · by_cases hdies : DiesIn tick_interval world id
          · exact .inr ⟨ops, choice, current_tick, [], world, rfl, hbefore, hdies⟩
          · refine .inl ((htick.live_iff (hsound.spawned_lt hold)).mpr ?_)
            exact collided_live_of_not_dies hsound halive hdies
        · exact .inr (hearlier hold halive)
      · have hfinal :
            id ∈ (step ext tick_interval world (.tick choice current_tick)).roster.live := by
          rw [htick.roster_eq]
          exact hlive
        exact .inl hfinal

section Exact

attribute [local instance] RationalScalar.rational

/-- Draws for four asteroids that a ship can swallow one after the other. -/
def feedingChoice : TickChoice ℚ :=
  ⟨fun draw low _ => [255, 38, 57, 80, 80].getD draw low, fun _ => none,
    fun sessions => sessions, List.Perm.refl⟩

/-- A world no larger than a ship. -/
def crampedMachine : Machine (World ℚ) (Op ℚ) := machine exactExternals 8 8 16666

/-- The world in which session 7 is about to swallow its asteroids. -/
def crampedWorld : World ℚ :=
  [.event (.PlayerJoinEvent 7 (bytesOf "Ace")), .tick feedingChoice 0].foldl
    (step exactExternals 16666) (empty 8 8)

/-- Session 7 joins and two ticks go by. -/
def crampedRun : List (Op ℚ) :=
  [.event (.PlayerJoinEvent 7 (bytesOf "Ace")), .tick feedingChoice 0, .tick feedingChoice 1]

/-- The ship of session 7 outgrows the world in the second tick. -/
theorem announced_crampedShip :
    ∃ id, deathNotices exactExternals 16666 (empty 8 8) crampedRun id =
        [.ShipDestroyedEvent 7] ∧ CleanedUp feedingChoice 16666 crampedWorld 7 id := by
  have hcompletes : crampedMachine.Meets (Completes exactExternals 16666) crampedRun :=
    Machine.meets_of_checks (by decide +kernel)
  have hdestroyed : DestroyedIn 16666 crampedWorld 7 5 :=
    ⟨⟨by decide +kernel, by decide +kernel⟩, by decide +kernel⟩
  obtain ⟨hticks, -⟩ := announced_of_run exactExternals hcompletes (run_machine _ _ _ _ _) 5
  exact ⟨5, (hticks [_, _] feedingChoice 1 [] crampedWorld rfl (run_machine _ _ _ _ _)).1 7
    hdestroyed⟩

end Exact

end SpaceShooter.Server.World
