/-
# The size of the broadcast

A snapshot has one record for each live entity, and a session closes when it cannot frame
the snapshot. The live entities of a tick are those the tick finds, one bullet for each shot
it drains, the ships of new players and the new asteroids; nothing bounds the shots that
are queued between two ticks.
-/

import Mathlib.Algebra.Order.BigOperators.Group.List
import Mathlib.Data.List.Dedup
import SpaceShooter.Server.Heading
import SpaceShooter.Server.Session
import SpaceShooter.Server.SessionShips

namespace SpaceShooter.Server.World

open Scalar Domain Library Library.Outcome Network Snapshot

variable {K : Type}

/-! ### Live entities -/

/-- The number of entities a snapshot shows. -/
def liveCount (pool : EntityPool K) : ℕ := pool.storage_.countP EntityPool.isActive

theorem length_buildEntitySnapshots (pool : EntityPool K) :
    (buildEntitySnapshots pool).length = liveCount pool := by
  unfold buildEntitySnapshots liveCount
  induction pool.storage_ with
  | nil => rfl
  | cons slot slots ih =>
    cases slot with
    | none => simpa [EntityPool.isActive] using ih
    | some e =>
      cases hactive : EntityPool.isActive (some e) with
      | true => simp [hactive, ih]
      | false => simp [hactive, ih]

/-- A list counts at most what another one counts in the same places. -/
theorem countP_le_of_forall {α : Type} {p : α → Bool} {xs ys : List α}
    (h : ∀ (i : ℕ) (y : α), ys[i]? = some y → p y = true → ∃ x, xs[i]? = some x ∧ p x = true) :
    ys.countP p ≤ xs.countP p := by
  induction ys generalizing xs with
  | nil => exact Nat.zero_le _
  | cons y ys ih =>
    cases xs with
    | nil =>
      have hnone : ∀ z ∈ y :: ys, ¬ p z = true := by
        intro z hz hcounts
        obtain ⟨i, hi⟩ := List.mem_iff_getElem?.mp hz
        obtain ⟨x, hx, -⟩ := h i z hi hcounts
        cases hx
      exact (List.countP_eq_zero.mpr hnone).le
    | cons x xs =>
      have hrest : ys.countP p ≤ xs.countP p := ih fun i => h (i + 1)
      rw [List.countP_cons, List.countP_cons]
      by_cases hy : p y = true
      · obtain ⟨z, hz, hx⟩ := h 0 y rfl hy
        obtain rfl := Option.some.inj hz
        rw [if_pos hy, if_pos hx]
        exact Nat.succ_le_succ hrest
      · rw [if_neg hy]
        exact hrest.trans (Nat.le_add_right _ _)

/-- Entities that go on do not come to life. -/
theorem liveCount_le_of_evolves {pool pool' : EntityPool K}
    (h : EntityPool.Evolves Entity.Continues pool pool') : liveCount pool' ≤ liveCount pool := by
  refine countP_le_of_forall fun i slot' hslot' hactive => ?_
  cases slot' with
  | none => cases hactive
  | some e' =>
    obtain ⟨e, hat, hcontinues⟩ := h.some_of_some' (EntityPool.at?_eq_some.mpr hslot')
    refine ⟨some e, EntityPool.at?_eq_some.mp hat, ?_⟩
    simp only [EntityPool.isActive, Bool.and_eq_true, decide_eq_true_eq,
      Bool.not_eq_true'] at hactive ⊢
    refine ⟨hcontinues.type ▸ hactive.1, ?_⟩
    by_contra hdestroyed
    rw [hcontinues.destroyed (Bool.eq_true_of_not_eq_false hdestroyed)] at hactive
    cases hactive.2

/-- Entities that stay count on. -/
theorem liveCount_le_of_extends {P : Entity K → Prop} {pool pool' : EntityPool K}
    (h : EntityPool.Extends P pool pool') : liveCount pool ≤ liveCount pool' := by
  refine countP_le_of_forall fun i slot hslot hactive => ⟨slot, ?_, hactive⟩
  cases slot with
  | none => cases hactive
  | some e => exact EntityPool.at?_eq_some.mp (h.keeps (EntityPool.at?_eq_some.mpr hslot))

theorem liveCount_set_none (pool : EntityPool K) (i : ℕ) :
    (pool.storage_.set i none).countP EntityPool.isActive ≤ liveCount pool := by
  refine countP_le_of_forall fun j slot hslot hactive => ⟨slot, ?_, hactive⟩
  rw [List.getElem?_set] at hslot
  split_ifs at hslot with hij hlt
  · obtain rfl := Option.some.inj hslot
    cases hactive
  · exact hslot

theorem liveCount_recycleDestroyed_le (pool : EntityPool K) :
    liveCount pool.recycleDestroyed ≤ liveCount pool := by
  unfold EntityPool.recycleDestroyed
  refine List.foldlRecOn (motive := fun pool' => liveCount pool' ≤ liveCount pool) _ _ le_rfl
    fun pool' hle i _ => ?_
  unfold EntityPool.recycleSlot
  split
  · split
    · exact (liveCount_set_none pool' i).trans hle
    · exact hle
  · exact hle

/-- A list that differs in one place counts one more at most. -/
theorem countP_le_succ {α : Type} {p : α → Bool} {xs ys : List α} (i : ℕ)
    (hlength : ys.length = xs.length) (h : ∀ j : ℕ, j ≠ i → ys[j]? = xs[j]?) :
    ys.countP p ≤ xs.countP p + 1 := by
  induction xs generalizing ys i with
  | nil =>
    rw [List.eq_nil_of_length_eq_zero hlength]
    exact Nat.le_succ _
  | cons x xs ih =>
    cases ys with
    | nil => cases hlength
    | cons y ys =>
      rw [List.countP_cons, List.countP_cons]
      cases i with
      | zero =>
        have hrest : ys = xs := List.ext_getElem? fun j => h (j + 1) (Nat.succ_ne_zero j)
        rw [hrest]
        split_ifs <;> omega
      | succ i =>
        have hfirst : y = x := Option.some.inj (h 0 (Nat.succ_ne_zero i).symm)
        have hrest := ih i (Nat.succ.inj hlength) fun j hj => h (j + 1) (by omega)
        rw [hfirst]
        omega

/-- A new entity is one more at most. -/
theorem liveCount_acquire_modify_le [Scalar K] (pool : EntityPool K) (f : Entity K → Entity K) :
    liveCount (pool.acquire.2.modify pool.acquire.1 f) ≤ liveCount pool + 1 := by
  unfold EntityPool.acquire
  cases pool.free_indices_ with
  | cons i free =>
    refine countP_le_succ i ?_ fun j hj => ?_
    · simp [EntityPool.modify]
    · simp [EntityPool.modify, hj.symm]
  | nil =>
    -- The new slot counts as one that was empty.
    have hempty : liveCount pool =
        (pool.storage_ ++ [none]).countP EntityPool.isActive := by
      simp [liveCount, EntityPool.isActive]
    rw [hempty]
    refine countP_le_succ pool.storage_.length ?_ fun j hj => ?_
    · simp [EntityPool.modify]
    · simp only [EntityPool.modify, List.getElem?_modify, hj.symm, if_false]
      rw [id_map', List.getElem?_append, List.getElem?_append]
      split_ifs with hlt
      · rfl
      · have hlarge : 0 < j - pool.storage_.length := by omega
        rw [List.getElem?_eq_none hlarge, List.getElem?_eq_none hlarge]

theorem liveCount_applyQuit_le (world : World K) (session_id : SessionId) :
    liveCount (world.applyQuit session_id).entities_ ≤ liveCount world.entities_ := by
  unfold applyQuit
  split
  · exact le_rfl
  · dsimp only
    split
    · exact liveCount_le_of_evolves
        (EntityPool.evolves_continues_modify _ _ fun e _ => e.continues_destroyed)
    · exact le_rfl

/-! ### What a tick adds -/

section Counts

variable [Scalar K]

/-- The queued actions that make a ship shoot: those of sessions that have one. -/
def shots (world : World K) : ℕ :=
  world.action_queue_.countP fun action =>
    action.type = .MoveAndShoot && action.is_shooting &&
      (world.session_to_ship_.lookup action.session_id).isSome

/-- The sessions whose joins are queued. -/
def joins (world : World K) : ℕ :=
  ((world.action_queue_.filter (·.type = .PlayerJoin)).map (·.session_id)).dedup.length

theorem liveCount_applyMoveAndShoot_le (world : World K) (action : ActionEvent K) :
    liveCount (world.applyMoveAndShoot action).entities_ ≤ liveCount world.entities_ +
      if action.is_shooting && (world.session_to_ship_.lookup action.session_id).isSome
      then 1 else 0 := by
  rcases applyMoveAndShoot_cases world action with
    ⟨hsame, -⟩ | ⟨ship_id, i, ship, t, hmapped, hfind, ht⟩
  · rw [hsame]
    exact Nat.le_add_right _ _
  · have hturn := liveCount_le_of_evolves
      (EntityPool.evolves_turn world.entities_ i { t with angle := action.angle })
    rw [applyMoveAndShoot_eq hmapped hfind ht, hmapped, Option.isSome_some, Bool.and_true]
    dsimp only
    split
    · exact (liveCount_acquire_modify_le _ _).trans (Nat.add_le_add_right hturn 1)
    · exact hturn

/-- Draining adds a bullet for each shot of a session with a ship. -/
theorem liveCount_foldl_applyAction_le {start world : World K} (hsound : world.Sound)
    (hmapped : ∀ s, (world.session_to_ship_.lookup s).isSome →
      (start.session_to_ship_.lookup s).isSome)
    (actions : List (ActionEvent K)) (new_players : List PendingJoin) :
    liveCount (actions.foldl applyAction (world, new_players)).1.entities_ ≤
      liveCount world.entities_ + actions.countP fun action =>
        action.type = .MoveAndShoot && action.is_shooting &&
          (start.session_to_ship_.lookup action.session_id).isSome := by
  induction actions generalizing world new_players with
  | nil => exact le_rfl
  | cons action actions ih =>
    obtain ⟨hsound', hfades⟩ := quiet_applyAction world new_players action hsound
    have hmapped' (s : SessionId)
        (hs : ((applyAction (world, new_players) action).1.session_to_ship_.lookup s).isSome) :
        (start.session_to_ship_.lookup s).isSome := by
      obtain ⟨id, hid⟩ := Option.isSome_iff_exists.mp hs
      exact hmapped s (Option.isSome_iff_exists.mpr ⟨id, hfades.mapped hid⟩)
    have hrest := ih hsound' hmapped' (applyAction (world, new_players) action).2
    -- Only a shot of a session with a ship adds an entity.
    have hfirst : liveCount (applyAction (world, new_players) action).1.entities_ ≤
        liveCount world.entities_ +
          if action.type = .MoveAndShoot && action.is_shooting &&
            (start.session_to_ship_.lookup action.session_id).isSome then 1 else 0 := by
      unfold applyAction
      dsimp only
      split
      · exact Nat.le_add_right _ _
      · exact (liveCount_applyQuit_le _ _).trans (Nat.le_add_right _ _)
      · next htype =>
        refine (liveCount_applyMoveAndShoot_le world action).trans ?_
        refine Nat.add_le_add_left ?_ _
        rw [htype, decide_eq_true rfl, Bool.true_and]
        by_cases hshooting : action.is_shooting = true
        · by_cases hsession : (world.session_to_ship_.lookup action.session_id).isSome = true
          · rw [hsession, hmapped _ hsession]
          · rw [Bool.eq_false_iff.mpr hsession, Bool.and_false]
            exact Nat.zero_le _
        · rw [Bool.eq_false_iff.mpr hshooting]
          exact le_rfl
      · exact Nat.le_add_right _ _
      · exact Nat.le_add_right _ _
    rw [List.foldl_cons, List.countP_cons]
    calc _ ≤ _ := hrest
      _ ≤ _ := Nat.add_le_add_right hfirst _
      _ = _ := by rw [Nat.add_right_comm, Nat.add_assoc]

theorem liveCount_processInputQueue_le {world : World K} (hsound : world.Sound) :
    liveCount (world.processInputQueue []).1.entities_ ≤
      liveCount world.entities_ + world.shots := by
  have hempty : ({ world with action_queue_ := [] } : World K).Sound := hsound.congr rfl rfl rfl
  exact liveCount_foldl_applyAction_le hempty (fun _ h => h) world.action_queue_ []

theorem length_new_players_le (world : World K) :
    (world.processInputQueue []).2.length ≤ world.joins := by
  have hsubset : (world.processInputQueue []).2.map PendingJoin.session_id ⊆
      ((world.action_queue_.filter (·.type = .PlayerJoin)).map (·.session_id)).dedup := by
    intro s hs
    obtain ⟨join, hjoin, rfl⟩ := List.mem_map.mp hs
    obtain ⟨action, hmem, htype, hsession⟩ :=
      (exists_new_player_iff world join.session_id).mp ⟨join, hjoin, rfl⟩
    rw [List.mem_dedup]
    exact List.mem_map.mpr ⟨action, List.mem_filter.mpr ⟨hmem, decide_eq_true htype⟩, hsession⟩
  have hle := (List.subperm_of_subset (nodup_new_players world) hsubset).length_le
  rwa [List.length_map] at hle

theorem length_drawWeights_le (uniform : AsteroidFactory.Uniform K) (rounds draw : ℕ)
    (remaining : K) :
    (AsteroidFactory.drawWeights uniform rounds draw remaining).length ≤ rounds := by
  induction rounds generalizing draw remaining with
  | zero => exact le_rfl
  | succ rounds ih =>
    unfold AsteroidFactory.drawWeights
    split
    · exact Nat.succ_le_succ (ih _ _)
    · exact Nat.zero_le _

theorem liveCount_update_le (uniform : AsteroidFactory.Uniform K) (area : Math.Circle K)
    (pool : EntityPool K) :
    liveCount (AsteroidFactory.update uniform area pool) ≤
      liveCount pool + AsteroidFactory.kMaxRounds := by
  have hfold (asteroids : List (K × Math.Vector2D K)) (pool : EntityPool K) :
      liveCount (asteroids.foldl (fun pool asteroid =>
        AsteroidFactory.createAsteroid pool asteroid.1 asteroid.2) pool) ≤
        liveCount pool + asteroids.length := by
    induction asteroids generalizing pool with
    | nil => exact le_rfl
    | cons asteroid asteroids ih =>
      have hcreate : liveCount (AsteroidFactory.createAsteroid pool asteroid.1 asteroid.2) ≤
          liveCount pool + 1 := liveCount_acquire_modify_le pool _
      calc _ ≤ liveCount (AsteroidFactory.createAsteroid pool asteroid.1 asteroid.2) +
            asteroids.length := ih _
        _ ≤ liveCount pool + (asteroid :: asteroids).length := by
          rw [List.length_cons]
          omega
  -- There is an asteroid for each weight, and a weight for each round at most.
  have hweights (current_weight : K) :
      (AsteroidFactory.generateAsteroidWeight uniform current_weight).length ≤
        AsteroidFactory.kMaxRounds := by
    unfold AsteroidFactory.generateAsteroidWeight
    split
    · exact Nat.zero_le _
    · dsimp only
      split
      · exact Nat.zero_le _
      · exact length_drawWeights_le _ _ _ _
  unfold AsteroidFactory.update
  dsimp only
  split
  · exact Nat.le_add_right _ _
  · refine (hfold _ pool).trans (Nat.add_le_add_left ?_ _)
    rw [List.length_zip]
    exact (Nat.min_le_left _ _).trans (hweights _)

theorem liveCount_spawnShips_le (world : World K) (joins : List PendingJoin) :
    liveCount (world.spawnShips joins).entities_ ≤ liveCount world.entities_ + joins.length := by
  induction joins generalizing world with
  | nil => exact le_rfl
  | cons join joins ih =>
    have hspawn : liveCount (world.spawnShip join).entities_ ≤ liveCount world.entities_ + 1 :=
      liveCount_acquire_modify_le world.entities_ _
    refine (ih (world.spawnShip join)).trans ?_
    rw [List.length_cons]
    omega

end Counts

/-! ### The payload -/

/-- What a step of a tick after the draining may do: it brings no entity to life and
publishes no broadcast. -/
structure Shrinks (world world' : World K) : Prop where
  live : liveCount world'.entities_ ≤ liveCount world.entities_
  broadcasts : ∀ payload,
    .SendPacketEvent NetworkResponseRouter.kBroadcastSessionId payload ∈ world'.published →
      .SendPacketEvent NetworkResponseRouter.kBroadcastSessionId payload ∈ world.published

theorem Shrinks.refl (world : World K) : Shrinks world world := ⟨le_rfl, fun _ h => h⟩

theorem Shrinks.trans {a b c : World K} (h : Shrinks a b) (h' : Shrinks b c) : Shrinks a c :=
  ⟨h'.live.trans h.live, fun payload hmem => h.broadcasts payload (h'.broadcasts payload hmem)⟩

theorem Evolved.shrinks {world world' : World K} (h : Evolved world world') :
    Shrinks world world' := by
  obtain ⟨pool, hpool, rfl⟩ := h
  exact ⟨liveCount_le_of_evolves hpool, fun _ h => h⟩

theorem shrinks_publish (choice : TickChoice K) (session_id : SessionId) :
    Keeps Shrinks (publish choice (.ShipDestroyedEvent session_id) : Action K PUnit) := by
  intro world
  unfold publish
  cases choice.refuses (.ShipDestroyedEvent session_id) with
  | some e => exact .refl world
  | none =>
    refine ⟨le_rfl, fun payload hmem => ?_⟩
    rcases List.mem_append.mp hmem with hmem | hmem
    · exact hmem
    · cases List.mem_singleton.mp hmem

theorem shrinks_reapSession (choice : TickChoice K) (destroyed_ids : List EntityId)
    (session_id : SessionId) : Keeps Shrinks (reapSession choice destroyed_ids session_id) := by
  refine keeps_get_bind fun world => ?_
  cases world.session_to_ship_.lookup session_id with
  | none => exact .refl world
  | some ship_id =>
    dsimp only
    split
    · refine Keeps.bind (R := Shrinks) (fun _ _ _ => Shrinks.trans)
        (shrinks_publish choice session_id) (fun _ => ?_) world
      exact keeps_of_forall fun world => ⟨le_rfl, fun _ h => h⟩
    · exact .refl world

theorem shrinks_reapDestroyedShips (choice : TickChoice K) :
    Keeps Shrinks (reapDestroyedShips choice) := by
  refine keeps_get_bind fun world => ?_
  refine Keeps.bind (R := Shrinks) (fun _ _ _ => Shrinks.trans) ?_ (fun _ => ?_) world
  · exact keeps_forM Shrinks.refl (fun _ _ _ => Shrinks.trans) fun session_id _ =>
      shrinks_reapSession choice _ session_id
  · exact keeps_of_forall fun world => ⟨liveCount_recycleDestroyed_le _, fun _ h => h⟩

variable [Scalar K] {ext : Externals K} {choice : TickChoice K} {tick_interval : ℕ}
  {world world' : World K}

/-- Movement, collisions and the clean-up after them. -/
theorem shrinks_resolveCollisions (choice : TickChoice K) (world : World K) (dt : K) :
    Shrinks world (resultState (resolveCollisions choice (world.updatePhysics dt))) := by
  have hcollisions : Keeps Shrinks (resolveCollisions choice) :=
    Keeps.bind (R := Shrinks) (fun _ _ _ => Shrinks.trans)
      (fun world => (evolved_collidePairs world).shrinks)
      fun _ => shrinks_reapDestroyedShips choice
  exact (evolved_updatePhysics world dt).shrinks.trans (hcollisions _)

/-- A tick shows what it found and what it added. -/
theorem liveCount_simulateTick_le (hsound : world.Sound)
    (h : simulateTick choice tick_interval world = .ok ⟨⟩ world') :
    liveCount world'.entities_ ≤ liveCount world.entities_ + world.shots + world.joins +
      AsteroidFactory.kMaxRounds := by
  have hshrinks := shrinks_resolveCollisions choice (world.processInputQueue []).1
    (secondsOfMicros tick_interval)
  rw [simulateTick_eq] at h
  cases hresult : resolveCollisions choice
      ((world.processInputQueue []).1.updatePhysics (secondsOfMicros tick_interval)) with
  | error e mid => rw [hresult] at h; cases h
  | ok _ mid =>
    rw [hresult] at h hshrinks
    cases h
    have hdrained := liveCount_processInputQueue_le hsound
    have hcollided : liveCount mid.entities_ ≤ _ := hshrinks.live
    have hasteroids : liveCount (mid.maintainAsteroidPopulation choice).entities_ ≤ _ :=
      liveCount_update_le choice.uniform mid.freePosition mid.entities_
    have hspawned := liveCount_spawnShips_le (mid.maintainAsteroidPopulation choice)
      (world.processInputQueue []).2
    have hjoins := length_new_players_le world
    omega

/-- Until its snapshot a tick publishes no broadcast. -/
theorem broadcasts_simulateTick (choice : TickChoice K) (world : World K) {payload : Bytes}
    (h : .SendPacketEvent NetworkResponseRouter.kBroadcastSessionId payload ∈
      (resultState (simulateTick choice tick_interval world)).published) :
    .SendPacketEvent NetworkResponseRouter.kBroadcastSessionId payload ∈ world.published := by
  have hshrinks := shrinks_resolveCollisions choice (world.processInputQueue []).1
    (secondsOfMicros tick_interval)
  rw [← published_processInputQueue world []]
  refine hshrinks.broadcasts payload ?_
  rw [simulateTick_eq] at h
  cases hresult : resolveCollisions choice
      ((world.processInputQueue []).1.updatePhysics (secondsOfMicros tick_interval)) with
  | error e mid =>
    rw [hresult] at h
    exact h
  | ok _ mid =>
    rw [hresult] at h
    exact published_spawnShips (mid.maintainAsteroidPopulation choice) _ ▸ h

/-! ### Ticks in which nothing meets -/

/-- Two entities with a transform do not overlap, and the test of it does not fail. -/
def apart (a b : Entity K) : Bool :=
  match a.transform, b.transform with
  | some ta, some tb =>
    match Math.checkCircleCollision ta.position a.radius tb.position b.radius with
    | .ok hit => !hit
    | .error _ => false
  | _, _ => true

theorem collidePair_eq_self {i j : ℕ}
    (h : ∀ a b, world.entities_.at? i = some a → world.entities_.at? j = some b →
      mayCollide a.type b.type = true → apart a b = true) :
    collidePair i j world = .ok ⟨⟩ world := by
  unfold collidePair
  rw [bind_eq_ok]
  refine ⟨world, world, rfl, ?_⟩
  rcases hi : collider world.entities_ i with _ | ⟨a, ta⟩
  · rfl
  · rcases hj : collider world.entities_ j with _ | ⟨b, tb⟩
    · rfl
    · dsimp only
      split
      · next hmay =>
        have hapart := h a b (at?_of_collider hi) (at?_of_collider hj) hmay
        rw [apart, (of_collider_eq_some hi).2.2, (of_collider_eq_some hj).2.2] at hapart
        dsimp only at hapart
        rcases hcheck : Math.checkCircleCollision ta.position a.radius tb.position b.radius
          with e | hit
        · rw [hcheck] at hapart
          cases hapart
        · cases hit with
          | false => rfl
          | true =>
            rw [hcheck] at hapart
            cases hapart
      · rfl

theorem collidePairs_eq_self
    (h : ∀ i j a b, i < j → world.entities_.at? i = some a → world.entities_.at? j = some b →
      mayCollide a.type b.type = true → apart a b = true) :
    collidePairs world = .ok ⟨⟩ world := by
  have hrow (n i : ℕ) : collideRow n i world = .ok ⟨⟩ world := by
    refine forM_eq_self fun j hj => collidePair_eq_self fun a b => h i j a b ?_
    exact (List.mem_range'_1.mp hj).1
  exact forM_eq_self fun i _ => hrow _ i

omit [Scalar K] in
theorem recycleDestroyed_eq_self {pool : EntityPool K}
    (h : ∀ i e, pool.at? i = some e → e.isDestroyed = false) : pool.recycleDestroyed = pool := by
  refine List.foldl_fixed' (fun i => ?_) _
  unfold EntityPool.recycleSlot
  split
  · next e hslot =>
    rw [h i e (EntityPool.at?_eq_some.mpr hslot)]
    rfl
  · rfl

omit [Scalar K] in
theorem reapDestroyedShips_eq_self
    (h : ∀ i e, world.entities_.at? i = some e → e.isDestroyed = false) :
    reapDestroyedShips choice world = .ok ⟨⟩ world := by
  have hnone (id : EntityId) : id ∉ destroyedIds world.entities_ := by
    intro hmem
    obtain ⟨i, e, hat, hdestroyed, -⟩ := mem_destroyedIds.mp hmem
    rw [h i e hat] at hdestroyed
    cases hdestroyed
  have hreap (session_id : SessionId) :
      reapSession choice (destroyedIds world.entities_) session_id world = .ok ⟨⟩ world := by
    unfold reapSession
    rw [bind_eq_ok]
    refine ⟨world, world, rfl, ?_⟩
    cases world.session_to_ship_.lookup session_id with
    | none => rfl
    | some ship_id =>
      dsimp only
      rw [if_neg (hnone ship_id)]
      rfl
  unfold reapDestroyedShips
  rw [bind_eq_ok]
  refine ⟨world, world, rfl, ?_⟩
  rw [bind_eq_ok]
  refine ⟨⟨⟩, world, forM_eq_self fun session_id _ => hreap session_id, ?_⟩
  change EStateM.Result.ok _ { world with entities_ := world.entities_.recycleDestroyed } = _
  rw [recycleDestroyed_eq_self h]

theorem bound_with_id (e : Entity K) (t : TransformComponent K) (width height : K)
    (id : EntityId) :
    bound { e with id := id } t width height = { bound e t width height with id := id } := by
  unfold bound
  by_cases hasteroid : e.type = .Asteroid
  · simp only [hasteroid, if_true]
  · simp only [hasteroid, if_false]
    split_ifs <;> cases e.type <;> rfl

/-- Moving an entity does not look at its identifier. -/
theorem moveEntity_with_id (dt width height : K) (e : Entity K) (id : EntityId) :
    moveEntity dt width height { e with id := id } =
      { moveEntity dt width height e with id := id } := by
  unfold moveEntity
  dsimp only
  split_ifs
  · rfl
  · split
    · next htransform =>
      rw [htransform]
    · next t htransform =>
      rw [htransform]
      exact bound_with_id e (integrate e t dt) width height id

/-! ### Runs -/

/-- A payload that every session can frame, so that none closes because of it. -/
structure Deliverable (K : Type) (payload : Bytes) : Prop where
  fits : payload.length ≤ FrameCodec.kMaxMessageSize
  framed : ∃ frame, FrameCodec.encode payload = .ok frame
  kept : ∀ (session : Session K) (queue : List Bytes),
    session.write_queue_ = payload :: queue → session.doWrite.closed_ = session.closed_

omit [Scalar K] in
theorem deliverable_of_fits {payload : Bytes}
    (h : payload.length ≤ FrameCodec.kMaxMessageSize) : Deliverable K payload := by
  obtain ⟨frame, hframe, -⟩ := FrameCodec.encode_of_fits h
  refine ⟨h, ⟨frame, hframe⟩, fun session queue hqueue => ?_⟩
  unfold Session.doWrite
  split
  · rfl
  · rw [hqueue]
    dsimp only
    rw [hframe]

/-- The next tick has room for its snapshot: the live entities, a bullet for each queued shot
of a session with a ship, a ship for each session that joins and the new asteroids, when an
entity takes at most `bound` bytes. -/
def HasRoom (bound : ℕ) (world : World K) : Op K → Prop
  | .tick _ _ =>
    12 + World.kMaxLeaderboardSize * GameSnapshot.kMinLeaderboardEntrySize +
        (liveCount world.entities_ + world.shots + world.joins + AsteroidFactory.kMaxRounds) *
          (GameSnapshot.kMinEntitySize + bound) ≤ FrameCodec.kMaxMessageSize
  | _ => True

instance (bound : ℕ) (world : World K) (op : Op K) : Decidable (HasRoom bound world op) := by
  cases op <;> unfold HasRoom <;> infer_instance

omit [Scalar K] in
theorem length_buildLeaderboard_le (world : World K) :
    (world.buildLeaderboard ext).length ≤ World.kMaxLeaderboardSize := by
  unfold buildLeaderboard
  dsimp only
  rw [List.length_take]
  exact (Nat.min_le_left _ _).trans (Nat.min_le_left _ _)

omit [Scalar K] in
/-- The payload of a snapshot is bounded by the live entities. -/
theorem length_payload_le {bound : ℕ}
    (hbody : ∀ e : Entity K, (ext.wire.SerializeEntity (toEntitySnapshot e)).length ≤ bound)
    {current_tick : UInt64} {payload : Bytes}
    (h : (world.buildGameSnapshot ext current_tick).Serialize ext.wire = .ok payload) :
    payload.length ≤ 12 + World.kMaxLeaderboardSize * GameSnapshot.kMinLeaderboardEntrySize +
      liveCount world.entities_ * (GameSnapshot.kMinEntitySize + bound) := by
  rw [GameSnapshot.length_of_Serialize h]
  refine Nat.add_le_add (Nat.add_le_add_left ?_ 12) ?_
  · exact Nat.mul_le_mul_right _ (length_buildLeaderboard_le world)
  · rw [← length_buildEntitySnapshots]
    refine (List.sum_le_card_nsmul _ (GameSnapshot.kMinEntitySize + bound) ?_).trans ?_
    · intro size hsize
      obtain ⟨snapshot, hsnapshot, rfl⟩ := List.mem_map.mp hsize
      obtain ⟨slot, -, hslot⟩ := List.mem_filterMap.mp hsnapshot
      split at hslot
      · obtain ⟨e, -, rfl⟩ := Option.map_eq_some_iff.mp hslot
        exact Nat.add_le_add_left (hbody e) _
      · cases hslot
    · rw [List.length_map]
      exact le_rfl

/-- A broadcast of a step is the snapshot of the world that its tick has come to. -/
theorem broadcast_of_step {op : Op K} {payload : Bytes}
    (h : .SendPacketEvent NetworkResponseRouter.kBroadcastSessionId payload ∈
      (step ext tick_interval world op).published) :
    .SendPacketEvent NetworkResponseRouter.kBroadcastSessionId payload ∈ world.published ∨
      ∃ choice current_tick mid, op = .tick choice current_tick ∧
        simulateTick choice tick_interval world = .ok PUnit.unit mid ∧
        (mid.buildGameSnapshot ext current_tick).Serialize ext.wire = .ok payload := by
  cases op with
  | event event =>
    obtain ⟨actions, heq, -⟩ := onEvent_eq event world
    change _ ∈ (onEvent event world).published at h
    rw [heq] at h
    exact .inl h
  | discardActions => exact .inl h
  | tick choice current_tick =>
    have hearlier (hmem : .SendPacketEvent NetworkResponseRouter.kBroadcastSessionId payload ∈
        (resultState (simulateTick choice tick_interval world)).published) :=
      broadcasts_simulateTick choice world hmem
    change _ ∈ (resultState (runTickStages ext choice tick_interval current_tick world)).published
      at h
    rw [runTickStages_eq] at h
    -- A broadcast comes from the last stage, once the simulation and the format allow it.
    cases hresult : simulateTick choice tick_interval world with
    | error e mid =>
      rw [hresult] at h hearlier
      exact .inl (hearlier h)
    | ok _ mid =>
      rw [hresult] at h hearlier
      dsimp only at h
      unfold broadcastSnapshot at h
      cases hserialize : (mid.buildGameSnapshot ext current_tick).Serialize ext.wire with
      | error e =>
        rw [hserialize] at h
        exact .inl (hearlier h)
      | ok bytes =>
        rw [hserialize] at h
        dsimp only at h
        rw [bind_apply] at h
        unfold publish at h
        cases hrefuses : choice.refuses
            (.SendPacketEvent NetworkResponseRouter.kBroadcastSessionId bytes) with
        | some e =>
          rw [hrefuses] at h
          exact .inl (hearlier h)
        | none =>
          rw [hrefuses] at h
          rcases List.mem_append.mp h with h | h
          · exact .inl (hearlier h)
          · cases List.mem_singleton.mp h
            exact .inr ⟨choice, current_tick, mid, rfl, hresult, hserialize⟩

theorem deliverable_of_step {bound : ℕ} (hsound : world.Sound)
    (hbody : ∀ e : Entity K, (ext.wire.SerializeEntity (toEntitySnapshot e)).length ≤ bound)
    {op : Op K} (hroom : HasRoom bound world op) {payload : Bytes}
    (h : .SendPacketEvent NetworkResponseRouter.kBroadcastSessionId payload ∈
      (step ext tick_interval world op).published) :
    .SendPacketEvent NetworkResponseRouter.kBroadcastSessionId payload ∈ world.published ∨
      Deliverable K payload := by
  refine (broadcast_of_step h).imp_right ?_
  rintro ⟨choice, current_tick, mid, rfl, hresult, hserialize⟩
  have hlive := liveCount_simulateTick_le hsound hresult
  refine deliverable_of_fits ((length_payload_le hbody hserialize).trans (le_trans ?_ hroom))
  exact Nat.add_le_add_left (Nat.mul_le_mul_right _ hlive) _

/-- In a run whose ticks all have room, every session can frame every broadcast. -/
theorem deliverable_of_run {world_width world_height : K} {bound : ℕ}
    (hbody : ∀ e : Entity K, (ext.wire.SerializeEntity (toEntitySnapshot e)).length ≤ bound)
    {ops : List (Op K)}
    (hroom : (machine ext world_width world_height tick_interval).Meets (HasRoom bound) ops)
    (hrun : (machine ext world_width world_height tick_interval).run ops = some world)
    {payload : Bytes}
    (h : .SendPacketEvent NetworkResponseRouter.kBroadcastSessionId payload ∈
      world.published) : Deliverable K payload := by
  refine Machine.guarded_induction (HasRoom bound)
    (motive := fun _ world =>
      .SendPacketEvent NetworkResponseRouter.kBroadcastSessionId payload ∈ world.published →
        Deliverable K payload)
    (fun h => by cases h) ?_ hroom hrun h
  intro ops before op after hbefore _ ih hguard hstep hmem
  have hsound : before.Sound := sound_of_reachable ext ⟨ops, hbefore⟩
  obtain rfl := Option.some.inj hstep
  exact (deliverable_of_step hsound hbody hguard hmem).elim ih id

section Exact

attribute [local instance] RationalScalar.rational

/-- The broadcast of the tick in which the session joined. -/
def joinedPayload : Bytes :=
  List.replicate 7 0 ++ 1 :: bytesOf "Ace" ++ List.replicate 33 0 ++
    [0, 0, 0, 2, 0, 0, 0, 1, 1, 0, 0, 0, 1, 2]

theorem published_joinedWorld : joinedWorld.published =
    [.SendPacketEvent NetworkResponseRouter.kBroadcastSessionId joinedPayload] := by
  decide +kernel

/-- Session 7 has a ship and shoots twice before the next tick. -/
def volleyOps : List (Op ℚ) :=
  [.event (.PlayerJoinEvent 7 (bytesOf "Ace")), exactTick, .event (.ShotMessageEvent 7),
    .event (.ShotMessageEvent 7), exactTick]

/-- The broadcast of this tick: two asteroids, the ship and its bullets. -/
def volleyPayload : Bytes :=
  List.replicate 7 0 ++ 1 :: bytesOf "Ace" ++ List.replicate 33 0 ++
    ([0, 0, 0, 5] ++ [1, 2, 3, 4, 5].flatMap fun body => [0, 0, 0, 1, body])

theorem deliverable_volley :
    .SendPacketEvent NetworkResponseRouter.kBroadcastSessionId volleyPayload ∈
      (exactWorld volleyOps).published ∧ Deliverable ℚ volleyPayload := by
  have hmem : .SendPacketEvent NetworkResponseRouter.kBroadcastSessionId volleyPayload ∈
      (exactWorld volleyOps).published := by decide +kernel
  have hbody (e : Entity ℚ) :
      (exactExternals.wire.SerializeEntity (toEntitySnapshot e)).length ≤ 1 := le_rfl
  have hroom : exactMachine.Meets (HasRoom 1) volleyOps :=
    Machine.meets_of_checks (by decide +kernel)
  exact ⟨hmem, deliverable_of_run hbody hroom (run_exactMachine volleyOps) hmem⟩

/-! ### A flood of shots -/

theorem modify_concat {α : Type} (xs : List α) (x : α) (f : α → α) :
    (xs ++ [x]).modify xs.length f = xs ++ [f x] := by
  induction xs with
  | nil => rfl
  | cons y xs ih => exact congrArg (y :: ·) ih

def joinedAsteroid : Entity ℚ :=
  { (Entity.fresh 1 : Entity ℚ) with
    type := .Asteroid, mass := 10, radius := 300
    transform := some ⟨⟨0, 0⟩, ⟨0, 0⟩, 0⟩, health := some {}
    asteroid := some { score_reward := 10 } }

def joinedShip : Entity ℚ := outfitShip ⟨⟨650, 0⟩, 0⟩ (bytesOf "Ace") (Entity.fresh 2)

def joinedTransform : TransformComponent ℚ := ⟨⟨650, 0⟩, ⟨0, 0⟩, 0⟩

/-- A bullet that the ship has just shot. -/
def joinedBullet (id : EntityId) : Entity ℚ :=
  { (Entity.fresh id : Entity ℚ) with
    type := .Bullet, radius := 2
    transform := some ⟨⟨655, 0⟩, ⟨500, 0⟩, 0⟩, combat := some { damage := 25, owner_id := 2 } }

/-- The joined world when it has drained some shots. -/
structure Flooded (shots : ℕ) (world : World ℚ) : Prop where
  width : world.world_width_ = World.kDefaultWidth
  height : world.world_height_ = World.kDefaultHeight
  storage : world.entities_.storage_ = [some joinedAsteroid, some joinedShip] ++
    (List.range shots).map fun k => some (joinedBullet (3 + k))
  free : world.entities_.free_indices_ = []
  next : world.entities_.next_id_ = 3 + shots
  index : world.entities_.id_to_indices_.lookup 2 = some 1
  mapped : world.session_to_ship_.lookup 7 = some 2

theorem flooded_joinedWorld : Flooded 0 joinedWorld := by
  have hfacts : joinedWorld.world_width_ = World.kDefaultWidth ∧
      joinedWorld.world_height_ = World.kDefaultHeight ∧
      joinedWorld.entities_.storage_ = [some joinedAsteroid, some joinedShip] ∧
      joinedWorld.entities_.free_indices_ = [] ∧ joinedWorld.entities_.next_id_ = 3 ∧
      joinedWorld.entities_.id_to_indices_.lookup 2 = some 1 ∧
      joinedWorld.session_to_ship_.lookup 7 = some 2 := by decide +kernel
  obtain ⟨hwidth, hheight, hstorage, hfree, hnext, hindex, hmapped⟩ := hfacts
  exact ⟨hwidth, hheight, hstorage, hfree, hnext, hindex, hmapped⟩

/-- One more shot, one more bullet. -/
theorem Flooded.shot {shots : ℕ} {world : World ℚ} (h : Flooded shots world) :
    Flooded (shots + 1) (world.applyMoveAndShoot (shotAction 7)) := by
  have hship : world.entities_.at? 1 = some joinedShip := by
    rw [EntityPool.at?, h.storage]
    rfl
  have hfind : world.entities_.findByEntityID 2 = some (1, joinedShip) := by
    rw [EntityPool.findByEntityID, h.index, Option.bind_some, hship]
    rfl
  have hstorage : world.entities_.storage_.modify 1 (Option.map fun ship =>
      { ship with transform := some joinedTransform }) = world.entities_.storage_ := by
    rw [h.storage]
    rfl
  -- The ship has looked along the axis before.
  have hturn : (world.entities_.modify 1 fun ship =>
      { ship with transform := some joinedTransform }) = world.entities_ := by
    rw [EntityPool.modify, hstorage]
  have hshoot : world.applyMoveAndShoot (shotAction 7) = { world with
      entities_ := createBullet world.entities_ 2 joinedTransform joinedShip.radius } := by
    have hlookup : world.session_to_ship_.lookup (shotAction 7 : ActionEvent ℚ).session_id =
        some 2 := h.mapped
    unfold applyMoveAndShoot
    rw [hlookup]
    dsimp only
    rw [hfind]
    change { world with
      entities_ := createBullet (world.entities_.modify 1 fun ship =>
        { ship with transform := some joinedTransform }) 2 joinedTransform joinedShip.radius } = _
    rw [hturn]
  have hmuzzle : joinedTransform.position + (⟨cos joinedTransform.angle,
      sin joinedTransform.angle⟩ : Math.Vector2D ℚ) * joinedShip.radius = ⟨655, 0⟩ ∧
      (⟨cos joinedTransform.angle, sin joinedTransform.angle⟩ : Math.Vector2D ℚ) *
        (World.kBulletSpeed : ℚ) = ⟨500, 0⟩ := by decide +kernel
  rw [hshoot]
  unfold createBullet EntityPool.acquire
  rw [h.free, h.next]
  refine ⟨h.width, h.height, ?_, rfl, rfl, ?_, h.mapped⟩
  · change (world.entities_.storage_ ++ [_]).modify world.entities_.storage_.length _ = _
    rw [modify_concat, Option.map_some]
    dsimp only
    rw [hmuzzle.1, hmuzzle.2, h.storage, List.range_succ, List.map_append, List.append_assoc]
    rfl
  · change (world.entities_.id_to_indices_.insert (3 + shots) _).lookup 2 = some 1
    rw [AList.lookup_insert_ne (by omega)]
    exact h.index

theorem Flooded.drain {shots : ℕ} {world : World ℚ} (h : Flooded shots world) (more : ℕ)
    (new_players : List PendingJoin) :
    ∃ world', (List.replicate more (shotAction 7)).foldl applyAction (world, new_players) =
      (world', new_players) ∧ Flooded (shots + more) world' := by
  induction more generalizing shots world with
  | zero => exact ⟨world, rfl, h⟩
  | succ more ih =>
    obtain ⟨world', hfold, hflooded⟩ := ih h.shot
    refine ⟨world', ?_, Nat.add_right_comm shots 1 more ▸ hflooded⟩
    rw [List.replicate_succ, List.foldl_cons]
    exact hfold

/-- An entity after the movement of one tick. -/
def afterTick (e : Entity ℚ) : Entity ℚ :=
  moveEntity (secondsOfMicros 16666) World.kDefaultWidth World.kDefaultHeight e

theorem Flooded.storage_updatePhysics {shots : ℕ} {world : World ℚ} (h : Flooded shots world) :
    (world.updatePhysics (secondsOfMicros 16666)).entities_.storage_ =
      [some (afterTick joinedAsteroid), some (afterTick joinedShip)] ++
        (List.range shots).map fun k =>
          some { afterTick (joinedBullet 0) with id := 3 + k } := by
  have hbullet (k : ℕ) : afterTick (joinedBullet (3 + k)) =
      { afterTick (joinedBullet 0) with id := 3 + k } :=
    moveEntity_with_id _ _ _ (joinedBullet 0) (3 + k)
  change world.entities_.storage_.map (Option.map (moveEntity _ world.world_width_
    world.world_height_)) = _
  rw [h.storage, h.width, h.height, List.map_append, List.map_map]
  refine congrArg _ (List.map_congr_left fun k _ => ?_)
  exact congrArg some (hbullet k)

/-- What the slots hold after the movement. -/
theorem Flooded.moved {shots : ℕ} {world : World ℚ} (h : Flooded shots world) {i : ℕ}
    {e : Entity ℚ}
    (hat : (world.updatePhysics (secondsOfMicros 16666)).entities_.at? i = some e) :
    i = 0 ∧ e = afterTick joinedAsteroid ∨ i = 1 ∧ e = afterTick joinedShip ∨
      2 ≤ i ∧ ∃ id, e = { afterTick (joinedBullet 0) with id := id } := by
  rw [EntityPool.at?_eq_some, h.storage_updatePhysics] at hat
  match i with
  | 0 =>
    cases hat
    exact .inl ⟨rfl, rfl⟩
  | 1 =>
    cases hat
    exact .inr (.inl ⟨rfl, rfl⟩)
  | k + 2 =>
    have hmem := List.mem_of_getElem? (l := (List.range shots).map fun k =>
      some { afterTick (joinedBullet 0) with id := 3 + k }) hat
    obtain ⟨l, -, hl⟩ := List.mem_map.mp hmem
    exact .inr (.inr ⟨Nat.le_add_left 2 k, 3 + l, (Option.some.inj hl).symm⟩)

/-- In the tick that drains the flood nothing collides. -/
theorem Flooded.resolveCollisions {shots : ℕ} {world : World ℚ} (h : Flooded shots world) :
    resolveCollisions exactChoice (world.updatePhysics (secondsOfMicros 16666)) =
      .ok ⟨⟩ (world.updatePhysics (secondsOfMicros 16666)) := by
  have hapart : apart (afterTick joinedAsteroid) (afterTick joinedShip) = true ∧
      apart (afterTick joinedAsteroid) (afterTick (joinedBullet 0)) = true ∧
      apart (afterTick joinedShip) (afterTick (joinedBullet 0)) = true := by decide +kernel
  have hlive : (afterTick joinedAsteroid).isDestroyed = false ∧
      (afterTick joinedShip).isDestroyed = false ∧
      (afterTick (joinedBullet 0)).isDestroyed = false ∧
      (afterTick (joinedBullet 0)).type = .Bullet := by decide +kernel
  obtain ⟨hship, hbullet, hedge⟩ := hapart
  -- All pairs that may collide are apart.
  have hpairs : collidePairs (world.updatePhysics (secondsOfMicros 16666)) =
      .ok ⟨⟩ (world.updatePhysics (secondsOfMicros 16666)) :=
    collidePairs_eq_self fun i j a b hij hi hj hmay => by
      rcases h.moved hi with ⟨rfl, rfl⟩ | ⟨rfl, rfl⟩ | ⟨hi, id, rfl⟩
      · rcases h.moved hj with ⟨rfl, rfl⟩ | ⟨rfl, rfl⟩ | ⟨-, id', rfl⟩
        · exact absurd hij (lt_irrefl 0)
        · exact hship
        · exact hbullet
      · rcases h.moved hj with ⟨rfl, rfl⟩ | ⟨rfl, rfl⟩ | ⟨-, id', rfl⟩
        · omega
        · exact absurd hij (lt_irrefl 1)
        · exact hedge
      · rcases h.moved hj with ⟨rfl, rfl⟩ | ⟨rfl, rfl⟩ | ⟨-, id', rfl⟩
        · omega
        · omega
        · -- Bullets do not collide with each other.
          rw [hlive.2.2.2] at hmay
          cases hmay
  have hreap : reapDestroyedShips exactChoice (world.updatePhysics (secondsOfMicros 16666)) =
      .ok ⟨⟩ (world.updatePhysics (secondsOfMicros 16666)) :=
    reapDestroyedShips_eq_self fun i e hat => by
      rcases h.moved hat with ⟨-, rfl⟩ | ⟨-, rfl⟩ | ⟨-, id, rfl⟩
      · exact hlive.1
      · exact hlive.2.1
      · exact hlive.2.2.1
  unfold World.resolveCollisions
  rw [bind_eq_ok]
  exact ⟨⟨⟩, _, hpairs, hreap⟩

/-- The joined world with some shots in its queue. -/
def floodedWorld (shots : ℕ) : World ℚ :=
  { joinedWorld with action_queue_ := List.replicate shots (shotAction 7) }

theorem foldl_shots (shots : ℕ) :
    (List.replicate shots (.event (.ShotMessageEvent 7))).foldl (step exactExternals 16666)
      joinedWorld = floodedWorld shots := by
  have hqueue : joinedWorld.action_queue_ = [] := by decide +kernel
  have hfold (shots : ℕ) (world : World ℚ) :
      (List.replicate shots (.event (.ShotMessageEvent 7))).foldl (step exactExternals 16666)
        world = { world with action_queue_ :=
          world.action_queue_ ++ List.replicate shots (shotAction 7) } := by
    induction shots generalizing world with
    | zero => rw [List.replicate_zero, List.replicate_zero, List.append_nil, List.foldl_nil]
    | succ shots ih =>
      rw [List.replicate_succ, List.foldl_cons, ih]
      have hevent : step exactExternals 16666 world (.event (.ShotMessageEvent 7)) =
          world.enqueueAction (shotAction 7) := rfl
      rw [hevent, enqueueAction, List.append_assoc]
      rfl
  rw [hfold, hqueue, List.nil_append, floodedWorld]

theorem reachable_floodedWorld (shots : ℕ) : exactMachine.Reachable (floodedWorld shots) := by
  refine ⟨[.event (.PlayerJoinEvent 7 (bytesOf "Ace")), exactTick] ++
    List.replicate shots (.event (.ShotMessageEvent 7)), ?_⟩
  rw [run_exactMachine, exactWorld, List.foldl_append, ← foldl_shots]
  rfl

/-- The tick that drains the flood shows at least its bullets. -/
theorem simulateTick_floodedWorld (shots : ℕ) :
    ∃ world, simulateTick exactChoice 16666 (floodedWorld shots) = .ok ⟨⟩ world ∧
      shots ≤ liveCount world.entities_ := by
  have hempty : Flooded 0 { floodedWorld shots with action_queue_ := [] } := by
    obtain ⟨hwidth, hheight, hstorage, hfree, hnext, hindex, hmapped⟩ := flooded_joinedWorld
    exact ⟨hwidth, hheight, hstorage, hfree, hnext, hindex, hmapped⟩
  obtain ⟨drained, hdrain, hflooded⟩ := hempty.drain shots []
  rw [Nat.zero_add] at hflooded
  have hprocess : (floodedWorld shots).processInputQueue [] = (drained, []) := hdrain
  have hsound : (drained.updatePhysics (secondsOfMicros 16666)).Sound := by
    have hreachable := sound_of_reachable _ (reachable_floodedWorld shots)
    have hdrained := hreachable.processInputQueue []
    rw [hprocess] at hdrained
    exact ((evolved_updatePhysics drained _).quiet hdrained).1
  refine ⟨(drained.updatePhysics (secondsOfMicros 16666)).maintainAsteroidPopulation exactChoice,
    ?_, ?_⟩
  · rw [simulateTick_eq, hprocess]
    dsimp only
    rw [hflooded.resolveCollisions]
    rfl
  · refine le_trans ?_ (liveCount_le_of_extends
      (AsteroidFactory.extends_update exactChoice.uniform _ hsound.pool))
    have hactive : EntityPool.isActive (some (afterTick (joinedBullet 0))) = true := by
      decide +kernel
    have hbullets : ((List.range shots).map fun k =>
        some { afterTick (joinedBullet 0) with id := 3 + k }).countP EntityPool.isActive =
          shots := by
      rw [List.countP_eq_length.mpr, List.length_map, List.length_range]
      intro slot hslot
      obtain ⟨k, -, rfl⟩ := List.mem_map.mp hslot
      exact hactive
    rw [liveCount, hflooded.storage_updatePhysics, List.countP_append, hbullets]
    exact Nat.le_add_left _ _

/-- The snapshot after the flood has at least five bytes for each shot. -/
theorem broadcast_floodedWorld (shots : ℕ) (hshots : shots ≤ 2 ^ 30) :
    ∃ payload : Bytes, 5 * shots ≤ payload.length ∧
      .SendPacketEvent NetworkResponseRouter.kBroadcastSessionId payload ∈
        (step exactExternals 16666 (floodedWorld shots) (.tick exactChoice 1)).published := by
  obtain ⟨world, hsimulate, hlive⟩ := simulateTick_floodedWorld shots
  have hsound := sound_of_reachable _ (reachable_floodedWorld shots)
  -- The entities still fit into the counter of the format.
  have hcount : liveCount world.entities_ ≤ kMaxCount := by
    have hle := liveCount_simulateTick_le hsound hsimulate
    have hjoined : liveCount (floodedWorld shots).entities_ = 2 := by
      change liveCount joinedWorld.entities_ = 2
      decide +kernel
    have hdrained : (floodedWorld shots).shots ≤ shots :=
      List.countP_le_length.trans_eq List.length_replicate
    have hjoins : (floodedWorld shots).joins ≤ shots := by
      refine (List.dedup_sublist _).length_le.trans ?_
      rw [List.length_map]
      exact (List.length_filter_le _ _).trans_eq List.length_replicate
    rw [kMaxCount]
    rw [hjoined, AsteroidFactory.kMaxRounds] at hle
    omega
  obtain ⟨payload, hserialize⟩ : ∃ payload,
      (world.buildGameSnapshot exactExternals 1).Serialize exactExternals.wire = .ok payload := by
    refine GameSnapshot.exists_Serialize ?_ ?_ fun entity _ => ?_
    · exact (length_buildEntitySnapshots world.entities_).trans_le hcount
    · exact (length_buildLeaderboard_le world).trans (by decide)
    · exact (by decide : 1 ≤ kMaxCount)
  refine ⟨payload, ?_, ?_⟩
  · -- Every entity takes at least five bytes.
    have hrecords : ((buildEntitySnapshots world.entities_).map fun entity =>
        GameSnapshot.kMinEntitySize + (exactExternals.wire.SerializeEntity entity).length).sum =
          liveCount world.entities_ * 5 := by
      rw [← length_buildEntitySnapshots, ← List.sum_replicate_nat, ← List.map_const']
      rfl
    rw [GameSnapshot.length_of_Serialize hserialize]
    change 5 * shots ≤ 12 + _ + ((buildEntitySnapshots world.entities_).map _).sum
    rw [hrecords]
    omega
  · change _ ∈ (resultState (runTickStages exactExternals exactChoice 16666 1
      (floodedWorld shots))).published
    rw [runTickStages_eq, hsimulate]
    dsimp only
    unfold broadcastSnapshot
    rw [hserialize]
    exact List.mem_append_right _ (List.mem_singleton_self _)

/-- A session joins, sends shots before the next tick, and the tick takes place. -/
def flood (shots : ℕ) : List (Input ℚ) :=
  [.payload 7 (Protocol.encodeJoin ⟨bytesOf "Ace"⟩), .tick exactChoice 0] ++
    List.replicate shots (.payload 7 Protocol.encodeShoot) ++ [.tick exactChoice 1]

theorem run_flood (shots : ℕ) :
    exactMachine.run ((flood shots).flatMap (Input.ops true)) =
      some (step exactExternals 16666 (floodedWorld shots) (.tick exactChoice 1)) := by
  have hjoin : (Input.payload 7 (Protocol.encodeJoin ⟨bytesOf "Ace"⟩) : Input ℚ).ops true =
      [.event (.PlayerJoinEvent 7 (bytesOf "Ace")),
        .event (.SendPacketEvent 7 (bytesOf "ACCEPT"))] := by
    rw [Input.ops, NetworkResponseRouter.onMessageReceived_join]
    rfl
  have hshoot : (Input.payload 7 Protocol.encodeShoot : Input ℚ).ops true =
      [.event (.ShotMessageEvent 7)] := by
    rw [Input.ops, NetworkResponseRouter.onMessageReceived_shoot]
    rfl
  rw [run_exactMachine, flood, List.flatMap_append, List.flatMap_append, List.flatMap_cons,
    hjoin, List.flatMap_replicate, hshoot, List.flatten_replicate_singleton, exactWorld,
    List.foldl_append, List.foldl_append, ← foldl_shots]
  rfl

theorem not_deliverable_flood :
    ¬ ∀ (inputs : List (Input ℚ)) (world : World ℚ) (payload : Bytes),
      exactMachine.run (inputs.flatMap (Input.ops true)) = some world →
      .SendPacketEvent NetworkResponseRouter.kBroadcastSessionId payload ∈ world.published →
      Deliverable ℚ payload := by
  intro h
  obtain ⟨payload, hlength, hmem⟩ := broadcast_floodedWorld (2 ^ 22) (by norm_num)
  have hfits := (h _ _ payload (run_flood (2 ^ 22)) hmem).fits
  rw [FrameCodec.kMaxMessageSize] at hfits
  omega

end Exact

end SpaceShooter.Server.World
