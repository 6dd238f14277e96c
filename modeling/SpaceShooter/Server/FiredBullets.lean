/-
# Bullets and the ships that fired them

A history of shots: which ship fired which bullet, and who was there by then. Along every
run each bullet in the pool is the one of a shot and carries the identifier of its ship,
and whatever came to the pool after the shot is younger than the bullet.
-/

import SpaceShooter.Server.Heading
import SpaceShooter.Server.ShipDeaths

namespace SpaceShooter.Server.World

open Scalar Domain Library Library.Outcome

variable {K : Type}

/-! ### Shots -/

/-- History: a shot, with the slot of the ship and the ships that had been spawned by then. -/
structure Shot where
  bullet : EntityId
  session : SessionId
  shooter : EntityId
  slot : ℕ
  known : List (SessionId × EntityId)
  deriving DecidableEq, Repr

/-- The shot of an action: the ship of its session fires a bullet under the next
identifier. -/
def shotOf (world : World K) (action : ActionEvent K) : Option Shot :=
  if action.type = .MoveAndShoot ∧ action.is_shooting = true then
    (world.session_to_ship_.lookup action.session_id).bind fun ship_id =>
      (world.entities_.findByEntityID ship_id).bind fun (slot, ship) =>
        ship.transform.map fun _ =>
          ⟨world.entities_.next_id_, action.session_id, ship.id, slot, world.spawned⟩
  else
    none

/-- A shot is one of a ship that its session is mapped to. -/
theorem shotOf_eq_some {world : World K} (wf : world.entities_.WellFormed)
    {action : ActionEvent K} {shot : Shot} (h : shotOf world action = some shot) :
    action.type = .MoveAndShoot ∧ action.is_shooting = true ∧
      ∃ ship t, world.session_to_ship_.lookup action.session_id = some ship.id ∧
        world.entities_.at? shot.slot = some ship ∧ ship.transform = some t ∧
        shot = ⟨world.entities_.next_id_, action.session_id, ship.id, shot.slot,
          world.spawned⟩ := by
  unfold shotOf at h
  split_ifs at h with haction
  obtain ⟨ship_id, hmapped, h⟩ := Option.bind_eq_some_iff.mp h
  obtain ⟨⟨slot, ship⟩, hfind, h⟩ := Option.bind_eq_some_iff.mp h
  obtain ⟨t, ht, rfl⟩ := Option.map_eq_some_iff.mp h
  obtain ⟨hat, rfl⟩ := wf.findByEntityID_eq_some.mp hfind
  exact ⟨haction.1, haction.2, ship, t, hmapped, hat, ht, rfl⟩

/-! ### Steps that fire nothing -/

/-- What an entity keeps for good. -/
structure Persists (e e' : Entity K) : Prop where
  id : e'.id = e.id
  type : e'.type = e.type
  combat : e'.combat = e.combat

theorem Persists.refl (e : Entity K) : Persists e e := ⟨rfl, rfl, rfl⟩

theorem Persists.trans {a b c : Entity K} (h : Persists a b) (h' : Persists b c) :
    Persists a c :=
  ⟨h'.id.trans h.id, h'.type.trans h.type, h'.combat.trans h.combat⟩

/-- No bullet appears: entities persist in their slots, and those that are new carry new
identifiers. -/
structure HoldsFire (world world' : World K) : Prop where
  next_le : world.entities_.next_id_ ≤ world'.entities_.next_id_
  spawned : ∀ entry ∈ world'.spawned,
    entry ∈ world.spawned ∨ world.entities_.next_id_ ≤ entry.2
  slots : ∀ {i e'}, world'.entities_.at? i = some e' →
    (∃ e, world.entities_.at? i = some e ∧ Persists e e') ∨
      world.entities_.next_id_ ≤ e'.id ∧ e'.type ≠ .Bullet

theorem HoldsFire.of_eq {world world' : World K} (entities : world'.entities_ = world.entities_)
    (spawned : world'.spawned = world.spawned) : HoldsFire world world' where
  next_le := entities ▸ le_rfl
  spawned _ hentry := Or.inl (spawned ▸ hentry)
  slots {_ e} hat := Or.inl ⟨e, entities ▸ hat, .refl e⟩

theorem HoldsFire.refl (world : World K) : HoldsFire world world := .of_eq rfl rfl

theorem HoldsFire.trans {a b c : World K} (h : HoldsFire a b) (h' : HoldsFire b c) :
    HoldsFire a c where
  next_le := h.next_le.trans h'.next_le
  spawned entry hentry := by
    rcases h'.spawned entry hentry with hold | hnew
    · exact h.spawned entry hold
    · exact Or.inr (h.next_le.trans hnew)
  slots hat := by
    rcases h'.slots hat with ⟨e, he, hpersists⟩ | ⟨hid, htype⟩
    · rcases h.slots he with ⟨e₀, he₀, hpersists₀⟩ | ⟨hid, htype⟩
      · exact Or.inl ⟨e₀, he₀, hpersists₀.trans hpersists⟩
      · exact Or.inr ⟨hpersists.id ▸ hid, hpersists.type ▸ htype⟩
    · exact Or.inr ⟨h.next_le.trans hid, htype⟩

theorem holdsFire_evolves {world world' : World K}
    (h : EntityPool.Evolves Persists world.entities_ world'.entities_)
    (spawned : world'.spawned = world.spawned) : HoldsFire world world' where
  next_le := h.next.ge
  spawned _ hentry := Or.inl (spawned ▸ hentry)
  slots hat := Or.inl (h.some_of_some' hat)

theorem holdsFire_extends {P : Entity K → Prop} {world world' : World K}
    (h : EntityPool.Extends P world.entities_ world'.entities_) (hP : ∀ e, P e → e.type ≠ .Bullet)
    (spawned : ∀ entry ∈ world'.spawned,
      entry ∈ world.spawned ∨ world.entities_.next_id_ ≤ entry.2) :
    HoldsFire world world' where
  next_le := h.next_le
  spawned := spawned
  slots {i e} hat := by
    rcases h.added hat with hold | ⟨-, hPe, hid⟩
    · exact Or.inl ⟨e, hold, .refl e⟩
    · exact Or.inr ⟨hid, hP e hPe⟩

/-- From a sound world the step goes to a sound world and fires nothing. -/
def Peaceful (world world' : World K) : Prop :=
  world.Sound → world'.Sound ∧ HoldsFire world world'

theorem Peaceful.refl (world : World K) : Peaceful world world := fun h => ⟨h, .refl world⟩

theorem Peaceful.trans {a b c : World K} (h : Peaceful a b) (h' : Peaceful b c) :
    Peaceful a c := by
  intro ha
  obtain ⟨hb, hab⟩ := h ha
  obtain ⟨hc, hbc⟩ := h' hb
  exact ⟨hc, hab.trans hbc⟩

theorem clears_peaceful : Clears (Peaceful (K := K)) where
  refl := Peaceful.refl
  trans _ _ _ := Peaceful.trans
  published world events h := ⟨(quiet_published world events h).1, .of_eq rfl rfl⟩
  erased world session_id h := ⟨(quiet_erase world session_id h).1, .of_eq rfl rfl⟩
  recycled world h := by
    obtain ⟨-, hnext, hslot⟩ := EntityPool.recycleDestroyed_spec h.pool
    refine ⟨(quiet_recycle world h).1, hnext.ge, fun _ => Or.inl, fun {i e} hat => ?_⟩
    rw [hslot, EntityPool.kept_eq_some] at hat
    exact Or.inl ⟨e, hat.1, .refl e⟩

theorem peaceful_applyQuit (world : World K) (session_id : SessionId) :
    Peaceful world (world.applyQuit session_id) := by
  intro hsound
  refine ⟨(quiet_applyQuit world session_id hsound).1, ?_⟩
  unfold applyQuit
  split
  · exact .refl world
  · refine holdsFire_evolves ?_ rfl
    dsimp only
    split
    · exact EntityPool.evolves_modify .refl _ _ fun _ _ => ⟨rfl, rfl, rfl⟩
    · exact .refl .refl _

/-! ### Tracing bullets -/

/-- A shot adds its bullet, which carries the identifier of the ship. -/
structure Fires (shot : Shot) (world world' : World K) : Prop where
  bullet : shot.bullet = world.entities_.next_id_
  next : world'.entities_.next_id_ = shot.bullet + 1
  spawned : world'.spawned = world.spawned
  known : shot.known = world.spawned
  mapped : world.session_to_ship_.lookup shot.session = some shot.shooter
  ship : ∃ ship, world.entities_.at? shot.slot = some ship ∧ ship.id = shot.shooter
  slots : ∀ {i e'}, world'.entities_.at? i = some e' →
    (∃ e, world.entities_.at? i = some e ∧ Persists e e') ∨
      e'.id = shot.bullet ∧ e'.type = .Bullet ∧ e'.combat.map (·.owner_id) = some shot.shooter

/-- Every bullet comes from one of the shots, and all that came to the pool after a shot
carries an identifier beyond its bullet's. -/
structure Traced (shots : List Shot) (world : World K) : Prop where
  bullets : ∀ {i bullet}, world.entities_.at? i = some bullet → bullet.type = .Bullet →
    ∃ shot ∈ shots, shot.bullet = bullet.id ∧
      bullet.combat.map (·.owner_id) = some shot.shooter
  lt : ∀ shot ∈ shots, shot.shooter < shot.bullet ∧ shot.bullet < world.entities_.next_id_
  unique : ∀ shot ∈ shots, ∀ other ∈ shots, other.bullet = shot.bullet → other = shot
  slot : ∀ shot ∈ shots, ∀ {i e}, world.entities_.at? i = some e → e.id = shot.shooter →
    i = shot.slot
  known : ∀ shot ∈ shots, (shot.session, shot.shooter) ∈ shot.known
  late : ∀ shot ∈ shots, ∀ entry ∈ world.spawned, entry ∈ shot.known ∨ shot.bullet < entry.2

theorem Traced.holdsFire {shots : List Shot} {world world' : World K} (h : Traced shots world)
    (hstep : HoldsFire world world') : Traced shots world' where
  bullets {i bullet} hat hbullet := by
    rcases hstep.slots hat with ⟨e, he, hpersists⟩ | ⟨-, htype⟩
    · obtain ⟨shot, hshot, hid, howner⟩ := h.bullets he (hpersists.type ▸ hbullet)
      exact ⟨shot, hshot, hid.trans hpersists.id.symm, hpersists.combat ▸ howner⟩
    · exact absurd hbullet htype
  lt shot hshot := ⟨(h.lt shot hshot).1, (h.lt shot hshot).2.trans_le hstep.next_le⟩
  unique := h.unique
  slot shot hshot {i e'} hat hid := by
    rcases hstep.slots hat with ⟨e, he, hpersists⟩ | ⟨hnew, -⟩
    · exact h.slot shot hshot he (hpersists.id ▸ hid)
    · -- What is new is younger than the bullet.
      obtain ⟨hlt, hnext⟩ := h.lt shot hshot
      exact absurd (hid ▸ hnew) (Nat.not_le_of_lt (hlt.trans hnext))
  known := h.known
  late shot hshot entry hentry := by
    rcases hstep.spawned entry hentry with hold | hnew
    · exact h.late shot hshot entry hold
    · exact Or.inr ((h.lt shot hshot).2.trans_le hnew)

theorem Traced.fires {shots : List Shot} {shot : Shot} {world world' : World K}
    (h : Traced shots world) (hsound : world.Sound) (hstep : Fires shot world world') :
    Traced (shots ++ [shot]) world' := by
  have hshooter : shot.shooter < shot.bullet := hstep.bullet ▸ hsound.mapped_lt hstep.mapped
  have holder (old : Shot) (hold : old ∈ shots) : old.bullet < shot.bullet :=
    hstep.bullet ▸ (h.lt old hold).2
  have hnext : shot.bullet < world'.entities_.next_id_ := hstep.next ▸ Nat.lt_succ_self _
  refine ⟨?_, ?_, ?_, ?_, ?_, ?_⟩
  · intro i bullet hat htype
    -- A bullet is an earlier one, or the one that has just been fired.
    rcases hstep.slots hat with ⟨e, he, hpersists⟩ | ⟨hid, -, howner⟩
    · obtain ⟨old, hold, hid, howner⟩ := h.bullets he (hpersists.type ▸ htype)
      exact ⟨old, List.mem_append_left _ hold, hid.trans hpersists.id.symm,
        hpersists.combat ▸ howner⟩
    · exact ⟨shot, List.mem_append_right _ List.mem_cons_self, hid.symm, howner⟩
  · intro other hother
    rcases List.mem_append.mp hother with hold | hnew
    · exact ⟨(h.lt other hold).1, (holder other hold).trans hnext⟩
    · exact List.mem_singleton.mp hnew ▸ ⟨hshooter, hnext⟩
  · -- The new bullet carries an identifier beyond those of the earlier ones.
    intro first hfirst second hsecond heq
    rcases List.mem_append.mp hfirst with hold | hnew
    · rcases List.mem_append.mp hsecond with hold' | hnew'
      · exact h.unique first hold second hold' heq
      · obtain rfl := List.mem_singleton.mp hnew'
        exact absurd heq (holder first hold).ne'
    · obtain rfl := List.mem_singleton.mp hnew
      rcases List.mem_append.mp hsecond with hold' | hnew'
      · exact absurd heq (holder second hold').ne
      · exact List.mem_singleton.mp hnew'
  · intro other hother i e' hat hid
    rcases hstep.slots hat with ⟨e, he, hpersists⟩ | ⟨hfresh, -⟩
    · rcases List.mem_append.mp hother with hold | hnew
      · exact h.slot other hold he (hpersists.id ▸ hid)
      · obtain rfl := List.mem_singleton.mp hnew
        obtain ⟨ship, hship, hshipid⟩ := hstep.ship
        exact hsound.pool.slot_eq he hship (hpersists.id.symm.trans (hid.trans hshipid.symm))
    · -- The new entity is a bullet, younger than every ship that fired.
      have hshooters : other.shooter < shot.bullet := by
        rcases List.mem_append.mp hother with hold | hnew
        · exact (h.lt other hold).1.trans (holder other hold)
        · exact List.mem_singleton.mp hnew ▸ hshooter
      exact absurd (hid.symm.trans hfresh) hshooters.ne
  · intro other hother
    rcases List.mem_append.mp hother with hold | hnew
    · exact h.known other hold
    · obtain rfl := List.mem_singleton.mp hnew
      exact hstep.known ▸ hsound.mapped hstep.mapped
  · intro other hother entry hentry
    rw [hstep.spawned] at hentry
    rcases List.mem_append.mp hother with hold | hnew
    · exact h.late other hold entry hentry
    · obtain rfl := List.mem_singleton.mp hnew
      exact Or.inl (hstep.known ▸ hentry)

variable [Scalar K]

/-! ### Stages of a tick -/

theorem persists_pass {γ : Type}
    (can_grow : Math.Vector2D K → K → γ → Bool × Math.Vector2D K × γ) :
    Collision.Pass can_grow Persists where
  refl := .refl
  trans _ _ _ := .trans
  destroyed _ := ⟨rfl, rfl, rfl⟩
  damaged _ _ := ⟨rfl, rfl, rfl⟩
  scored _ _ _ _ _ _ := ⟨rfl, rfl, rfl⟩
  gained _ _ _ := ⟨rfl, rfl, rfl⟩
  moved _ _ _ _ _ := ⟨rfl, rfl, rfl⟩
  grown _ := ⟨rfl, rfl, rfl⟩

theorem persists_moveEntity (dt w h : K) (e : Entity K) : Persists e (moveEntity dt w h e) := by
  obtain ⟨transform, out, -, -, heq⟩ := moveEntity_eq dt w h e
  rw [heq]
  exact ⟨rfl, rfl, rfl⟩

theorem peaceful_of_passed {world world' : World K}
    (hcontinues : Passed Entity.Continues world world') (h : Passed Persists world world') :
    Peaceful world world' := by
  intro hsound
  refine ⟨((evolved_of_passed hcontinues).quiet hsound).1, ?_⟩
  obtain ⟨pool, hpool, rfl⟩ := h (persists_pass _)
  exact holdsFire_evolves hpool rfl

theorem peaceful_updatePhysics (world : World K) (dt : K) :
    Peaceful world (world.updatePhysics dt) := by
  intro hsound
  refine ⟨((evolved_updatePhysics world dt).quiet hsound).1, ?_⟩
  exact holdsFire_evolves (EntityPool.evolves_map _ (persists_moveEntity _ _ _)) rfl

theorem peaceful_maintainAsteroidPopulation (world : World K) (choice : TickChoice K) :
    Peaceful world (world.maintainAsteroidPopulation choice) := by
  intro hsound
  refine ⟨(quiet_maintainAsteroidPopulation world choice hsound).1, ?_⟩
  refine holdsFire_extends (AsteroidFactory.extends_update choice.uniform _ hsound.pool) ?_
    fun _ => Or.inl
  intro e hasteroid hbullet
  exact nomatch hasteroid.symm.trans hbullet

theorem phases_peaceful (ext : Externals K) (choice : TickChoice K) :
    Phases ext choice Peaceful where
  refl := Peaceful.refl
  trans _ _ _ := Peaceful.trans
  physics world tick_interval := peaceful_updatePhysics world (secondsOfMicros tick_interval)
  collisions world := peaceful_of_passed (keeps_collidePairs world) (keeps_collidePairs world)
  reaped := clears_peaceful.reapDestroyedShips choice
  asteroids world := peaceful_maintainAsteroidPopulation world choice
  broadcast := clears_peaceful.broadcastSnapshot ext choice

theorem peaceful_spawnShips (world : World K) (joins : List PendingJoin) :
    Peaceful world (world.spawnShips joins) := by
  induction joins generalizing world with
  | nil => exact .refl world
  | cons join joins ih =>
    refine Peaceful.trans (fun hsound => ?_) (ih (world.spawnShip join))
    have hextends : EntityPool.Extends (fun e => e.type = .Ship) world.entities_
        (world.spawnShip join).entities_ :=
      EntityPool.extends_acquire_modify hsound.pool (fun _ => rfl) rfl
    refine ⟨hsound.spawnShip join, holdsFire_extends hextends ?_ ?_⟩
    · intro e hship hbullet
      exact nomatch hship.symm.trans hbullet
    · intro entry hentry
      rcases List.mem_cons.mp hentry with rfl | hold
      · exact Or.inr le_rfl
      · exact Or.inl hold

/-! ### Draining the queue -/

/-- An action that is no shot fires nothing. -/
theorem peaceful_applyAction {world : World K} {action : ActionEvent K}
    (h : shotOf world action = none) (new_players : List PendingJoin) :
    Peaceful world (applyAction (world, new_players) action).1 := by
  unfold applyAction
  dsimp only
  split
  · exact .refl world
  · exact peaceful_applyQuit world _
  · next htype =>
    intro hsound
    refine ⟨(quiet_applyMoveAndShoot world action hsound).1, ?_⟩
    rcases applyMoveAndShoot_cases world action with
      ⟨hsame, -⟩ | ⟨ship_id, i, ship, t, hmapped, hfind, ht⟩
    · rw [hsame]
      exact .refl world
    · -- The ship is there, so the action does not shoot.
      have hidle : ¬ action.is_shooting = true := by
        intro hshooting
        unfold shotOf at h
        rw [if_pos ⟨htype, hshooting⟩, hmapped, Option.bind_some, hfind, Option.bind_some] at h
        dsimp only at h
        rw [ht] at h
        cases h
      rw [applyMoveAndShoot_eq hmapped hfind ht, if_neg hidle]
      exact holdsFire_evolves (EntityPool.evolves_modify .refl _ _ fun _ _ => ⟨rfl, rfl, rfl⟩) rfl
  · exact .refl world
  · exact .refl world

theorem fires_applyAction {world : World K} (hsound : world.Sound) {action : ActionEvent K}
    {shot : Shot} (h : shotOf world action = some shot) (new_players : List PendingJoin) :
    Fires shot world (applyAction (world, new_players) action).1 := by
  obtain ⟨htype, hshooting, ship, t, hmapped, hat, ht, hshot⟩ := shotOf_eq_some hsound.pool h
  have hfind := hsound.pool.findByEntityID_eq_some.mpr ⟨hat, rfl⟩
  have happly : applyAction (world, new_players) action =
      (world.applyMoveAndShoot action, new_players) := by
    rw [applyAction, htype]
  rw [happly, applyMoveAndShoot_eq hmapped hfind ht, if_pos hshooting]
  have hwf := hsound.pool.turn shot.slot { t with angle := action.angle }
  have hturned : EntityPool.Evolves Persists world.entities_
      (world.entities_.modify shot.slot fun e =>
        { e with transform := some { t with angle := action.angle } }) :=
    EntityPool.evolves_modify .refl _ _ fun _ _ => ⟨rfl, rfl, rfl⟩
  generalize shot.slot = slot at hshot hat hwf hturned
  subst hshot
  refine ⟨rfl, (EntityPool.placed_acquire hwf).next, rfl, rfl, hmapped, ⟨ship, hat, rfl⟩, ?_⟩
  intro i e' hat'
  rw [createBullet, EntityPool.at?_acquire_modify hwf] at hat'
  split_ifs at hat' with hi
  · obtain rfl := Option.some.inj hat'
    exact Or.inr ⟨rfl, rfl, rfl⟩
  · exact Or.inl (hturned.some_of_some' hat')

/-- The shots of a drain. -/
def drainShots : World K × List PendingJoin → List (ActionEvent K) → List Shot
  | _, [] => []
  | state, action :: queue =>
    (shotOf state.1 action).toList ++ drainShots (applyAction state action) queue

/-- The shots that a tick of a world starts with. -/
def tickShots (world : World K) : List Shot :=
  drainShots ({ world with action_queue_ := [] }, []) world.action_queue_

theorem Traced.foldl {shots : List Shot} {world : World K} (h : Traced shots world)
    (hsound : world.Sound) (queue : List (ActionEvent K)) (new_players : List PendingJoin) :
    Traced (shots ++ drainShots (world, new_players) queue)
      (queue.foldl applyAction (world, new_players)).1 := by
  induction queue generalizing shots world new_players with
  | nil => exact (List.append_nil shots).symm ▸ h
  | cons action queue ih =>
    have hnext := (quiet_applyAction world new_players action hsound).1
    rw [drainShots, List.foldl_cons, ← List.append_assoc]
    refine ih ?_ hnext _
    cases hshot : shotOf world action with
    | none =>
      have hpeaceful := (peaceful_applyAction hshot new_players hsound).2
      simpa only [Option.toList_none, List.append_nil] using h.holdsFire hpeaceful
    | some shot => exact h.fires hsound (fires_applyAction hsound hshot new_players)

theorem Traced.processInputQueue {shots : List Shot} {world : World K} (h : Traced shots world)
    (hsound : world.Sound) :
    Traced (shots ++ world.tickShots) (world.processInputQueue []).1 := by
  have hstart : Traced shots { world with action_queue_ := [] } := h.holdsFire (.of_eq rfl rfl)
  exact hstart.foldl (hsound.congr rfl rfl rfl) world.action_queue_ []

/-! ### Runs -/

def stepShots (world : World K) : Op K → List Shot
  | .tick _ _ => world.tickShots
  | _ => []

/-- The shots of a run. -/
def firedShots (ext : Externals K) (tick_interval : ℕ) : World K → List (Op K) → List Shot
  | _, [] => []
  | world, op :: ops =>
    world.stepShots op ++ firedShots ext tick_interval (step ext tick_interval world op) ops

theorem Traced.step (ext : Externals K) {tick_interval : ℕ} {shots : List Shot}
    {world : World K} (h : Traced shots world) (hsound : world.Sound) (op : Op K) :
    Traced (shots ++ world.stepShots op) (step ext tick_interval world op) := by
  cases op with
  | event event =>
    obtain ⟨actions, heq, -⟩ := onEvent_eq event world
    change Traced (shots ++ []) (onEvent event world)
    rw [heq, List.append_nil]
    exact h.holdsFire (.of_eq rfl rfl)
  | discardActions =>
    change Traced (shots ++ []) world.discardActions
    rw [List.append_nil]
    exact h.holdsFire (.of_eq rfl rfl)
  | tick choice current_tick =>
    obtain ⟨mid, joins, -, hmid, hrest⟩ :=
      (phases_peaceful ext choice).runTickStages tick_interval current_tick world
    obtain ⟨hmidSound, hmidHolds⟩ := hmid (hsound.processInputQueue [])
    obtain ⟨hspawnedSound, hspawned⟩ := peaceful_spawnShips mid joins hmidSound
    exact ((h.processInputQueue hsound).holdsFire hmidHolds |>.holdsFire hspawned).holdsFire
      (hrest hspawnedSound).2

theorem firedShots_concat (ext : Externals K) (tick_interval : ℕ) (world : World K)
    (ops : List (Op K)) (op : Op K) :
    firedShots ext tick_interval world (ops ++ [op]) =
      firedShots ext tick_interval world ops ++
        (ops.foldl (step ext tick_interval) world).stepShots op := by
  induction ops generalizing world with
  | nil => exact List.append_nil _
  | cons first ops ih =>
    rw [List.cons_append, firedShots, ih, firedShots, List.append_assoc, List.foldl_cons]

theorem traced_of_run (ext : Externals K) {world_width world_height : K} {tick_interval : ℕ}
    {ops : List (Op K)} {world : World K}
    (hrun : (machine ext world_width world_height tick_interval).run ops = some world) :
    Traced (firedShots ext tick_interval (empty world_width world_height) ops) world := by
  refine Machine.run_induction (m := machine ext world_width world_height tick_interval)
    (motive := fun ops world =>
      Traced (firedShots ext tick_interval (empty world_width world_height) ops) world) ?_ ?_ hrun
  · exact ⟨nofun, nofun, nofun, nofun, nofun, nofun⟩
  · intro ops world op world' hbefore htraced hstep
    obtain rfl := Option.some.inj hstep
    have hworld : ops.foldl (World.step ext tick_interval) (empty world_width world_height) =
        world := by
      rw [run_machine] at hbefore
      exact Option.some.inj hbefore
    rw [firedShots_concat, hworld]
    exact htraced.step ext (sound_of_reachable ext ⟨ops, hbefore⟩) op

end SpaceShooter.Server.World
