/-
# What becomes of entities

Slots change hands, identifiers do not: what stands in a slot later is what stood there before,
or carries an identifier that was not in use yet. What an entity can turn into is a relation; one
that contains the single changes of a tick is followed by all entities along a tick.
-/

import SpaceShooter.Server.CollisionPass

namespace SpaceShooter.Server.World

open Scalar Domain Library Library.Outcome

variable {K : Type}

/-- The later world is as large, and an entity of it stood in its slot before, or is new. -/
structure Succeeds (R : Entity K → Entity K → Prop) (world world' : World K) : Prop where
  width : world'.world_width_ = world.world_width_
  height : world'.world_height_ = world.world_height_
  next_le : world.entities_.next_id_ ≤ world'.entities_.next_id_
  slots : ∀ {i e'}, world'.entities_.at? i = some e' →
    (∃ e, world.entities_.at? i = some e ∧ R e e') ∨ world.entities_.next_id_ ≤ e'.id

section Relations

variable {R S T : Entity K → Entity K → Prop} {world world' : World K}

theorem Succeeds.comp {a b c : World K} (htrans : ∀ e₁ e₂ e₃, R e₁ e₂ → S e₂ e₃ → T e₁ e₃)
    (hid : ∀ {e e'}, S e e' → e'.id = e.id) (h : Succeeds R a b) (h' : Succeeds S b c) :
    Succeeds T a c where
  width := h'.width.trans h.width
  height := h'.height.trans h.height
  next_le := h.next_le.trans h'.next_le
  slots hat := by
    rcases h'.slots hat with ⟨e₂, hat₂, hbc⟩ | hnew
    · rcases h.slots hat₂ with ⟨e₁, hat₁, hab⟩ | hnew
      · exact .inl ⟨e₁, hat₁, htrans _ _ _ hab hbc⟩
      · exact .inr (hid hbc ▸ hnew)
    · exact .inr (h.next_le.trans hnew)

/-- A pass over the entities. -/
theorem succeeds_evolves (h : EntityPool.Evolves R world.entities_ world'.entities_)
    (width : world'.world_width_ = world.world_width_)
    (height : world'.world_height_ = world.world_height_) : Succeeds R world world' where
  width := width
  height := height
  next_le := h.next.ge
  slots hat := .inl (h.some_of_some' hat)

/-- A change of what is no entity. -/
theorem succeeds_congr (hrefl : ∀ e, R e e) (width : world'.world_width_ = world.world_width_)
    (height : world'.world_height_ = world.world_height_)
    (entities : world'.entities_ = world.entities_) : Succeeds R world world' :=
  succeeds_evolves (entities ▸ .refl hrefl _) width height

/-- New entities. -/
theorem succeeds_extends (hrefl : ∀ e, R e e) {P : Entity K → Prop}
    (h : EntityPool.Extends P world.entities_ world'.entities_)
    (width : world'.world_width_ = world.world_width_)
    (height : world'.world_height_ = world.world_height_) : Succeeds R world world' where
  width := width
  height := height
  next_le := h.next_le
  slots {_ e} hat := (h.added hat).imp (fun hold => ⟨e, hold, hrefl e⟩) fun hnew => hnew.2.2

/-- What was there before the later world is its predecessor. -/
theorem Succeeds.of_lt (h : Succeeds R world world') {i : ℕ} {e' : Entity K}
    (hat : world'.entities_.at? i = some e') (old : e'.id < world.entities_.next_id_) :
    ∃ e, world.entities_.at? i = some e ∧ R e e' :=
  (h.slots hat).resolve_right (Nat.not_le_of_lt old)

end Relations

/-- A relation that contains what a tick does to an entity once its input has been drained, the
movement apart. -/
structure Stays [Scalar K] (R : Entity K → Entity K → Prop) : Prop where
  refl : ∀ e, R e e
  trans : ∀ a b c, R a b → R b c → R a c
  id : ∀ {e e'}, R e e' → e'.id = e.id
  flagged : ∀ e, R e { e with isDestroyed := true }
  collided : ∀ {world : World K} {i j : ℕ} {a b : Entity K}, world.entities_.WellFormed → i ≠ j →
    world.entities_.at? i = some a → world.entities_.at? j = some b →
      EntityPool.Evolves R world.entities_ (world.dispatchCollision i a j b).entities_

/-- A relation that contains turns, too. -/
def Turns (R : Entity K → Entity K → Prop) : Prop :=
  ∀ e t angle, e.transform = some t → R e { e with transform := some { t with angle := angle } }

namespace Stays

variable [Scalar K] {R : Entity K → Entity K → Prop}

/-- The rules of collisions stay in it. -/
theorem of_pass (hpass : ∀ world : World K, Collision.Pass world.can_grow R)
    (hid : ∀ {e e'}, R e e' → e'.id = e.id) : Stays R where
  refl := (hpass (empty (lit 0) (lit 0))).refl
  trans := (hpass (empty (lit 0) (lit 0))).trans
  id := hid
  flagged := (hpass (empty (lit 0) (lit 0))).destroyed
  collided {world _ _ _ _} _ hij hi hj := by
    obtain ⟨pool, hpool, heq⟩ := passed_dispatchCollision world hij hi hj (hpass world)
    rw [heq]
    exact hpool

/-- From a sound world the step goes to a sound world that succeeds it. -/
def Leads (R : Entity K → Entity K → Prop) (world world' : World K) : Prop :=
  world.Sound → world'.Sound ∧ Succeeds R world world'

theorem leads_refl (h : Stays R) (world : World K) : Leads R world world :=
  fun hsound => ⟨hsound, succeeds_congr h.refl rfl rfl rfl⟩

theorem leads_trans (h : Stays R) (a b c : World K) (hab : Leads R a b) (hbc : Leads R b c) :
    Leads R a c := by
  intro ha
  obtain ⟨hb, hleft⟩ := hab ha
  obtain ⟨hc, hright⟩ := hbc hb
  exact ⟨hc, hleft.comp h.trans h.id hright⟩

theorem clears (h : Stays R) : Clears (Leads (K := K) R) where
  refl := h.leads_refl
  trans := h.leads_trans
  published world events hsound :=
    ⟨(quiet_published world events hsound).1, succeeds_congr h.refl rfl rfl rfl⟩
  erased world session_id hsound :=
    ⟨(quiet_erase world session_id hsound).1, succeeds_congr h.refl rfl rfl rfl⟩
  recycled world hsound := by
    obtain ⟨-, hnext, hslot⟩ := EntityPool.recycleDestroyed_spec hsound.pool
    refine ⟨(quiet_recycle world hsound).1, rfl, rfl, hnext.ge, fun {i e} hat => ?_⟩
    rw [hslot, EntityPool.kept_eq_some] at hat
    exact .inl ⟨e, hat.1, h.refl e⟩

theorem leads_collidePair (h : Stays R) {i j : ℕ} (hij : i ≠ j) :
    Keeps (Leads R) (collidePair i j : Action K PUnit) := by
  intro world hsound
  have hevolved := evolved_of_passed (keeps_collidePair hij world)
  refine ⟨(hevolved.quiet hsound).1, ?_⟩
  obtain ⟨pool, -, hpool⟩ := hevolved
  rcases collidePair_cases i j world with heq | ⟨a, b, hi, hj, -, heq⟩
  · rw [heq]
    exact succeeds_congr h.refl rfl rfl rfl
  · have hcollided := h.collided hsound.pool hij hi hj
    rw [← heq, hpool] at hcollided
    rw [hpool]
    exact succeeds_evolves hcollided rfl rfl

theorem leads_resolveCollisions (h : Stays R) (choice : TickChoice K) :
    Keeps (Leads R) (resolveCollisions choice) := by
  refine Keeps.bind h.leads_trans (fun world => ?_) fun _ => h.clears.reapDestroyedShips choice
  rw [collidePairs_apply]
  exact keeps_forM h.leads_refl h.leads_trans
    (fun pair hpair => h.leads_collidePair (lt_of_mem_pairs hpair).ne) world

theorem leads_spawnShips (h : Stays R) (joins : List PendingJoin) (world : World K) :
    Leads R world (world.spawnShips joins) := by
  induction joins generalizing world with
  | nil => exact h.leads_refl world
  | cons join joins ih =>
    refine h.leads_trans _ _ _ (fun hsound => ?_) (ih (world.spawnShip join))
    exact ⟨hsound.spawnShip join,
      succeeds_extends h.refl (extends_spawnShip hsound.pool join) rfl rfl⟩

/-! ### Draining the queue -/

theorem succeeds_applyQuit (h : Stays R) (world : World K) (session_id : SessionId) :
    Succeeds R world (world.applyQuit session_id) := by
  rw [World.applyQuit]
  split
  · exact succeeds_congr h.refl rfl rfl rfl
  · refine succeeds_evolves ?_ rfl rfl
    dsimp only
    split
    · exact EntityPool.evolves_modify h.refl _ _ fun e _ => h.flagged e
    · exact .refl h.refl _

theorem succeeds_applyMoveAndShoot (h : Stays R) (hturns : Turns R) {world : World K}
    (wf : world.entities_.WellFormed) (action : ActionEvent K) :
    Succeeds R world (world.applyMoveAndShoot action) := by
  rcases applyMoveAndShoot_cases world action with
    ⟨hsame, -⟩ | ⟨ship_id, i, ship, t, hmapped, hfind, ht⟩
  · rw [hsame]
    exact succeeds_congr h.refl rfl rfl rfl
  · obtain ⟨hat, -⟩ := wf.findByEntityID_eq_some.mp hfind
    have hturned : EntityPool.Evolves R world.entities_ (world.entities_.modify i fun e =>
        { e with transform := some { t with angle := action.angle } }) := by
      apply EntityPool.evolves_modify h.refl
      intro e he
      obtain rfl := Option.some.inj (hat.symm.trans he)
      exact hturns ship t action.angle ht
    rw [applyMoveAndShoot_eq hmapped hfind ht]
    split
    · -- The ship turns, then the bullet comes under a new identifier.
      have hfired := extends_createBullet (wf.turn i { t with angle := action.angle }) ship_id
        { t with angle := action.angle } ship.radius
      have hturns : Succeeds R world { world with entities_ := world.entities_.modify i fun e =>
          { e with transform := some { t with angle := action.angle } } } :=
        succeeds_evolves hturned rfl rfl
      exact hturns.comp h.trans h.id (succeeds_extends h.refl hfired rfl rfl)
    · exact succeeds_evolves hturned rfl rfl

theorem leads_applyAction (h : Stays R) (hturns : Turns R) (world : World K)
    (new_players : List PendingJoin) (action : ActionEvent K) :
    Leads R world (applyAction (world, new_players) action).1 := by
  intro hsound
  refine ⟨(quiet_applyAction world new_players action hsound).1, ?_⟩
  rw [applyAction]
  split
  · exact succeeds_congr h.refl rfl rfl rfl
  · exact h.succeeds_applyQuit world action.session_id
  · exact h.succeeds_applyMoveAndShoot hturns hsound.pool action
  · exact succeeds_congr h.refl rfl rfl rfl
  · exact succeeds_congr h.refl rfl rfl rfl

theorem leads_foldl_applyAction (h : Stays R) (hturns : Turns R) (queue : List (ActionEvent K))
    (world : World K) (new_players : List PendingJoin) :
    Leads R world (queue.foldl applyAction (world, new_players)).1 := by
  induction queue generalizing world new_players with
  | nil => exact h.leads_refl world
  | cons action queue ih =>
    exact h.leads_trans _ _ _ (h.leads_applyAction hturns world new_players action) (ih _ _)

theorem leads_processInputQueue (h : Stays R) (hturns : Turns R) (world : World K)
    (new_players : List PendingJoin) : Leads R world (world.processInputQueue new_players).1 := by
  apply h.leads_trans _ _ _ _ (h.leads_foldl_applyAction hturns world.action_queue_ _ new_players)
  exact fun hsound => ⟨hsound.congr rfl rfl rfl, succeeds_congr h.refl rfl rfl rfl⟩

/-! ### Ticks -/

variable (ext : Externals K) (choice : TickChoice K) (tick_interval : ℕ) (current_tick : UInt64)

/-- What a tick does after the entities have been moved. -/
theorem leads_moved (h : Stays R) (world : World K) :
    Leads R ((world.processInputQueue []).1.updatePhysics (secondsOfMicros tick_interval))
      (runTickStep ext choice tick_interval current_tick world) := by
  have hcollided := h.leads_resolveCollisions choice
    ((world.processInputQueue []).1.updatePhysics (secondsOfMicros tick_interval))
  rw [runTickStep, runTickStages_eq, simulateTick_eq]
  cases hresult : resolveCollisions choice
      ((world.processInputQueue []).1.updatePhysics (secondsOfMicros tick_interval)) with
  | ok _ world' =>
    rw [hresult] at hcollided
    have hpopulated : Leads R world' (world'.maintainAsteroidPopulation choice) := by
      intro hsound
      exact ⟨(quiet_maintainAsteroidPopulation world' choice hsound).1,
        succeeds_extends h.refl (AsteroidFactory.extends_update choice.uniform _ hsound.pool)
          rfl rfl⟩
    apply h.leads_trans _ _ _ hcollided
    apply h.leads_trans _ _ _ hpopulated
    exact h.leads_trans _ _ _ (h.leads_spawnShips _ _)
      (h.clears.broadcastSnapshot ext choice _ _)
  | error e world' =>
    rw [hresult] at hcollided
    exact hcollided

/-- A relation that is followed along a tick: an entity stays, is moved, and stays. -/
theorem succeeds_tick (h : Stays R) (hturns : Turns R) {S : Entity K → Entity K → Prop}
    {world : World K}
    (moved : ∀ e₁ e₂ e₃, R e₁ e₂ →
      R (moveEntity (secondsOfMicros tick_interval) world.world_width_ world.world_height_ e₂) e₃ →
        S e₁ e₃) (hsound : world.Sound) :
    Succeeds S world (runTickStep ext choice tick_interval current_tick world) := by
  obtain ⟨hdrained, hleft⟩ := h.leads_processInputQueue hturns world [] hsound
  set drained := (world.processInputQueue []).1
  obtain ⟨-, hright⟩ := h.leads_moved ext choice tick_interval current_tick world
    (((evolved_updatePhysics drained _).quiet) hdrained).1
  have hmoved : Succeeds (fun e e' => e' = moveEntity (secondsOfMicros tick_interval)
      world.world_width_ world.world_height_ e) drained
      (drained.updatePhysics (secondsOfMicros tick_interval)) := by
    rw [← hleft.width, ← hleft.height]
    exact succeeds_evolves (EntityPool.evolves_map _ fun e => rfl) rfl rfl
  have hfirst : Succeeds (fun e₁ e₂ => ∃ e, R e₁ e ∧ e₂ = moveEntity
      (secondsOfMicros tick_interval) world.world_width_ world.world_height_ e) world
      (drained.updatePhysics (secondsOfMicros tick_interval)) := by
    apply hleft.comp (fun e₁ e e₂ hstays heq => ⟨e, hstays, heq⟩) _ hmoved
    rintro e _ rfl
    exact (moveEntity_continues _ _ _ e).id
  apply hfirst.comp _ h.id hright
  rintro e₁ _ e₃ ⟨e, hstays, rfl⟩ hrest
  exact moved e₁ e e₃ hstays hrest

/-- Between ticks no entity changes. -/
theorem succeeds_step_of_not_tick (h : Stays R) {world : World K} {op : Op K}
    (other : ∀ choice current_tick, op ≠ .tick choice current_tick) :
    Succeeds R world (step ext tick_interval world op) := by
  cases op with
  | event event =>
    obtain ⟨actions, heq, -⟩ := onEvent_eq event world
    change Succeeds R world (onEvent event world)
    rw [heq]
    exact succeeds_congr h.refl rfl rfl rfl
  | tick choice current_tick => exact absurd rfl (other choice current_tick)
  | discardActions => exact succeeds_congr h.refl rfl rfl rfl

/-- A relation that movement stays in too is followed along every part of a run. -/
theorem succeeds_of_run (h : Stays R) (hturns : Turns R) {world_width world_height : K}
    (hmove : ∀ e, R e (moveEntity (secondsOfMicros tick_interval) world_width world_height e))
    {first second : List (Op K)} {a b : World K}
    (before : (machine ext world_width world_height tick_interval).run first = some a)
    (after : (machine ext world_width world_height tick_interval).run (first ++ second) = some b) :
    Succeeds R a b := by
  have hrun {start world : World K} {ops : List (Op K)} (hsound : start.Sound)
      (hwidth : start.world_width_ = world_width) (hheight : start.world_height_ = world_height)
      (ran : (machine ext world_width world_height tick_interval).runFrom start ops = some world) :
      Succeeds R start world := by
    refine (Machine.runFrom_induction (motive := fun world => world.Sound ∧ Succeeds R start world)
      ?_ ⟨hsound, succeeds_congr h.refl rfl rfl rfl⟩ ran).2
    rintro world op - next ⟨hworld, hsucceeds⟩ hstep
    obtain rfl := Option.some.inj hstep
    refine ⟨hworld.step ext op, hsucceeds.comp h.trans h.id ?_⟩
    cases op with
    | event event => exact h.succeeds_step_of_not_tick ext tick_interval nofun
    | discardActions => exact h.succeeds_step_of_not_tick ext tick_interval nofun
    | tick choice current_tick =>
      apply h.succeeds_tick ext choice tick_interval current_tick hturns _ hworld
      intro e₁ e₂ e₃ hleft hright
      have hmoved := hmove e₂
      rw [← hwidth, ← hheight, ← hsucceeds.width, ← hsucceeds.height] at hmoved
      exact h.trans _ _ _ hleft (h.trans _ _ _ hmoved hright)
  have hstart := hrun (sound_empty world_width world_height) rfl rfl before
  obtain ⟨middle, hfirst, hsecond⟩ := Machine.runFrom_append.mp after
  obtain rfl := Option.some.inj (before.symm.trans hfirst)
  exact hrun (sound_of_reachable ext ⟨first, before⟩) hstart.width hstart.height hsecond

end Stays

end SpaceShooter.Server.World
