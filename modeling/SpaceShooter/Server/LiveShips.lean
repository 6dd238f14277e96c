/-
# Live ships in runs

Along every run in exact arithmetic whose moves have finite angles, every live ship keeps its
condition and every entity its positive radius, so that no collision test of a tick throws,
and no ship outgrows a world that is wider and higher than 20.
-/

import SpaceShooter.Server.Containment
import SpaceShooter.Server.ShipCondition
import SpaceShooter.Server.ShipDeaths

namespace SpaceShooter.Server.World

open Scalar Domain Library Library.Outcome Math

variable {F : Type} [Field F] [LinearOrder F] [StdMath F] {width height : F}
  {world world' : World (Extended F)}

/-! ### Worlds of sturdy entities -/

/-- A world of this size with sturdy entities, whose queued actions have finite angles. -/
structure Stocked (width height : F) (world : World (Extended F)) : Prop where
  width_eq : world.world_width_ = .finite width
  height_eq : world.world_height_ = .finite height
  sturdy : ∀ {i e}, world.entities_.at? i = some e → Sturdy e
  angles : ∀ action ∈ world.action_queue_, action.angle.IsFinite

theorem Stocked.of_sturdy (h : Stocked width height world)
    (width_eq : world'.world_width_ = world.world_width_)
    (height_eq : world'.world_height_ = world.world_height_)
    (queue : world'.action_queue_ = world.action_queue_)
    (sturdy : ∀ {i e}, world'.entities_.at? i = some e → Sturdy e) :
    Stocked width height world' where
  width_eq := width_eq.trans h.width_eq
  height_eq := height_eq.trans h.height_eq
  sturdy := sturdy
  angles action hmem := h.angles action (queue ▸ hmem)

/-- A sound stocked world goes to one. -/
def Stocks (width height : F) (world world' : World (Extended F)) : Prop :=
  world.Sound → Stocked width height world → world'.Sound ∧ Stocked width height world'

theorem clears_stocks : Clears (Stocks (F := F) width height) :=
  clears_of_fewer fun h width_eq height_eq queue fewer =>
    h.of_sturdy width_eq height_eq queue fun hat => h.sturdy (fewer hat)

/-- New sturdy entities. -/
theorem Stocked.extends (h : Stocked width height world) {pool : EntityPool (Extended F)}
    (hextends : EntityPool.Extends Sturdy world.entities_ pool) :
    Stocked width height { world with entities_ := pool } := by
  refine h.of_sturdy rfl rfl rfl fun {i e} hat => ?_
  rcases hextends.added hat with hold | ⟨-, hnew, -⟩
  · exact h.sturdy hold
  · exact hnew

/-- An event whose moves are finite. -/
theorem Stocked.onEvent (h : Stocked width height world) {event : NetworkEvent (Extended F)}
    (hmove : ∀ session_id angle, event = .PlayerMoveEvent session_id angle → angle.IsFinite) :
    Stocked width height (onEvent event world) := by
  have henqueue (action : ActionEvent (Extended F)) (haction : action.angle.IsFinite) :
      Stocked width height (world.enqueueAction action) := by
    refine ⟨h.width_eq, h.height_eq, h.sturdy, fun other hmem => ?_⟩
    rcases List.mem_append.mp hmem with hold | hnew
    · exact h.angles other hold
    · exact List.mem_singleton.mp hnew ▸ haction
  cases event with
  | NetworkMessageEvent => exact h
  | SendPacketEvent => exact h
  | ClientConnectedEvent => exact h
  | ShipDestroyedEvent => exact h
  | PlayerJoinEvent => exact henqueue _ (isFinite_lit 0)
  | ClientDisconnectedEvent => exact henqueue _ (isFinite_lit 0)
  | ShotMessageEvent => exact henqueue _ (isFinite_lit 0)
  | PlayerMoveEvent session_id angle => exact henqueue _ (hmove session_id angle rfl)

/-! ### New bullets and asteroids -/

variable [IsStrictOrderedRing F]

/-- A ship that shoots at a finite angle adds a sturdy bullet. -/
theorem sturdy_createBullet {pool : EntityPool (Extended F)} (wf : pool.WellFormed)
    {ship : Entity (Extended F)} (hship : Formed ship) {t : TransformComponent (Extended F)}
    (ht : FinitePoint t.position) (hangle : t.angle.IsFinite) (ship_id : EntityId) :
    EntityPool.Extends Sturdy pool (createBullet pool ship_id t ship.radius) := by
  obtain ⟨r, hr, -⟩ := hship.radius
  have hdirection : FinitePoint (⟨cos t.angle, sin t.angle⟩ : Vector2D (Extended F)) :=
    ⟨isFinite_cos hangle, isFinite_sin hangle⟩
  refine EntityPool.extends_acquire_modify wf (fun _ => rfl)
    ⟨⟨isFinite_lit 0, ⟨_, rfl, ?_⟩, nofun, ?_, nofun⟩, fun hlive => (by cases hlive.1)⟩
  · norm_num
  · rintro t' ht'
    obtain rfl := Option.some.inj ht'
    exact ⟨ht.add (hdirection.scale ⟨r, hr⟩), hdirection.scale (isFinite_lit 500), isFinite_lit 0⟩

/-- An asteroid of the factory is sturdy. -/
theorem sturdy_createAsteroid {pool : EntityPool (Extended F)} {weight : Extended F}
    {position : Vector2D (Extended F)} (wf : pool.WellFormed) (hweight : AsteroidWeight weight)
    (hposition : FinitePoint position) :
    EntityPool.Extends Sturdy pool (AsteroidFactory.createAsteroid pool weight position) := by
  obtain ⟨w, rfl, hmin, hmax⟩ := hweight
  refine EntityPool.extends_acquire_modify wf (fun _ => rfl)
    ⟨⟨⟨w, rfl⟩, ⟨w * ((30 : ℚ) : F), ?_, ?_⟩, nofun, ?_, fun _ => ⟨w, rfl, hmax⟩⟩,
      fun hlive => (by cases hlive.1)⟩
  · dsimp only
    split_ifs
    · rfl
    · rfl
  · rw [Rat.cast_ofNat]
    linarith
  · rintro t ht
    obtain rfl := Option.some.inj ht
    exact ⟨hposition, finitePoint_zero, isFinite_lit 0⟩

/-! ### Draining the queue -/

theorem sturdy_applyAction {new_players : List PendingJoin} {action : ActionEvent (Extended F)}
    (hsound : world.Sound) (h : ∀ {i e}, world.entities_.at? i = some e → Sturdy e)
    (hangle : action.angle.IsFinite) {i : ℕ} {e : Entity (Extended F)}
    (hat : (applyAction (world, new_players) action).1.entities_.at? i = some e) : Sturdy e := by
  unfold applyAction at hat
  dsimp only at hat
  split at hat
  · exact h hat
  · obtain ⟨e₀, hat₀, ⟨rfl, -⟩ | ⟨-, rfl⟩⟩ := at?_applyQuit hsound.pool _ hat
    · exact h hat₀
    · exact (h hat₀).flag
  · refine forall_applyMoveAndShoot hsound.pool h (fun he ht => ?_) (fun _ => ?_) hat
    · obtain ⟨hposition, hvelocity, -⟩ := he.motion ht
      exact he.place ⟨hposition, hvelocity, hangle⟩
    · intro e t pool ship_id he ht wf
      exact sturdy_createBullet (t := { t with angle := action.angle }) wf he.toFormed
        (he.motion ht).1 hangle ship_id
  · exact h hat
  · exact h hat

theorem Stocked.processInputQueue (h : Stocked width height world) (hsound : world.Sound) :
    Stocked width height (world.processInputQueue []).1 := by
  -- What is queued is drained action by action, and every action has a finite angle.
  have hfold (actions : List (ActionEvent (Extended F)))
      (hangles : ∀ action ∈ actions, action.angle.IsFinite) (world : World (Extended F))
      (new_players : List PendingJoin) (hsound : world.Sound)
      (h : Stocked width height world) :
      Stocked width height (actions.foldl applyAction (world, new_players)).1 := by
    induction actions generalizing world new_players with
    | nil => exact h
    | cons action actions ih =>
      obtain ⟨hangle, hrest⟩ := List.forall_mem_cons.mp hangles
      obtain ⟨hsound', hfades⟩ := quiet_applyAction world new_players action hsound
      have hsize : (applyAction (world, new_players) action).1.world_width_ = world.world_width_ ∧
          (applyAction (world, new_players) action).1.world_height_ = world.world_height_ := by
        obtain ⟨pool, mapping, heq⟩ := frame_applyAction world new_players action
        rw [heq]
        exact ⟨rfl, rfl⟩
      exact ih hrest _ _ hsound' (h.of_sturdy hsize.1 hsize.2 hfades.queue
        (sturdy_applyAction hsound h.sturdy hangle))
  exact hfold _ h.angles _ [] (hsound.congr rfl rfl rfl)
    ⟨h.width_eq, h.height_eq, h.sturdy, nofun⟩

/-! ### Movement and collisions -/

theorem Stocked.updatePhysics (h : Stocked width height world) {dt : Extended F}
    (hdt : dt.IsFinite) : Stocked width height (world.updatePhysics dt) := by
  refine h.of_sturdy rfl rfl rfl fun {i e'} hat' => ?_
  obtain ⟨e, hat, hmoves⟩ := (EntityPool.evolves_map
    (R := fun e e' => Sturdy e → Sturdy e') world.entities_ fun e he => by
      rw [h.width_eq, h.height_eq]
      exact he.moveEntity hdt).some_of_some' hat'
  exact hmoves (h.sturdy hat)

omit [IsStrictOrderedRing F] in
theorem Stocked.sturdy_writePair (h : Stocked width height world) {i j : ℕ}
    {a b a' b' : Entity (Extended F)} (hij : i ≠ j) (hi : world.entities_.at? i = some a)
    (hj : world.entities_.at? j = some b) (ha : Sturdy a') (hb : Sturdy b') {k : ℕ}
    {e : Entity (Extended F)} (hat : (writePair world.entities_ i a' j b').at? k = some e) :
    Sturdy e := by
  rw [at?_writePair hij hi hj] at hat
  split_ifs at hat
  · exact Option.some.inj hat ▸ ha
  · exact Option.some.inj hat ▸ hb
  · exact h.sturdy hat

omit [IsStrictOrderedRing F] in
/-- A bullet that meets a ship leaves sturdy entities. -/
theorem Stocked.onCollisionBulletShip (h : Stocked width height world) (hsound : world.Sound)
    {i j : ℕ} {bullet ship : Entity (Extended F)} (hij : i ≠ j)
    (hi : world.entities_.at? i = some bullet) (hj : world.entities_.at? j = some ship)
    (htype : bullet.type = .Bullet) :
    Stocked width height (world.onCollisionBulletShip i bullet j ship) := by
  refine h.of_sturdy rfl rfl rfl fun {k e} hat => ?_
  rcases onCollisionBulletShip_cases hsound.pool.uniqueIds hij hi hj htype with
    hsame | ⟨combat, health, points, -, hhealth, -, -, hslots⟩
  · exact h.sturdy (hsame k ▸ hat)
  · -- The credit comes on top of what the two slots got.
    rw [hslots] at hat
    obtain ⟨e₀, hat₀, rfl⟩ := Option.map_eq_some_iff.mp hat
    refine Sturdy.credit ?_ _ _
    split_ifs at hat₀
    · exact Option.some.inj hat₀ ▸ (h.sturdy hi).flag
    · exact Option.some.inj hat₀ ▸ (h.sturdy hj).damage hhealth _
    · exact h.sturdy hat₀

variable (std : StandardMath F) (hwidth : 0 < width) (hheight : 0 < height)
include std hwidth hheight

/-- Whatever entities meet, no ship lacks the room to grow in a large world. -/
theorem Stocked.fits (h : Stocked width height world) {a b : Entity (Extended F)}
    (ha : Sturdy a) (hb : Sturdy b) (hlarge : 20 < width ∧ 20 < height) :
    (Collision.onCollisionShipAsteroid world.can_grow a b .CanGrow).2.2 ≠ .CannotFit := by
  obtain ⟨_, _, _, hab, -, -, hfits⟩ :=
    sturdy_eatAsteroid std h.width_eq h.height_eq hwidth hheight ha hb
  obtain ⟨_, _, _, hba, -, -, hfits'⟩ :=
    sturdy_eatAsteroid std h.width_eq h.height_eq hwidth hheight hb ha
  unfold Collision.onCollisionShipAsteroid
  rw [hab, hba]
  split_ifs
  · exact hfits' hlarge.1 hlarge.2
  · exact hfits hlarge.1 hlarge.2

/-- A ship that meets an asteroid leaves sturdy entities. -/
theorem Stocked.onCollisionShipAsteroid (h : Stocked width height world) {i j : ℕ}
    {ship asteroid : Entity (Extended F)} (hij : i ≠ j)
    (hi : world.entities_.at? i = some ship) (hj : world.entities_.at? j = some asteroid)
    (htype : ship.type = .Ship) :
    Stocked width height (world.onCollisionShipAsteroid i ship j asteroid) := by
  obtain ⟨ship', asteroid', status, heq, hship, hasteroid, -⟩ := sturdy_eatAsteroid std h.width_eq
    h.height_eq hwidth hheight (h.sturdy hi) (h.sturdy hj)
  unfold World.onCollisionShipAsteroid
  rw [onCollisionShipAsteroid_of_ship _ _ _ htype, heq]
  exact h.of_sturdy rfl rfl rfl (h.sturdy_writePair hij hi hj hship hasteroid)

/-- Two entities that meet leave sturdy ones. -/
theorem Stocked.dispatchCollision (h : Stocked width height world) (hsound : world.Sound)
    {i j : ℕ} {a b : Entity (Extended F)} (hij : i ≠ j) (hi : world.entities_.at? i = some a)
    (hj : world.entities_.at? j = some b) :
    Stocked width height (world.dispatchCollision i a j b) := by
  refine dispatchCollision_cases hij hi hj h (fun _ _ => ?_) (fun hpq hp hq hship _ => ?_)
    fun hpq hp hq hbullet _ => ?_
  · obtain ⟨ha, hb⟩ := sturdy_onCollisionShipShip (h.sturdy hi) (h.sturdy hj)
    exact h.of_sturdy rfl rfl rfl (h.sturdy_writePair hij hi hj ha hb)
  · exact h.onCollisionShipAsteroid std hwidth hheight hpq hp hq hship
  · exact h.onCollisionBulletShip hsound hpq hp hq hbullet

/-- The collision test of a pair returns, as both radii are positive. -/
theorem Stocked.collidePair (h : Stocked width height world) (hsound : world.Sound) {i j : ℕ}
    (hij : i ≠ j) :
    ∃ world', World.collidePair i j world = .ok ⟨⟩ world' ∧ world'.Sound ∧
      Stocked width height world' := by
  obtain ⟨world', hok⟩ : ∃ world', World.collidePair i j world = .ok ⟨⟩ world' := by
    refine collidePair_ok fun {a ta b tb} hi hj => ?_
    obtain ⟨r, hr, hpos⟩ := (h.sturdy (at?_of_collider hi)).radius
    obtain ⟨s, hs, hpos'⟩ := (h.sturdy (at?_of_collider hj)).radius
    rw [hr, hs]
    exact checkCircleCollision_ok _ _ hpos.le hpos'.le
  have hquiet := (evolved_of_passed (keeps_collidePair hij world)).quiet hsound
  have hcases := collidePair_cases i j world
  rw [hok] at hquiet hcases
  refine ⟨world', hok, hquiet.1, ?_⟩
  rcases hcases with heq | ⟨a, b, hi, hj, -, heq⟩
  · obtain rfl : world' = world := heq
    exact h
  · obtain rfl : world' = world.dispatchCollision i a j b := heq
    exact h.dispatchCollision std hwidth hheight hsound hij hi hj

/-- The pass over a list of pairs returns. -/
theorem Stocked.collide (h : Stocked width height world) (hsound : world.Sound)
    {done : List (ℕ × ℕ)} (hdone : ∀ pair ∈ done, pair.1 ≠ pair.2) :
    ∃ world', done.forM (fun pair => World.collidePair pair.1 pair.2) world = .ok ⟨⟩ world' ∧
      world'.Sound ∧ Stocked width height world' :=
  forM_ok (I := fun world => world.Sound ∧ Stocked width height world)
    (fun pair hpair _ hs => hs.2.collidePair std hwidth hheight hs.1 (hdone pair hpair))
    ⟨hsound, h⟩

theorem Stocked.collidePairs (h : Stocked width height world) (hsound : world.Sound) :
    ∃ world', World.collidePairs world = .ok ⟨⟩ world' ∧ world'.Sound ∧
      Stocked width height world' := by
  rw [collidePairs_apply]
  exact h.collide std hwidth hheight hsound fun pair hpair => (lt_of_mem_pairs hpair).ne

/-! ### Ticks -/

omit std in
theorem Stocked.freePosition (h : Stocked width height world) :
    InRectangle width height world.freePosition.center ∧ world.freePosition.radius.IsFinite := by
  refine freePosition_spec h.width_eq h.height_eq (fun hat ht => ?_) hwidth.le hheight.le
  obtain ⟨r, hr, -⟩ := (h.sturdy hat).radius
  exact ⟨((h.sturdy hat).motion ht).1, r, hr⟩

theorem Stocked.spawnShip (h : Stocked width height world) (hsound : world.Sound)
    (join : PendingJoin) : Stocked width height (world.spawnShip join) := by
  obtain ⟨hcenter, -⟩ := h.freePosition hwidth hheight
  have hpi := std.three_lt_pi
  have hextends : EntityPool.Extends Sturdy world.entities_
      (world.spawnShip join).entities_ := by
    refine EntityPool.extends_acquire_modify hsound.pool (fun _ => rfl)
      ⟨⟨isFinite_lit _, ⟨_, rfl, ?_⟩, ?_, ?_, nofun⟩, fun _ => ⟨rfl, rfl, rfl, ?_, ?_⟩⟩
    · norm_num
    · rintro s hs
      obtain rfl := Option.some.inj hs
      exact ⟨isFinite_lit _, isFinite_lit _⟩
    · rintro t ht
      obtain rfl := Option.some.inj ht
      exact ⟨hcenter.finite, ⟨isFinite_lit 0, isFinite_lit 0⟩, isFinite_lit 0⟩
    · exact ⟨_, rfl, by decide, by decide, rfl⟩
    · -- A new ship is too light for the larger radius.
      refine ⟨((7854 / 100 : ℚ) : F), rfl, ?_, ?_, congrArg Extended.finite ?_⟩
      · norm_num
      · norm_num
      · rw [if_pos]
        · exact Rat.cast_ofNat 5
        · norm_num
          linarith
  exact (h.extends hextends).of_sturdy rfl rfl rfl (h.extends hextends).sturdy

theorem Stocked.spawnShips (h : Stocked width height world) (hsound : world.Sound)
    (joins : List PendingJoin) : Stocked width height (world.spawnShips joins) := by
  induction joins generalizing world with
  | nil => exact h
  | cons join joins ih =>
    exact ih (h.spawnShip std hwidth hheight hsound join) (hsound.spawnShip join)

theorem phases_stocks (ext : Externals (Extended F)) {choice : TickChoice (Extended F)}
    (hdraws : DrawsInRange choice.uniform) : Phases ext choice (Stocks width height) where
  refl := clears_stocks.refl
  trans := clears_stocks.trans
  physics world tick_interval hsound h :=
    ⟨((evolved_updatePhysics world _).quiet hsound).1, h.updatePhysics ⟨_, rfl⟩⟩
  collisions world hsound h := by
    obtain ⟨world', hok, hstocked⟩ := h.collidePairs std hwidth hheight hsound
    rw [hok]
    exact hstocked
  reaped := clears_stocks.reapDestroyedShips choice
  asteroids world hsound h := by
    obtain ⟨hcenter, hradius⟩ := h.freePosition hwidth hheight
    refine ⟨(quiet_maintainAsteroidPopulation world choice hsound).1, ?_⟩
    exact h.extends (extends_update sturdy_createAsteroid hdraws hcenter.finite hradius hsound.pool
      fun hat => (h.sturdy hat).mass)
  broadcast := clears_stocks.broadcastSnapshot ext choice

/-- A tick of a stocked world, whether or not it finishes. -/
theorem Stocked.runTickStages (ext : Externals (Extended F)) (h : Stocked width height world)
    (hsound : world.Sound) {choice : TickChoice (Extended F)}
    (hdraws : DrawsInRange choice.uniform) (tick_interval : ℕ) (current_tick : UInt64) :
    Stocked width height
      (resultState (runTickStages ext choice tick_interval current_tick world)) := by
  obtain ⟨mid, joins, -, hmid, hrest⟩ := (phases_stocks std hwidth hheight ext
    hdraws).runTickStages tick_interval current_tick world
  obtain ⟨hmidSound, hmidStocked⟩ := hmid (hsound.processInputQueue []) (h.processInputQueue hsound)
  exact (hrest (hmidSound.spawnShips joins)
    (hmidStocked.spawnShips std hwidth hheight hmidSound joins)).2

/-! ### Runs -/

theorem stocked_of_run (ext : Externals (Extended F)) {tick_interval : ℕ}
    {ops : List (Op (Extended F))}
    (draws : ∀ choice current_tick, .tick choice current_tick ∈ ops →
      DrawsInRange choice.uniform)
    (moves : ∀ session_id angle, .event (.PlayerMoveEvent session_id angle) ∈ ops →
      angle.IsFinite)
    (h : (machine ext (.finite width) (.finite height) tick_interval).run ops = some world) :
    Stocked width height world := by
  have hempty : Stocked width height (empty (.finite width) (.finite height)) :=
    ⟨rfl, rfl, nofun, nofun⟩
  have hrun := Machine.run_induction (m := machine ext (.finite width) (.finite height)
    tick_interval)
    (motive := fun ops world => (∀ choice current_tick, .tick choice current_tick ∈ ops →
      DrawsInRange choice.uniform) → (∀ session_id angle,
        .event (.PlayerMoveEvent session_id angle) ∈ ops → angle.IsFinite) →
      Stocked width height world) (fun _ _ => hempty) ?_ h
  · exact hrun draws moves
  intro ops world op world' hs ih hstep hdraws hmoves
  have hstocked := ih (fun choice n hmem => hdraws choice n (List.mem_append_left _ hmem))
    fun session_id angle hmem => hmoves session_id angle (List.mem_append_left _ hmem)
  obtain rfl := Option.some.inj hstep
  have hlast : op ∈ ops ++ [op] := List.mem_append_right _ List.mem_cons_self
  cases op with
  | event event =>
    exact hstocked.onEvent fun session_id angle heq => hmoves session_id angle (heq ▸ hlast)
  | discardActions => exact ⟨hstocked.width_eq, hstocked.height_eq, hstocked.sturdy, nofun⟩
  | tick choice current_tick =>
    exact hstocked.runTickStages std hwidth hheight ext (sound_of_reachable ext ⟨ops, hs⟩)
      (hdraws choice current_tick hlast) tick_interval current_tick

/-- **The condition of live ships.** After every operation of a run whose moves have finite
angles: a live ship has its components, 1 to 100 points of health, a mass of at least 78.54 and
below 480, and the radius of its mass; entities have positive radii, so that the pass over all
pairs returns; and in a world wider and higher than 20, wherever this pass is, no two entities
that meet leave a ship without the room to grow. -/
theorem liveShips_of_run (ext : Externals (Extended F)) {tick_interval : ℕ}
    {ops : List (Op (Extended F))}
    (draws : ∀ choice current_tick, .tick choice current_tick ∈ ops →
      DrawsInRange choice.uniform)
    (moves : ∀ session_id angle, .event (.PlayerMoveEvent session_id angle) ∈ ops →
      angle.IsFinite)
    (h : (machine ext (.finite width) (.finite height) tick_interval).run ops = some world) :
    (∀ {i e}, world.entities_.at? i = some e → e.LiveShip → Hale e) ∧
      (∀ {i e t}, world.entities_.at? i = some e → e.transform = some t →
        ∃ r, e.radius = .finite r ∧ 0 < r) ∧
      (∃ world', collidePairs (world.moved tick_interval) = .ok ⟨⟩ world') ∧
      (20 < width → 20 < height → ∀ {done rest mid},
        pairs (world.moved tick_interval).entities_.storage_.length = done ++ rest →
        done.forM (fun pair => collidePair pair.1 pair.2) (world.moved tick_interval) =
          .ok ⟨⟩ mid →
        ∀ {i j a b}, mid.entities_.at? i = some a → mid.entities_.at? j = some b →
          (Collision.onCollisionShipAsteroid mid.can_grow a b .CanGrow).2.2 ≠ .CannotFit) := by
  have hsound : world.Sound := sound_of_reachable ext ⟨ops, h⟩
  have hstocked := stocked_of_run std hwidth hheight ext draws moves h
  have hmovedSound : (world.moved tick_interval).Sound :=
    ((evolved_updatePhysics _ _).quiet (hsound.processInputQueue [])).1
  have hmoved : Stocked width height (world.moved tick_interval) :=
    (hstocked.processInputQueue hsound).updatePhysics ⟨_, rfl⟩
  refine ⟨fun hat => (hstocked.sturdy hat).live, fun hat _ => (hstocked.sturdy hat).radius, ?_, ?_⟩
  · obtain ⟨world', hok, -⟩ := hmoved.collidePairs std hwidth hheight hmovedSound
    exact ⟨world', hok⟩
  · intro hw hh done rest mid hpairs hdone i j a b ha hb
    have hne (pair : ℕ × ℕ) (hpair : pair ∈ done) : pair.1 ≠ pair.2 :=
      (lt_of_mem_pairs (hpairs ▸ List.mem_append_left rest hpair)).ne
    obtain ⟨mid', hok, -, hmid⟩ := hmoved.collide std hwidth hheight hmovedSound hne
    -- The pass is deterministic, so this is the world it got to.
    cases hok.symm.trans hdone
    exact hmid.fits std hwidth hheight (hmid.sturdy ha) (hmid.sturdy hb) ⟨hw, hh⟩

omit std hwidth hheight

section Exact

attribute [local instance] RationalScalar.stdMath

/-- Session 7 joins and turns its ship. -/
def turningOps : List (Op (Extended ℚ)) :=
  [.event (.PlayerJoinEvent 7 (bytesOf "Ace")), .tick lowChoice 0,
    .event (.PlayerMoveEvent 7 (.finite (3 / 2))), .tick lowChoice 1]

def turningWorld : World (Extended ℚ) :=
  turningOps.foldl (step extendedExternals 16666) (empty (.finite 2000) (.finite 2000))

theorem drawsInRange_turning {choice : TickChoice (Extended ℚ)} {current_tick : UInt64}
    (hmem : .tick choice current_tick ∈ turningOps) : DrawsInRange choice.uniform := by
  have hchoice : choice = lowChoice := by
    simp only [turningOps, List.mem_cons, Op.tick.injEq, reduceCtorEq, List.not_mem_nil, false_or,
      or_false] at hmem
    rcases hmem with ⟨heq, -⟩ | ⟨heq, -⟩
    · exact heq
    · exact heq
  exact hchoice ▸ drawsInRange_lowChoice

theorem isFinite_turning {session_id : SessionId} {angle : Extended ℚ}
    (hmem : .event (.PlayerMoveEvent session_id angle) ∈ turningOps) : angle.IsFinite := by
  simp only [turningOps, List.mem_cons, Op.event.injEq, NetworkEvent.PlayerMoveEvent.injEq,
    reduceCtorEq, List.not_mem_nil, false_or, or_false] at hmem
  exact ⟨_, hmem.2⟩

/-- The ship of session 7 keeps its condition, and has the room to grow. -/
theorem liveShips_turning :
    (∃ e, turningWorld.entities_.at? 1 = some e ∧ e.LiveShip ∧ Hale e ∧
      ∃ r, e.radius = .finite r ∧ 0 < r) ∧
      (∃ world', collidePairs (turningWorld.moved 16666) = .ok ⟨⟩ world') ∧
      ∀ {a b}, (turningWorld.moved 16666).entities_.at? 1 = some a →
        (turningWorld.moved 16666).entities_.at? 0 = some b →
          (Collision.onCollisionShipAsteroid (turningWorld.moved 16666).can_grow a b
            .CanGrow).2.2 ≠ .CannotFit := by
  have hslot : (turningWorld.entities_.at? 1).map
      (fun e => (e.type, e.isDestroyed, e.transform.isSome)) = some (.Ship, false, true) := by
    decide +kernel
  obtain ⟨e, hat, heq⟩ := Option.map_eq_some_iff.mp hslot
  simp only [Prod.mk.injEq] at heq
  obtain ⟨htype, hlive, htransform⟩ := heq
  obtain ⟨t, ht⟩ := Option.isSome_iff_exists.mp htransform
  have hrun : (machine extendedExternals (.finite 2000) (.finite 2000) 16666).run turningOps =
      some turningWorld := run_machine _ _ _ _ _
  have hsize : (20 : ℚ) < 2000 := by norm_num
  have hextent : (0 : ℚ) < 2000 := by norm_num
  obtain ⟨hhale, hradius, hok, hfits⟩ := liveShips_of_run standardMath_rational hextent hextent
    extendedExternals (fun _ _ => drawsInRange_turning) (fun _ _ => isFinite_turning) hrun
  refine ⟨⟨e, hat, ⟨htype, hlive⟩, hhale hat ⟨htype, hlive⟩, hradius hat ht⟩, hok,
    fun ha hb => ?_⟩
  -- Before its first pair the pass has done nothing.
  have hnone : ([] : List (ℕ × ℕ)).forM (fun pair => collidePair pair.1 pair.2)
      (turningWorld.moved 16666) = .ok ⟨⟩ (turningWorld.moved 16666) := rfl
  exact hfits hsize hsize (List.nil_append _).symm hnone ha hb

end Exact

end SpaceShooter.Server.World
