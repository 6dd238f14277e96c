/-
# Runs that keep the ships in the world

A tick turns the ships by the queued commands and then moves everything. Ships that the
queue leaves at finite angles stay in the world's rectangle with finite motion, along
every run all of whose ticks start from such a queue.
-/

import SpaceShooter.Server.ShipBounds

namespace SpaceShooter.Server.World

open Scalar Domain Library Library.Outcome Math

/-! ### Commands in a queue -/

section Queues

variable {K : Type} {queue rest : List (ActionEvent K)} {action : ActionEvent K} {s : SessionId}

/-- A session quits in a queue. -/
def QuitsIn (queue : List (ActionEvent K)) (s : SessionId) : Prop :=
  ∃ action ∈ queue, action.session_id = s ∧ action.type = .PlayerQuit

/-- The last action of a queue that turns the ship of a session. -/
def lastTurn (queue : List (ActionEvent K)) (s : SessionId) : Option (ActionEvent K) :=
  (queue.filter fun action => action.session_id = s ∧ action.type = .MoveAndShoot).getLast?

theorem quitsIn_cons : QuitsIn (action :: rest) s ↔
    (action.session_id = s ∧ action.type = .PlayerQuit) ∨ QuitsIn rest s := by
  simp only [QuitsIn, List.exists_mem_cons_iff]

theorem lastTurn_cons_turn (h : action.session_id = s ∧ action.type = .MoveAndShoot) :
    lastTurn (action :: rest) s = some ((lastTurn rest s).getD action) := by
  rw [lastTurn, List.filter_cons_of_pos (by simpa using h), List.getLast?_cons]
  rfl

theorem lastTurn_cons_other (h : ¬ (action.session_id = s ∧ action.type = .MoveAndShoot)) :
    lastTurn (action :: rest) s = lastTurn rest s := by
  rw [lastTurn, List.filter_cons_of_neg (by simpa using h)]
  rfl

variable [Scalar K]

/-- The queue leaves every session that has a live ship and stays at a finite angle. -/
def TurnsFinitely (queue : List (ActionEvent K)) (world : World K) : Prop :=
  ∀ s id, world.session_to_ship_.lookup s = some id → world.entities_.HasLiveShip id →
    ¬ QuitsIn queue s → ∀ action ∈ lastTurn queue s, isfinite action.angle = true

instance (queue : List (ActionEvent K)) (s : SessionId) : Decidable (QuitsIn queue s) :=
  inferInstanceAs (Decidable (∃ action ∈ queue, action.session_id = s ∧ action.type = .PlayerQuit))

instance (queue : List (ActionEvent K)) (world : World K) :
    Decidable (TurnsFinitely queue world) :=
  decidable_of_iff (∀ entry ∈ world.session_to_ship_.entries,
      world.entities_.HasLiveShip entry.2 → ¬ QuitsIn queue entry.1 →
        ∀ action ∈ lastTurn queue entry.1, isfinite action.angle = true) <| by
    constructor
    · intro h s id hmapped
      exact h ⟨s, id⟩ (AList.mem_lookup_iff.mp hmapped)
    · rintro h ⟨s, id⟩ hmem
      exact h s id (AList.mem_lookup_iff.mpr hmem)

end Queues

variable {F : Type} [Field F] [LinearOrder F] {width height : F} {world world' : World (Extended F)}

/-! ### Contained worlds -/

/-- A world of this size with steady entities, whose queued shots have finite angles. -/
structure Bounded (width height : F) (world : World (Extended F)) : Prop where
  width_eq : world.world_width_ = .finite width
  height_eq : world.world_height_ = .finite height
  steady : ∀ {i e}, world.entities_.at? i = some e → Steady width height e
  shots : ∀ action ∈ world.action_queue_, action.is_shooting = true → action.angle.IsFinite

/-- A bounded world whose live ships have finite angles. -/
structure Contained (width height : F) (world : World (Extended F)) : Prop
    extends Bounded width height world where
  aimed : ∀ {i e}, world.entities_.at? i = some e → Aimed e

theorem Contained.tame (h : Contained width height world) {i : ℕ} {e : Entity (Extended F)}
    (hat : world.entities_.at? i = some e) : Tame width height e :=
  ⟨h.steady hat, h.aimed hat⟩

/-- Slots that hold tame entities make the world contained. -/
theorem Contained.of_tame (h : Contained width height world)
    (width_eq : world'.world_width_ = world.world_width_)
    (height_eq : world'.world_height_ = world.world_height_)
    (queue : world'.action_queue_ = world.action_queue_)
    (tame : ∀ {i e}, world'.entities_.at? i = some e → Tame width height e) :
    Contained width height world' where
  width_eq := width_eq.trans h.width_eq
  height_eq := height_eq.trans h.height_eq
  steady hat := (tame hat).1
  shots action hmem := h.shots action (queue ▸ hmem)
  aimed hat := (tame hat).2

/-- A sound contained world goes to one. -/
def Contains (width height : F) (world world' : World (Extended F)) : Prop :=
  world.Sound → Contained width height world → world'.Sound ∧ Contained width height world'

/-- What is done to a world once its collisions are over keeps it contained. -/
theorem clears_contains : Clears (Contains (F := F) width height) :=
  clears_of_fewer fun h width_eq height_eq queue fewer =>
    h.of_tame width_eq height_eq queue fun hat => h.tame (fewer hat)

/-- A pass over the entities that keeps them tame. -/
theorem Contained.evolves (h : Contained width height world)
    {pool : EntityPool (Extended F)}
    (hevolves : EntityPool.Evolves (fun e e' => Tame width height e → Tame width height e')
      world.entities_ pool) :
    Contained width height { world with entities_ := pool } := by
  refine h.of_tame rfl rfl rfl fun {i e'} hat' => ?_
  obtain ⟨e, hat, htame⟩ := hevolves.some_of_some' hat'
  exact htame (h.tame hat)

/-- New tame entities. -/
theorem Contained.extends (h : Contained width height world)
    {pool : EntityPool (Extended F)}
    (hextends : EntityPool.Extends (Tame width height) world.entities_ pool) :
    Contained width height { world with entities_ := pool } := by
  refine h.of_tame rfl rfl rfl fun {i e} hat => ?_
  rcases hextends.added hat with hold | ⟨-, htame, -⟩
  · exact h.tame hold
  · exact htame

variable [StdMath F]

theorem Contained.onEvent (h : Contained width height world)
    (event : NetworkEvent (Extended F)) : Contained width height (onEvent event world) := by
  have henqueue (action : ActionEvent (Extended F))
      (haction : action.is_shooting = true → action.angle.IsFinite) :
      Contained width height (world.enqueueAction action) := by
    refine ⟨⟨h.width_eq, h.height_eq, h.steady, fun other hmem => ?_⟩, h.aimed⟩
    rcases List.mem_append.mp hmem with hold | hnew
    · exact h.shots other hold
    · exact List.mem_singleton.mp hnew ▸ haction
  cases event with
  | NetworkMessageEvent => exact h
  | SendPacketEvent => exact h
  | ClientConnectedEvent => exact h
  | ShipDestroyedEvent => exact h
  | PlayerJoinEvent => exact henqueue _ nofun
  | ClientDisconnectedEvent => exact henqueue _ nofun
  | PlayerMoveEvent => exact henqueue _ nofun
  -- A shot comes with the default angle.
  | ShotMessageEvent => exact henqueue _ fun _ => isFinite_lit 0

/-! ### Draining the queue -/

/-- A drain on its way: a ship whose angle is not finite belongs to a session that quits or
turns it in the rest of the queue. -/
structure Aiming (width height : F) (rest : List (ActionEvent (Extended F)))
    (world : World (Extended F)) : Prop where
  sound : world.Sound
  width_eq : world.world_width_ = .finite width
  height_eq : world.world_height_ = .finite height
  steady : ∀ {i e}, world.entities_.at? i = some e → Steady width height e
  shots : ∀ action ∈ rest, action.is_shooting = true → action.angle.IsFinite
  turns : TurnsFinitely rest world
  aimed : ∀ {i e}, world.entities_.at? i = some e → Aimed e ∨
    ∃ s, world.session_to_ship_.lookup s = some e.id ∧
      (QuitsIn rest s ∨ (lastTurn rest s).isSome = true)

variable {action : ActionEvent (Extended F)} {rest : List (ActionEvent (Extended F))}

/-- Where the first action of the queue does nothing to a session that stays, the rest of
the queue turns it finitely as well. -/
theorem TurnsFinitely.tail (h : TurnsFinitely (action :: rest) world)
    (hfades : Fades world world')
    (hstays : ∀ s id, world'.session_to_ship_.lookup s = some id →
      ¬ (action.session_id = s ∧ action.type = .PlayerQuit)) :
    TurnsFinitely rest world' := by
  intro s id hmapped hlive hstay last hlast
  refine h s id (hfades.mapped hmapped) (hfades.ships hlive) ?_ last ?_
  · rw [quitsIn_cons, not_or]
    exact ⟨hstays s id hmapped, hstay⟩
  · by_cases hturn : action.session_id = s ∧ action.type = .MoveAndShoot
    · rw [lastTurn_cons_turn hturn, hlast]
      rfl
    · rwa [lastTurn_cons_other hturn]

/-- An action that neither quits nor turns. -/
theorem Aiming.skip (h : Aiming width height (action :: rest) world)
    (hquit : action.type ≠ .PlayerQuit) (hturn : action.type ≠ .MoveAndShoot) :
    Aiming width height rest world where
  sound := h.sound
  width_eq := h.width_eq
  height_eq := h.height_eq
  steady := h.steady
  shots other hmem := h.shots other (List.mem_cons_of_mem action hmem)
  turns := h.turns.tail (.refl world) fun _ _ _ hq => hquit hq.2
  aimed hat := by
    refine (h.aimed hat).imp_right fun ⟨s, hmapped, hmore⟩ => ⟨s, hmapped, ?_⟩
    rw [quitsIn_cons, lastTurn_cons_other fun ht => hturn ht.2] at hmore
    exact hmore.imp_left fun hq => hq.resolve_left fun hq => hquit hq.2

/-- The session that quits leaves a flagged ship. -/
theorem Aiming.applyQuit (h : Aiming width height (action :: rest) world) :
    Aiming width height rest (world.applyQuit action.session_id) := by
  obtain ⟨hsound, hfades⟩ := quiet_applyQuit world action.session_id h.sound
  -- The quit takes the entry of its session and no other.
  have hlookup (s : SessionId) : (world.applyQuit action.session_id).session_to_ship_.lookup s =
      if s = action.session_id then none else world.session_to_ship_.lookup s := by
    unfold World.applyQuit
    split
    · next hmapped =>
      split_ifs with hs
      · rw [hs, hmapped]
      · rfl
    · split_ifs with hs
      · rw [hs, AList.lookup_erase]
      · exact AList.lookup_erase_ne hs
  refine ⟨hsound, ?_, ?_, ?_, ?_, ?_, ?_⟩
  · unfold World.applyQuit
    split
    · exact h.width_eq
    · exact h.width_eq
  · unfold World.applyQuit
    split
    · exact h.height_eq
    · exact h.height_eq
  · intro i e' hat'
    obtain ⟨e, hat, ⟨rfl, -⟩ | ⟨-, rfl⟩⟩ := at?_applyQuit h.sound.pool _ hat'
    · exact h.steady hat
    · exact (h.steady hat).congr rfl rfl rfl rfl rfl
  · exact fun other hmem => h.shots other (List.mem_cons_of_mem action hmem)
  · refine h.turns.tail hfades fun s id hmapped hq => ?_
    rw [hlookup, if_pos hq.1.symm] at hmapped
    cases hmapped
  · intro i e' hat'
    obtain ⟨e, hat, ⟨rfl, hother⟩ | ⟨-, rfl⟩⟩ := at?_applyQuit h.sound.pool _ hat'
    · refine (h.aimed hat).imp_right fun ⟨s, hmapped, hmore⟩ => ⟨s, ?_, ?_⟩
      · rw [hlookup, if_neg]
        · exact hmapped
        · rintro rfl
          exact hother hmapped
      · have hne : action.session_id ≠ s := by
          rintro rfl
          exact hother hmapped
        rw [quitsIn_cons, lastTurn_cons_other fun ht => hne ht.1] at hmore
        exact hmore.imp_left fun hq => hq.resolve_left fun hq => hne hq.1
    · exact Or.inl fun hlive => nomatch hlive.2

/-- Turning a ship keeps it where it is, and a shot at a finite angle adds a steady bullet. -/
theorem steady_applyMoveAndShoot (wf : world.entities_.WellFormed)
    (hsteady : ∀ {i e}, world.entities_.at? i = some e → Steady width height e)
    (hshot : action.is_shooting = true → action.angle.IsFinite) {i : ℕ}
    {e : Entity (Extended F)}
    (hat : (world.applyMoveAndShoot action).entities_.at? i = some e) :
    Steady width height e := by
  refine forall_applyMoveAndShoot wf hsteady (fun he ht => ?_) (fun hshooting => ?_) hat
  · obtain ⟨hposition, hvelocity⟩ := he.motion ht
    have hinside := fun htype => he.inside htype ht
    exact he.place hposition hvelocity hinside
  · intro e t pool ship_id he ht hpool
    have hangle := hshot hshooting
    have hdirection : FinitePoint (⟨cos action.angle, sin action.angle⟩ :
        Vector2D (Extended F)) := ⟨isFinite_cos hangle, isFinite_sin hangle⟩
    refine EntityPool.extends_acquire_modify hpool (fun _ => rfl)
      ⟨isFinite_lit 2, isFinite_lit 0, nofun, ?_, nofun⟩
    rintro t' ht'
    obtain rfl := Option.some.inj ht'
    exact ⟨(he.motion ht).1.add (hdirection.scale he.radius),
      hdirection.scale (isFinite_lit 500)⟩

/-- A ship that is turned for the last time gets a finite angle. -/
theorem Aiming.applyMoveAndShoot (h : Aiming width height (action :: rest) world)
    (hturn : action.type = .MoveAndShoot) :
    Aiming width height rest (world.applyMoveAndShoot action) := by
  obtain ⟨hsound, hfades⟩ := quiet_applyMoveAndShoot world action h.sound
  have hsame : (world.applyMoveAndShoot action).session_to_ship_ = world.session_to_ship_ ∧
      (world.applyMoveAndShoot action).world_width_ = world.world_width_ ∧
      (world.applyMoveAndShoot action).world_height_ = world.world_height_ := by
    obtain ⟨pool, heq⟩ := frame_applyMoveAndShoot world action
    rw [heq]
    exact ⟨rfl, rfl, rfl⟩
  -- A turn is no quit, so it is the later actions that decide.
  have hnoquit (s : SessionId) : ¬ (action.session_id = s ∧ action.type = .PlayerQuit) :=
    fun hq => nomatch hturn.symm.trans hq.2
  refine ⟨hsound, hsame.2.1.trans h.width_eq, hsame.2.2.trans h.height_eq, ?_, ?_, ?_, ?_⟩
  · exact fun hat => steady_applyMoveAndShoot h.sound.pool h.steady
      (h.shots action List.mem_cons_self) hat
  · exact fun other hmem => h.shots other (List.mem_cons_of_mem action hmem)
  · exact h.turns.tail hfades fun s _ _ => hnoquit s
  · intro i e' hat'
    rw [hsame.1]
    rcases at?_applyMoveAndShoot h.sound.pool action hat' with ⟨-, hbullet⟩ | ⟨e, hat, hcase⟩
    · exact Or.inl fun hlive => nomatch hbullet.symm.trans hlive.1
    rcases hcase with ⟨rfl, hother⟩ | ⟨hown, t, ht, rfl⟩
    · rcases hother with hother | hnone
      · refine (h.aimed hat).imp_right fun ⟨s, hmapped, hmore⟩ => ⟨s, hmapped, ?_⟩
        have hne : action.session_id ≠ s := by
          rintro rfl
          exact hother hmapped
        rw [quitsIn_cons, lastTurn_cons_other fun ht => hne ht.1] at hmore
        exact hmore.imp_left fun hq => hq.resolve_left (hnoquit s)
      · exact Or.inl fun _ t ht => nomatch hnone.symm.trans ht
    · by_cases hmore : QuitsIn rest action.session_id ∨
          (lastTurn rest action.session_id).isSome = true
      · exact Or.inr ⟨action.session_id, hown, hmore⟩
      · -- Nothing more happens to the ship, so the queue leaves it at this angle.
        rw [not_or, Bool.not_eq_true, Option.isSome_eq_false_iff, Option.isNone_iff_eq_none]
          at hmore
        refine Or.inl fun hlive t' ht' => ?_
        obtain rfl := Option.some.inj ht'
        refine isFinite_of_isfinite (h.turns action.session_id e.id hown ⟨i, e, hat, rfl, hlive⟩ ?_
          action ?_)
        · rw [quitsIn_cons, not_or]
          exact ⟨hnoquit _, hmore.1⟩
        · rw [lastTurn_cons_turn ⟨rfl, hturn⟩, hmore.2]
          rfl

theorem Aiming.applyAction (h : Aiming width height (action :: rest) world)
    (new_players : List PendingJoin) :
    Aiming width height rest (applyAction (world, new_players) action).1 := by
  unfold World.applyAction
  dsimp only
  split
  · next htype => exact h.skip (by simp [htype]) (by simp [htype])
  · exact h.applyQuit
  · next htype => exact h.applyMoveAndShoot htype
  · next htype => exact h.skip (by simp [htype]) (by simp [htype])
  · next htype => exact h.skip (by simp [htype]) (by simp [htype])

theorem Aiming.foldl (queue : List (ActionEvent (Extended F)))
    (new_players : List PendingJoin) (h : Aiming width height queue world) :
    Aiming width height [] (queue.foldl World.applyAction (world, new_players)).1 := by
  induction queue generalizing world new_players with
  | nil => exact h
  | cons action queue ih => exact ih _ (h.applyAction new_players)

/-- A queue that turns finitely leaves a contained world contained. -/
theorem Contained.processInputQueue (h : Contained width height world) (hsound : world.Sound)
    (hturns : TurnsFinitely world.action_queue_ world) :
    Contained width height (world.processInputQueue []).1 := by
  have hstart : Aiming width height world.action_queue_ { world with action_queue_ := [] } :=
    ⟨hsound.congr rfl rfl rfl, h.width_eq, h.height_eq, h.steady, h.shots, hturns,
      fun hat => Or.inl (h.aimed hat)⟩
  have hend := hstart.foldl world.action_queue_ []
  have hqueue := (quiet_processInputQueue world [] (hsound.congr rfl rfl rfl)).2.queue
  refine ⟨⟨hend.width_eq, hend.height_eq, hend.steady, ?_⟩, fun hat => ?_⟩
  · rw [hqueue]
    exact nofun
  · -- With nothing left of the queue, every angle is finite.
    refine (hend.aimed hat).resolve_right ?_
    rintro ⟨s, -, ⟨action, hmem, -⟩ | hmore⟩
    · cases hmem
    · cases hmore

/-! ### Ticks -/

variable [IsStrictOrderedRing F] (hwidth : 2 * eps ≤ width) (hheight : 2 * eps ≤ height)
include hwidth hheight

/-- Free room is found inside the rectangle. -/
theorem Contained.freePosition (h : Contained width height world) :
    InRectangle width height world.freePosition.center ∧ world.freePosition.radius.IsFinite := by
  have heps : (0 : F) ≤ eps := eps_nonneg
  refine freePosition_spec h.width_eq h.height_eq (fun hat ht => ?_) (by linarith) (by linarith)
  exact ⟨((h.steady hat).motion ht).1, (h.steady hat).radius⟩

theorem Contained.spawnShip (h : Contained width height world) (hsound : world.Sound)
    (join : PendingJoin) : Contained width height (world.spawnShip join) := by
  obtain ⟨hcenter, -⟩ := h.freePosition hwidth hheight
  have hextends : EntityPool.Extends (Tame width height) world.entities_
      (world.spawnShip join).entities_ := by
    refine EntityPool.extends_acquire_modify hsound.pool (fun _ => rfl)
      ⟨⟨isFinite_lit _, isFinite_lit _, ?_, ?_, ?_⟩, ?_⟩
    · rintro s hs
      obtain rfl := Option.some.inj hs
      exact ⟨isFinite_lit _, isFinite_lit _⟩
    · rintro t ht
      obtain rfl := Option.some.inj ht
      exact ⟨hcenter.finite, isFinite_lit 0, isFinite_lit 0⟩
    · rintro t - ht
      obtain rfl := Option.some.inj ht
      exact hcenter
    · rintro - t ht
      obtain rfl := Option.some.inj ht
      exact isFinite_lit 0
  exact (h.extends hextends).of_tame rfl rfl rfl (h.extends hextends).tame

theorem Contained.spawnShips (h : Contained width height world) (hsound : world.Sound)
    (joins : List PendingJoin) : Contained width height (world.spawnShips joins) := by
  induction joins generalizing world with
  | nil => exact h
  | cons join joins ih =>
    exact ih (h.spawnShip hwidth hheight hsound join) (hsound.spawnShip join)

theorem keeps_contains_resolveCollisions (choice : TickChoice (Extended F)) :
    Keeps (Contains width height) (resolveCollisions choice) := by
  refine Keeps.bind clears_contains.trans (fun world hsound h => ?_)
    fun _ => clears_contains.reapDestroyedShips choice
  refine ⟨((evolved_collidePairs world).quiet hsound).1, ?_⟩
  obtain ⟨pool, hevolves, heq⟩ := keeps_collidePairs
    (R := fun e e' => Tame width height e → Tame width height e') world
    (tame_pass hwidth hheight h.width_eq h.height_eq)
  rw [heq]
  exact h.evolves hevolves

/-- A tick of a contained world whose queue turns finitely, whether or not it finishes. -/
theorem Contained.runTickStages (ext : Externals (Extended F)) (h : Contained width height world)
    (hsound : world.Sound) (hturns : TurnsFinitely world.action_queue_ world)
    {choice : TickChoice (Extended F)} (hdraws : DrawsInRange choice.uniform)
    (tick_interval : ℕ) (current_tick : UInt64) :
    Contained width height
      (resultState (runTickStages ext choice tick_interval current_tick world)) := by
  have hdrained := h.processInputQueue hsound hturns
  have hdrainedSound := hsound.processInputQueue []
  have hmoved : Contained width height
      ((world.processInputQueue []).1.updatePhysics (secondsOfMicros tick_interval)) := by
    unfold updatePhysics
    refine hdrained.evolves (EntityPool.evolves_map _ fun e => ?_)
    rw [hdrained.width_eq, hdrained.height_eq]
    exact tame_moveEntity hwidth hheight ⟨_, rfl⟩
  have hmovedSound := ((evolved_updatePhysics (world.processInputQueue []).1
    (secondsOfMicros tick_interval)).quiet hdrainedSound).1
  obtain ⟨hmidSound, hmid⟩ :=
    keeps_contains_resolveCollisions hwidth hheight choice _ hmovedSound hmoved
  rw [runTickStages_eq, simulateTick_eq]
  cases hresult : resolveCollisions choice
      ((world.processInputQueue []).1.updatePhysics (secondsOfMicros tick_interval)) with
  | error e mid =>
    rw [hresult] at hmid
    exact hmid
  | ok _ mid =>
    rw [hresult] at hmid hmidSound
    -- The asteroids come before the ships of new players.
    obtain ⟨hcenter, hradius⟩ := hmid.freePosition hwidth hheight
    have hasteroids : Contained width height (mid.maintainAsteroidPopulation choice) :=
      hmid.extends (extends_update tame_createAsteroid hdraws hcenter.finite hradius
        hmidSound.pool fun hat => (hmid.steady hat).mass)
    have hasteroidsSound := (quiet_maintainAsteroidPopulation mid choice hmidSound).1
    have hspawned := hasteroids.spawnShips hwidth hheight hasteroidsSound
      (world.processInputQueue []).2
    have hspawnedSound := hasteroidsSound.spawnShips (world.processInputQueue []).2
    exact (clears_contains.broadcastSnapshot ext choice _ _ hspawnedSound hspawned).2

/-! ### Runs -/

/-- A tick starts from a queue that leaves the ships at finite angles. -/
def StartsFromFiniteTurns (world : World (Extended F)) : Op (Extended F) → Prop
  | .tick _ _ => TurnsFinitely world.action_queue_ world
  | _ => True

instance (world : World (Extended F)) (op : Op (Extended F)) :
    Decidable (StartsFromFiniteTurns world op) :=
  match op with
  | .event _ => isTrue trivial
  | .tick _ _ => inferInstanceAs (Decidable (TurnsFinitely world.action_queue_ world))
  | .discardActions => isTrue trivial

theorem contained_of_run (ext : Externals (Extended F)) {tick_interval : ℕ}
    {ops : List (Op (Extended F))}
    (draws : ∀ choice current_tick, .tick choice current_tick ∈ ops →
      DrawsInRange choice.uniform)
    (meets : (machine ext (.finite width) (.finite height) tick_interval).Meets
      StartsFromFiniteTurns ops)
    (h : (machine ext (.finite width) (.finite height) tick_interval).run ops = some world) :
    Contained width height world := by
  have hempty : Contained width height (empty (.finite width) (.finite height)) :=
    ⟨⟨rfl, rfl, nofun, nofun⟩, nofun⟩
  have hrun := Machine.guarded_induction (m := machine ext (.finite width) (.finite height)
    tick_interval) StartsFromFiniteTurns
    (motive := fun ops world => (∀ choice current_tick, .tick choice current_tick ∈ ops →
      DrawsInRange choice.uniform) → Contained width height world) (fun _ => hempty) ?_ meets h
  · exact hrun draws
  -- Only a tick moves anything.
  intro ops world op world' hs _ ih hguard hstep hdraws
  have hcontained := ih fun choice n hmem => hdraws choice n (List.mem_append_left _ hmem)
  obtain rfl := Option.some.inj hstep
  cases op with
  | event event => exact hcontained.onEvent event
  | discardActions =>
    exact ⟨⟨hcontained.width_eq, hcontained.height_eq, hcontained.steady, nofun⟩,
      hcontained.aimed⟩
  | tick choice current_tick =>
    exact hcontained.runTickStages hwidth hheight ext (sound_of_reachable ext ⟨ops, hs⟩) hguard
      (hdraws choice current_tick (List.mem_append_right _ List.mem_cons_self)) tick_interval
      current_tick

/-- **Ships stay in the world.** Whatever payloads the sessions send, while every tick starts
from a queue that leaves the live ships of its sessions at finite angles, all live ships have
finite motion and stay in the closed rectangle. -/
theorem ship_in_world (ext : Externals (Extended F)) {tick_interval : ℕ} {handlerSet : Bool}
    {inputs : List (Input (Extended F))}
    (draws : ∀ choice current_tick, .tick choice current_tick ∈ inputs →
      DrawsInRange choice.uniform)
    (meets : (machine ext (.finite width) (.finite height) tick_interval).Meets
      StartsFromFiniteTurns (inputs.flatMap (Input.ops handlerSet)))
    (h : (machine ext (.finite width) (.finite height) tick_interval).run
      (inputs.flatMap (Input.ops handlerSet)) = some world)
    {i : ℕ} {e : Entity (Extended F)} (hat : world.entities_.at? i = some e)
    (hlive : e.LiveShip) :
    ∃ t, e.transform = some t ∧ t.angle.IsFinite ∧ FinitePoint t.velocity ∧
      InRectangle width height t.position := by
  have hcontained := contained_of_run hwidth hheight ext
    (fun choice n hmem => draws choice n (mem_inputs_of_tick hmem)) meets h
  obtain ⟨t, ht⟩ := Option.isSome_iff_exists.mp
    ((sound_of_reachable ext ⟨_, h⟩).fit hat hlive.1 hlive.2).1
  exact ⟨t, ht, hcontained.aimed hat hlive t ht, ((hcontained.steady hat).motion ht).2,
    (hcontained.steady hat).inside hlive.1 ht⟩

omit hwidth hheight

section Exact

attribute [local instance] RationalScalar.stdMath

/-- Externals over the extended rationals: entities travel as their identifiers. -/
def extendedExternals : Externals (Extended ℚ) where
  wire := ⟨fun entity => [UInt8.ofNat entity.id], fun _ => none⟩
  partial_sort lt _ entries := entries.insertionSort fun a b => lt b a = false

/-- Draws are the least possible, no subscriber throws, and the map iterates in order. -/
def lowChoice : TickChoice (Extended ℚ) := ⟨fun _ low _ => low, fun _ => none, id, List.Perm.refl⟩

theorem drawsInRange_lowChoice : DrawsInRange lowChoice.uniform :=
  fun _ a _ hle => ⟨a, rfl, le_rfl, hle⟩

/-- Session 7 joins and sends a payload. -/
def sent (msg : String) : List (Input (Extended ℚ)) :=
  [.payload 7 (bytesOf "JOIN Ace"), .tick lowChoice 0, .payload 7 (bytesOf msg),
    .tick lowChoice 1]

theorem drawsInRange_sent {msg : String} (choice : TickChoice (Extended ℚ))
    (current_tick : UInt64) (hmem : .tick choice current_tick ∈ sent msg) :
    DrawsInRange choice.uniform := by
  have hchoice : choice = lowChoice := by
    simp only [sent, List.mem_cons, Input.tick.injEq, reduceCtorEq, List.not_mem_nil, false_or,
      or_false] at hmem
    rcases hmem with ⟨heq, -⟩ | ⟨heq, -⟩
    · exact heq
    · exact heq
  exact hchoice ▸ drawsInRange_lowChoice

/-- What happens to the default world. -/
def sends (msg : String) : List (Op (Extended ℚ)) := (sent msg).flatMap (Input.ops false)

def sendsWorld (msg : String) : World (Extended ℚ) :=
  (sends msg).foldl (step extendedExternals 16666) (empty (.finite 2000) (.finite 2000))

theorem run_sends (msg : String) :
    (machine extendedExternals (.finite 2000) (.finite 2000) 16666).run (sends msg) =
      some (sendsWorld msg) :=
  run_machine _ _ _ _ _

/-- A move to a finite angle keeps the ship in the world. -/
theorem ship_in_world_finite : ∃ e t, (sendsWorld "MOVE 1.5").entities_.at? 1 = some e ∧
    e.LiveShip ∧ e.transform = some t ∧ t.angle.IsFinite ∧ FinitePoint t.velocity ∧
      InRectangle 2000 2000 t.position := by
  have hslot : ((sendsWorld "MOVE 1.5").entities_.at? 1).map (fun e => (e.type, e.isDestroyed)) =
      some (.Ship, false) := by decide +kernel
  obtain ⟨e, hat, heq⟩ := Option.map_eq_some_iff.mp hslot
  have hlive : e.LiveShip := Prod.mk.inj heq
  have heps : 2 * (eps : ℚ) ≤ 2000 := by
    unfold eps
    norm_num
  have hmeets : (machine extendedExternals (.finite 2000) (.finite 2000) 16666).Meets
      StartsFromFiniteTurns (sends "MOVE 1.5") :=
    Machine.meets_of_checks (by decide +kernel)
  obtain ⟨t, ht, hangle, hvelocity, hinside⟩ := ship_in_world heps heps extendedExternals
    drawsInRange_sent hmeets (run_sends "MOVE 1.5") hat hlive
  exact ⟨e, t, hat, hlive, ht, hangle, hvelocity, hinside⟩

/-- The payload `MOVE nan` takes a ship out of the world. -/
theorem not_ship_in_world_nan :
    (machine extendedExternals (.finite 2000) (.finite 2000) 16666).run (sends "MOVE nan") =
        some (sendsWorld "MOVE nan") ∧
      (∀ choice current_tick, .tick choice current_tick ∈ sent "MOVE nan" →
        DrawsInRange choice.uniform) ∧
      ∃ e t, (sendsWorld "MOVE nan").entities_.at? 1 = some e ∧ e.LiveShip ∧
        e.transform = some t ∧ ¬ t.angle.IsFinite ∧ ¬ FinitePoint t.velocity ∧
          ¬ InRectangle 2000 2000 t.position := by
  refine ⟨run_sends _, drawsInRange_sent, ?_⟩
  have hslot : ((sendsWorld "MOVE nan").entities_.at? 1).map
      (fun e => (e.type, e.isDestroyed, e.transform)) =
        some (.Ship, false, some ⟨⟨.nan, .nan⟩, ⟨.nan, .nan⟩, .nan⟩) := by decide +kernel
  obtain ⟨e, hat, heq⟩ := Option.map_eq_some_iff.mp hslot
  simp only [Prod.mk.injEq] at heq
  obtain ⟨htype, hlive, ht⟩ := heq
  refine ⟨e, _, hat, ⟨htype, hlive⟩, ht, nofun, ?_, ?_⟩
  · rintro ⟨⟨a, ha⟩, -⟩
    cases ha
  · rintro ⟨x, y, heq, -⟩
    cases heq

end Exact

end SpaceShooter.Server.World
