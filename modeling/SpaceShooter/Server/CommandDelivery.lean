/-
# Commands after a join

The ship of a new player appears at the end of the tick that drains the join, so commands
that are drained with the join find no ship and are ignored. From the next tick on every
command of the session reaches the ship, as long as the session does not quit, the ship is
not destroyed and no further ship is spawned for the session: when the queue has been drained
the ship has the angle of its last command, and every shot has its bullet.
-/

import SpaceShooter.Server.Departures
import SpaceShooter.Server.Heading
import SpaceShooter.Server.Succession

namespace SpaceShooter.Server.World

open Scalar Domain Library Library.Outcome

variable {K : Type}

/-- Operations that empty the queue. -/
def Op.drains : Op K → Bool
  | .event _ => false
  | _ => true

/-- A tick has spawned a ship for a session. -/
def NewShip (world world' : World K) (s : SessionId) (id : EntityId) : Prop :=
  (s, id) ∈ world'.spawned ∧ (s, id) ∉ world.spawned

/-! ### Loyal steps -/

/-- A quiet step in which a session keeps its ship as long as the ship lives. -/
def Loyal (world world' : World K) : Prop :=
  world.Sound → world'.Sound ∧ Fades world world' ∧
    ∀ {s id}, world.session_to_ship_.lookup s = some id → world'.entities_.HasLiveShip id →
      world'.session_to_ship_.lookup s = some id

theorem Loyal.trans {a b c : World K} (h : Loyal a b) (h' : Loyal b c) : Loyal a c := by
  intro ha
  obtain ⟨hb, hab, hkeeps⟩ := h ha
  obtain ⟨hc, hbc, hkeeps'⟩ := h' hb
  exact ⟨hc, hab.trans hbc, fun hs hlive => hkeeps' (hkeeps hs (hbc.ships hlive)) hlive⟩

theorem Quiet.loyal {world world' : World K} (h : Quiet world world')
    (mapping : world'.session_to_ship_ = world.session_to_ship_) : Loyal world world' := by
  intro hsound
  obtain ⟨hsound', hfades⟩ := h hsound
  exact ⟨hsound', hfades, fun hs _ => mapping ▸ hs⟩

/-- The flagged ships are those that sessions lose. -/
theorem reaps_loyal : Reaps (Loyal (K := K)) where
  refl world := (Quiet.refl world).loyal rfl
  trans _ _ _ := Loyal.trans
  published world events := (quiet_published world events).loyal rfl
  recycled world := (quiet_recycle world).loyal rfl
  struck world session_id ship_id hmapped hdestroyed hsound := by
    obtain ⟨hsound', hfades⟩ := quiet_erase world session_id hsound
    refine ⟨hsound', hfades, fun {s id} hs hlive => ?_⟩
    refine lookup_erase_eq_some.mpr ⟨?_, hs⟩
    rintro rfl
    obtain rfl := Option.some.inj (hmapped.symm.trans hs)
    -- The ship that is struck off is not alive.
    exact not_live_of_mem_destroyedIds hsound.pool hdestroyed hlive

variable [Scalar K]

/-- The input of a session that its ship has to carry out, and the action it queues. -/
inductive Command (s : SessionId) : NetworkEvent K → ActionEvent K → Prop
  | move (theta : K) : Command s (.PlayerMoveEvent s theta) (moveAction s theta)
  | shot : Command s (.ShotMessageEvent s) (shotAction s)

/-- What a drain of the first actions of the queue makes of the world. -/
def drainedUpTo (world : World K) (n : ℕ) : World K :=
  ({ world with action_queue_ := world.action_queue_.take n }.processInputQueue []).1

/-- There is a bullet of a ship, under a given identifier, that starts in front of the ship. -/
def HasBullet (world : World K) (bullet_id ship_id : EntityId) (t : TransformComponent K)
    (radius angle : K) : Prop :=
  ∃ k bullet, world.entities_.at? k = some bullet ∧ bullet.id = bullet_id ∧
    BulletOf bullet_id ship_id bullet ∧ StartsFrom t radius angle bullet

/-- Between two worlds the ship of a session carried an action out: it took the angle of the
action, and a shot placed a bullet of it in front of the ship. -/
def Applied (world world' : World K) (s : SessionId) (ship_id : EntityId)
    (action : ActionEvent K) : Prop :=
  ∃ i ship t, world.Commands s i ship ∧ ship.id = ship_id ∧ ship.transform = some t ∧
    world'.entities_.at? i =
      some { ship with transform := some { t with angle := action.angle } } ∧
    (action.is_shooting = true →
      world'.HasBullet world.entities_.next_id_ ship_id t ship.radius action.angle)

/-- The commands of a session among the actions of a queue. -/
def commandsOf (s : SessionId) (queue : List (ActionEvent K)) : List (ActionEvent K) :=
  queue.filter fun action => action.session_id = s ∧ action.type = .MoveAndShoot

/-- A drain carries an action of the queue out: it is applied when its turn comes, and when the
queue has been drained the ship has the angle of the last command of its session, and a shot has
its bullet. -/
structure CarriesOut (world : World K) (s : SessionId) (ship_id : EntityId) (n : ℕ)
    (action : ActionEvent K) : Prop where
  queued : world.action_queue_[n]? = some action
  applied : Applied (world.drainedUpTo n) (world.drainedUpTo (n + 1)) s ship_id action
  drained : ∃ i ship t, world.entities_.at? i = some ship ∧ ship.id = ship_id ∧
    ship.transform = some t ∧
    (world.processInputQueue []).1.entities_.at? i = some { ship with transform := some { t with
      angle := headingAfter action.angle (commandsOf s (world.action_queue_.drop (n + 1))) } } ∧
    (action.is_shooting = true → (world.processInputQueue []).1.HasBullet
      (world.drainedUpTo n).entities_.next_id_ ship_id t ship.radius action.angle)

theorem stages_loyal (ext : Externals K) (choice : TickChoice K) : Stages ext choice Loyal where
  refl := reaps_loyal.refl
  trans := reaps_loyal.trans
  evolved h := h.quiet.loyal (by obtain ⟨pool, -, rfl⟩ := h; rfl)
  reaped := reaps_loyal.reapDestroyedShips choice
  asteroids world := (quiet_maintainAsteroidPopulation world choice).loyal rfl
  broadcast := reaps_loyal.broadcastSnapshot ext choice

variable {world world' start : World K} {s : SessionId} {id : EntityId}

/-! ### Draining a queue with the commands of a session -/

omit [Scalar K] in
theorem commandsOf_cons_of_command {action : ActionEvent K} (queue : List (ActionEvent K))
    (hsession : action.session_id = s) (htype : action.type = .MoveAndShoot) :
    commandsOf s (action :: queue) = action :: commandsOf s queue :=
  List.filter_cons_of_pos (decide_eq_true ⟨hsession, htype⟩)

omit [Scalar K] in
theorem commandsOf_cons_of_other {action : ActionEvent K} (queue : List (ActionEvent K))
    (hother : ¬ (action.session_id = s ∧ action.type = .MoveAndShoot)) :
    commandsOf s (action :: queue) = commandsOf s queue :=
  List.filter_cons_of_neg (by simpa using hother)

variable {i : ℕ} {ship : Entity K} {t : TransformComponent K} {angle : K} {shots : List K}

/-- What is no command of the session leaves its ship as it is, unless the session quits. -/
theorem Draining.applyAction_other (h : Draining start s i ship t angle shots world)
    {action : ActionEvent K} (hother : ¬ (action.session_id = s ∧ action.type = .MoveAndShoot))
    (hquit : ¬ (action.type = .PlayerQuit ∧ action.session_id = s))
    (new_players : List PendingJoin) :
    Draining start s i ship t angle shots (applyAction (world, new_players) action).1 := by
  rw [applyAction]
  split
  · exact h
  · next htype => exact h.applyQuit fun hsession => hquit ⟨htype, hsession⟩
  · next htype => exact h.applyMoveAndShoot_other fun hsession => hother ⟨hsession, htype⟩
  · exact h
  · exact h

/-- As long as the session does not quit, a queue leaves its ship at the angle of its last
command. -/
theorem Draining.foldl_commands (h : Draining start s i ship t angle shots world)
    (queue : List (ActionEvent K)) (new_players : List PendingJoin)
    (hquit : ¬ ∃ action ∈ queue, action.type = .PlayerQuit ∧ action.session_id = s) :
    ∃ shots', Draining start s i ship t (headingAfter angle (commandsOf s queue)) shots'
      (queue.foldl applyAction (world, new_players)).1 := by
  induction queue generalizing world new_players angle shots with
  | nil => exact ⟨shots, h⟩
  | cons action queue ih =>
    rw [List.exists_mem_cons_iff, not_or] at hquit
    obtain ⟨hstays, hrest⟩ := hquit
    rw [List.foldl_cons]
    by_cases hcommand : action.session_id = s ∧ action.type = .MoveAndShoot
    · obtain ⟨hsession, htype⟩ := hcommand
      have happly : applyAction (world, new_players) action =
          (world.applyMoveAndShoot action, new_players) := by
        rw [applyAction, htype]
      rw [happly, commandsOf_cons_of_command queue hsession htype]
      exact ih (h.applyMoveAndShoot_own hsession) _ hrest
    · rw [commandsOf_cons_of_other queue hcommand]
      exact ih (h.applyAction_other hcommand hstays new_players) _ hrest

section Newcomers

variable {k : ℕ} {e : Entity K}

omit [Scalar K] in
/-- What came to the pool since the drain began is no ship of a session. -/
theorem slot_ne_of_new (hstart : start.Sound) (hsound : world.Sound) (hfades : Fades start world)
    (hat : world.entities_.at? k = some e) (hnew : start.entities_.next_id_ ≤ e.id)
    (hmapped : world.session_to_ship_.lookup s = some id)
    (hfind : world.entities_.findByEntityID id = some (i, ship)) : i ≠ k := by
  rintro rfl
  obtain ⟨hship, rfl⟩ := hsound.pool.findByEntityID_eq_some.mp hfind
  obtain rfl := Option.some.inj (hat.symm.trans hship)
  exact absurd (hstart.mapped_lt (hfades.mapped hmapped)) (Nat.not_lt_of_le hnew)

omit [Scalar K] in
theorem keeps_applyQuit (hstart : start.Sound) (hsound : world.Sound) (hfades : Fades start world)
    (hat : world.entities_.at? k = some e) (hnew : start.entities_.next_id_ ≤ e.id)
    (session_id : SessionId) : (world.applyQuit session_id).entities_.at? k = some e := by
  rw [applyQuit]
  split
  · exact hat
  · next ship_id hmapped =>
    dsimp only
    split
    · next j ship hfind =>
      have hne := slot_ne_of_new hstart hsound hfades hat hnew hmapped hfind
      rw [EntityPool.at?_modify, if_neg hne]
      exact hat
    · exact hat

theorem keeps_applyMoveAndShoot (hstart : start.Sound) (hsound : world.Sound)
    (hfades : Fades start world) (hat : world.entities_.at? k = some e)
    (hnew : start.entities_.next_id_ ≤ e.id) (action : ActionEvent K) :
    (world.applyMoveAndShoot action).entities_.at? k = some e := by
  rcases applyMoveAndShoot_cases world action with
    ⟨hsame, -⟩ | ⟨ship_id, j, ship, t, hmapped, hfind, ht⟩
  · rw [hsame]
    exact hat
  · have hne := slot_ne_of_new hstart hsound hfades hat hnew hmapped hfind
    have hturned : (world.entities_.modify j fun e =>
        { e with transform := some { t with angle := action.angle } }).at? k = some e := by
      rw [EntityPool.at?_modify, if_neg hne]
      exact hat
    have hwf := hsound.pool.turn j { t with angle := action.angle }
    rw [applyMoveAndShoot_eq hmapped hfind ht]
    dsimp only
    split
    · exact (extends_createBullet hwf _ _ _).keeps hturned
    · exact hturned

/-- An action leaves what came to the pool since the drain began as it is. -/
theorem keeps_applyAction (hstart : start.Sound) (hsound : world.Sound) (hfades : Fades start world)
    (hat : world.entities_.at? k = some e) (hnew : start.entities_.next_id_ ≤ e.id)
    (new_players : List PendingJoin) (action : ActionEvent K) :
    (applyAction (world, new_players) action).1.entities_.at? k = some e := by
  rw [applyAction]
  split
  · exact hat
  · exact keeps_applyQuit hstart hsound hfades hat hnew action.session_id
  · exact keeps_applyMoveAndShoot hstart hsound hfades hat hnew action
  · exact hat
  · exact hat

theorem keeps_foldl_applyAction (hstart : start.Sound) (hsound : world.Sound)
    (hfades : Fades start world) (hat : world.entities_.at? k = some e)
    (hnew : start.entities_.next_id_ ≤ e.id) (queue : List (ActionEvent K))
    (new_players : List PendingJoin) :
    (queue.foldl applyAction (world, new_players)).1.entities_.at? k = some e := by
  induction queue generalizing world new_players with
  | nil => exact hat
  | cons action queue ih =>
    obtain ⟨hnext, hmore⟩ := quiet_applyAction world new_players action hsound
    apply ih hnext (hfades.trans hmore)
    exact keeps_applyAction hstart hsound hfades hat hnew new_players action

end Newcomers

/-! ### Carrying out an action -/

/-- The drain of the whole queue. -/
theorem drainedUpTo_length (world : World K) :
    world.drainedUpTo world.action_queue_.length = (world.processInputQueue []).1 := by
  rw [drainedUpTo, List.take_length]

theorem drainedUpTo_append {front back : List (ActionEvent K)}
    (hqueue : world.action_queue_ = front ++ back) :
    world.drainedUpTo front.length =
      (front.foldl applyAction ({ world with action_queue_ := [] }, [])).1 := by
  rw [drainedUpTo, hqueue, List.take_left']
  · rfl
  · rfl

/-- The ship that a session commands carries its action out. -/
theorem turned_of_commands (h : world.Sound) (commands : world.Commands s i ship)
    (htransform : ship.transform = some t) {action : ActionEvent K}
    (htype : action.type = .MoveAndShoot) (hsession : action.session_id = s)
    (new_players : List PendingJoin) :
    (applyAction (world, new_players) action).1.entities_.at? i =
        some { ship with transform := some { t with angle := action.angle } } ∧
      (action.is_shooting = true → (applyAction (world, new_players) action).1.HasBullet
        world.entities_.next_id_ ship.id t ship.radius action.angle) := by
  have happly : (applyAction (world, new_players) action).1 =
      world.applyMoveAndShoot action := by
    rw [applyAction, htype]
  have hfind := h.pool.findByEntityID_eq_some.mpr ⟨commands.at_, rfl⟩
  rw [happly, applyMoveAndShoot_eq (hsession ▸ commands.mapped) hfind htransform]
  have hwf := h.pool.turn i { t with angle := action.angle }
  have hturned : (world.entities_.modify i fun e =>
      { e with transform := some { t with angle := action.angle } }).at? i =
        some { ship with transform := some { t with angle := action.angle } } := by
    rw [EntityPool.at?_modify, if_pos rfl, commands.at_]
    rfl
  dsimp only
  constructor
  · split
    · exact (extends_createBullet hwf _ _ _).keeps hturned
    · exact hturned
  · intro hshooting
    rw [if_pos hshooting]
    exact exists_bullet_of_createBullet hwf ship.id { t with angle := action.angle } ship.radius

/-- A command finds the ship of its session at its place in the queue. -/
theorem carriesOut_of_mapped (h : world.Sound) {action : ActionEvent K}
    {front back : List (ActionEvent K)} (hqueue : world.action_queue_ = front ++ action :: back)
    (htype : action.type = .MoveAndShoot) (hsession : action.session_id = s)
    (hmapped : world.session_to_ship_.lookup s = some id)
    (hlive : world.entities_.HasLiveShip id) (hquit : ¬ world.Queued .PlayerQuit s) :
    CarriesOut world s id front.length action := by
  have hempty : ({ world with action_queue_ := [] } : World K).Sound := h.congr rfl rfl rfl
  have hsplit : (¬ ∃ action ∈ front, action.type = .PlayerQuit ∧ action.session_id = s) ∧
      ¬ ∃ action ∈ back, action.type = .PlayerQuit ∧ action.session_id = s := by
    constructor
    · rintro ⟨quit, hmem, hq⟩
      exact hquit ⟨quit, hqueue ▸ List.mem_append_left _ hmem, hq⟩
    · rintro ⟨quit, hmem, hq⟩
      exact hquit ⟨quit, hqueue ▸ List.mem_append_right _ (List.mem_cons_of_mem action hmem), hq⟩
  obtain ⟨i, ship, hat, rfl, hship⟩ := hlive
  obtain ⟨t, htransform⟩ := Option.isSome_iff_exists.mp (h.fit hat hship.1 hship.2).1
  -- The drain gets through the front of the queue, then through the command, then through the rest.
  have hbegin : Draining { world with action_queue_ := [] } s i ship t t.angle []
      { world with action_queue_ := [] } := Draining.init hempty ⟨hmapped, hat, hship⟩ htransform
  obtain ⟨_, hfront⟩ := hbegin.foldl_commands front [] hsplit.1
  set found := front.foldl applyAction ({ world with action_queue_ := [] }, [])
  have hcommands : found.1.Commands s i { ship with transform := some { t with
      angle := headingAfter t.angle (commandsOf s front) } } :=
    ⟨hfront.mapped, hfront.heads.at_, hship⟩
  have hturned := turned_of_commands hfront.sound hcommands rfl htype hsession found.2
  have hown := hfront.applyMoveAndShoot_own hsession
  have happly : (applyAction found action).1 = found.1.applyMoveAndShoot action := by
    rw [applyAction, htype]
  rw [← happly] at hown
  obtain ⟨_, hback⟩ := hown.foldl_commands back (applyAction found action).2 hsplit.2
  have hfound : world.drainedUpTo front.length = found.1 := drainedUpTo_append hqueue
  have hleft : world.drainedUpTo (front.length + 1) = (applyAction found action).1 := by
    have hlonger : world.action_queue_ = (front ++ [action]) ++ back := by
      rw [hqueue, List.append_assoc, List.singleton_append]
    have hdrained := drainedUpTo_append hlonger
    rw [List.length_append, List.foldl_append] at hdrained
    exact hdrained
  have hdrained : (world.processInputQueue []).1 = (back.foldl applyAction
      (applyAction found action)).1 := by
    rw [← drainedUpTo_length, drainedUpTo_append (List.append_nil _).symm, hqueue,
      List.foldl_append, List.foldl_cons]
  have hrest : world.action_queue_.drop (front.length + 1) = back := by
    rw [hqueue, List.drop_append]
    simp
  constructor
  · rw [hqueue, List.getElem?_append_right le_rfl, Nat.sub_self]
    rfl
  · rw [hfound, hleft]
    exact ⟨i, _, _, hcommands, rfl, rfl, hturned⟩
  · rw [hfound, hdrained, hrest]
    refine ⟨i, ship, t, hat, rfl, htransform, hback.heads.at_, fun hshooting => ?_⟩
    obtain ⟨k, bullet, hbullet, hid, hof, hstarts⟩ := hturned.2 hshooting
    have hnew : world.entities_.next_id_ ≤ bullet.id := hid ▸ hfront.fades.next_le
    have hkept := keeps_foldl_applyAction hempty hown.sound hown.fades hbullet hnew back
      (applyAction found action).2
    exact ⟨k, bullet, hkept, hid, hof, hstarts⟩

/-! ### Angles in a tick -/

/-- An entity keeps its angle. -/
structure KeepsAngle (e e' : Entity K) : Prop where
  id : e'.id = e.id
  angle : e'.transform.map (·.angle) = e.transform.map (·.angle)

omit [Scalar K] in
theorem KeepsAngle.trans {a b c : Entity K} (h : KeepsAngle a b) (h' : KeepsAngle b c) :
    KeepsAngle a c :=
  ⟨h'.id.trans h.id, h'.angle.trans h.angle⟩

/-- Collisions push ships aside, but turn nothing. -/
theorem keepsAngle_pass (world : World K) : Collision.Pass world.can_grow KeepsAngle where
  refl _ := ⟨rfl, rfl⟩
  trans _ _ _ := .trans
  destroyed _ := ⟨rfl, rfl⟩
  damaged _ _ := ⟨rfl, rfl⟩
  scored _ _ _ _ _ _ := ⟨rfl, rfl⟩
  gained _ _ _ := ⟨rfl, rfl⟩
  moved e t radius g htransform := ⟨rfl, by rw [htransform]; rfl⟩
  grown _ := ⟨rfl, rfl⟩

theorem keepsAngle_moveEntity (dt w h : K) (e : Entity K) :
    KeepsAngle e (moveEntity dt w h e) := by
  have hkeep : KeepsAngle e e := ⟨rfl, rfl⟩
  rw [moveEntity]
  split
  · exact hkeep
  · split
    · exact hkeep
    · next t htransform =>
      have hintegrate : (integrate e t dt).angle = t.angle := by
        rw [integrate]
        split
        · rfl
        · rfl
      obtain ⟨t', out, hangle, -, heq⟩ := bound_eq e (integrate e t dt) w h
      rw [heq]
      refine ⟨rfl, ?_⟩
      rw [htransform]
      exact congrArg some (hangle.trans hintegrate)

/-- What a tick does after its drain turns nothing. -/
theorem succeeds_keepsAngle (ext : Externals K) (choice : TickChoice K) (tick_interval : ℕ)
    (current_tick : UInt64) (hsound : world.Sound) :
    Succeeds KeepsAngle (world.processInputQueue []).1
      (runTickStep ext choice tick_interval current_tick world) := by
  have hdrained := hsound.processInputQueue []
  have hstays : Stays (KeepsAngle (K := K)) := .of_pass keepsAngle_pass KeepsAngle.id
  set drained := (world.processInputQueue []).1
  have hmoved : Succeeds KeepsAngle drained
      (drained.updatePhysics (secondsOfMicros tick_interval)) :=
    succeeds_evolves (EntityPool.evolves_map _ (keepsAngle_moveEntity _ _ _)) rfl rfl
  obtain ⟨-, hrest⟩ := hstays.leads_moved ext choice tick_interval current_tick world
    (((evolved_updatePhysics drained _).quiet) hdrained).1
  exact hmoved.comp hstays.trans KeepsAngle.id hrest

/-- The tick that carries a command out leaves the ship, if it is still there, at the angle of the
last command of its session. -/
theorem CarriesOut.angle_of_tick {n : ℕ} {action : ActionEvent K}
    (h : CarriesOut world s id n action) (ext : Externals K) (choice : TickChoice K)
    (tick_interval : ℕ) (current_tick : UInt64) (hsound : world.Sound) {j : ℕ} {e' : Entity K}
    (hat' : (runTickStep ext choice tick_interval current_tick world).entities_.at? j = some e')
    (hid : e'.id = id) :
    e'.transform.map (·.angle) =
      some (headingAfter action.angle (commandsOf s (world.action_queue_.drop (n + 1)))) := by
  obtain ⟨i, ship, t, -, hship, -, hslot, -⟩ := h.drained
  obtain ⟨e, hat, rfl, hangle⟩ : ∃ e, (world.processInputQueue []).1.entities_.at? i = some e ∧
      e.id = id ∧ e.transform.map (·.angle) =
        some (headingAfter action.angle (commandsOf s (world.action_queue_.drop (n + 1)))) :=
    ⟨_, hslot, hship, rfl⟩
  have hdrained := hsound.processInputQueue []
  have hold := hid.trans_lt (hdrained.pool.id_lt hat)
  obtain ⟨earlier, hearlier, hkeeps⟩ :=
    (succeeds_keepsAngle ext choice tick_interval current_tick hsound).of_lt hat' hold
  obtain rfl := hdrained.pool.slot_eq hearlier hat (hkeeps.id.symm.trans hid)
  obtain rfl := Option.some.inj (hat.symm.trans hearlier)
  exact hkeeps.angle.trans hangle

/-! ### Runs -/

/-- A ship that was spawned for a session by the time of `base` is the one it is mapped to,
unless the ship died or a further ship was spawned for the session. -/
structure Follows (base : World K) (s : SessionId) (id : EntityId) (world : World K) : Prop where
  no_quit : ¬ world.Queued .PlayerQuit s
  older : ∀ {id'}, (s, id') ∈ base.spawned → id' < world.entities_.next_id_
  mapped : world.entities_.HasLiveShip id →
    (∀ id', (s, id') ∈ world.spawned → (s, id') ∈ base.spawned) →
    world.session_to_ship_.lookup s = some id

variable {base : World K} (ext : Externals K) {tick_interval : ℕ}

omit [Scalar K] in
theorem not_queued_nil {type : ActionType} (h : world.action_queue_ = []) :
    ¬ world.Queued type s := by
  rintro ⟨action, hmem, -⟩
  rw [h] at hmem
  cases hmem

theorem queued_join (world : World K) (s : SessionId) (name : Bytes) :
    (World.onEvent (.PlayerJoinEvent s name) world).Queued .PlayerJoin s :=
  ⟨_, List.mem_append_right _ List.mem_cons_self, rfl, rfl⟩

theorem Follows.onEvent (h : Follows base s id world) {event : NetworkEvent K}
    (hquit : event ≠ .ClientDisconnectedEvent s) :
    Follows base s id (World.onEvent event world) := by
  obtain ⟨actions, heq, hactions⟩ := onEvent_eq event world
  have hqueued : ¬ (World.onEvent event world).Queued .PlayerQuit s := by
    rintro ⟨action, hmem, htype, hsession⟩
    have hold (hmem : action ∈ world.action_queue_) : False :=
      h.no_quit ⟨action, hmem, htype, hsession⟩
    cases event with
    | NetworkMessageEvent => exact hold hmem
    | SendPacketEvent => exact hold hmem
    | ClientConnectedEvent => exact hold hmem
    | ShipDestroyedEvent => exact hold hmem
    | PlayerJoinEvent =>
      refine (List.mem_append.mp hmem).elim hold fun hnew => ?_
      obtain rfl := List.mem_singleton.mp hnew
      cases htype
    | ShotMessageEvent =>
      refine (List.mem_append.mp hmem).elim hold fun hnew => ?_
      obtain rfl := List.mem_singleton.mp hnew
      cases htype
    | PlayerMoveEvent =>
      refine (List.mem_append.mp hmem).elim hold fun hnew => ?_
      obtain rfl := List.mem_singleton.mp hnew
      cases htype
    | ClientDisconnectedEvent s' =>
      refine (List.mem_append.mp hmem).elim hold fun hnew => hquit ?_
      obtain rfl := List.mem_singleton.mp hnew
      exact congrArg _ hsession
  rw [heq] at hqueued ⊢
  exact ⟨hqueued, h.older, h.mapped⟩

theorem Follows.tick (h : Follows base s id world) (hsound : world.Sound)
    (hspawned : (s, id) ∈ base.spawned) (choice : TickChoice K) (current_tick : UInt64) :
    Follows base s id (runTickStep ext choice tick_interval current_tick world) := by
  have hdrained := hsound.processInputQueue []
  obtain ⟨-, hdrain⟩ := quiet_processInputQueue world [] (hsound.congr rfl rfl rfl)
  obtain ⟨mid, joins, hjoins, hmid, hrest⟩ :=
    (stages_loyal ext choice).phases.runTickStages tick_interval current_tick world
  obtain ⟨hmidSound, hmidFades, hmidKeeps⟩ := hmid hdrained
  obtain ⟨-, hfinal, hfinalKeeps⟩ := hrest (hmidSound.spawnShips joins)
  have hnext : world.entities_.next_id_ ≤ mid.entities_.next_id_ :=
    hdrain.next_le.trans hmidFades.next_le
  have hsame : mid.spawned = world.spawned := hmidFades.spawned.trans hdrain.spawned
  have hnodup : (joins.map PendingJoin.session_id).Nodup := by
    rcases hjoins with ⟨-, rfl⟩ | ⟨-, rfl⟩
    · exact nodup_new_players world
    · exact List.nodup_nil
  refine ⟨not_queued_nil (queue_runTickStep ext hsound choice tick_interval current_tick), ?_, ?_⟩
  · intro id' hid'
    exact (h.older hid').trans_le
      (hnext.trans ((next_le_spawnShips hmidSound joins).trans hfinal.next_le))
  · intro hlive hlatest
    have hlatest' : ∀ id', (s, id') ∈ (mid.spawnShips joins).spawned → (s, id') ∈ base.spawned :=
      fun id' hid' => hlatest id' (hfinal.spawned ▸ hid')
    have hne : ∀ join ∈ joins, join.session_id ≠ s := by
      rintro join hmem rfl
      -- A join of the session would have spawned a further ship.
      obtain ⟨id', hle, hnew, -⟩ := exists_spawned_of_mem hmidSound hnodup hmem
      exact absurd (hnext.trans hle) (Nat.not_le_of_lt (h.older (hlatest' id' hnew)))
    have hspawnedLive := hfinal.ships hlive
    have hmidLive := hasLiveShip_of_spawnShips hmidSound
      ((h.older hspawned).trans_le hnext) hspawnedLive
    have hmapped : world.session_to_ship_.lookup s = some id := by
      refine h.mapped (hdrain.ships (hmidFades.ships hmidLive)) fun id' hid' => ?_
      exact hlatest' id' (spawned_subset_spawnShips mid joins (hsame ▸ hid'))
    have hdrainedMapped := (item_processInputQueue hsound).mpr ⟨hmapped, h.no_quit⟩
    refine hfinalKeeps ?_ hlive
    rw [lookup_spawnShips_of_ne mid hne]
    exact hmidKeeps hdrainedMapped hmidLive

theorem Follows.run {world_width world_height : K} {ops : List (Op K)}
    (h : Follows base s id world) (hsound : world.Sound) (hspawned : (s, id) ∈ base.spawned)
    (hquit : quitOp s ∉ ops)
    (hrun : (machine ext world_width world_height tick_interval).runFrom world ops =
      some world') :
    world'.Sound ∧ Follows base s id world' := by
  refine Machine.runFrom_induction (m := machine ext world_width world_height tick_interval)
    (motive := fun world => world.Sound ∧ Follows base s id world) ?_ ⟨hsound, h⟩ hrun
  rintro before op hop after ⟨hbefore, hfollows⟩ hstep
  obtain rfl := Option.some.inj hstep
  refine ⟨hbefore.step ext op, ?_⟩
  cases op with
  | event event =>
    refine hfollows.onEvent ?_
    rintro rfl
    exact hquit hop
  | tick choice current_tick => exact hfollows.tick ext hbefore hspawned choice current_tick
  | discardActions => exact ⟨not_queued_nil rfl, hfollows.older, hfollows.mapped⟩

/-- A tick that gets to its spawning gives a ship to every session whose join is queued. -/
theorem exists_newShip (hsound : world.Sound) (hjoin : world.Queued .PlayerJoin s)
    {choice : TickChoice K} {current_tick : UInt64}
    (hspawns : Spawns tick_interval world (.tick choice current_tick)) :
    ∃ id, NewShip world (runTickStep ext choice tick_interval current_tick world) s id ∧
      Follows (runTickStep ext choice tick_interval current_tick world) s id
        (runTickStep ext choice tick_interval current_tick world) := by
  have hdrained := hsound.processInputQueue []
  obtain ⟨-, hdrain⟩ := quiet_processInputQueue world [] (hsound.congr rfl rfl rfl)
  obtain ⟨mid, joins, hjoins, hmid, hrest⟩ :=
    (stages_loyal ext choice).phases.runTickStages tick_interval current_tick world
  obtain ⟨-, rfl⟩ := hjoins.resolve_right fun h => h.1 hspawns
  obtain ⟨hmidSound, hmidFades, -⟩ := hmid hdrained
  obtain ⟨hfinalSound, hfinal, hfinalKeeps⟩ := hrest (hmidSound.spawnShips _)
  obtain ⟨join, hmem, rfl⟩ := (exists_new_player_iff world s).mpr hjoin
  obtain ⟨id, hle, hnew, hmapped⟩ :=
    exists_spawned_of_mem hmidSound (nodup_new_players world) hmem
  refine ⟨id, ⟨?_, fun hold => ?_⟩, ?_, ?_, fun hlive _ => hfinalKeeps hmapped hlive⟩
  · exact hfinal.spawned ▸ hnew
  · -- Its identifier exceeds those of all ships the tick found.
    have hlt := (hsound.spawned_lt hold).trans_le (hdrain.next_le.trans hmidFades.next_le)
    exact absurd hle (Nat.not_le_of_lt hlt)
  · exact not_queued_nil (queue_runTickStep ext hsound choice tick_interval current_tick)
  · exact hfinalSound.spawned_lt

/-- Until the next drain the queue only grows. -/
theorem queue_of_runFrom {world_width world_height : K} {ops : List (Op K)}
    (hops : ∀ op ∈ ops, op.drains = false)
    (hrun : (machine ext world_width world_height tick_interval).runFrom world ops =
      some world') :
    ∃ actions, world'.action_queue_ = world.action_queue_ ++ actions := by
  refine Machine.runFrom_induction (m := machine ext world_width world_height tick_interval)
    (motive := fun after => ∃ actions, after.action_queue_ = world.action_queue_ ++ actions)
    ?_ ⟨[], (List.append_nil _).symm⟩ hrun
  rintro before op hop after ⟨actions, hqueue⟩ hstep
  obtain rfl := Option.some.inj hstep
  cases op with
  | event event =>
    obtain ⟨more, heq, -⟩ := onEvent_eq event before
    refine ⟨actions ++ more, ?_⟩
    change (World.onEvent event before).action_queue_ = _
    rw [heq, ← List.append_assoc, ← hqueue]
  | tick choice current_tick => exact nomatch hops _ hop
  | discardActions => exact nomatch hops _ hop

/-- A command that is queued after the tick that spawned the ship for a join of its session is
carried out by this ship in the tick that drains it, and if the ship outlives the tick it has the
angle of the last such command: the session did not quit, the ship lives, and no further ship was
spawned for the session. -/
theorem applied_after_join {world_width world_height : K}
    {before waiting between after : List (Op K)} {name : Bytes} {choice : TickChoice K}
    {current_tick : UInt64} {joined spawned commanded world : World K} {event : NetworkEvent K}
    {action : ActionEvent K}
    (hjoined : (machine ext world_width world_height tick_interval).run
      (before ++ .event (.PlayerJoinEvent s name) :: waiting) = some joined)
    (hwaiting : ∀ op ∈ waiting, op.drains = false)
    (hspawns : Spawns tick_interval joined (.tick choice current_tick))
    (hspawned : step ext tick_interval joined (.tick choice current_tick) = spawned)
    (hcommanded : (machine ext world_width world_height tick_interval).runFrom spawned between =
      some commanded)
    (hcommand : Command s event action)
    (hrun : (machine ext world_width world_height tick_interval).runFrom commanded
      (.event event :: after) = some world)
    (hafter : ∀ op ∈ after, op.drains = false) (hquit : quitOp s ∉ between ++ after) :
    ∃ ship_id, NewShip joined spawned s ship_id ∧
      (world.entities_.HasLiveShip ship_id →
        (∀ id, (s, id) ∈ world.spawned → (s, id) ∈ spawned.spawned) →
          CarriesOut world s ship_id commanded.action_queue_.length action ∧
            ∀ draining drained_tick j e', (step ext tick_interval world
                (.tick draining drained_tick)).entities_.at? j = some e' → e'.id = ship_id →
              e'.transform.map (·.angle) = some (headingAfter action.angle (commandsOf s
                (world.action_queue_.drop (commanded.action_queue_.length + 1))))) := by
  obtain ⟨hbetween, hlater⟩ := not_or.mp fun h => hquit (List.mem_append.mpr h)
  have hsound : joined.Sound := sound_of_reachable ext ⟨_, hjoined⟩
  -- The join still waits in the queue when the tick begins.
  have hjoin : joined.Queued .PlayerJoin s := by
    obtain ⟨start, -, hwait⟩ := Machine.runFrom_append.mp hjoined
    obtain ⟨_, hstep, hwait⟩ := Machine.runFrom_cons.mp hwait
    obtain rfl := Option.some.inj hstep
    obtain ⟨actions, hqueue⟩ := queue_of_runFrom ext hwaiting hwait
    obtain ⟨join, hmem, hjoin⟩ := queued_join start s name
    exact ⟨join, hqueue ▸ List.mem_append_left actions hmem, hjoin⟩
  obtain ⟨ship_id, hnew, hfollows⟩ := exists_newShip ext hsound hjoin hspawns
  subst hspawned
  have hspawnedSound : (step ext tick_interval joined (.tick choice current_tick)).Sound :=
    hsound.step ext _
  refine ⟨ship_id, hnew, fun hlive hlatest => ?_⟩
  -- Up to the command, and behind it, the ship stays that of the session.
  obtain ⟨hcommandedSound, hcommandedFollows⟩ :=
    hfollows.run ext hspawnedSound hnew.1 hbetween hcommanded
  have hmember : quitOp s ∉ Op.event event :: after := by
    rw [List.mem_cons, not_or]
    refine ⟨fun heq => ?_, hlater⟩
    cases hcommand <;> cases heq
  obtain ⟨hworldSound, hworldFollows⟩ :=
    hcommandedFollows.run ext hcommandedSound hnew.1 hmember hrun
  obtain ⟨_, hstep, hwait⟩ := Machine.runFrom_cons.mp hrun
  obtain rfl := Option.some.inj hstep
  obtain ⟨back, hqueue⟩ := queue_of_runFrom ext hafter hwait
  -- No tick drains the queue after the command, so it keeps its place.
  have hplace : world.action_queue_ = commanded.action_queue_ ++ action :: back := by
    rw [hqueue]
    cases hcommand with
    | move theta => exact List.append_assoc _ _ _
    | shot => exact List.append_assoc _ _ _
  have haction : action.type = .MoveAndShoot ∧ action.session_id = s := by
    cases hcommand with
    | move theta => exact ⟨rfl, rfl⟩
    | shot => exact ⟨rfl, rfl⟩
  have hcarries := carriesOut_of_mapped hworldSound hplace haction.1 haction.2
    (hworldFollows.mapped hlive hlatest) hlive hworldFollows.no_quit
  exact ⟨hcarries, fun draining drained_tick j e' hat' hid =>
    hcarries.angle_of_tick ext draining tick_interval drained_tick hworldSound hat' hid⟩

section Exact

attribute [local instance] RationalScalar.rational

/-- The world before the tick that spawns the ship of session 7. -/
def joinQueued : World ℚ := exactWorld [.event (.PlayerJoinEvent 7 (bytesOf "Ace"))]

/-- Session 7 has a ship, another tick goes by, and the session shoots and moves among the input
of session 8. -/
theorem applied_joinQueued :
    ∃ commanded world ship_id,
      exactMachine.runFrom (step exactExternals 16666 joinQueued exactTick)
          [exactTick, .event (.ShotMessageEvent 8)] = some commanded ∧
      exactMachine.runFrom commanded [.event (.ShotMessageEvent 7),
          .event (.PlayerMoveEvent 7 1), .event (.ClientDisconnectedEvent 8)] = some world ∧
      NewShip joinQueued (step exactExternals 16666 joinQueued exactTick) 7 ship_id ∧
      CarriesOut world 7 ship_id commanded.action_queue_.length (shotAction 7) := by
  have hjoined : exactMachine.run ([] ++ .event (.PlayerJoinEvent 7 (bytesOf "Ace")) :: []) =
      some joinQueued := run_exactMachine _
  have hspawns : Spawns 16666 joinQueued exactTick := by decide +kernel
  have hquit : quitOp 7 ∉ ([exactTick, .event (.ShotMessageEvent 8)] ++
      [.event (.PlayerMoveEvent 7 1), .event (.ClientDisconnectedEvent 8)] : List (Op ℚ)) := by
    simp [quitOp, exactTick]
  have hafter : ∀ op ∈ ([.event (.PlayerMoveEvent 7 1),
      .event (.ClientDisconnectedEvent 8)] : List (Op ℚ)), op.drains = false := by decide
  obtain ⟨ship_id, hnew, hcarries⟩ := applied_after_join exactExternals hjoined
    (List.forall_mem_nil _) hspawns rfl rfl .shot rfl hafter hquit
  have hspawned : (step exactExternals 16666 joinQueued exactTick).spawned = [(7, 2)] := by
    decide +kernel
  obtain rfl : ship_id = 2 := by
    have hmem := hspawned ▸ hnew.1
    exact (Prod.mk.inj (List.mem_singleton.mp hmem)).2
  have hlast : (exactWorld [.event (.PlayerJoinEvent 7 (bytesOf "Ace")), exactTick, exactTick,
      .event (.ShotMessageEvent 8), .event (.ShotMessageEvent 7), .event (.PlayerMoveEvent 7 1),
      .event (.ClientDisconnectedEvent 8)]).spawned =
        (step exactExternals 16666 joinQueued exactTick).spawned := by decide +kernel
  exact ⟨_, _, 2, rfl, rfl, hnew,
    (hcarries (by decide +kernel) fun id hid => hlast ▸ hid).1⟩

/-- Session 7 joins and shoots before the next tick. -/
def joinAndShoot : List (Op ℚ) :=
  [.event (.PlayerJoinEvent 7 (bytesOf "Ace")), .event (.ShotMessageEvent 7)]

/-- The tick drains the shot before the ship exists: its ship is spawned, alive, and no bullet
was ever shot. -/
theorem not_applied_joinAndShoot :
    exactMachine.run joinAndShoot = some (exactWorld joinAndShoot) ∧
      exactMachine.Meets (Completes exactExternals 16666) (joinAndShoot ++ [exactTick]) ∧
      (exactWorld joinAndShoot).action_queue_[1]? = some (shotAction 7) ∧
      NewShip (exactWorld joinAndShoot) (exactWorld (joinAndShoot ++ [exactTick])) 7 2 ∧
      (exactWorld (joinAndShoot ++ [exactTick])).entities_.HasLiveShip 2 ∧
      (exactWorld (joinAndShoot ++ [exactTick])).action_queue_ = [] ∧
      (∀ slot ∈ (exactWorld (joinAndShoot ++ [exactTick])).entities_.storage_,
        ∀ e ∈ slot, e.type ≠ .Bullet) ∧
      ¬ ∃ ship_id, Applied ((exactWorld joinAndShoot).drainedUpTo 1)
        ((exactWorld joinAndShoot).drainedUpTo 2) 7 ship_id (shotAction 7) := by
  have hcompletes : exactMachine.Meets (Completes exactExternals 16666)
      (joinAndShoot ++ [exactTick]) := Machine.meets_of_checks (by decide +kernel)
  have hunmapped :
      ((exactWorld joinAndShoot).drainedUpTo 1).session_to_ship_.lookup 7 = none := by
    decide +kernel
  unfold NewShip
  refine ⟨run_exactMachine _, hcompletes, by decide +kernel, by decide +kernel,
    by decide +kernel, by decide +kernel, by decide +kernel, ?_⟩
  rintro ⟨ship_id, i, ship, t, hcommands, -⟩
  exact nomatch hunmapped.symm.trans hcommands.mapped

end Exact

end SpaceShooter.Server.World
