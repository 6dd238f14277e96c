/-
# Departures

A join is collected when the queue is drained and materialises at the end of the tick,
while a quit acts at once on the mapping, and a stop throws queued actions away. A
session that has left is rid of its ship for good when its quit is drained after its
join has materialised and before anything throws the quit away.
-/

import SpaceShooter.Server.SessionShips

namespace SpaceShooter.Server.World

open Scalar Domain Library Library.Outcome

variable {K : Type}

/-- A session has no entry in the mapping and no live ship. -/
def Gone (world : World K) (s : SessionId) : Prop :=
  world.session_to_ship_.lookup s = none ∧
    ∀ spawn ∈ world.spawned, spawn.1 = s → ¬ world.entities_.HasLiveShip spawn.2

/-- The live ships of a session are the one it is mapped to. -/
def Single (world : World K) (s : SessionId) : Prop :=
  ∀ spawn ∈ world.spawned, spawn.1 = s → world.entities_.HasLiveShip spawn.2 →
    world.session_to_ship_.lookup s = some spawn.2

/-- A session is gone and no join of it is queued. -/
structure Settled (world : World K) (s : SessionId) : Prop where
  gone : world.Gone s
  not_joining : ¬ world.Queued .PlayerJoin s

/-- The disconnect of a session. -/
def quitOp (s : SessionId) : Op K := .event (.ClientDisconnectedEvent s)

def isInputOf (s : SessionId) : Op K → Bool
  | .event event => event.isInput && event.session_id = s
  | _ => false

/-- The input of a session does not follow its disconnect. -/
def mayPrecede : Op K → Op K → Bool
  | .event (.ClientDisconnectedEvent s), later => !isInputOf s later
  | _, _ => true

def Lawful (ops : List (Op K)) : Prop := ops.Pairwise fun op later => mayPrecede op later = true

/-- A session disconnected, and a tick ran later. -/
def Departed (ops : List (Op K)) (s : SessionId) : Prop :=
  ∃ before choice current_tick after, ops = before ++ .tick choice current_tick :: after ∧
    quitOp s ∈ before

/-- A tick drains the quit of a session without a join of it, when its only live ship is
the one it is mapped to, and no quit is discarded that has a ship to remove. -/
def QuitsInTime (world : World K) : Op K → Prop
  | .event _ => True
  | .tick _ _ => ∀ quit ∈ world.action_queue_, quit.type = .PlayerQuit →
      ¬ world.Queued .PlayerJoin quit.session_id ∧ world.Single quit.session_id
  | .discardActions => ∀ quit ∈ world.action_queue_, quit.type = .PlayerQuit →
      world.Gone quit.session_id

instance (world : World K) (s : SessionId) : Decidable (world.Gone s) :=
  inferInstanceAs (Decidable (_ ∧ ∀ spawn ∈ world.spawned, _))

instance (world : World K) (s : SessionId) : Decidable (world.Single s) :=
  inferInstanceAs (Decidable (∀ spawn ∈ world.spawned, _))

instance (world : World K) (op : Op K) : Decidable (world.QuitsInTime op) :=
  match op with
  | .event _ => isTrue trivial
  | .tick _ _ => inferInstanceAs (Decidable (∀ quit ∈ world.action_queue_, _))
  | .discardActions => inferInstanceAs (Decidable (∀ quit ∈ world.action_queue_, _))

variable {world world' : World K} {s : SessionId}

/-! ### Where the sessions of a run stand -/

theorem Departed.of_concat {ops : List (Op K)} {op : Op K} (h : Departed (ops ++ [op]) s) :
    Departed ops s ∨ quitOp s ∈ ops ∧ ∃ choice current_tick, op = .tick choice current_tick := by
  obtain ⟨before, choice, current_tick, after, heq, hquit⟩ := h
  rcases List.eq_nil_or_concat after with rfl | ⟨rest, last, rfl⟩
  · obtain ⟨rfl, hop⟩ := List.append_inj' heq rfl
    exact Or.inr ⟨hquit, choice, current_tick, List.singleton_inj.mp hop⟩
  · rw [List.concat_eq_append, ← List.cons_append, ← List.append_assoc] at heq
    obtain ⟨rfl, -⟩ := List.append_inj' heq rfl
    exact Or.inl ⟨before, choice, current_tick, rest, rfl, hquit⟩

/-- Where the sessions of a run stand: those that disconnected are settled or have their
quit queued, and those that a later tick saw are settled. -/
structure Tracked (ops : List (Op K)) (world : World K) : Prop where
  disconnected : ∀ s, quitOp s ∈ ops → world.Settled s ∨ world.Queued .PlayerQuit s
  departed : ∀ s, Departed ops s → world.Settled s

theorem Tracked.discardActions {ops : List (Op K)} (h : Tracked ops world)
    (inTime : QuitsInTime world .discardActions) :
    Tracked (ops ++ [.discardActions]) world.discardActions := by
  have hempty (type : ActionType) (s : SessionId) : ¬ world.discardActions.Queued type s :=
    fun ⟨_, hmem, _⟩ => nomatch hmem
  constructor
  · intro s hs
    rcases List.mem_append.mp hs with hold | hnew
    · rcases h.disconnected s hold with hsettled | ⟨quit, hmem, htype, rfl⟩
      · exact Or.inl ⟨hsettled.gone, hempty _ _⟩
      · exact Or.inl ⟨inTime quit hmem htype, hempty _ _⟩
    · cases List.mem_singleton.mp hnew
  · intro s hs
    rcases hs.of_concat with hold | ⟨-, _, _, heq⟩
    · exact ⟨(h.departed s hold).gone, hempty _ _⟩
    · cases heq

/-! ### Staying gone -/

theorem Gone.of_fades (h : world.Gone s) (hfades : Fades world world') : world'.Gone s := by
  refine ⟨?_, fun spawn hmem hs hlive => ?_⟩
  · by_contra hne
    obtain ⟨id, hid⟩ := Option.ne_none_iff_exists'.mp hne
    exact nomatch h.1.symm.trans (hfades.mapped hid)
  · exact h.2 spawn (hfades.spawned ▸ hmem) hs (hfades.ships hlive)

variable [Scalar K]

/-- Whatever is drained, a single session stays single. -/
theorem Single.applyAction (h : world.Single s) (hsound : world.Sound)
    (new_players : List PendingJoin) (action : ActionEvent K) :
    (applyAction (world, new_players) action).1.Single s := by
  have hspawned := (quiet_applyAction world new_players action hsound).2.spawned
  intro spawn hspawn hs hlive
  have hmapped := h spawn (hspawned ▸ hspawn) hs
  change (World.applyAction (world, new_players) action).1.roster.item s = some spawn.2
  have hmem : spawn.2 ∈ (World.applyAction (world, new_players) action).1.roster.live := hlive
  rw [roster_applyAction hsound] at hmem ⊢
  split_ifs at hmem ⊢ with hquit
  · refine Roster.item_quit.mpr ⟨?_, hmapped hmem.1⟩
    rintro rfl
    exact hmem.2 (hmapped hmem.1)
  · exact hmapped hmem

/-- The quit of a single session takes its ship along. -/
theorem Single.gone_applyAction (hsingle : world.Single s) (hsound : world.Sound)
    (new_players : List PendingJoin) {quit : ActionEvent K} (htype : quit.type = .PlayerQuit)
    (hsession : quit.session_id = s) : (World.applyAction (world, new_players) quit).1.Gone s := by
  have hitem : (World.applyAction (world, new_players) quit).1.roster.item s = none := by
    rw [roster_applyAction hsound, if_pos htype, hsession]
    exact Option.eq_none_iff_forall_ne_some.mpr fun id hid => (Roster.item_quit.mp hid).1 rfl
  refine ⟨hitem, fun spawn hmem hs hlive => ?_⟩
  exact nomatch hitem.symm.trans
    (hsingle.applyAction hsound new_players quit spawn hmem hs hlive)

/-- Draining a quit removes the ship of a single session. -/
theorem gone_foldl_applyAction (actions : List (ActionEvent K)) (hsingle : world.Single s)
    (hsound : world.Sound) (new_players : List PendingJoin)
    (hquit : ∃ action ∈ actions, action.type = .PlayerQuit ∧ action.session_id = s) :
    (actions.foldl applyAction (world, new_players)).1.Gone s := by
  induction actions generalizing world new_players with
  | nil => exact nomatch hquit
  | cons action actions ih =>
    have hstep := quiet_applyAction world new_players action hsound
    rw [List.foldl_cons]
    obtain ⟨quit, hmem, htype, hsession⟩ := hquit
    rcases List.mem_cons.mp hmem with rfl | hmem
    · have hgone := hsingle.gone_applyAction hsound new_players htype hsession
      exact hgone.of_fades (quiet_foldl_applyAction actions _ _ hstep.1).2
    · exact ih (hsingle.applyAction hsound new_players action) hstep.1 _
        ⟨quit, hmem, htype, hsession⟩

theorem Gone.spawnShip (h : world.Gone s) (hsound : world.Sound) {join : PendingJoin}
    (hne : s ≠ join.session_id) : (world.spawnShip join).Gone s := by
  refine ⟨?_, fun spawn hmem hs hlive => ?_⟩
  · rw [lookup_spawnShip, if_neg hne, h.1]
  · rcases List.mem_cons.mp hmem with rfl | hold
    · exact hne hs.symm
    · rcases (hasLiveShip_spawnShip hsound.pool join).mp hlive with heq | hlive
      · exact absurd heq (hsound.spawned_lt hold).ne
      · exact h.2 spawn hold hs hlive

theorem Gone.spawnShips (h : world.Gone s) (hsound : world.Sound) {joins : List PendingJoin}
    (hne : ∀ join ∈ joins, s ≠ join.session_id) : (world.spawnShips joins).Gone s := by
  induction joins generalizing world with
  | nil => exact h
  | cons join joins ih =>
    exact ih (h.spawnShip hsound (hne join List.mem_cons_self)) (hsound.spawnShip join)
      fun other hmem => hne other (List.mem_cons_of_mem join hmem)

theorem queue_spawnShips (world : World K) (joins : List PendingJoin) :
    (world.spawnShips joins).action_queue_ = world.action_queue_ := by
  induction joins generalizing world with
  | nil => rfl
  | cons join joins ih => exact ih (world.spawnShip join)

/-! ### Steps -/

variable (ext : Externals K)

/-- A tick leaves nothing in the queue. -/
theorem queue_runTickStep (hsound : world.Sound) (choice : TickChoice K) (tick_interval : ℕ)
    (current_tick : UInt64) :
    (runTickStep ext choice tick_interval current_tick world).action_queue_ = [] := by
  obtain ⟨hdrained, hdrain⟩ := quiet_processInputQueue world [] (hsound.congr rfl rfl rfl)
  obtain ⟨mid, joins, -, hmid, hrest⟩ :=
    runTickStages_spec ext choice tick_interval current_tick world
  obtain ⟨hmidSound, hmidFades⟩ := hmid hdrained
  obtain ⟨-, hfinal⟩ := hrest (hmidSound.spawnShips joins)
  rw [runTickStep, hfinal.queue, queue_spawnShips, hmidFades.queue, hdrain.queue]

/-- Once drained, the quit of a session has taken effect, whether or not the tick finishes. -/
theorem settled_tick (hsound : world.Sound) (choice : TickChoice K) (tick_interval : ℕ)
    (current_tick : UInt64)
    (h : world.Settled s ∨ world.Queued .PlayerQuit s ∧ ¬ world.Queued .PlayerJoin s ∧
      world.Single s) :
    (runTickStep ext choice tick_interval current_tick world).Settled s := by
  have hempty : ({ world with action_queue_ := [] } : World K).Sound := hsound.congr rfl rfl rfl
  obtain ⟨hdrained, hdrain⟩ := quiet_processInputQueue world [] hempty
  have hgone : (world.processInputQueue []).1.Gone s := by
    rcases h with hsettled | ⟨hquit, -, hsingle⟩
    · have hgone : ({ world with action_queue_ := [] } : World K).Gone s := hsettled.gone
      exact hgone.of_fades hdrain
    · have hsingle : ({ world with action_queue_ := [] } : World K).Single s := hsingle
      exact gone_foldl_applyAction _ hsingle hempty [] hquit
  -- The ships that are spawned are those of queued joins, of which none is the session's.
  have hjoins : ¬ world.Queued .PlayerJoin s := by
    rcases h with hsettled | ⟨-, hjoins, -⟩
    · exact hsettled.not_joining
    · exact hjoins
  obtain ⟨mid, joins, heq, hmid, hrest⟩ :=
    runTickStages_spec ext choice tick_interval current_tick world
  obtain ⟨hmidSound, hmidFades⟩ := hmid hdrained
  obtain ⟨-, hfinal⟩ := hrest (hmidSound.spawnShips joins)
  have hspawned : (mid.spawnShips joins).Gone s := by
    refine (hgone.of_fades hmidFades).spawnShips hmidSound fun join hmem => ?_
    rintro rfl
    rcases heq with rfl | rfl
    · exact hjoins ((exists_new_player_iff world _).mp ⟨join, hmem, rfl⟩)
    · cases hmem
  refine ⟨hspawned.of_fades hfinal, ?_⟩
  rintro ⟨action, hmem, -⟩
  rw [queue_runTickStep ext hsound] at hmem
  cases hmem

/-- The input of other sessions leaves a session settled. -/
theorem Settled.onEvent (h : world.Settled s) {event : NetworkEvent K}
    (hne : event.isInput = true → event.session_id ≠ s) : (onEvent event world).Settled s := by
  obtain ⟨actions, heq, hactions⟩ := onEvent_eq event world
  rw [heq]
  refine ⟨h.gone, ?_⟩
  rintro ⟨action, hmem, htype, hs⟩
  rcases List.mem_append.mp hmem with hold | hnew
  · exact h.not_joining ⟨action, hold, htype, hs⟩
  · obtain ⟨hinput, hsession⟩ := hactions action hnew
    exact hne hinput (hsession.symm.trans hs)

theorem Queued.onEvent {type : ActionType} (h : world.Queued type s)
    (event : NetworkEvent K) : (onEvent event world).Queued type s := by
  obtain ⟨actions, heq, -⟩ := onEvent_eq event world
  obtain ⟨action, hmem, haction⟩ := h
  rw [heq]
  exact ⟨action, List.mem_append_left actions hmem, haction⟩

theorem queued_quit (world : World K) (s : SessionId) :
    (onEvent (.ClientDisconnectedEvent s) world).Queued .PlayerQuit s :=
  ⟨_, List.mem_append_right _ List.mem_cons_self, rfl, rfl⟩

/-! ### Runs -/

/-- An event in order keeps track of the sessions. -/
theorem Tracked.event {ops : List (Op K)} (h : Tracked ops world) {event : NetworkEvent K}
    (lawful : ∀ op ∈ ops, mayPrecede op (.event event) = true) :
    Tracked (ops ++ [.event event]) (onEvent event world) := by
  have hother {s : SessionId} (hquit : quitOp s ∈ ops) :
      event.isInput = true → event.session_id ≠ s := by
    -- An input of the session would follow its own disconnect.
    rintro hinput rfl
    have hprecede := lawful _ hquit
    simp [mayPrecede, quitOp, isInputOf, hinput] at hprecede
  constructor
  · intro s hs
    rcases List.mem_append.mp hs with hold | hnew
    · exact (h.disconnected s hold).imp (fun hsettled => hsettled.onEvent (hother hold))
        fun hqueued => hqueued.onEvent event
    · obtain rfl : NetworkEvent.ClientDisconnectedEvent s = event :=
        Op.event.inj (List.mem_singleton.mp hnew)
      exact Or.inr (queued_quit world s)
  · intro s hs
    rcases hs.of_concat with hold | ⟨-, _, _, heq⟩
    · obtain ⟨before, _, _, _, rfl, hquit⟩ := id hold
      exact (h.departed s hold).onEvent (hother (List.mem_append_left _ hquit))
    · cases heq

/-- A tick settles every session that disconnected. -/
theorem Tracked.tick {ops : List (Op K)} (h : Tracked ops world) (hsound : world.Sound)
    (choice : TickChoice K) (tick_interval : ℕ) (current_tick : UInt64)
    (inTime : QuitsInTime world (.tick choice current_tick)) :
    Tracked (ops ++ [.tick choice current_tick])
      (runTickStep ext choice tick_interval current_tick world) := by
  have hsettled {s : SessionId} (hquit : quitOp s ∈ ops) :
      (runTickStep ext choice tick_interval current_tick world).Settled s := by
    -- Its quit is settled already, or it is in the queue that this tick drains.
    refine settled_tick ext hsound choice tick_interval current_tick
      ((h.disconnected s hquit).imp_right fun hqueued => ⟨hqueued, ?_⟩)
    obtain ⟨quit, hmem, htype, rfl⟩ := hqueued
    exact inTime quit hmem htype
  constructor
  · intro s hs
    rcases List.mem_append.mp hs with hold | hnew
    · exact Or.inl (hsettled hold)
    · cases List.mem_singleton.mp hnew
  · intro s hs
    rcases hs.of_concat with ⟨before, _, _, _, rfl, hquit⟩ | ⟨hquit, -⟩
    · exact hsettled (List.mem_append_left _ hquit)
    · exact hsettled hquit

/-- In a run that takes every quit in time, a session that disconnected before some tick
is gone. -/
theorem gone_of_departed {world_width world_height : K} {tick_interval : ℕ}
    {ops : List (Op K)} {world : World K}
    (run : (machine ext world_width world_height tick_interval).run ops = some world)
    (lawful : Lawful ops)
    (inTime : (machine ext world_width world_height tick_interval).Meets QuitsInTime ops)
    {s : SessionId} (departed : Departed ops s) : world.Gone s := by
  have htracked : Tracked ops world := by
    refine Machine.guarded_induction
      (m := machine ext world_width world_height tick_interval) QuitsInTime
      (motive := fun ops world => Lawful ops → Tracked ops world) ?_ ?_ inTime run lawful
    · exact fun _ => ⟨nofun, fun s ⟨before, _, _, _, heq, _⟩ => by cases before <;> cases heq⟩
    · rintro ops world op world' hrun - ih hinTime hstep hlawful
      have hsound : world.Sound := sound_of_reachable ext ⟨ops, hrun⟩
      obtain ⟨hops, -, hlast⟩ := List.pairwise_append.mp hlawful
      have htracked := ih hops
      obtain rfl := Option.some.inj hstep
      cases op with
      | event event =>
        exact htracked.event fun op hop => hlast op hop _ List.mem_cons_self
      | tick choice current_tick =>
        exact htracked.tick ext hsound choice tick_interval current_tick hinTime
      | discardActions => exact htracked.discardActions hinTime
  exact (htracked.departed s departed).gone

section Exact

attribute [local instance] RationalScalar.rational

/-- Session 7 joins, leaves and is drained before the loop is stopped and restarted. -/
def quitDrained : List (Op ℚ) :=
  [.event (.PlayerJoinEvent 7 (bytesOf "Ace")), exactTick, quitOp 7, exactTick,
    .event (.PlayerJoinEvent 8 (bytesOf "Bo")), .discardActions, exactTick]

theorem gone_quitDrained : (exactWorld quitDrained).Gone 7 := by
  have hinTime : exactMachine.Meets QuitsInTime quitDrained :=
    Machine.meets_of_checks (by decide +kernel)
  have hlawful : Lawful quitDrained := by
    unfold Lawful
    decide +kernel
  exact gone_of_departed exactExternals (run_exactMachine quitDrained) hlawful hinTime
    ⟨quitDrained.take 3, exactChoice, 0, quitDrained.drop 4, rfl, by simp [quitDrained, quitOp]⟩

/-- Session 7 joins and leaves before the next tick. -/
def joinAndQuit : List (Op ℚ) :=
  [.event (.PlayerJoinEvent 7 (bytesOf "Ace")), quitOp 7, exactTick]

/-- The tick spawns a ship for the session that has left. -/
theorem not_gone_joinAndQuit :
    Lawful joinAndQuit ∧ Departed joinAndQuit 7 ∧
      exactMachine.Meets (Completes exactExternals 16666) joinAndQuit ∧
      exactMachine.run joinAndQuit = some (exactWorld joinAndQuit) ∧
      ¬ (exactWorld joinAndQuit).Gone 7 := by
  have hlawful : Lawful joinAndQuit := by
    unfold Lawful
    decide +kernel
  have hdeparted : Departed joinAndQuit 7 :=
    ⟨joinAndQuit.take 2, exactChoice, 0, [], rfl, by simp [joinAndQuit]⟩
  have hcompletes : exactMachine.Meets (Completes exactExternals 16666) joinAndQuit :=
    Machine.meets_of_checks (by decide +kernel)
  refine ⟨hlawful, hdeparted, hcompletes, run_exactMachine joinAndQuit, ?_⟩
  decide +kernel

end Exact

end SpaceShooter.Server.World
