/-
# The order of the input queue

What a drain leaves of the world, bullets taken without their identifiers and slots, is a
board on which every action touches the entries of its own session only. Actions of
different sessions therefore commute, and the drain does not depend on how the queue
interleaves them.
-/

import Mathlib.Data.Multiset.AddSub
import Mathlib.Data.Multiset.MapFold
import SpaceShooter.Library.Interleaving
import SpaceShooter.Server.Heading

namespace SpaceShooter.Server.World

open Scalar Domain Library Library.Interleaving

variable {K : Type}

/-! ### What an action does to its ship -/

/-- What an action makes of the ship of its session. -/
def turnedBy (action : ActionEvent K) (ship : Entity K) : Entity K :=
  if action.type = .PlayerQuit then
    { ship with isDestroyed := true }
  else if action.type = .MoveAndShoot then
    { ship with transform := ship.transform.map fun t => { t with angle := action.angle } }
  else
    ship

theorem id_turnedBy (action : ActionEvent K) (ship : Entity K) :
    (turnedBy action ship).id = ship.id := by
  unfold turnedBy
  split_ifs <;> rfl

/-- An entity but for its identifier. -/
def nameless (e : Entity K) : Entity K := { e with id := 0 }

/-- The entity of a slot, if it came after identifiers had reached `next`. -/
def newcomer (next : EntityId) (slot : Option (Entity K)) : Option (Entity K) :=
  (slot.filter fun e => next ≤ e.id).map nameless

/-! ### Boards -/

/-- The mapping, the ships under their identifiers with their slots, the bullets of a drain
and the players it lets join. -/
@[ext] structure Board (K : Type) where
  mapping : AList (fun _ : SessionId => EntityId)
  ships : EntityId → Option (ℕ × Entity K)
  bullets : Multiset (Entity K)
  next_id : ℕ
  players : Multiset PendingJoin

namespace Board

/-- The ship of a session. -/
def shipOf (board : Board K) (s : SessionId) : Option (ℕ × Entity K) :=
  (board.mapping.lookup s).bind board.ships

/-- A player joins once. -/
def joined (players : Multiset PendingJoin) (action : ActionEvent K) : Multiset PendingJoin :=
  if action.type = .PlayerJoin ∧ action.session_id ∉ players.map (·.session_id) then
    ⟨action.session_id, action.player_name⟩ ::ₘ players
  else
    players

/-- No two sessions are mapped to one ship. -/
def Injective (board : Board K) : Prop :=
  ∀ s s' id, board.mapping.lookup s = some id → board.mapping.lookup s' = some id → s = s'

variable {board : Board K} {a b action : ActionEvent K}

/-- Another session's joining does not decide whether a session joins. -/
theorem mem_joined_other {players : Multiset PendingJoin} {s : SessionId}
    (hne : action.session_id ≠ s) :
    s ∈ (joined players action).map (·.session_id) ↔ s ∈ players.map (·.session_id) := by
  unfold joined
  split_ifs
  · rw [Multiset.map_cons, Multiset.mem_cons]
    exact or_iff_right hne.symm
  · rfl

theorem joined_of {players : Multiset PendingJoin} (h : action.type = .PlayerJoin ∧
    action.session_id ∉ players.map (·.session_id)) :
    joined players action = ⟨action.session_id, action.player_name⟩ ::ₘ players := if_pos h

theorem joined_of_not {players : Multiset PendingJoin} (h : ¬ (action.type = .PlayerJoin ∧
    action.session_id ∉ players.map (·.session_id))) :
    joined players action = players := if_neg h

theorem joined_swap (players : Multiset PendingJoin) (hne : a.session_id ≠ b.session_id) :
    joined (joined players a) b = joined (joined players b) a := by
  have hab : b.type = .PlayerJoin ∧ b.session_id ∉ (joined players a).map (·.session_id) ↔
      b.type = .PlayerJoin ∧ b.session_id ∉ players.map (·.session_id) :=
    and_congr_right fun _ => (mem_joined_other hne).not
  have hba : a.type = .PlayerJoin ∧ a.session_id ∉ (joined players b).map (·.session_id) ↔
      a.type = .PlayerJoin ∧ a.session_id ∉ players.map (·.session_id) :=
    and_congr_right fun _ => (mem_joined_other hne.symm).not
  by_cases ha : a.type = .PlayerJoin ∧ a.session_id ∉ players.map (·.session_id)
  · by_cases hb : b.type = .PlayerJoin ∧ b.session_id ∉ players.map (·.session_id)
    · rw [joined_of (hab.mpr hb), joined_of (hba.mpr ha), joined_of ha, joined_of hb]
      exact Multiset.cons_swap _ _ _
    · rw [joined_of_not (mt hab.mp hb), joined_of (hba.mpr ha), joined_of ha, joined_of_not hb]
  · by_cases hb : b.type = .PlayerJoin ∧ b.session_id ∉ players.map (·.session_id)
    · rw [joined_of (hab.mpr hb), joined_of_not (mt hba.mp ha), joined_of_not ha, joined_of hb]
    · rw [joined_of_not (mt hab.mp hb), joined_of_not (mt hba.mp ha), joined_of_not ha,
        joined_of_not hb]

end Board

variable [Scalar K]

/-- The bullet of a ship at a transform. -/
def bulletAt (ship_id : EntityId) (transform : TransformComponent K) (radius : K) : Entity K :=
  let direction : Math.Vector2D K := ⟨cos transform.angle, sin transform.angle⟩
  { (Entity.fresh 0 : Entity K) with
    type := .Bullet
    radius := World.kBulletRadius
    transform := some { (TransformComponent.default : TransformComponent K) with
      position := transform.position + direction * radius
      velocity := direction * (World.kBulletSpeed : K) }
    combat := some { damage := World.kBulletDamage.toUInt64.toUInt16, owner_id := ship_id } }

/-- The bullet an action fires from the ship of its session. -/
def firedBy (action : ActionEvent K) (ship : Entity K) : Option (Entity K) :=
  if action.type = .MoveAndShoot ∧ action.is_shooting = true then
    ship.transform.map fun t => bulletAt ship.id { t with angle := action.angle } ship.radius
  else
    none

namespace Board

variable {board : Board K} {a b action : ActionEvent K}

/-- The bullets an action fires. -/
def fired (board : Board K) (action : ActionEvent K) : Multiset (Entity K) :=
  (((board.shipOf action.session_id).bind fun ship => firedBy action ship.2).toList :
    Multiset (Entity K))

/-- An action on a board. -/
def apply (board : Board K) (action : ActionEvent K) : Board K where
  mapping :=
    if action.type = .PlayerQuit then board.mapping.erase action.session_id else board.mapping
  ships id :=
    if board.mapping.lookup action.session_id = some id then
      (board.ships id).map fun ship => (ship.1, turnedBy action ship.2)
    else
      board.ships id
  bullets := board.fired action + board.bullets
  next_id := board.next_id + (board.fired action).card
  players := joined board.players action

theorem lookup_apply_other {s : SessionId} (h : action.session_id ≠ s) :
    (board.apply action).mapping.lookup s = board.mapping.lookup s := by
  unfold apply
  dsimp only
  split_ifs
  · exact AList.lookup_erase_ne h.symm
  · rfl

theorem Injective.apply (h : board.Injective) (action : ActionEvent K) :
    (board.apply action).Injective := by
  have hold {s : SessionId} {id : EntityId}
      (hs : (board.apply action).mapping.lookup s = some id) :
      board.mapping.lookup s = some id := by
    unfold Board.apply at hs
    dsimp only at hs
    split_ifs at hs
    · exact (lookup_erase_eq_some.mp hs).2
    · exact hs
  exact fun s s' id hs hs' => h s s' id (hold hs) (hold hs')

/-- An action leaves the ships of other sessions alone. -/
theorem ships_apply_other (h : board.Injective) {s : SessionId} (hne : action.session_id ≠ s)
    {id : EntityId} (hs : board.mapping.lookup s = some id) :
    (board.apply action).ships id = board.ships id :=
  if_neg fun hown => hne (h _ _ id hown hs)

theorem shipOf_apply_other (h : board.Injective) {s : SessionId} (hne : action.session_id ≠ s) :
    (board.apply action).shipOf s = board.shipOf s := by
  unfold shipOf
  rw [lookup_apply_other hne]
  cases hs : board.mapping.lookup s with
  | none => rfl
  | some id => exact ships_apply_other h hne hs

theorem fired_apply_other (h : board.Injective) (hne : a.session_id ≠ b.session_id) :
    (board.apply a).fired b = board.fired b := by
  unfold fired
  rw [shipOf_apply_other h hne]

/-- Actions of different sessions commute. -/
theorem apply_swap (h : board.Injective) (hne : a.session_id ≠ b.session_id) :
    (board.apply a).apply b = (board.apply b).apply a := by
  have hab : (board.apply a).fired b = board.fired b := fired_apply_other h hne
  have hba : (board.apply b).fired a = board.fired a := fired_apply_other h hne.symm
  refine Board.ext ?_ (funext fun id => ?_) ?_ ?_ (joined_swap _ hne)
  · unfold apply
    dsimp only
    split_ifs
    · exact AList.erase_erase _ _ _
    · rfl
    · rfl
    · rfl
  · rw [apply.eq_def (board.apply a) b, apply.eq_def (board.apply b) a]
    dsimp only
    rw [lookup_apply_other hne, lookup_apply_other hne.symm]
    -- At most one of the two sessions has this ship.
    split_ifs with hb ha ha
    · exact absurd (h _ _ id ha hb) hne
    · rw [ships_apply_other h hne hb]
      exact (if_pos hb).symm
    · rw [ships_apply_other h hne.symm ha]
      exact if_pos ha
    · exact (if_neg ha).trans (if_neg hb).symm
  · change (board.apply a).fired b + (board.fired a + board.bullets) =
      (board.apply b).fired a + (board.fired b + board.bullets)
    rw [hab, hba]
    rw [← Multiset.add_assoc, ← Multiset.add_assoc, Multiset.add_comm (board.fired b)]
  · change board.next_id + (board.fired a).card + ((board.apply a).fired b).card =
      board.next_id + (board.fired b).card + ((board.apply b).fired a).card
    rw [hab, hba]
    exact Nat.add_right_comm _ _ _

theorem commutes : Commutes (fun action : ActionEvent K => action.session_id) Injective
    (apply : Board K → ActionEvent K → Board K) where
  keeps _ action h := h.apply action
  swap _ _ _ h hne := apply_swap h hne

end Board

/-! ### The pool -/

section Pool

variable {α β : Type} {pool : EntityPool K} {f g : Entity K → Entity K}

omit [Scalar K] in
/-- Writing over an element that a filter drops. -/
theorem perm_filterMap_set {p : α → Option β} {items : List α} {i : ℕ} {x : α}
    (h : items[i]? = some x) (hx : p x = none) (y : α) :
    ((items.set i y).filterMap p).Perm ((p y).toList ++ items.filterMap p) := by
  induction items generalizing i with
  | nil => cases h
  | cons a items ih =>
    cases i with
    | zero =>
      obtain rfl := Option.some.inj h
      rw [List.set_cons_zero, List.filterMap_cons_none hx]
      cases hy : p y with
      | none => rw [List.filterMap_cons_none hy]; rfl
      | some b => rw [List.filterMap_cons_some hy]; rfl
    | succ i =>
      have hrest := ih (i := i) h
      rw [List.set_cons_succ]
      cases ha : p a with
      | none => rwa [List.filterMap_cons_none ha, List.filterMap_cons_none ha]
      | some b =>
        rw [List.filterMap_cons_some ha, List.filterMap_cons_some ha]
        exact (hrest.cons b).trans List.perm_middle.symm

/-- An entity that is acquired and filled in joins the slots, wherever it is put. -/
theorem perm_filterMap_acquire_modify (wf : pool.WellFormed) (f : Entity K → Entity K)
    {p : Option (Entity K) → Option β} (hp : p none = none) :
    ((pool.acquire.2.modify pool.acquire.1 f).storage_.filterMap p).Perm
      ((p (some (f (Entity.fresh pool.next_id_)))).toList ++ pool.storage_.filterMap p) := by
  unfold EntityPool.acquire EntityPool.modify
  split
  · next idx free hfree =>
    obtain ⟨hlt, hnone⟩ := wf.free.mp (hfree ▸ List.mem_cons_self)
    have hslot : pool.storage_[idx]? = some none := by
      cases hslot : pool.storage_[idx]? with
      | none => exact absurd (List.getElem?_eq_none_iff.mp hslot) (Nat.not_le_of_lt hlt)
      | some slot =>
        rw [EntityPool.at?, hslot] at hnone
        exact congrArg some hnone
    have hset : (pool.storage_.set idx (some (Entity.fresh pool.next_id_))).modify idx
        (Option.map f) = pool.storage_.set idx (some (f (Entity.fresh pool.next_id_))) := by
      rw [List.set_eq_modify, List.set_eq_modify, List.modify_modify_eq]
      rfl
    dsimp only
    rw [hset]
    exact perm_filterMap_set hslot hp _
  · have hset : (pool.storage_ ++ [some (Entity.fresh pool.next_id_)]).modify
        pool.storage_.length (Option.map f) =
          pool.storage_ ++ [some (f (Entity.fresh pool.next_id_))] := by
      rw [List.modify_eq_take_cons_drop (by simp)]
      simp
    dsimp only
    rw [hset, List.filterMap_append]
    cases hnew : p (some (f (Entity.fresh pool.next_id_))) with
    | none => rw [List.filterMap_cons_none hnew, List.filterMap_nil, List.append_nil]; rfl
    | some b =>
      rw [List.filterMap_cons_some hnew, List.filterMap_nil]
      exact List.perm_append_comm

omit [Scalar K] in
/-- What is written to a slot depends on the entity there. -/
theorem modify_congr {i : ℕ} {e : Entity K} (hat : pool.at? i = some e) (h : f e = g e) :
    pool.modify i f = pool.modify i g := by
  have hslot := EntityPool.at?_eq_some.mp hat
  have hstorage : pool.storage_.modify i (Option.map f) =
      pool.storage_.modify i (Option.map g) := by
    refine List.ext_getElem? fun j => ?_
    rw [List.getElem?_modify, List.getElem?_modify]
    split_ifs with hj
    · subst hj
      rw [hslot]
      exact congrArg (some ∘ some) h
    · rfl
  unfold EntityPool.modify
  rw [hstorage]

omit [Scalar K] in
theorem modify_eq_self {i : ℕ} {e : Entity K} (hat : pool.at? i = some e) (h : f e = e) :
    pool.modify i f = pool := by
  rw [modify_congr (g := id) hat h]
  unfold EntityPool.modify
  rw [Option.map_id, List.modify_id]

omit [Scalar K] in
/-- Changing an older entity brings no newcomer. -/
theorem filterMap_newcomer_modify {next : EntityId} {i : ℕ} {e : Entity K}
    (hat : pool.at? i = some e) (hlt : e.id < next) (hid : (f e).id = e.id) :
    (pool.modify i f).storage_.filterMap (newcomer next) =
      pool.storage_.filterMap (newcomer next) := by
  have hslot := EntityPool.at?_eq_some.mp hat
  have hold (e : Entity K) (h : e.id < next) : newcomer next (some e) = none := by
    rw [newcomer, Option.filter_some, decide_eq_false (Nat.not_le_of_lt h)]
    rfl
  have hmodify : ∀ (items : List (Option (Entity K))) (i : ℕ), items[i]? = some (some e) →
      (items.modify i (Option.map f)).filterMap (newcomer next) =
        items.filterMap (newcomer next) := by
    intro items
    induction items with
    | nil => exact fun i h => nomatch h
    | cons slot items ih =>
      intro i h
      cases i with
      | zero =>
        obtain rfl := Option.some.inj h
        rw [List.modify_zero_cons, Option.map_some, List.filterMap_cons_none (hold e hlt),
          List.filterMap_cons_none (hold (f e) (hid ▸ hlt))]
      | succ i =>
        rw [List.modify_succ_cons]
        rw [List.filterMap_cons, List.filterMap_cons, ih i h]
  exact hmodify pool.storage_ i hslot

end Pool

/-! ### Actions by their type -/

section Actions

variable {action : ActionEvent K}

theorem applyAction_quit (h : action.type = .PlayerQuit) (world : World K)
    (new_players : List PendingJoin) :
    applyAction (world, new_players) action = (world.applyQuit action.session_id, new_players) := by
  rw [applyAction, h]

theorem applyAction_turn (h : action.type = .MoveAndShoot) (world : World K)
    (new_players : List PendingJoin) :
    applyAction (world, new_players) action = (world.applyMoveAndShoot action, new_players) := by
  rw [applyAction, h]

/-- Actions that neither quit nor turn leave the world alone. -/
theorem applyAction_idle (hquit : action.type ≠ .PlayerQuit) (hturn : action.type ≠ .MoveAndShoot)
    (world : World K) (new_players : List PendingJoin) :
    (applyAction (world, new_players) action).1 = world := by
  unfold applyAction
  dsimp only
  split
  · rfl
  · next hq => exact absurd hq hquit
  · next ht => exact absurd ht hturn
  · rfl
  · rfl

end Actions

/-! ### Boards of drains -/

/-- The board of a drain that began when identifiers had reached `next`. -/
def boardOf (next : EntityId) (state : World K × List PendingJoin) : Board K where
  mapping := state.1.session_to_ship_
  ships id := if id < next then state.1.entities_.findByEntityID id else none
  bullets := (state.1.entities_.storage_.filterMap (newcomer next) : Multiset (Entity K))
  next_id := state.1.entities_.next_id_
  players := (state.2 : Multiset PendingJoin)

/-- A drain on its way: its sessions have ships from before it. -/
structure MidDrain (next : EntityId) (state : World K × List PendingJoin) : Prop where
  sound : state.1.Sound
  next_le : next ≤ state.1.entities_.next_id_
  older : ∀ {s id}, state.1.session_to_ship_.lookup s = some id → id < next
  bullets : ∀ {i e}, state.1.entities_.at? i = some e → next ≤ e.id → e.type = .Bullet

variable {next : EntityId} {state : World K × List PendingJoin} {action : ActionEvent K}

theorem MidDrain.applyAction (h : MidDrain next state) (action : ActionEvent K) :
    MidDrain next (applyAction state action) := by
  obtain ⟨hsound, hfades⟩ := quiet_applyAction state.1 state.2 action h.sound
  refine ⟨hsound, h.next_le.trans hfades.next_le, fun hs => h.older (hfades.mapped hs), ?_⟩
  intro i e' hat' hnew
  by_cases hquit : action.type = .PlayerQuit
  · rw [applyAction_quit hquit] at hat'
    obtain ⟨e, hat, ⟨rfl, -⟩ | ⟨-, rfl⟩⟩ := at?_applyQuit h.sound.pool _ hat'
    · exact h.bullets hat hnew
    · exact (h.bullets hat hnew : e.type = .Bullet)
  · by_cases hturn : action.type = .MoveAndShoot
    · rw [applyAction_turn hturn] at hat'
      rcases at?_applyMoveAndShoot h.sound.pool action hat' with
        ⟨-, hbullet⟩ | ⟨e, hat, ⟨rfl, -⟩ | ⟨-, t, -, rfl⟩⟩
      · exact hbullet
      · exact h.bullets hat hnew
      · exact (h.bullets hat hnew : e.type = .Bullet)
    · rw [applyAction_idle hquit hturn] at hat'
      exact h.bullets hat' hnew

omit [Scalar K] in
theorem MidDrain.shipOf (h : MidDrain next state) (s : SessionId) :
    (boardOf next state).shipOf s =
      (state.1.session_to_ship_.lookup s).bind state.1.entities_.findByEntityID := by
  change (state.1.session_to_ship_.lookup s).bind (boardOf next state).ships = _
  cases hs : state.1.session_to_ship_.lookup s with
  | none => rfl
  | some id => exact if_pos (h.older hs)

/-- Erasing a session that has no entry. -/
theorem erase_of_lookup_none {mapping : AList (fun _ : SessionId => EntityId)} {s : SessionId}
    (h : mapping.lookup s = none) : mapping.erase s = mapping :=
  AList.ext (List.kerase_of_notMem_keys (AList.lookup_eq_none.mp h))

theorem mapping_applyAction (state : World K × List PendingJoin) (action : ActionEvent K) :
    (applyAction state action).1.session_to_ship_ =
      if action.type = .PlayerQuit then state.1.session_to_ship_.erase action.session_id
      else state.1.session_to_ship_ := by
  obtain ⟨world, new_players⟩ := state
  by_cases hquit : action.type = .PlayerQuit
  · rw [if_pos hquit, applyAction_quit hquit]
    unfold applyQuit
    dsimp only
    split
    · next hnone => exact (erase_of_lookup_none hnone).symm
    · rfl
  · rw [if_neg hquit]
    by_cases hturn : action.type = .MoveAndShoot
    · obtain ⟨pool, heq⟩ := frame_applyMoveAndShoot world action
      rw [applyAction_turn hturn, heq]
    · rw [applyAction_idle hquit hturn]

theorem players_applyAction (state : World K × List PendingJoin) (action : ActionEvent K) :
    ((applyAction state action).2 : Multiset PendingJoin) =
      Board.joined (state.2 : Multiset PendingJoin) action := by
  obtain ⟨world, new_players⟩ := state
  have hother (h : action.type ≠ .PlayerJoin) :
      Board.joined (new_players : Multiset PendingJoin) action = new_players :=
    Board.joined_of_not fun hjoins => h hjoins.1
  unfold applyAction
  dsimp only
  split
  · next htype =>
    have hmem : new_players.any (·.session_id = action.session_id) = true ↔
        action.session_id ∈ (new_players : Multiset PendingJoin).map (·.session_id) := by
      simp only [List.any_eq_true, decide_eq_true_eq, Multiset.mem_map, Multiset.mem_coe]
    unfold applyJoin
    split_ifs with hjoined
    · exact (Board.joined_of_not fun h => h.2 (hmem.mp hjoined)).symm
    · rw [Board.joined_of ⟨htype, mt hmem.mpr hjoined⟩]
      exact Multiset.coe_eq_coe.mpr List.perm_append_comm
  · next htype => exact (hother (htype ▸ nofun)).symm
  · next htype => exact (hother (htype ▸ nofun)).symm
  · next htype => exact (hother (htype ▸ nofun)).symm
  · next htype => exact (hother (htype ▸ nofun)).symm

/-- Without a ship an action leaves the pool alone. -/
theorem pool_applyAction_none
    (hship : (state.1.session_to_ship_.lookup action.session_id).bind
      state.1.entities_.findByEntityID = none) :
    (applyAction state action).1.entities_ = state.1.entities_ := by
  obtain ⟨world, new_players⟩ := state
  have hfind {ship_id : EntityId}
      (hmapped : world.session_to_ship_.lookup action.session_id = some ship_id) :
      world.entities_.findByEntityID ship_id = none :=
    Option.bind_eq_none_iff.mp hship ship_id hmapped
  by_cases hquit : action.type = .PlayerQuit
  · rw [applyAction_quit hquit]
    unfold applyQuit
    split
    · rfl
    · next ship_id hmapped =>
      dsimp only
      rw [hfind hmapped]
  · by_cases hturn : action.type = .MoveAndShoot
    · rw [applyAction_turn hturn]
      rcases applyMoveAndShoot_cases world action with
        ⟨hsame, -⟩ | ⟨ship_id, i, ship, t, hmapped, hfound, -⟩
      · rw [hsame]
      · cases (hfind hmapped).symm.trans hfound
    · rw [applyAction_idle hquit hturn]

/-- An action turns the ship of its session, and may add one bullet. -/
theorem pool_applyAction_some {i : ℕ} {ship : Entity K} (h : MidDrain next state)
    (hship : (state.1.session_to_ship_.lookup action.session_id).bind
      state.1.entities_.findByEntityID = some (i, ship)) :
    (firedBy action ship = none ∧ (applyAction state action).1.entities_ =
        state.1.entities_.modify i (turnedBy action)) ∨
      ∃ bullet f, firedBy action ship = some bullet ∧ (∀ e, (f e).id = e.id) ∧
        (∀ id, nameless (f (Entity.fresh id)) = bullet) ∧
        (applyAction state action).1.entities_ =
          (state.1.entities_.modify i (turnedBy action)).acquire.2.modify
            (state.1.entities_.modify i (turnedBy action)).acquire.1 f := by
  obtain ⟨world, new_players⟩ := state
  obtain ⟨ship_id, hmapped, hfind⟩ := Option.bind_eq_some_iff.mp hship
  obtain ⟨hat, rfl⟩ := h.sound.pool.findByEntityID_eq_some.mp hfind
  by_cases hturn : action.type = .MoveAndShoot
  · have hturned : turnedBy action ship = { ship with
        transform := ship.transform.map fun t => { t with angle := action.angle } } := by
      rw [turnedBy, if_neg (hturn ▸ nofun), if_pos hturn]
    rw [applyAction_turn hturn]
    cases ht : ship.transform with
    | none =>
      -- A ship without a transform is left as it is.
      refine Or.inl ⟨?_, ?_⟩
      · unfold firedBy
        rw [ht]
        exact ite_self none
      · have hsame : turnedBy action ship = ship := by rw [hturned, ht, Option.map_none, ← ht]
        rw [modify_eq_self hat hsame]
        rcases applyMoveAndShoot_cases world action with
          ⟨hsame, -⟩ | ⟨_, _, _, t, hmapped', hfind', ht'⟩
        · rw [hsame]
        · cases hmapped.symm.trans hmapped'
          cases hfind.symm.trans hfind'
          cases ht.symm.trans ht'
    | some t =>
      have hmodify : (world.entities_.modify i fun e =>
          { e with transform := some { t with angle := action.angle } }) =
            world.entities_.modify i (turnedBy action) := by
        refine modify_congr hat ?_
        rw [hturned, ht]
        rfl
      rw [applyMoveAndShoot_eq hmapped hfind ht, hmodify]
      unfold firedBy
      by_cases hshooting : action.is_shooting = true
      · rw [if_pos ⟨hturn, hshooting⟩, if_pos hshooting, ht]
        refine Or.inr ⟨_, _, rfl, ?_, ?_, rfl⟩
        · exact fun _ => rfl
        · exact fun _ => rfl
      · rw [if_neg fun hshot => hshooting hshot.2, if_neg hshooting]
        exact Or.inl ⟨rfl, rfl⟩
  · refine Or.inl ⟨if_neg fun hshot => hturn hshot.1, ?_⟩
    by_cases hquit : action.type = .PlayerQuit
    · rw [applyAction_quit hquit]
      unfold applyQuit
      dsimp only
      rw [hmapped]
      dsimp only
      rw [hfind]
      exact modify_congr hat (if_pos hquit).symm
    · have hsame : turnedBy action ship = ship := by rw [turnedBy, if_neg hquit, if_neg hturn]
      rw [applyAction_idle hquit hturn, modify_eq_self hat hsame]

omit [Scalar K] in
theorem wellFormed_turned {pool : EntityPool K} (wf : pool.WellFormed) (i : ℕ)
    (action : ActionEvent K) : (pool.modify i (turnedBy action)).WellFormed := by
  have hevolves : EntityPool.Evolves (fun e e' => e'.id = e.id) pool
      (pool.modify i (turnedBy action)) :=
    EntityPool.evolves_modify (R := fun e e' : Entity K => e'.id = e.id) (fun _ => rfl) pool i
      fun e _ => id_turnedBy action e
  exact hevolves.wellFormed (fun h => h) wf

/-- The board after an action, from the pool that the action leaves. -/
theorem boardOf_eq_apply {pool : EntityPool K}
    (hpool : (applyAction state action).1.entities_ = pool)
    (hships : ∀ id, ((boardOf next state).apply action).ships id =
      if id < next then pool.findByEntityID id else none)
    (hbullets : (pool.storage_.filterMap (newcomer next) : Multiset (Entity K)) =
      (boardOf next state).fired action + (boardOf next state).bullets)
    (hnext : pool.next_id_ =
      (boardOf next state).next_id + ((boardOf next state).fired action).card) :
    boardOf next (applyAction state action) = (boardOf next state).apply action := by
  subst hpool
  exact Board.ext (mapping_applyAction state action) (funext fun id => (hships id).symm) hbullets
    hnext (players_applyAction state action)

/-- Without a ship an action changes no ship of the board and fires nothing. -/
theorem boardOf_applyAction_none (h : MidDrain next state)
    (hship : (boardOf next state).shipOf action.session_id = none) :
    boardOf next (applyAction state action) = (boardOf next state).apply action := by
  have hfired : (boardOf next state).fired action = 0 := by
    rw [Board.fired, hship]
    rfl
  apply boardOf_eq_apply (pool_applyAction_none (h.shipOf action.session_id ▸ hship))
  · intro id
    change ((boardOf next state).apply action).ships id = (boardOf next state).ships id
    unfold Board.apply
    dsimp only
    split_ifs with hmapped
    · rw [Option.bind_eq_none_iff.mp hship id hmapped]
      rfl
    · rfl
  · rw [hfired, Multiset.zero_add]
    rfl
  · rw [hfired, Multiset.card_zero, Nat.add_zero]
    rfl

/-- The ships of the board when an action turns the ship of a slot. -/
theorem ships_apply (h : MidDrain next state) {i : ℕ} {ship : Entity K}
    (hmapped : state.1.session_to_ship_.lookup action.session_id = some ship.id)
    (hat : state.1.entities_.at? i = some ship) (id : EntityId) :
    ((boardOf next state).apply action).ships id =
      if id < next then (state.1.entities_.modify i (turnedBy action)).findByEntityID id
      else none := by
  have hfind := h.sound.pool.findByEntityID_eq_some.mpr ⟨hat, rfl⟩
  have hold : ship.id < next := h.older hmapped
  rw [EntityPool.findByEntityID_modify h.sound.pool hat]
  change (if state.1.session_to_ship_.lookup action.session_id = some id then
    (if id < next then state.1.entities_.findByEntityID id else none).map fun ship =>
      (ship.1, turnedBy action ship.2)
    else if id < next then state.1.entities_.findByEntityID id else none) = _
  rw [hmapped]
  by_cases hid : id = ship.id
  · rw [if_pos (congrArg some hid.symm), if_pos hid, hid, if_pos hold, if_pos hold, hfind]
    rfl
  · rw [if_neg fun heq => hid (Option.some.inj heq).symm, if_neg hid]

/-- A new bullet is a newcomer. -/
theorem newcomers_acquire_modify {pool : EntityPool K} (wf : pool.WellFormed)
    (hnext : next ≤ pool.next_id_) {bullet : Entity K} {f : Entity K → Entity K}
    (hid : ∀ e, (f e).id = e.id) (hname : ∀ id, nameless (f (Entity.fresh id)) = bullet) :
    ((pool.acquire.2.modify pool.acquire.1 f).storage_.filterMap (newcomer next)).Perm
      (bullet :: pool.storage_.filterMap (newcomer next)) := by
  have hnew : newcomer next (some (f (Entity.fresh pool.next_id_))) = some bullet := by
    have hlate : next ≤ (f (Entity.fresh pool.next_id_)).id := (hid _).symm ▸ hnext
    rw [newcomer, Option.filter_some, decide_eq_true hlate, if_pos rfl, Option.map_some, hname]
  have hperm := perm_filterMap_acquire_modify wf f (p := newcomer next) rfl
  rw [hnew] at hperm
  exact hperm

/-- An action turns the ship of its session on the board. -/
theorem boardOf_applyAction_some (h : MidDrain next state) {i : ℕ} {ship : Entity K}
    (hship : (boardOf next state).shipOf action.session_id = some (i, ship)) :
    boardOf next (applyAction state action) = (boardOf next state).apply action := by
  have hown := h.shipOf action.session_id ▸ hship
  have hfired : (boardOf next state).fired action =
      ((firedBy action ship).toList : Multiset (Entity K)) := by
    rw [Board.fired, hship]
    rfl
  obtain ⟨ship_id, hmapped, hfind⟩ := Option.bind_eq_some_iff.mp hown
  obtain ⟨hat, rfl⟩ := h.sound.pool.findByEntityID_eq_some.mp hfind
  have hwf := wellFormed_turned h.sound.pool i action
  have hships := ships_apply h hmapped hat
  -- The ship that turns is no newcomer.
  have hnewcomers : (state.1.entities_.modify i (turnedBy action)).storage_.filterMap
      (newcomer next) = state.1.entities_.storage_.filterMap (newcomer next) :=
    filterMap_newcomer_modify hat (h.older hmapped) (id_turnedBy action ship)
  rcases pool_applyAction_some h hown with ⟨hnone, hpool⟩ | ⟨bullet, f, hbullet, hid, hname, hpool⟩
  · -- The ship turns.
    rw [hnone] at hfired
    apply boardOf_eq_apply hpool hships
    · rw [hfired, hnewcomers]
      exact (Multiset.zero_add _).symm
    · rw [hfired]
      rfl
  · -- The ship turns and a bullet joins the slots.
    rw [hbullet] at hfired
    apply boardOf_eq_apply hpool
    · intro id
      rw [hships]
      split_ifs with hlt
      · exact (EntityPool.findByEntityID_acquire_modify hwf f (hlt.trans_le h.next_le)).symm
      · rfl
    · have hperm := newcomers_acquire_modify hwf h.next_le hid hname
      rw [hnewcomers] at hperm
      rw [hfired]
      exact Multiset.coe_eq_coe.mpr hperm
    · rw [hfired]
      exact (EntityPool.placed_acquire hwf).next

/-- An action does to the board what it does to the world. -/
theorem boardOf_applyAction (h : MidDrain next state) (action : ActionEvent K) :
    boardOf next (applyAction state action) = (boardOf next state).apply action := by
  cases hship : (boardOf next state).shipOf action.session_id with
  | none => exact boardOf_applyAction_none h hship
  | some ship => exact boardOf_applyAction_some h hship

/-! ### The order of a queue -/

/-- Two drains came to the same: the worlds differ in their pools only, an entity from before
is the same and in the same slot, the new ones are bullets that differ in their identifiers
and slots, and the same players join. -/
structure SameDrain (next : EntityId) (result result' : World K × List PendingJoin) : Prop where
  mapping : result'.1.session_to_ship_ = result.1.session_to_ship_
  rest : result'.1 = { result.1 with entities_ := result'.1.entities_ }
  ships : ∀ {i e}, e.id < next →
    (result'.1.entities_.at? i = some e ↔ result.1.entities_.at? i = some e)
  bullets : (result'.1.entities_.storage_.filterMap (newcomer next)).Perm
    (result.1.entities_.storage_.filterMap (newcomer next))
  newcomers : ∀ {i e}, next ≤ e.id →
    result.1.entities_.at? i = some e ∨ result'.1.entities_.at? i = some e → e.type = .Bullet
  next_id : result'.1.entities_.next_id_ = result.1.entities_.next_id_
  players : result'.2.Perm result.2

omit [Scalar K] in
theorem midDrain_start {world : World K} (h : world.Sound) (new_players : List PendingJoin) :
    MidDrain world.entities_.next_id_ ({ world with action_queue_ := [] }, new_players) where
  sound := h.congr rfl rfl rfl
  next_le := le_rfl
  older hs := h.mapped_lt hs
  bullets hat hnew := absurd hnew (Nat.not_le_of_lt (h.pool.id_lt hat))

theorem MidDrain.foldl (h : MidDrain next state) (queue : List (ActionEvent K)) :
    MidDrain next (queue.foldl World.applyAction state) := by
  induction queue generalizing state with
  | nil => exact h
  | cons action queue ih => exact ih (h.applyAction action)

omit [Scalar K] in
theorem MidDrain.injective (h : MidDrain next state) : (boardOf next state).Injective :=
  fun _ _ _ hs hs' => h.sound.mapped_unique hs hs'

/-- The board after a queue is the same for every interleaving of what the sessions sent. -/
theorem MidDrain.boardOf_foldl (h : MidDrain next state) {queue queue' : List (ActionEvent K)}
    (hqueues : Interleaves (·.session_id) queue queue') :
    boardOf next (queue'.foldl World.applyAction state) =
      boardOf next (queue.foldl World.applyAction state) := by
  have hview (queue : List (ActionEvent K)) :
      boardOf next (queue.foldl World.applyAction state) =
        queue.foldl Board.apply (boardOf next state) :=
    foldl_view (fun _ action (h : MidDrain next _) => h.applyAction action)
      (fun _ action h => boardOf_applyAction h action) queue h
  rw [hview, hview, Board.commutes.foldl_eq hqueues h.injective]

omit [Scalar K] in
/-- Entities from before a drain are found on its board. -/
theorem MidDrain.ships_iff (h : MidDrain next state) {i : ℕ} {e : Entity K}
    (hold : e.id < next) :
    state.1.entities_.at? i = some e ↔ (boardOf next state).ships e.id = some (i, e) := by
  have hships : (boardOf next state).ships e.id = state.1.entities_.findByEntityID e.id :=
    if_pos hold
  rw [hships, h.sound.pool.findByEntityID_eq_some]
  exact (and_iff_left rfl).symm

theorem sameDrain_foldl {world : World K} (hsound : world.Sound)
    {queue queue' : List (ActionEvent K)}
    (hqueues : Interleaves (·.session_id) queue queue') (new_players : List PendingJoin) :
    SameDrain world.entities_.next_id_
      (queue.foldl applyAction ({ world with action_queue_ := [] }, new_players))
      (queue'.foldl applyAction ({ world with action_queue_ := [] }, new_players)) := by
  have hstart := midDrain_start hsound new_players
  have hdrain := hstart.foldl queue
  have hdrain' := hstart.foldl queue'
  have hboard := hstart.boardOf_foldl hqueues
  have hmapping := congrArg Board.mapping hboard
  have hframe := frame_foldl_applyAction queue { world with action_queue_ := [] } new_players
  have hframe' := frame_foldl_applyAction queue' { world with action_queue_ := [] } new_players
  generalize queue.foldl applyAction ({ world with action_queue_ := [] }, new_players) = result
    at hdrain hboard hmapping hframe ⊢
  generalize queue'.foldl applyAction ({ world with action_queue_ := [] }, new_players) = result'
    at hdrain' hboard hmapping hframe' ⊢
  refine ⟨hmapping, ?_, fun hold => ?_, ?_, fun hnew hat => ?_, ?_, ?_⟩
  · obtain ⟨pool, mapping, hworld⟩ := hframe
    obtain ⟨pool', mapping', hworld'⟩ := hframe'
    change result'.1.session_to_ship_ = result.1.session_to_ship_ at hmapping
    rw [hworld, hworld'] at hmapping
    obtain rfl : mapping' = mapping := hmapping
    rw [hworld, hworld']
  · rw [hdrain'.ships_iff hold, hdrain.ships_iff hold, hboard]
  · exact Multiset.coe_eq_coe.mp (congrArg Board.bullets hboard)
  · rcases hat with hat | hat
    · exact hdrain.bullets hat hnew
    · exact hdrain'.bullets hat hnew
  · exact congrArg Board.next_id hboard
  · exact Multiset.coe_eq_coe.mp (congrArg Board.players hboard)

/-- **Players do not influence each other through the order of the queue.** Two queues that
interleave the same actions of each session leave the same mapping, the same ships in their
slots, the same bullets but for identifiers and slots, and the same players to join. -/
theorem processInputQueue_of_interleaves (ext : Externals K) {world_width world_height : K}
    {tick_interval : ℕ} {world : World K}
    (hreachable : (machine ext world_width world_height tick_interval).Reachable world)
    {queue queue' : List (ActionEvent K)}
    (hqueues : Interleaves (·.session_id) queue queue') (new_players : List PendingJoin) :
    SameDrain world.entities_.next_id_
      ({ world with action_queue_ := queue }.processInputQueue new_players)
      ({ world with action_queue_ := queue' }.processInputQueue new_players) :=
  sameDrain_foldl (sound_of_reachable ext hreachable) hqueues new_players

section Exact

attribute [local instance] RationalScalar.rational

/-- Sessions 7 and 8 have ships. -/
def duel : List (Op ℚ) :=
  [.event (.PlayerJoinEvent 7 (bytesOf "Ace")), .event (.PlayerJoinEvent 8 (bytesOf "Bob")),
    exactTick]

/-- Two shots change places. -/
theorem sameDrain_duel :
    SameDrain (exactWorld duel).entities_.next_id_
      ({ exactWorld duel with
        action_queue_ := [shotAction 7, shotAction 8] }.processInputQueue [])
      ({ exactWorld duel with
        action_queue_ := [shotAction 8, shotAction 7] }.processInputQueue []) :=
  processInputQueue_of_interleaves exactExternals ⟨duel, run_exactMachine duel⟩
    (interleaves_swap (by decide) []) []

end Exact

end SpaceShooter.Server.World
