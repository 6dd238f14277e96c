/-
# Headings and shots

Moves and shots of a player are folded into one kind of action whose unset angle is
zero. Draining the queue therefore leaves the ship at the angle of its session's last
action, whatever the other sessions do in between, and a shot that follows a move turns
the ship and its bullet back to zero.
-/

import SpaceShooter.Server.WorldInvariant

namespace SpaceShooter.Server.World

open Scalar Domain Library

variable {K : Type}

/-- A session commands a live ship. -/
structure Commands (world : World K) (s : SessionId) (i : ℕ) (ship : Entity K) : Prop where
  mapped : world.session_to_ship_.lookup s = some ship.id
  at_ : world.entities_.at? i = some ship
  live : ship.LiveShip

/-- An entity was created as a bullet of a ship once identifiers had reached `next`. -/
structure BulletOf (next : EntityId) (ship_id : EntityId) (bullet : Entity K) : Prop where
  next_le : next ≤ bullet.id
  type : bullet.type = .Bullet
  owner : ∃ combat, bullet.combat = some combat ∧ combat.owner_id = ship_id

variable [Scalar K]

/-- A bullet starts in front of a ship and flies in a direction. -/
def StartsFrom (t : TransformComponent K) (radius angle : K) (bullet : Entity K) : Prop :=
  let direction : Math.Vector2D K := ⟨cos angle, sin angle⟩
  ∃ transform, bullet.transform = some transform ∧
    transform.position = t.position + direction * radius ∧
    transform.velocity = direction * (World.kBulletSpeed : K)

/-- Between two worlds the ship of a slot turned to an angle, and every bullet created for
it started at this angle. -/
def KeepsHeading (world world' : World K) (i : ℕ) (ship : Entity K) (theta : K) : Prop :=
  ∃ t ship' t', ship.transform = some t ∧ world'.entities_.at? i = some ship' ∧
    ship'.id = ship.id ∧ ship'.transform = some t' ∧ t'.angle = theta ∧
    ∀ k bullet, world'.entities_.at? k = some bullet →
      BulletOf world.entities_.next_id_ ship.id bullet → StartsFrom t ship.radius theta bullet

/-! ### One ship and its bullets -/

/-- The ship of a slot has turned to an angle, and its new bullets started at given
angles. -/
structure Heads (next : EntityId) (i : ℕ) (ship : Entity K) (t : TransformComponent K)
    (angle : K) (shots : List K) (pool : EntityPool K) : Prop where
  at_ : pool.at? i = some { ship with transform := some { t with angle := angle } }
  bullets : ∀ {k bullet}, pool.at? k = some bullet → BulletOf next ship.id bullet →
    ∃ shot ∈ shots, StartsFrom t ship.radius shot bullet

variable {next : EntityId} {i : ℕ} {ship : Entity K} {t : TransformComponent K} {angle : K}
  {shots : List K} {pool : EntityPool K}

/-- Changing an older entity in another slot. -/
theorem Heads.modify_other (h : Heads next i ship t angle shots pool) {j : ℕ}
    {f : Entity K → Entity K} (hid : ∀ e, (f e).id = e.id) (hne : j ≠ i)
    (hlt : ∀ e, pool.at? j = some e → e.id < next) :
    Heads next i ship t angle shots (pool.modify j f) where
  at_ := by rw [EntityPool.at?_modify, if_neg hne, h.at_]
  bullets {k bullet} hat hbullet := by
    rw [EntityPool.at?_modify] at hat
    split_ifs at hat with hk
    · obtain ⟨e, he, rfl⟩ := Option.map_eq_some_iff.mp hat
      exact absurd (hid e ▸ hbullet.next_le) (Nat.not_le_of_lt (hlt e (hk ▸ he)))
    · exact h.bullets hat hbullet

/-- Turning the ship itself. -/
theorem Heads.turn (h : Heads next i ship t angle shots pool) (hlt : ship.id < next)
    (theta : K) :
    Heads next i ship t theta shots
      (pool.modify i fun e => { e with transform := some { t with angle := theta } }) where
  at_ := by
    rw [EntityPool.at?_modify, if_pos rfl, h.at_]
    rfl
  bullets {k bullet} hat hbullet := by
    rw [EntityPool.at?_modify] at hat
    split_ifs at hat with hk
    · subst hk
      rw [h.at_] at hat
      obtain rfl := Option.some.inj hat
      -- The ship is older than the drain, so it is none of its bullets.
      exact absurd hbullet.next_le (Nat.not_le_of_lt hlt)
    · exact h.bullets hat hbullet

theorem at?_createBullet (wf : pool.WellFormed) (ship_id : EntityId)
    (transform : TransformComponent K) (radius : K) {k : ℕ} {e : Entity K}
    (hat : (createBullet pool ship_id transform radius).at? k = some e) :
    pool.at? k = some e ∨
      StartsFrom transform radius transform.angle e ∧
        ∀ combat, e.combat = some combat → combat.owner_id = ship_id := by
  rw [createBullet, EntityPool.at?_acquire_modify wf] at hat
  split_ifs at hat
  · obtain rfl := Option.some.inj hat
    refine Or.inr ⟨⟨_, rfl, rfl, rfl⟩, ?_⟩
    rintro combat hcombat
    obtain rfl := Option.some.inj hcombat
    rfl
  · exact Or.inl hat

/-- The bullet that a shot adds. -/
theorem exists_bullet_of_createBullet (wf : pool.WellFormed) (ship_id : EntityId)
    (transform : TransformComponent K) (radius : K) :
    ∃ k bullet, (World.createBullet pool ship_id transform radius).at? k = some bullet ∧
      bullet.id = pool.next_id_ ∧ BulletOf pool.next_id_ ship_id bullet ∧
      StartsFrom transform radius transform.angle bullet := by
  refine ⟨pool.acquire.1, _, (EntityPool.at?_acquire_modify wf _ _).trans (if_pos rfl), rfl, ?_, ?_⟩
  · exact ⟨le_rfl, rfl, _, rfl, rfl⟩
  · exact ⟨_, rfl, rfl, rfl⟩

/-- A bullet for another ship. -/
theorem Heads.createBullet_other (h : Heads next i ship t angle shots pool)
    (wf : pool.WellFormed) {ship_id : EntityId} (hne : ship_id ≠ ship.id)
    (transform : TransformComponent K) (radius : K) :
    Heads next i ship t angle shots (createBullet pool ship_id transform radius) where
  at_ := (extends_createBullet wf _ _ _).keeps h.at_
  bullets hat hbullet := by
    rcases at?_createBullet wf _ _ _ hat with hold | ⟨-, howner⟩
    · exact h.bullets hold hbullet
    · -- The new bullet carries the other ship's identifier.
      obtain ⟨combat, hcombat, hship⟩ := hbullet.owner
      exact absurd ((howner combat hcombat).symm.trans hship) hne

/-- A bullet for the ship itself. -/
theorem Heads.createBullet (h : Heads next i ship t angle shots pool) (wf : pool.WellFormed) :
    Heads next i ship t angle (shots ++ [angle])
      (createBullet pool ship.id { t with angle := angle } ship.radius) where
  at_ := (extends_createBullet wf _ _ _).keeps h.at_
  bullets hat hbullet := by
    rcases at?_createBullet wf _ _ _ hat with hold | ⟨hstarts, -⟩
    · obtain ⟨shot, hmem, hshot⟩ := h.bullets hold hbullet
      exact ⟨shot, List.mem_append_left _ hmem, hshot⟩
    · exact ⟨angle, List.mem_append_right _ List.mem_cons_self, hstarts⟩

/-! ### Draining a queue -/

/-- A drain on its way: `start` is the world it began with. -/
structure Draining (start : World K) (s : SessionId) (i : ℕ) (ship : Entity K)
    (t : TransformComponent K) (angle : K) (shots : List K) (world : World K) : Prop where
  start_sound : start.Sound
  sound : world.Sound
  fades : Fades start world
  mapped : world.session_to_ship_.lookup s = some ship.id
  heads : Heads start.entities_.next_id_ i ship t angle shots world.entities_

variable {start world : World K} {s : SessionId} {action : ActionEvent K}

/-- Slots that other sessions are mapped to are not the ship's, and their entities are
older than the drain. -/
theorem Draining.other_slot (h : Draining start s i ship t angle shots world)
    {s' : SessionId} (hne : s' ≠ s) {ship_id : EntityId} {j : ℕ} {e : Entity K}
    (hmapped : world.session_to_ship_.lookup s' = some ship_id)
    (hfind : world.entities_.findByEntityID ship_id = some (j, e)) :
    ship_id ≠ ship.id ∧ j ≠ i ∧
      ∀ e', world.entities_.at? j = some e' → e'.id < start.entities_.next_id_ := by
  obtain ⟨hat, hid⟩ := h.sound.pool.findByEntityID_eq_some.mp hfind
  have hship : ship_id ≠ ship.id := by
    rintro rfl
    exact hne (h.sound.mapped_unique hmapped h.mapped)
  refine ⟨hship, ?_, fun e' he' => ?_⟩
  · rintro rfl
    rw [h.heads.at_] at hat
    obtain rfl := Option.some.inj hat
    exact hship hid.symm
  · rw [hat, Option.some.injEq] at he'
    rw [← he', hid]
    exact h.start_sound.mapped_lt (h.fades.mapped hmapped)

theorem Draining.applyQuit (h : Draining start s i ship t angle shots world) {s' : SessionId}
    (hne : s' ≠ s) : Draining start s i ship t angle shots (world.applyQuit s') := by
  obtain ⟨hsound, hfades⟩ := quiet_applyQuit world s' h.sound
  refine ⟨h.start_sound, hsound, h.fades.trans hfades, ?_, ?_⟩
  · unfold World.applyQuit
    split
    · exact h.mapped
    · exact (AList.lookup_erase_ne (Ne.symm hne)).trans h.mapped
  · unfold World.applyQuit
    split
    · exact h.heads
    · next ship_id hmapped =>
      dsimp only
      split
      · next j e hfind =>
        obtain ⟨-, hslot, hlt⟩ := h.other_slot hne hmapped hfind
        exact h.heads.modify_other (fun _ => rfl) hslot hlt
      · exact h.heads

theorem Draining.applyMoveAndShoot_other (h : Draining start s i ship t angle shots world)
    (hne : action.session_id ≠ s) :
    Draining start s i ship t angle shots (world.applyMoveAndShoot action) := by
  obtain ⟨hsound, hfades⟩ := quiet_applyMoveAndShoot world action h.sound
  refine ⟨h.start_sound, hsound, h.fades.trans hfades, ?_, ?_⟩
  · unfold World.applyMoveAndShoot
    split
    · exact h.mapped
    · split
      · exact h.mapped
      · split
        · exact h.mapped
        · exact h.mapped
  · unfold World.applyMoveAndShoot
    split
    · exact h.heads
    · next ship_id hmapped =>
      split
      · exact h.heads
      · next j e hfind =>
        split
        · exact h.heads
        · next transform _ =>
          obtain ⟨hship, hslot, hlt⟩ := h.other_slot hne hmapped hfind
          have hmodify := h.heads.modify_other (j := j)
            (f := fun e => { e with transform := some { transform with angle := action.angle } })
            (fun _ => rfl) hslot hlt
          have hwf := h.sound.pool.turn j { transform with angle := action.angle }
          dsimp only
          split
          · exact hmodify.createBullet_other hwf hship _ _
          · exact hmodify

/-- The session's own action turns its ship, and a shot starts a bullet at its angle. -/
theorem Draining.applyMoveAndShoot_own (h : Draining start s i ship t angle shots world)
    (heq : action.session_id = s) :
    Draining start s i ship t action.angle
      (if action.is_shooting then shots ++ [action.angle] else shots)
      (world.applyMoveAndShoot action) := by
  obtain ⟨hsound, hfades⟩ := quiet_applyMoveAndShoot world action h.sound
  have hlt := h.start_sound.mapped_lt (h.fades.mapped h.mapped)
  have hturn := h.heads.turn hlt action.angle
  have hwf := h.sound.pool.turn i { t with angle := action.angle }
  have hfind := h.sound.pool.findByEntityID_eq_some.mpr ⟨h.heads.at_, rfl⟩
  have hresult := applyMoveAndShoot_eq (heq ▸ h.mapped) hfind rfl
  rw [hresult] at hsound hfades ⊢
  refine ⟨h.start_sound, hsound, h.fades.trans hfades, h.mapped, ?_⟩
  dsimp only
  split
  · exact hturn.createBullet hwf
  · exact hturn

/-- The angle a session's actions leave its ship at. -/
def headingAfter (angle : K) (own : List (ActionEvent K)) : K :=
  own.foldl (fun _ action => action.angle) angle

/-- The angles at which a session's actions shoot. -/
def shotAngles (own : List (ActionEvent K)) : List K :=
  (own.filter (·.is_shooting)).map (·.angle)

/-- A queue in which a session only moves and shoots leaves its ship at its last angle,
and its shots start at their own. -/
theorem Draining.foldl (queue : List (ActionEvent K)) (new_players : List PendingJoin)
    (h : Draining start s i ship t angle shots world)
    (own : ∀ action ∈ queue, action.session_id = s → action.type = .MoveAndShoot) :
    Draining start s i ship t
      (headingAfter angle (queue.filter (·.session_id = s)))
      (shots ++ shotAngles (queue.filter (·.session_id = s)))
      (queue.foldl applyAction (world, new_players)).1 := by
  induction queue generalizing world new_players angle shots with
  | nil => simpa [headingAfter, shotAngles] using h
  | cons action queue ih =>
    have hrest := fun other hmem => own other (List.mem_cons_of_mem action hmem)
    rw [List.foldl_cons]
    by_cases heq : action.session_id = s
    · have htype := own action List.mem_cons_self heq
      have hstep := h.applyMoveAndShoot_own heq
      rw [List.filter_cons_of_pos (by simpa using heq)]
      have happly : applyAction (world, new_players) action =
          (world.applyMoveAndShoot action, new_players) := by
        rw [applyAction, htype]
      rw [happly]
      have hfinal := ih new_players hstep hrest
      cases hshooting : action.is_shooting with
      | true => simpa [headingAfter, shotAngles, hshooting] using hfinal
      | false => simpa [headingAfter, shotAngles, hshooting] using hfinal
    · rw [List.filter_cons_of_neg (by simpa using heq)]
      -- Whatever another session does, the drain is where it was.
      have hstep : Draining start s i ship t angle shots
          (applyAction (world, new_players) action).1 := by
        unfold applyAction
        dsimp only
        split
        · exact h
        · exact h.applyQuit heq
        · exact h.applyMoveAndShoot_other heq
        · exact h
        · exact h
      exact ih _ hstep hrest

/-! ### Moves followed by shots -/

theorem Draining.init (h : start.Sound) (commands : start.Commands s i ship)
    (htransform : ship.transform = some t) :
    Draining start s i ship t t.angle [] start where
  start_sound := h
  sound := h
  fades := .refl start
  mapped := commands.mapped
  heads := by
    refine ⟨?_, fun hat hbullet => ?_⟩
    · rw [commands.at_, ← htransform]
    · exact absurd hbullet.next_le (Nat.not_le_of_lt (h.pool.id_lt hat))

/-- The shots leave the ship at angle zero, where their bullets started. -/
theorem keepsHeading_of_sound (h : world.Sound) (commands : world.Commands s i ship)
    {theta : K} {shots : ℕ} {queue : List (ActionEvent K)}
    (own : queue.filter (·.session_id = s) =
      moveAction s theta :: List.replicate shots (shotAction s))
    (new_players : List PendingJoin) :
    KeepsHeading world
        ({ world with action_queue_ := queue }.processInputQueue new_players).1 i ship theta ↔
      shots = 0 ∨ theta = lit 0 := by
  obtain ⟨t, htransform⟩ := Option.isSome_iff_exists.mp
    (h.fit commands.at_ commands.live.1 commands.live.2).1
  have hstart : Draining { world with action_queue_ := [] } s i ship t t.angle []
      { world with action_queue_ := [] } :=
    Draining.init (h.congr rfl rfl rfl) ⟨commands.mapped, commands.at_, commands.live⟩ htransform
  have hfinal := hstart.foldl queue new_players fun action hmem heq => by
    have hown : action ∈ queue.filter (·.session_id = s) :=
      List.mem_filter.mpr ⟨hmem, by simpa using heq⟩
    rw [own, List.mem_cons, List.mem_replicate] at hown
    rcases hown with rfl | ⟨-, rfl⟩
    · rfl
    · rfl
  rw [own, List.nil_append] at hfinal
  -- Every shot came with the default angle, so the first of them turns the ship.
  have hshots : shotAngles (moveAction s theta :: List.replicate shots (shotAction s)) =
      List.replicate shots (lit 0) := by
    simp [shotAngles, moveAction, shotAction, ActionEvent.default]
  have hheading : headingAfter t.angle
      (moveAction s theta :: List.replicate shots (shotAction s)) =
        if shots = 0 then theta else lit 0 := by
    cases shots with
    | zero => rfl
    | succ shots =>
      rw [if_neg (Nat.succ_ne_zero shots), List.replicate_succ', headingAfter, List.foldl_cons,
        List.foldl_append]
      rfl
  rw [hshots, hheading] at hfinal
  constructor
  · rintro ⟨t₀, ship', t', -, hat, -, ht', htheta, -⟩
    -- The ship's angle is the one of the last action.
    have hslot := hat.symm.trans hfinal.heads.at_
    obtain rfl := Option.some.inj hslot
    have hangle := congrArg TransformComponent.angle (Option.some.inj ht')
    dsimp only at hangle
    rw [htheta] at hangle
    split_ifs at hangle with hzero
    · exact Or.inl hzero
    · exact Or.inr hangle.symm
  · -- Without a shot the move is the last action; otherwise all angles are zero.
    intro hcond
    have hangle : (if shots = 0 then theta else lit 0) = theta := by
      split_ifs with hzero
      · rfl
      · exact (hcond.resolve_left hzero).symm
    rw [hangle] at hfinal
    refine ⟨t, _, _, htransform, hfinal.heads.at_, rfl, rfl, rfl, fun k bullet hat hbullet => ?_⟩
    obtain ⟨shot, hmem, hstarts⟩ := hfinal.heads.bullets hat hbullet
    obtain ⟨hne, rfl⟩ := List.mem_replicate.mp hmem
    exact hcond.resolve_left hne ▸ hstarts

/-- A move to an angle followed by shots keeps the heading exactly if there are no shots
or the angle is zero. -/
theorem keepsHeading_iff (ext : Externals K) {world_width world_height : K}
    {tick_interval : ℕ}
    (reachable : (machine ext world_width world_height tick_interval).Reachable world)
    (commands : world.Commands s i ship) {theta : K} {shots : ℕ}
    {queue : List (ActionEvent K)}
    (own : queue.filter (·.session_id = s) =
      moveAction s theta :: List.replicate shots (shotAction s))
    (new_players : List PendingJoin) :
    KeepsHeading world
        ({ world with action_queue_ := queue }.processInputQueue new_players).1 i ship theta ↔
      shots = 0 ∨ theta = lit 0 :=
  keepsHeading_of_sound (sound_of_reachable ext reachable) commands own new_players

section Exact

attribute [local instance] RationalScalar.rational

/-- The world after session 7 joined. -/
def joinedWorld : World ℚ := exactWorld [.event (.PlayerJoinEvent 7 (bytesOf "Ace")), exactTick]

theorem reachable_joinedWorld : exactMachine.Reachable joinedWorld := ⟨_, run_exactMachine _⟩

theorem commands_joinedWorld : ∃ ship, joinedWorld.Commands 7 1 ship := by
  have hjoined : (joinedWorld.entities_.at? 1).map (fun ship => (ship.id, ship.type,
      ship.isDestroyed)) = some (2, .Ship, false) ∧
      joinedWorld.session_to_ship_.lookup 7 = some 2 := by decide +kernel
  obtain ⟨ship, hat, heq⟩ := Option.map_eq_some_iff.mp hjoined.1
  simp only [Prod.mk.injEq] at heq
  obtain ⟨hid, htype, hlive⟩ := heq
  exact ⟨ship, hid ▸ hjoined.2, hat, htype, hlive⟩

/-- Session 7 moves to angle zero and shoots twice, with a shot of session 8 in between. -/
theorem keepsHeading_joinedWorld :
    ∃ ship, joinedWorld.Commands 7 1 ship ∧
      KeepsHeading joinedWorld ({ joinedWorld with
        action_queue_ := [moveAction 7 0, shotAction 8, shotAction 7, shotAction 7]
        }.processInputQueue []).1 1 ship 0 := by
  obtain ⟨ship, hcommands⟩ := commands_joinedWorld
  have own : [moveAction 7 0, shotAction 8, shotAction 7, shotAction 7].filter
      (fun action : ActionEvent ℚ => action.session_id = 7) =
        moveAction 7 0 :: List.replicate 2 (shotAction 7) := by decide +kernel
  exact ⟨ship, hcommands,
    (keepsHeading_iff exactExternals reachable_joinedWorld hcommands own []).mpr (Or.inr rfl)⟩

/-- A move to angle one followed by a shot leaves the ship at angle zero. -/
theorem not_keepsHeading_joinedWorld :
    exactMachine.Reachable joinedWorld ∧
      ∃ ship, joinedWorld.Commands 7 1 ship ∧
        ¬ KeepsHeading joinedWorld ({ joinedWorld with
          action_queue_ := [moveAction 7 1, shotAction 7] }.processInputQueue []).1 1 ship 1 := by
  obtain ⟨ship, hcommands⟩ := commands_joinedWorld
  have own : [moveAction 7 1, shotAction 7].filter
      (fun action : ActionEvent ℚ => action.session_id = 7) =
        moveAction 7 1 :: List.replicate 1 (shotAction 7) := by decide +kernel
  have hsound := sound_of_reachable exactExternals reachable_joinedWorld
  refine ⟨reachable_joinedWorld, ship, hcommands, fun hkeeps => ?_⟩
  have hcond := (keepsHeading_of_sound hsound hcommands own []).mp hkeeps
  revert hcond
  decide +kernel

end Exact

end SpaceShooter.Server.World
