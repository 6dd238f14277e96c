/-
# The invariant of the world

What holds of the world whatever happened to it, ticks that failed included. Most of a
tick brings neither a ship nor a mapping; such a quiet step keeps a sound world sound,
and what is left to check are the ships of new players.
-/

import SpaceShooter.Server.WorldTick

namespace SpaceShooter.Server.World

open Scalar Domain Library Library.Outcome

variable {K : Type}

/-- Sessions are mapped to ships spawned for them, each ship was spawned for one session,
and the live ones are fit. -/
structure Sound (world : World K) : Prop where
  pool : world.entities_.WellFormed
  fit : ∀ {i e}, world.entities_.at? i = some e → e.Fit
  mapped : ∀ {s id}, world.session_to_ship_.lookup s = some id → (s, id) ∈ world.spawned
  spawned_lt : ∀ {s id}, (s, id) ∈ world.spawned → id < world.entities_.next_id_
  spawned_unique : ∀ {s s' id}, (s, id) ∈ world.spawned → (s', id) ∈ world.spawned → s = s'
  ships : ∀ {id}, world.entities_.HasLiveShip id → ∃ s, (s, id) ∈ world.spawned

/-- Distinct sessions are mapped to distinct ships. -/
theorem Sound.mapped_unique {world : World K} (h : world.Sound) {s s' : SessionId}
    {id : EntityId} (hs : world.session_to_ship_.lookup s = some id)
    (hs' : world.session_to_ship_.lookup s' = some id) : s = s' :=
  h.spawned_unique (h.mapped hs) (h.mapped hs')

theorem Sound.mapped_lt {world : World K} (h : world.Sound) {s : SessionId} {id : EntityId}
    (hs : world.session_to_ship_.lookup s = some id) : id < world.entities_.next_id_ :=
  h.spawned_lt (h.mapped hs)

/-- The invariant does not look at the queue and at published events. -/
theorem Sound.congr {world world' : World K} (h : world.Sound)
    (entities : world'.entities_ = world.entities_)
    (mapping : world'.session_to_ship_ = world.session_to_ship_)
    (spawned : world'.spawned = world.spawned) : world'.Sound := by
  constructor
  · rw [entities]; exact h.pool
  · rw [entities]; exact h.fit
  · rw [mapping, spawned]; exact h.mapped
  · rw [spawned, entities]; exact h.spawned_lt
  · rw [spawned]; exact h.spawned_unique
  · rw [entities, spawned]; exact h.ships

theorem sound_empty (world_width world_height : K) : (empty world_width world_height).Sound where
  pool := EntityPool.wellFormed_empty
  fit h := nomatch h
  mapped h := nomatch h
  spawned_lt h := nomatch h
  spawned_unique h := nomatch h
  ships h := by
    obtain ⟨i, e, hat, -⟩ := h
    cases hat

/-! ### Quiet steps -/

/-- No ship comes to life, no session is mapped anew, and neither the queue nor the
history changes. -/
structure Fades (world world' : World K) : Prop where
  queue : world'.action_queue_ = world.action_queue_
  spawned : world'.spawned = world.spawned
  mapped : ∀ {s id}, world'.session_to_ship_.lookup s = some id →
    world.session_to_ship_.lookup s = some id
  next_le : world.entities_.next_id_ ≤ world'.entities_.next_id_
  ships : ∀ {id}, world'.entities_.HasLiveShip id → world.entities_.HasLiveShip id

theorem Fades.refl (world : World K) : Fades world world :=
  ⟨rfl, rfl, id, le_rfl, id⟩

theorem Fades.trans {a b c : World K} (h : Fades a b) (h' : Fades b c) : Fades a c where
  queue := h'.queue.trans h.queue
  spawned := h'.spawned.trans h.spawned
  mapped hs := h.mapped (h'.mapped hs)
  next_le := h.next_le.trans h'.next_le
  ships hid := h.ships (h'.ships hid)

theorem Sound.of_fades {world world' : World K} (h : world.Sound) (hfades : Fades world world')
    (pool : world'.entities_.WellFormed)
    (fit : ∀ {i e}, world'.entities_.at? i = some e → e.Fit) : world'.Sound where
  pool := pool
  fit := fit
  mapped hs := hfades.spawned ▸ h.mapped (hfades.mapped hs)
  spawned_lt hs := (h.spawned_lt (hfades.spawned ▸ hs)).trans_le hfades.next_le
  spawned_unique hs hs' := h.spawned_unique (hfades.spawned ▸ hs) (hfades.spawned ▸ hs')
  ships hid := hfades.spawned ▸ h.ships (hfades.ships hid)

/-- From a sound world the step fades to a sound world. -/
def Quiet (world world' : World K) : Prop := world.Sound → world'.Sound ∧ Fades world world'

theorem Quiet.refl (world : World K) : Quiet world world := fun h => ⟨h, .refl world⟩

theorem Quiet.trans {a b c : World K} (h : Quiet a b) (h' : Quiet b c) : Quiet a c := by
  intro ha
  obtain ⟨hb, hab⟩ := h ha
  obtain ⟨hc, hbc⟩ := h' hb
  exact ⟨hc, hab.trans hbc⟩

/-- A pass over the entities. -/
theorem quiet_evolves {world : World K} {pool : EntityPool K}
    (h : EntityPool.Evolves Entity.Continues world.entities_ pool) :
    Quiet world { world with entities_ := pool } := by
  intro hsound
  have hfades : Fades world { world with entities_ := pool } :=
    ⟨rfl, rfl, id, h.next.ge, h.hasLiveShip⟩
  refine ⟨hsound.of_fades hfades (h.wellFormed (fun hc => hc.id) hsound.pool) ?_, hfades⟩
  intro i e' hat'
  obtain ⟨e, hat, hcontinues⟩ := h.some_of_some' hat'
  exact hcontinues.fit (hsound.fit hat)

/-- New entities that are no ships. -/
theorem quiet_extends {P : Entity K → Prop} {world : World K} {pool : EntityPool K}
    (h : world.entities_.WellFormed → EntityPool.Extends P world.entities_ pool)
    (hP : ∀ e, P e → e.type ≠ .Ship) : Quiet world { world with entities_ := pool } := by
  intro hsound
  have hextends := h hsound.pool
  have hfades : Fades world { world with entities_ := pool } :=
    ⟨rfl, rfl, id, hextends.next_le, (hextends.hasLiveShip_iff hP).mp⟩
  refine ⟨hsound.of_fades hfades hextends.wellFormed ?_, hfades⟩
  intro i e hat
  rcases hextends.added hat with hold | ⟨-, hPe, -⟩
  · exact hsound.fit hold
  · exact fun hship => absurd hship (hP e hPe)

theorem quiet_recycle (world : World K) :
    Quiet world { world with entities_ := world.entities_.recycleDestroyed } := by
  intro hsound
  obtain ⟨hwf, hnext, hat⟩ := EntityPool.recycleDestroyed_spec hsound.pool
  have hfades : Fades world { world with entities_ := world.entities_.recycleDestroyed } :=
    ⟨rfl, rfl, id, hnext.ge,
      (EntityPool.hasLiveShip_recycleDestroyed hsound.pool).mp⟩
  refine ⟨hsound.of_fades hfades hwf ?_, hfades⟩
  intro i e hslot
  rw [hat, EntityPool.kept_eq_some] at hslot
  exact hsound.fit hslot.1

/-- What is left of a mapping when a session is erased. -/
theorem lookup_erase_eq_some {mapping : AList (fun _ : SessionId => EntityId)}
    {s session_id : SessionId} {id : EntityId} :
    (mapping.erase session_id).lookup s = some id ↔
      s ≠ session_id ∧ mapping.lookup s = some id := by
  by_cases heq : s = session_id
  · rw [heq, AList.lookup_erase]
    exact iff_of_false nofun fun h => h.1 rfl
  · rw [AList.lookup_erase_ne heq]
    exact (and_iff_right heq).symm

theorem quiet_erase (world : World K) (session_id : SessionId) :
    Quiet world
      { world with session_to_ship_ := world.session_to_ship_.erase session_id } := by
  intro hsound
  have hfades : Fades world
      { world with session_to_ship_ := world.session_to_ship_.erase session_id } := by
    exact ⟨rfl, rfl, fun hs => (lookup_erase_eq_some.mp hs).2, le_rfl, id⟩
  exact ⟨hsound.of_fades hfades hsound.pool hsound.fit, hfades⟩

theorem quiet_published (world : World K) (events : List (NetworkEvent K)) :
    Quiet world { world with published := events } := by
  intro hsound
  have hfades : Fades world { world with published := events } :=
    ⟨rfl, rfl, id, le_rfl, id⟩
  exact ⟨hsound.of_fades hfades hsound.pool hsound.fit, hfades⟩

/-! ### Passes over the entities -/

/-- Only the entities change, and they go on. -/
def Evolved (world world' : World K) : Prop :=
  ∃ pool, EntityPool.Evolves Entity.Continues world.entities_ pool ∧
    world' = { world with entities_ := pool }

theorem Evolved.trans {a b c : World K} (h : Evolved a b) (h' : Evolved b c) : Evolved a c := by
  obtain ⟨pool, hpool, rfl⟩ := h
  obtain ⟨pool', hpool', rfl⟩ := h'
  exact ⟨pool', hpool.continues_trans hpool', rfl⟩

theorem Evolved.quiet {world world' : World K} (h : Evolved world world') :
    Quiet world world' := by
  obtain ⟨pool, hpool, rfl⟩ := h
  exact quiet_evolves hpool

/-- Writing a pair back to two different slots. -/
theorem evolves_writePair {R : Entity K → Entity K → Prop} (hrefl : ∀ e, R e e)
    (htrans : ∀ a b c, R a b → R b c → R a c) {pool : EntityPool K} {i j : ℕ}
    {a b a' b' : Entity K} (hij : i ≠ j) (hi : pool.at? i = some a) (hj : pool.at? j = some b)
    (ha : R a a') (hb : R b b') :
    EntityPool.Evolves R pool (writePair pool i a' j b') := by
  have hfirst : EntityPool.Evolves R pool (pool.modify i fun _ => a') := by
    refine EntityPool.evolves_modify hrefl _ _ fun e he => ?_
    rw [hi, Option.some.injEq] at he
    exact he ▸ ha
  refine hfirst.trans htrans ?_
  -- The first write left the other slot as it was.
  refine EntityPool.evolves_modify hrefl _ _ fun e he => ?_
  rw [EntityPool.at?_modify, if_neg hij, hj, Option.some.injEq] at he
  exact he ▸ hb

/-- An entity collides if it is not destroyed and has a transform. -/
theorem of_collider_eq_some {pool : EntityPool K} {i : ℕ} {e : Entity K} {t : TransformComponent K}
    (h : collider pool i = some (e, t)) :
    pool.at? i = some e ∧ e.isDestroyed = false ∧ e.transform = some t := by
  unfold collider at h
  split at h
  · cases h
  · next e' hat =>
    split at h
    · cases h
    · next hlive =>
      obtain ⟨t', ht', heq⟩ := Option.map_eq_some_iff.mp h
      obtain ⟨rfl, rfl⟩ := Prod.mk.inj heq
      exact ⟨hat, Bool.eq_false_iff.mpr hlive, ht'⟩

theorem at?_of_collider {pool : EntityPool K} {i : ℕ} {e : Entity K} {t : TransformComponent K}
    (h : collider pool i = some (e, t)) : pool.at? i = some e :=
  (of_collider_eq_some h).1

theorem quiet_applyQuit (world : World K) (session_id : SessionId) :
    Quiet world (world.applyQuit session_id) := by
  unfold applyQuit
  split
  · exact .refl world
  · refine Quiet.trans (quiet_erase world session_id) (quiet_evolves ?_)
    split
    · exact EntityPool.evolves_continues_modify _ _ fun e _ => e.continues_destroyed
    · exact EntityPool.evolves_continues_refl _

/-! ### Destroyed ships -/

/-- A relation that contains what is done to a world once its collisions are over: an event
is published, a session loses its ship, flagged entities are recycled. -/
structure Clears (R : World K → World K → Prop) : Prop where
  refl : ∀ world, R world world
  trans : ∀ a b c, R a b → R b c → R a c
  published : ∀ world events, R world { world with published := events }
  erased : ∀ world session_id,
    R world { world with session_to_ship_ := world.session_to_ship_.erase session_id }
  recycled : ∀ world, R world { world with entities_ := world.entities_.recycleDestroyed }

theorem clears_quiet : Clears (Quiet (K := K)) where
  refl := Quiet.refl
  trans _ _ _ := Quiet.trans
  published := quiet_published
  erased := quiet_erase
  recycled := quiet_recycle

/-- What holds of a world and of every one of its size and queue with fewer entities is kept by
sound worlds that are cleared. -/
theorem clears_of_fewer {I : World K → Prop}
    (hfewer : ∀ {world world' : World K}, I world → world'.world_width_ = world.world_width_ →
      world'.world_height_ = world.world_height_ →
        world'.action_queue_ = world.action_queue_ →
          (∀ {i e}, world'.entities_.at? i = some e → world.entities_.at? i = some e) →
            I world') :
    Clears fun world world' => world.Sound → I world → world'.Sound ∧ I world' where
  refl _ hsound h := ⟨hsound, h⟩
  trans a b c hab hbc hsound h := by
    obtain ⟨hsound', h'⟩ := hab hsound h
    exact hbc hsound' h'
  published world events hsound h :=
    ⟨(quiet_published world events hsound).1, hfewer h rfl rfl rfl fun hat => hat⟩
  erased world session_id hsound h :=
    ⟨(quiet_erase world session_id hsound).1, hfewer h rfl rfl rfl fun hat => hat⟩
  recycled world hsound h := by
    refine ⟨(quiet_recycle world hsound).1, hfewer h rfl rfl rfl fun {i e} hat => ?_⟩
    have hslot := (EntityPool.recycleDestroyed_spec hsound.pool).2.2 i
    rw [hslot, EntityPool.kept_eq_some] at hat
    exact hat.1

/-- The same of a relation that bears the loss of a ship only where the ship is flagged. -/
structure Reaps (R : World K → World K → Prop) : Prop where
  refl : ∀ world, R world world
  trans : ∀ a b c, R a b → R b c → R a c
  published : ∀ world events, R world { world with published := events }
  struck : ∀ (world : World K) session_id ship_id,
    world.session_to_ship_.lookup session_id = some ship_id →
    ship_id ∈ destroyedIds world.entities_ →
    R world { world with session_to_ship_ := world.session_to_ship_.erase session_id }
  recycled : ∀ world, R world { world with entities_ := world.entities_.recycleDestroyed }

section Clears

variable {R : World K → World K → Prop}

theorem Clears.reaps (h : Clears R) : Reaps R where
  refl := h.refl
  trans := h.trans
  published := h.published
  struck world session_id _ _ _ := h.erased world session_id
  recycled := h.recycled

/-- While sessions are struck off the entities stay, so the flagged ones do. -/
def Struck (R : World K → World K → Prop) (destroyed_ids : List EntityId)
    (world world' : World K) : Prop :=
  world'.entities_ = world.entities_ ∧
    (destroyedIds world.entities_ = destroyed_ids → R world world')

theorem Reaps.struck_refl (h : Reaps R) (destroyed_ids : List EntityId) (world : World K) :
    Struck R destroyed_ids world world := ⟨rfl, fun _ => h.refl world⟩

theorem Reaps.struck_trans (h : Reaps R) (destroyed_ids : List EntityId) (a b c : World K)
    (hab : Struck R destroyed_ids a b) (hbc : Struck R destroyed_ids b c) :
    Struck R destroyed_ids a c :=
  ⟨hbc.1.trans hab.1, fun ha => h.trans a b c (hab.2 ha) (hbc.2 (hab.1 ▸ ha))⟩

theorem Reaps.publish (h : Reaps R) (choice : TickChoice K) (event : NetworkEvent K) :
    Keeps R (publish choice event : Action K PUnit) := by
  intro world
  unfold World.publish
  cases choice.refuses event with
  | some e => exact h.refl world
  | none => exact h.published world _

theorem Reaps.reapSession (h : Reaps R) (choice : TickChoice K)
    (destroyed_ids : List EntityId) (session_id : SessionId) :
    Keeps (Struck R destroyed_ids) (reapSession choice destroyed_ids session_id) := by
  refine keeps_get_bind fun world => ?_
  cases hmapped : world.session_to_ship_.lookup session_id with
  | none => exact h.struck_refl destroyed_ids world
  | some ship_id =>
    dsimp only
    split
    · next hdestroyed =>
      rw [bind_apply]
      unfold World.publish
      cases choice.refuses (.ShipDestroyedEvent session_id) with
      | some e => exact h.struck_refl destroyed_ids world
      | none =>
        have hpublished := h.published world (world.published ++ [.ShipDestroyedEvent session_id])
        refine ⟨rfl, fun hids => h.trans _ _ _ hpublished ?_⟩
        exact h.struck _ session_id ship_id hmapped (hids ▸ hdestroyed)
    · exact h.struck_refl destroyed_ids world

theorem Reaps.reapDestroyedShips (h : Reaps R) (choice : TickChoice K) :
    Keeps R (reapDestroyedShips choice) := by
  refine keeps_get_bind fun world => ?_
  have hloop (sessions : List SessionId) := keeps_forM (h.struck_refl _) (h.struck_trans _)
    (fun session_id (_ : session_id ∈ sessions) =>
      h.reapSession choice (destroyedIds world.entities_) session_id) world
  specialize hloop (choice.order world.session_to_ship_.keys)
  rw [bind_apply]
  cases hresult : (choice.order world.session_to_ship_.keys).forM
      (World.reapSession choice (destroyedIds world.entities_)) world with
  | ok _ world' =>
    rw [hresult] at hloop
    exact h.trans _ _ _ (hloop.2 rfl) (h.recycled world')
  | error e world' =>
    rw [hresult] at hloop
    exact hloop.2 rfl

theorem Reaps.broadcastSnapshot (h : Reaps R) (ext : Externals K) (choice : TickChoice K)
    (snapshot : Snapshot.GameSnapshot K) :
    Keeps R (broadcastSnapshot ext choice snapshot) := by
  unfold World.broadcastSnapshot
  cases snapshot.Serialize ext.wire with
  | error e => exact keeps_throw h.refl e
  | ok payload =>
    exact Keeps.bind h.trans (h.publish choice _) fun _ => keeps_of_forall h.recycled

theorem Clears.reapDestroyedShips (h : Clears R) (choice : TickChoice K) :
    Keeps R (reapDestroyedShips choice) := h.reaps.reapDestroyedShips choice

theorem Clears.broadcastSnapshot (h : Clears R) (ext : Externals K) (choice : TickChoice K)
    (snapshot : Snapshot.GameSnapshot K) :
    Keeps R (broadcastSnapshot ext choice snapshot) :=
  h.reaps.broadcastSnapshot ext choice snapshot

end Clears

variable [Scalar K]

/-! ### Draining the queue -/

/-- A shot adds one bullet to the pool. -/
theorem extends_createBullet {pool : EntityPool K} (wf : pool.WellFormed) (ship_id : EntityId)
    (transform : TransformComponent K) (radius : K) :
    EntityPool.Extends (fun e => e.type = .Bullet) pool
      (createBullet pool ship_id transform radius) :=
  EntityPool.extends_acquire_modify wf (fun _ => rfl) rfl

/-- A move or a shot of a session with a ship: the ship turns, then it shoots. -/
theorem applyMoveAndShoot_eq {world : World K} {action : ActionEvent K} {ship_id : EntityId}
    {i : ℕ} {ship : Entity K} {t : TransformComponent K}
    (hmapped : world.session_to_ship_.lookup action.session_id = some ship_id)
    (hfind : world.entities_.findByEntityID ship_id = some (i, ship))
    (htransform : ship.transform = some t) :
    world.applyMoveAndShoot action = { world with
      entities_ :=
        if action.is_shooting then
          createBullet (world.entities_.modify i fun e =>
            { e with transform := some { t with angle := action.angle } }) ship_id
            { t with angle := action.angle } ship.radius
        else
          world.entities_.modify i fun e =>
            { e with transform := some { t with angle := action.angle } } } := by
  unfold World.applyMoveAndShoot
  rw [hmapped]
  dsimp only
  rw [hfind]
  dsimp only
  rw [htransform]

/-- A move or a shot does nothing, or its session has a ship with a transform. -/
theorem applyMoveAndShoot_cases (world : World K) (action : ActionEvent K) :
    (world.applyMoveAndShoot action = world ∧ ∀ {ship_id i ship},
        world.session_to_ship_.lookup action.session_id = some ship_id →
          world.entities_.findByEntityID ship_id = some (i, ship) → ship.transform = none) ∨
      ∃ ship_id i ship t, world.session_to_ship_.lookup action.session_id = some ship_id ∧
        world.entities_.findByEntityID ship_id = some (i, ship) ∧ ship.transform = some t := by
  cases hmapped : world.session_to_ship_.lookup action.session_id with
  | none =>
    refine Or.inl ⟨?_, nofun⟩
    rw [applyMoveAndShoot, hmapped]
  | some ship_id =>
    cases hfind : world.entities_.findByEntityID ship_id with
    | none =>
      refine Or.inl ⟨?_, ?_⟩
      · rw [applyMoveAndShoot, hmapped]
        dsimp only
        rw [hfind]
      · rintro _ i ship ⟨⟩ hfound
        cases hfind.symm.trans hfound
    | some found =>
      obtain ⟨i, ship⟩ := found
      cases ht : ship.transform with
      | none =>
        refine Or.inl ⟨?_, ?_⟩
        · rw [applyMoveAndShoot, hmapped]
          dsimp only
          rw [hfind]
          dsimp only
          rw [ht]
        · rintro _ i ship ⟨⟩ hfound
          cases hfind.symm.trans hfound
          exact ht
      | some t => exact Or.inr ⟨ship_id, i, ship, t, rfl, hfind, ht⟩

/-- Moves and shots change nothing but the entities. -/
theorem frame_applyMoveAndShoot (world : World K) (action : ActionEvent K) :
    ∃ pool, world.applyMoveAndShoot action = { world with entities_ := pool } := by
  rcases applyMoveAndShoot_cases world action with
    ⟨hsame, -⟩ | ⟨ship_id, i, ship, t, hmapped, hfind, ht⟩
  · exact ⟨world.entities_, hsame⟩
  · exact ⟨_, applyMoveAndShoot_eq hmapped hfind ht⟩

theorem quiet_applyMoveAndShoot (world : World K) (action : ActionEvent K) :
    Quiet world (world.applyMoveAndShoot action) := by
  rcases applyMoveAndShoot_cases world action with
    ⟨hsame, -⟩ | ⟨ship_id, i, ship, t, hmapped, hfind, ht⟩
  · rw [hsame]
    exact .refl world
  · rw [applyMoveAndShoot_eq hmapped hfind ht]
    have hturn : Quiet world { world with
        entities_ := world.entities_.modify i fun ship =>
          { ship with transform := some { t with angle := action.angle } } } :=
      quiet_evolves (EntityPool.evolves_turn world.entities_ i _)
    split
    · refine hturn.trans (quiet_extends (fun wf => extends_createBullet wf _ _ _) ?_)
      intro e hbullet hship
      exact nomatch hbullet.symm.trans hship
    · exact hturn

/-- What a slot holds after a move or a shot: the ship of the session is turned, a new slot
may hold a bullet, and the other entities stay. -/
theorem at?_applyMoveAndShoot {world : World K} (wf : world.entities_.WellFormed)
    (action : ActionEvent K) {i : ℕ} {e' : Entity K}
    (hat' : (world.applyMoveAndShoot action).entities_.at? i = some e') :
    world.entities_.at? i = none ∧ e'.type = .Bullet ∨
      ∃ e, world.entities_.at? i = some e ∧
        (e' = e ∧
            (world.session_to_ship_.lookup action.session_id ≠ some e.id ∨ e.transform = none) ∨
          world.session_to_ship_.lookup action.session_id = some e.id ∧
            ∃ t, e.transform = some t ∧
              e' = { e with transform := some { t with angle := action.angle } }) := by
  -- An action that finds no ship with a transform changes nothing.
  rcases applyMoveAndShoot_cases world action with
    ⟨hsame, hnowhere⟩ | ⟨ship_id, j, ship, t, hmapped, hfind, ht⟩
  · rw [hsame] at hat'
    refine Or.inr ⟨e', hat', Or.inl ⟨rfl, ?_⟩⟩
    by_cases hmapped : world.session_to_ship_.lookup action.session_id = some e'.id
    · exact Or.inr (hnowhere hmapped (wf.findByEntityID_eq_some.mpr ⟨hat', rfl⟩))
    · exact Or.inl hmapped
  · obtain ⟨hat, hid⟩ := wf.findByEntityID_eq_some.mp hfind
    -- Turning the ship changes the slot it stands in and no other.
    have hturned : (world.entities_.modify j fun ship =>
        { ship with transform := some { t with angle := action.angle } }).at? i = some e' →
        ∃ e, world.entities_.at? i = some e ∧
          (e' = e ∧ (world.session_to_ship_.lookup action.session_id ≠ some e.id ∨
              e.transform = none) ∨
            world.session_to_ship_.lookup action.session_id = some e.id ∧
              ∃ t, e.transform = some t ∧
                e' = { e with transform := some { t with angle := action.angle } }) := by
      rw [EntityPool.at?_modify]
      split_ifs with hj
      · subst hj
        rw [hat, Option.map_some, Option.some.injEq]
        rintro rfl
        exact ⟨ship, rfl, Or.inr ⟨hid ▸ hmapped, t, ht, rfl⟩⟩
      · -- The slot is not the one that the identifier is found in.
        intro h
        refine ⟨e', h, Or.inl ⟨rfl, Or.inl fun hown => hj (wf.slot_eq hat h ?_)⟩⟩
        exact hid.trans (Option.some.inj (hmapped.symm.trans hown))
    rw [applyMoveAndShoot_eq hmapped hfind ht] at hat'
    dsimp only at hat'
    split at hat'
    · have hwf := wf.turn j { t with angle := action.angle }
      rcases (extends_createBullet hwf ship_id _ ship.radius).added hat' with
        hold | ⟨hnone, hbullet, -⟩
      · exact Or.inr (hturned hold)
      · refine Or.inl ⟨?_, hbullet⟩
        rwa [(EntityPool.evolves_turn world.entities_ j _).none_iff] at hnone
    · exact Or.inr (hturned hat')

/-- What holds of all entities and of those that a move turns or a shot adds holds after the
move or the shot. -/
theorem forall_applyMoveAndShoot {P : Entity K → Prop} {world : World K}
    {action : ActionEvent K} (wf : world.entities_.WellFormed)
    (hall : ∀ {i e}, world.entities_.at? i = some e → P e)
    (hturn : ∀ {e t}, P e → e.transform = some t →
      P { e with transform := some { t with angle := action.angle } })
    (hshot : action.is_shooting = true → ∀ {e t pool ship_id}, P e → e.transform = some t →
      pool.WellFormed →
        EntityPool.Extends P pool (createBullet pool ship_id { t with angle := action.angle }
          e.radius)) {i : ℕ} {e : Entity K}
    (hat : (world.applyMoveAndShoot action).entities_.at? i = some e) : P e := by
  rcases applyMoveAndShoot_cases world action with
    ⟨hsame, -⟩ | ⟨ship_id, j, ship, t, hmapped, hfind, ht⟩
  · rw [hsame] at hat
    exact hall hat
  · obtain ⟨hship, -⟩ := wf.findByEntityID_eq_some.mp hfind
    have hold {i : ℕ} {e : Entity K} (he : (world.entities_.modify j fun ship =>
        { ship with transform := some { t with angle := action.angle } }).at? i = some e) :
        P e := by
      rw [EntityPool.at?_modify] at he
      split_ifs at he with hj
      · subst hj
        rw [hship, Option.map_some, Option.some.injEq] at he
        exact he ▸ hturn (hall hship) ht
      · exact hall he
    rw [applyMoveAndShoot_eq hmapped hfind ht] at hat
    dsimp only at hat
    split at hat
    · next hshooting =>
      rcases (hshot hshooting (hall hship) ht (wf.turn j _)).added hat with
        hslot | ⟨-, hbullet, -⟩
      · exact hold hslot
      · exact hbullet
    · exact hold hat

omit [Scalar K] in
/-- What a slot holds after a quit: the ship of the session is flagged. -/
theorem at?_applyQuit {world : World K} (wf : world.entities_.WellFormed)
    (session_id : SessionId) {i : ℕ} {e' : Entity K}
    (hat' : (world.applyQuit session_id).entities_.at? i = some e') :
    ∃ e, world.entities_.at? i = some e ∧
      (e' = e ∧ world.session_to_ship_.lookup session_id ≠ some e.id ∨
        world.session_to_ship_.lookup session_id = some e.id ∧
          e' = { e with isDestroyed := true }) := by
  unfold applyQuit at hat'
  split at hat'
  · next hmapped => exact ⟨e', hat', Or.inl ⟨rfl, fun h => nomatch hmapped ▸ h⟩⟩
  · next ship_id hmapped =>
    dsimp only at hat'
    split at hat'
    · next j ship hfind =>
      obtain ⟨hat, hid⟩ := wf.findByEntityID_eq_some.mp hfind
      rw [EntityPool.at?_modify] at hat'
      split_ifs at hat' with hj
      · subst hj
        rw [hat, Option.map_some, Option.some.injEq] at hat'
        exact ⟨ship, hat, Or.inr ⟨hid ▸ hmapped, hat'.symm⟩⟩
      · refine ⟨e', hat', Or.inl ⟨rfl, fun h => hj ?_⟩⟩
        obtain rfl := Option.some.inj (hmapped.symm.trans h)
        exact wf.slot_eq hat hat' hid
    · next hfind =>
      refine ⟨e', hat', Or.inl ⟨rfl, fun h => ?_⟩⟩
      obtain rfl := Option.some.inj (hmapped.symm.trans h)
      rw [wf.findByEntityID_eq_some.mpr ⟨hat', rfl⟩] at hfind
      cases hfind

theorem quiet_applyAction (world : World K) (new_players : List PendingJoin)
    (action : ActionEvent K) : Quiet world (applyAction (world, new_players) action).1 := by
  unfold applyAction
  dsimp only
  split
  · exact .refl world
  · exact quiet_applyQuit world _
  · exact quiet_applyMoveAndShoot world action
  · exact .refl world
  · exact .refl world

theorem quiet_foldl_applyAction (actions : List (ActionEvent K)) (world : World K)
    (new_players : List PendingJoin) :
    Quiet world (actions.foldl applyAction (world, new_players)).1 := by
  induction actions generalizing world new_players with
  | nil => exact .refl world
  | cons action actions ih =>
    exact (quiet_applyAction world new_players action).trans (ih _ _)

/-- An action changes the entities and the mapping only. -/
theorem frame_applyAction (world : World K) (new_players : List PendingJoin)
    (action : ActionEvent K) :
    ∃ pool mapping, (applyAction (world, new_players) action).1 =
      { world with entities_ := pool, session_to_ship_ := mapping } := by
  unfold applyAction
  dsimp only
  split
  · exact ⟨_, _, rfl⟩
  · unfold applyQuit
    split
    · exact ⟨_, _, rfl⟩
    · exact ⟨_, _, rfl⟩
  · obtain ⟨pool, heq⟩ := frame_applyMoveAndShoot world action
    exact ⟨pool, _, heq⟩
  · exact ⟨_, _, rfl⟩
  · exact ⟨_, _, rfl⟩

/-- So does draining. -/
theorem frame_foldl_applyAction (queue : List (ActionEvent K)) (world : World K)
    (new_players : List PendingJoin) :
    ∃ pool mapping, (queue.foldl applyAction (world, new_players)).1 =
      { world with entities_ := pool, session_to_ship_ := mapping } := by
  induction queue generalizing world new_players with
  | nil => exact ⟨_, _, rfl⟩
  | cons action queue ih =>
    obtain ⟨pool, mapping, hfirst⟩ := frame_applyAction world new_players action
    obtain ⟨pool', mapping', hrest⟩ := ih (applyAction (world, new_players) action).1
      (applyAction (world, new_players) action).2
    refine ⟨pool', mapping', hrest.trans ?_⟩
    rw [hfirst]

/-- Nobody publishes while the queue is drained. -/
theorem published_processInputQueue (world : World K) (new_players : List PendingJoin) :
    (world.processInputQueue new_players).1.published = world.published := by
  obtain ⟨pool, mapping, heq⟩ := frame_foldl_applyAction world.action_queue_
    { world with action_queue_ := [] } new_players
  unfold processInputQueue
  rw [heq]

/-! ### Collisions -/

theorem evolved_updatePhysics (world : World K) (dt : K) :
    Evolved world (world.updatePhysics dt) :=
  ⟨_, evolves_updateMovementAndBounds _ _ _ _, rfl⟩

/-- Only the entities change, within every relation that the collision rules stay in. -/
def Passed (R : Entity K → Entity K → Prop) (world world' : World K) : Prop :=
  Collision.Pass world.can_grow R →
    ∃ pool, EntityPool.Evolves R world.entities_ pool ∧
      world' = { world with entities_ := pool }

section Passes

variable {R : Entity K → Entity K → Prop}

theorem Passed.refl (world : World K) : Passed R world world :=
  fun h => ⟨world.entities_, .refl h.refl _, rfl⟩

/-- Whether a ship may grow depends on the size of the world alone. -/
theorem Passed.trans {a b c : World K} (h : Passed R a b) (h' : Passed R b c) :
    Passed R a c := by
  intro hpass
  obtain ⟨pool, hpool, rfl⟩ := h hpass
  obtain ⟨pool', hpool', rfl⟩ := h' hpass
  exact ⟨pool', hpool.trans hpass.trans hpool', rfl⟩

theorem evolved_of_passed {world world' : World K} (h : Passed Entity.Continues world world') :
    Evolved world world' :=
  h (Collision.continues_pass world.can_grow)

theorem evolves_creditHit {γ : Type}
    {can_grow : Math.Vector2D K → K → γ → Bool × Math.Vector2D K × γ}
    (h : Collision.Pass can_grow R) (pool : EntityPool K) (hit : Collision.Hit) :
    EntityPool.Evolves R pool (creditHit pool hit) := by
  unfold creditHit
  split
  · exact .refl h.refl pool
  · refine EntityPool.evolves_modify h.refl _ _ fun e _ => ?_
    dsimp only
    split
    · exact h.refl e
    · cases hship : e.ship with
      | none =>
        have hsame : { e with ship := none } = e := by rw [← hship]
        exact hsame.symm ▸ h.refl e
      | some s =>
        obtain ⟨hthrust, hdrag⟩ := Collision.addScore_engine s
          (if hit.ship_destroyed = true then 50 else 5)
        exact h.scored e s _ hship hthrust hdrag

theorem passed_dispatchCollision (world : World K) {i j : ℕ} {a b : Entity K} (hij : i ≠ j)
    (hi : world.entities_.at? i = some a) (hj : world.entities_.at? j = some b) :
    Passed R world (world.dispatchCollision i a j b) := by
  intro hpass
  have hwrite {i j : ℕ} {a b a' b' : Entity K} (hij : i ≠ j)
      (hi : world.entities_.at? i = some a) (hj : world.entities_.at? j = some b) (ha : R a a')
      (hb : R b b') :=
    evolves_writePair hpass.refl hpass.trans hij hi hj ha hb
  have hasteroid {i j : ℕ} {a b : Entity K} (hij : i ≠ j)
      (hi : world.entities_.at? i = some a) (hj : world.entities_.at? j = some b) :
      ∃ pool, EntityPool.Evolves R world.entities_ pool ∧
        world.onCollisionShipAsteroid i a j b = { world with entities_ := pool } := by
    obtain ⟨ha, hb⟩ := hpass.onCollisionShipAsteroid a b .CanGrow
    refine ⟨_, hwrite hij hi hj ?_ hb, rfl⟩
    dsimp only
    split
    · exact hpass.trans _ _ _ ha (hpass.destroyed _)
    · exact ha
  have hbullet {i j : ℕ} {a b : Entity K} (hij : i ≠ j)
      (hi : world.entities_.at? i = some a) (hj : world.entities_.at? j = some b) :
      ∃ pool, EntityPool.Evolves R world.entities_ pool ∧
        world.onCollisionBulletShip i a j b = { world with entities_ := pool } := by
    obtain ⟨ha, hb⟩ := hpass.onCollisionBulletShip a b
    have hpair := hwrite hij hi hj ha hb
    refine ⟨_, ?_, rfl⟩
    split
    · exact hpair.trans hpass.trans (evolves_creditHit hpass _ _)
    · exact hpair
  -- The mirrored pairs are handled with their entities exchanged.
  unfold dispatchCollision
  split
  · obtain ⟨ha, hb⟩ := hpass.onCollisionShipShip a b
    exact ⟨_, hwrite hij hi hj ha hb, rfl⟩
  · exact hasteroid hij hi hj
  · exact hasteroid hij.symm hj hi
  · exact hbullet hij hi hj
  · exact hbullet hij.symm hj hi
  · exact Passed.refl world hpass
  · exact Passed.refl world hpass
  · exact Passed.refl world hpass

/-- What a pair does: nothing, or two colliders meet. -/
theorem collidePair_cases (i j : ℕ) :
    Keeps (fun world world' => world' = world ∨
      ∃ a b, world.entities_.at? i = some a ∧ world.entities_.at? j = some b ∧
        mayCollide a.type b.type = true ∧ world' = world.dispatchCollision i a j b)
      (collidePair i j : Action K PUnit) := by
  unfold collidePair
  refine keeps_get_bind fun world => ?_
  rcases hi : collider world.entities_ i with _ | ⟨a, ta⟩
  · exact Or.inl rfl
  · rcases hj : collider world.entities_ j with _ | ⟨b, tb⟩
    · exact Or.inl rfl
    · dsimp only
      split
      · next hmay =>
        rcases Math.checkCircleCollision ta.position a.radius tb.position b.radius with e | hit
        · exact Or.inl rfl
        · cases hit with
          | false => exact Or.inl rfl
          | true => exact Or.inr ⟨a, b, at?_of_collider hi, at?_of_collider hj, hmay, rfl⟩
      · exact Or.inl rfl

theorem keeps_collidePair {i j : ℕ} (hij : i ≠ j) :
    Keeps (Passed R) (collidePair i j : Action K PUnit) := by
  intro world
  rcases collidePair_cases i j world with hsame | ⟨a, b, hi, hj, -, hmeet⟩
  · rw [hsame]
    exact .refl world
  · rw [hmeet]
    exact passed_dispatchCollision world hij hi hj

theorem keeps_collidePairs : Keeps (Passed R) (collidePairs : Action K PUnit) := by
  have hrow (n i : ℕ) : Keeps (Passed R) (collideRow n i : Action K PUnit) := by
    refine keeps_forM Passed.refl (fun _ _ _ => Passed.trans) fun j hj => ?_
    have hlt := (List.mem_range'_1.mp hj).1
    exact keeps_collidePair (Nat.ne_of_lt hlt)
  refine keeps_get_bind fun world => ?_
  exact keeps_forM Passed.refl (fun _ _ _ => Passed.trans) (fun i _ => hrow _ i) world

end Passes

/-- The pass over all pairs leaves entities that go on. -/
theorem evolved_collidePairs (world : World K) :
    Evolved world (resultState (collidePairs world)) :=
  evolved_of_passed (keeps_collidePairs world)

theorem keeps_resolveCollisions (choice : TickChoice K) :
    Keeps Quiet (resolveCollisions choice) :=
  Keeps.bind (R := Quiet) (fun _ _ _ => Quiet.trans)
    (fun world => (evolved_collidePairs world).quiet)
    fun _ => clears_quiet.reapDestroyedShips choice

/-! ### Spawning ships -/

theorem lookup_spawnShip (world : World K) (join : PendingJoin) (s : SessionId) :
    (world.spawnShip join).session_to_ship_.lookup s =
      if s = join.session_id then some world.entities_.next_id_
      else world.session_to_ship_.lookup s := by
  unfold spawnShip
  dsimp only
  split_ifs with hs
  · rw [hs, AList.lookup_insert]
  · rw [AList.lookup_insert_ne hs]

theorem liveShip_outfitShip (area : Math.Circle K) (player_name : Bytes) (id : EntityId) :
    (outfitShip area player_name (Entity.fresh id)).LiveShip := ⟨rfl, rfl⟩

theorem extends_spawnShip {world : World K} (wf : world.entities_.WellFormed)
    (join : PendingJoin) :
    EntityPool.Extends Entity.Fit world.entities_ (world.spawnShip join).entities_ :=
  EntityPool.extends_acquire_modify wf (fun _ => rfl) fun _ _ => ⟨rfl, rfl, rfl⟩

theorem next_id_spawnShip {world : World K} (wf : world.entities_.WellFormed)
    (join : PendingJoin) :
    (world.spawnShip join).entities_.next_id_ = world.entities_.next_id_ + 1 :=
  (EntityPool.placed_acquire wf).next

/-- The new ship comes to life, and no other. -/
theorem hasLiveShip_spawnShip {world : World K} (wf : world.entities_.WellFormed)
    (join : PendingJoin) {id : EntityId} :
    (world.spawnShip join).entities_.HasLiveShip id ↔
      id = world.entities_.next_id_ ∨ world.entities_.HasLiveShip id :=
  EntityPool.hasLiveShip_acquire_modify wf (f := outfitShip _ join.player_name) (fun _ => rfl)
    (liveShip_outfitShip _ _ _)

theorem Sound.spawnShip {world : World K} (h : world.Sound) (join : PendingJoin) :
    (world.spawnShip join).Sound where
  pool := (extends_spawnShip h.pool join).wellFormed
  fit hat := by
    rcases (extends_spawnShip h.pool join).added hat with hold | ⟨-, hfit, -⟩
    · exact h.fit hold
    · exact hfit
  mapped {s id} hs := by
    rw [lookup_spawnShip] at hs
    split_ifs at hs with heq
    · obtain rfl := Option.some.inj hs
      exact heq ▸ List.mem_cons_self
    · exact List.mem_cons_of_mem _ (h.mapped hs)
  spawned_lt {s id} hs := by
    rw [next_id_spawnShip h.pool]
    rcases List.mem_cons.mp hs with heq | hs
    · obtain ⟨-, rfl⟩ := Prod.mk.inj heq
      exact Nat.lt_succ_self _
    · exact (h.spawned_lt hs).trans (Nat.lt_succ_self _)
  spawned_unique {s s' id} hs hs' := by
    -- The new ship's identifier exceeds those of all earlier ships.
    rcases List.mem_cons.mp hs with heq | hs
    · obtain ⟨rfl, rfl⟩ := Prod.mk.inj heq
      rcases List.mem_cons.mp hs' with heq' | hs'
      · exact (Prod.mk.inj heq').1.symm
      · exact absurd rfl (h.spawned_lt hs').ne
    · rcases List.mem_cons.mp hs' with heq' | hs'
      · obtain ⟨rfl, rfl⟩ := Prod.mk.inj heq'
        exact absurd rfl (h.spawned_lt hs).ne
      · exact h.spawned_unique hs hs'
  ships {id} hid := by
    rcases (hasLiveShip_spawnShip h.pool join).mp hid with rfl | hold
    · exact ⟨join.session_id, List.mem_cons_self⟩
    · obtain ⟨s, hs⟩ := h.ships hold
      exact ⟨s, List.mem_cons_of_mem _ hs⟩

theorem Sound.spawnShips {world : World K} (h : world.Sound) (joins : List PendingJoin) :
    (world.spawnShips joins).Sound := by
  induction joins generalizing world with
  | nil => exact h
  | cons join joins ih => exact ih (h.spawnShip join)

theorem published_spawnShips (world : World K) (joins : List PendingJoin) :
    (world.spawnShips joins).published = world.published := by
  induction joins generalizing world with
  | nil => rfl
  | cons join joins ih => exact ih (world.spawnShip join)

/-! ### Ticks -/

variable (ext : Externals K)

theorem quiet_maintainAsteroidPopulation (world : World K) (choice : TickChoice K) :
    Quiet world (world.maintainAsteroidPopulation choice) := by
  refine quiet_extends (fun wf => AsteroidFactory.extends_update choice.uniform _ wf) ?_
  intro e hasteroid hship
  exact nomatch hasteroid.symm.trans hship

/-- A tick up to its snapshot, by the outcome of the collisions. -/
theorem simulateTick_eq (choice : TickChoice K) (tick_interval : ℕ) (world : World K) :
    simulateTick choice tick_interval world =
      match resolveCollisions choice
          ((world.processInputQueue []).1.updatePhysics (secondsOfMicros tick_interval)) with
      | .ok _ world' =>
        .ok ⟨⟩ ((world'.maintainAsteroidPopulation choice).spawnShips
          (world.processInputQueue []).2)
      | .error e world' => .error e world' := by
  change (resolveCollisions choice >>= fun _ => modify fun world' =>
      (world'.maintainAsteroidPopulation choice).spawnShips (world.processInputQueue []).2)
    ((world.processInputQueue []).1.updatePhysics (secondsOfMicros tick_interval)) = _
  rw [bind_apply]
  cases resolveCollisions choice
    ((world.processInputQueue []).1.updatePhysics (secondsOfMicros tick_interval)) with
  | ok _ world' => rfl
  | error e world' => rfl

theorem runTickStages_eq (choice : TickChoice K) (tick_interval : ℕ) (current_tick : UInt64)
    (world : World K) :
    runTickStages ext choice tick_interval current_tick world =
      match simulateTick choice tick_interval world with
      | .ok _ world' =>
        broadcastSnapshot ext choice (world'.buildGameSnapshot ext current_tick) world'
      | .error e world' => .error e world' := by
  unfold runTickStages
  rw [bind_apply]
  cases simulateTick choice tick_interval world with
  | ok _ world' => rfl
  | error e world' => rfl

/-- The tick finishes its collisions, so that it gets to the spawning of ships. -/
def Spawns (tick_interval : ℕ) (world : World K) : Op K → Prop
  | .tick choice _ => ∃ world', resolveCollisions choice
      ((world.processInputQueue []).1.updatePhysics (secondsOfMicros tick_interval)) =
        .ok ⟨⟩ world'
  | _ => False

instance (tick_interval : ℕ) (world : World K) (op : Op K) :
    Decidable (Spawns tick_interval world op) :=
  match op with
  | .event _ => isFalse id
  | .tick choice _ =>
    match h : World.resolveCollisions choice
        ((world.processInputQueue []).1.updatePhysics (secondsOfMicros tick_interval)) with
    | .ok _ world' => isTrue ⟨world', h⟩
    | .error _ _ => isFalse fun ⟨_, hok⟩ => nomatch h.symm.trans hok
  | .discardActions => isFalse id

/-- A relation in which every stage of a tick stays, draining and spawning apart. -/
structure Stages (ext : Externals K) (choice : TickChoice K) (R : World K → World K → Prop) :
    Prop where
  refl : ∀ world, R world world
  trans : ∀ a b c, R a b → R b c → R a c
  evolved : ∀ {world world'}, Evolved world world' → R world world'
  reaped : Keeps R (reapDestroyedShips choice)
  asteroids : ∀ world, R world (world.maintainAsteroidPopulation choice)
  broadcast : ∀ snapshot, Keeps R (broadcastSnapshot ext choice snapshot)

theorem stages_quiet (choice : TickChoice K) : Stages ext choice Quiet where
  refl := Quiet.refl
  trans _ _ _ := Quiet.trans
  evolved := Evolved.quiet
  reaped := clears_quiet.reapDestroyedShips choice
  asteroids world := quiet_maintainAsteroidPopulation world choice
  broadcast := clears_quiet.broadcastSnapshot ext choice

/-- The same of a relation about which movement and the pass over all pairs are known each by
itself. -/
structure Phases (ext : Externals K) (choice : TickChoice K) (R : World K → World K → Prop) :
    Prop where
  refl : ∀ world, R world world
  trans : ∀ a b c, R a b → R b c → R a c
  physics : ∀ (world : World K) tick_interval,
    R world (world.updatePhysics (secondsOfMicros tick_interval))
  collisions : Keeps R collidePairs
  reaped : Keeps R (reapDestroyedShips choice)
  asteroids : ∀ world, R world (world.maintainAsteroidPopulation choice)
  broadcast : ∀ snapshot, Keeps R (broadcastSnapshot ext choice snapshot)

theorem Stages.phases {ext : Externals K} {choice : TickChoice K} {R : World K → World K → Prop}
    (h : Stages ext choice R) : Phases ext choice R where
  refl := h.refl
  trans := h.trans
  physics world tick_interval :=
    h.evolved (evolved_updatePhysics world (secondsOfMicros tick_interval))
  collisions world := h.evolved (evolved_collidePairs world)
  reaped := h.reaped
  asteroids := h.asteroids
  broadcast := h.broadcast

/-- What a tick does, whether or not it finishes: it drains the queue, stays in the relation,
spawns the ships of the new players or fails before it does, and stays in the relation. -/
theorem Phases.runTickStages {ext : Externals K} {choice : TickChoice K}
    {R : World K → World K → Prop} (h : Phases ext choice R) (tick_interval : ℕ)
    (current_tick : UInt64) (world : World K) :
    ∃ mid joins,
      (Spawns tick_interval world (.tick choice current_tick) ∧
          joins = (world.processInputQueue []).2 ∨
        ¬ Spawns tick_interval world (.tick choice current_tick) ∧ joins = []) ∧
      R (world.processInputQueue []).1 mid ∧
      R (mid.spawnShips joins)
        (resultState (runTickStages ext choice tick_interval current_tick world)) := by
  have hphysics := h.physics (world.processInputQueue []).1 tick_interval
  have hcollisions : Keeps R (resolveCollisions choice) :=
    Keeps.bind h.trans h.collisions fun _ => h.reaped
  have hcollided := h.trans _ _ _ hphysics (hcollisions _)
  have hspawns : Spawns tick_interval world (.tick choice current_tick) ↔
      ∃ world', resolveCollisions choice ((world.processInputQueue []).1.updatePhysics
        (secondsOfMicros tick_interval)) = .ok ⟨⟩ world' := Iff.rfl
  rw [hspawns, runTickStages_eq, simulateTick_eq]
  cases hresult : resolveCollisions choice
      ((world.processInputQueue []).1.updatePhysics (secondsOfMicros tick_interval)) with
  | ok _ world' =>
    rw [hresult] at hcollided
    exact ⟨_, _, .inl ⟨⟨_, rfl⟩, rfl⟩, h.trans _ _ _ hcollided (h.asteroids world'),
      h.broadcast _ _⟩
  | error e world' =>
    -- The tick failed before it spawned: no ship is spawned.
    rw [hresult] at hcollided
    refine ⟨world', [], .inr ⟨?_, rfl⟩, hcollided, h.refl world'⟩
    rintro ⟨world'', heq⟩
    cases heq

theorem runTickStages_spec (choice : TickChoice K) (tick_interval : ℕ) (current_tick : UInt64)
    (world : World K) :
    ∃ mid joins, (joins = (world.processInputQueue []).2 ∨ joins = []) ∧
      Quiet (world.processInputQueue []).1 mid ∧
      Quiet (mid.spawnShips joins)
        (resultState (runTickStages ext choice tick_interval current_tick world)) := by
  obtain ⟨mid, joins, hjoins, hmid, hrest⟩ :=
    (stages_quiet ext choice).phases.runTickStages tick_interval current_tick world
  exact ⟨mid, joins, hjoins.imp And.right And.right, hmid, hrest⟩

theorem quiet_processInputQueue (world : World K) (new_players : List PendingJoin) :
    Quiet { world with action_queue_ := [] } (world.processInputQueue new_players).1 :=
  quiet_foldl_applyAction _ _ _

/-! ### Runs -/

/-- An event of an input queues actions of its session, nothing more. -/
theorem onEvent_eq (event : NetworkEvent K) (world : World K) :
    ∃ actions, onEvent event world =
        { world with action_queue_ := world.action_queue_ ++ actions } ∧
      ∀ action ∈ actions, event.isInput = true ∧ action.session_id = event.session_id := by
  -- Events that are no input queue the empty list.
  have hnothing : world = { world with action_queue_ := world.action_queue_ ++ [] } := by
    rw [List.append_nil]
  cases event with
  | NetworkMessageEvent => exact ⟨[], hnothing, nofun⟩
  | SendPacketEvent => exact ⟨[], hnothing, nofun⟩
  | ClientConnectedEvent => exact ⟨[], hnothing, nofun⟩
  | ShipDestroyedEvent => exact ⟨[], hnothing, nofun⟩
  | PlayerJoinEvent => exact ⟨[_], rfl, List.forall_mem_singleton.mpr ⟨rfl, rfl⟩⟩
  | ClientDisconnectedEvent => exact ⟨[_], rfl, List.forall_mem_singleton.mpr ⟨rfl, rfl⟩⟩
  | ShotMessageEvent => exact ⟨[_], rfl, List.forall_mem_singleton.mpr ⟨rfl, rfl⟩⟩
  | PlayerMoveEvent => exact ⟨[_], rfl, List.forall_mem_singleton.mpr ⟨rfl, rfl⟩⟩

theorem Sound.processInputQueue {world : World K} (h : world.Sound)
    (new_players : List PendingJoin) : (world.processInputQueue new_players).1.Sound :=
  (quiet_processInputQueue world new_players (h.congr rfl rfl rfl)).1

theorem Sound.step {tick_interval : ℕ} {world : World K} (h : world.Sound) (op : Op K) :
    (step ext tick_interval world op).Sound := by
  cases op with
  | event event =>
    obtain ⟨actions, heq, -⟩ := onEvent_eq event world
    change (onEvent event world).Sound
    rw [heq]
    exact h.congr rfl rfl rfl
  | tick choice current_tick =>
    obtain ⟨mid, joins, -, hmid, hrest⟩ :=
      runTickStages_spec ext choice tick_interval current_tick world
    have hspawned := (hmid (h.processInputQueue [])).1.spawnShips joins
    exact (hrest hspawned).1
  | discardActions => exact h.congr rfl rfl rfl

/-- The tick loop takes its world through a run of operations that brings the same events,
so what holds of every run of the world holds under the loop, however it is started and
stopped. -/
theorem run_of_loop {world_width world_height : K} {tick_interval : ℕ}
    {labels : List (TickLoop.Label (NetworkEvent K) (TickChoice K))}
    {loop : TickLoop (World K)}
    (h : (TickLoop.machine (simulation ext) (empty world_width world_height)
      tick_interval).run labels = some loop) :
    loop.tick_interval_ = tick_interval ∧
      ∃ ops, (machine ext world_width world_height tick_interval).run ops = some loop.world ∧
        ops.filterMap Op.event? = labels.filterMap TickLoop.Label.event? := by
  refine Machine.run_induction
    (motive := fun labels loop => loop.tick_interval_ = tick_interval ∧
      ∃ ops, (machine ext world_width world_height tick_interval).run ops = some loop.world ∧
        ops.filterMap Op.event? = labels.filterMap TickLoop.Label.event?)
    ⟨rfl, [], rfl, rfl⟩ ?_ h
  -- A label brings an event, or does one thing to the world at most.
  rintro labels loop label loop' - ⟨hinterval, ops, hrun, hevents⟩ hstep
  obtain ⟨hsame, heffect⟩ := TickLoop.step_world (simulation ext) hstep
  have hconcat (op : Op K) (hop : op.event? = label.event?) :
      (ops ++ [op]).filterMap Op.event? =
        (labels ++ [label]).filterMap TickLoop.Label.event? := by
    rw [List.filterMap_append, List.filterMap_append, hevents]
    simp only [List.filterMap_cons, List.filterMap_nil, hop]
  refine ⟨hsame.trans hinterval, ?_⟩
  cases hevent : label.event? with
  | some event =>
    rw [hevent] at heffect
    exact ⟨ops ++ [.event event], Machine.run_concat.mpr ⟨_, hrun, heffect ▸ rfl⟩,
      hconcat (.event event) hevent.symm⟩
  | none =>
    rw [hevent] at heffect
    rcases heffect with heq | heq | ⟨choice, heq⟩
    · refine ⟨ops, heq ▸ hrun, ?_⟩
      rw [hevents, List.filterMap_append]
      simp only [List.filterMap_cons, List.filterMap_nil, hevent, List.append_nil]
    · exact ⟨ops ++ [.discardActions], Machine.run_concat.mpr ⟨_, hrun, heq ▸ rfl⟩,
        hconcat .discardActions hevent.symm⟩
    · refine ⟨ops ++ [.tick choice loop.current_tick_], Machine.run_concat.mpr ⟨_, hrun, ?_⟩,
        hconcat (.tick choice loop.current_tick_) hevent.symm⟩
      rw [heq, hinterval]
      rfl

/-- The world a tick takes its snapshot of is sound. -/
theorem Sound.simulateTick {tick_interval : ℕ} {world world' : World K} (h : world.Sound)
    {choice : TickChoice K} (hsimulate : simulateTick choice tick_interval world = .ok ⟨⟩ world') :
    world'.Sound := by
  have hphysics := (evolved_updatePhysics (world.processInputQueue []).1
    (secondsOfMicros tick_interval)).quiet
  have hcollisions := hphysics.trans (keeps_resolveCollisions choice _) (h.processInputQueue [])
  rw [simulateTick_eq] at hsimulate
  cases hresult : resolveCollisions choice
      ((world.processInputQueue []).1.updatePhysics (secondsOfMicros tick_interval)) with
  | ok _ mid =>
    rw [hresult] at hsimulate hcollisions
    cases hsimulate
    exact (quiet_maintainAsteroidPopulation mid choice hcollisions.1).1.spawnShips _
  | error e mid => rw [hresult] at hsimulate; cases hsimulate

/-- Every reachable world is sound. -/
theorem sound_of_reachable {world_width world_height : K} {tick_interval : ℕ} {world : World K}
    (h : (machine ext world_width world_height tick_interval).Reachable world) : world.Sound := by
  refine Machine.invariant (sound_empty world_width world_height) ?_ h
  intro world op world' hsound hstep
  exact Option.some.inj hstep ▸ hsound.step ext op

end SpaceShooter.Server.World
