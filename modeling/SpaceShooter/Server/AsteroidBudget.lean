/-
# The budget of asteroids

The asteroids of every world that a run gets to keep the budget of the factory: nothing else
creates them, and nothing changes what they weigh.
-/

import Mathlib.Algebra.BigOperators.Group.Finset.Piecewise
import Mathlib.Algebra.Order.BigOperators.Group.Finset
import SpaceShooter.Server.AsteroidDraws
import SpaceShooter.Server.LiveShips

namespace SpaceShooter.Server.World

open Scalar Domain Library Library.Outcome Math AsteroidFactory

/-! ### Asteroids that dwindle -/

section Dwindles

variable {K : Type}

/-- No live asteroid is new, and none has another mass. -/
def Dwindles (pool pool' : EntityPool K) : Prop :=
  ∀ i e', pool'.at? i = some e' → e'.type = .Asteroid → e'.isDestroyed = false →
    ∃ e, pool.at? i = some e ∧ e.type = .Asteroid ∧ e.isDestroyed = false ∧ e'.mass = e.mass

theorem Dwindles.refl (pool : EntityPool K) : Dwindles pool pool :=
  fun _ _ hat htype hlive => ⟨_, hat, htype, hlive, rfl⟩

theorem Dwindles.trans {a b c : EntityPool K} (h : Dwindles a b) (h' : Dwindles b c) :
    Dwindles a c := by
  intro i e'' hat'' htype'' hlive''
  obtain ⟨e', hat', htype', hlive', hmass'⟩ := h' i e'' hat'' htype'' hlive''
  obtain ⟨e, hat, htype, hlive, hmass⟩ := h i e' hat' htype' hlive'
  exact ⟨e, hat, htype, hlive, hmass'.trans hmass⟩

/-- Fewer entities. -/
theorem dwindles_of_fewer {pool pool' : EntityPool K}
    (h : ∀ {i e}, pool'.at? i = some e → pool.at? i = some e) : Dwindles pool pool' :=
  fun _ _ hat htype hlive => ⟨_, h hat, htype, hlive, rfl⟩

/-- New entities that are no asteroids. -/
theorem dwindles_extends {P : Entity K → Prop} {pool pool' : EntityPool K}
    (h : EntityPool.Extends P pool pool') (hP : ∀ e, P e → e.type ≠ .Asteroid) :
    Dwindles pool pool' := by
  intro i e hat htype hlive
  rcases h.added hat with hold | ⟨-, hnew, -⟩
  · exact ⟨e, hold, htype, hlive, rfl⟩
  · exact absurd htype (hP e hnew)

/-- Two entities that are written back: what is no asteroid stays none, and an asteroid is eaten
or left as it is. -/
theorem dwindles_writePair {pool : EntityPool K} {i j : ℕ} {a b a' b' : Entity K} (hij : i ≠ j)
    (hi : pool.at? i = some a) (hj : pool.at? j = some b) (ha : a'.type ≠ .Asteroid)
    (hb : b'.type ≠ .Asteroid ∨ b' = b ∨ b'.isDestroyed = true) :
    Dwindles pool (writePair pool i a' j b') := by
  intro k e hat htype hlive
  rw [at?_writePair hij hi hj] at hat
  split_ifs at hat with hki hkj
  · exact absurd htype (Option.some.inj hat ▸ ha)
  · obtain rfl := Option.some.inj hat
    rcases hb with hb | rfl | hb
    · exact absurd htype hb
    · exact ⟨b', hkj ▸ hj, htype, hlive, rfl⟩
    · exact nomatch hb.symm.trans hlive
  · exact ⟨e, hat, htype, hlive, rfl⟩

variable [Scalar K]

theorem mass_moveEntity (dt w h : K) (e : Entity K) : (moveEntity dt w h e).mass = e.mass := by
  obtain ⟨transform, out, -, -, heq⟩ := moveEntity_eq dt w h e
  rw [heq]

theorem dwindles_updatePhysics (world : World K) (dt : K) :
    Dwindles world.entities_ (world.updatePhysics dt).entities_ := by
  intro i e' hat' htype hlive
  have hmoves : EntityPool.Evolves (fun e e' => e.Continues e' ∧ e'.mass = e.mass) world.entities_
      (world.updatePhysics dt).entities_ :=
    EntityPool.evolves_map _ fun e => ⟨moveEntity_continues _ _ _ e, mass_moveEntity _ _ _ e⟩
  obtain ⟨e, hat, hcontinues, hmass⟩ := hmoves.some_of_some' hat'
  refine ⟨e, hat, hcontinues.type ▸ htype, ?_, hmass⟩
  by_contra hdestroyed
  rw [hcontinues.destroyed (Bool.eq_true_of_not_eq_false hdestroyed)] at hlive
  cases hlive

/-- Actions bring bullets, and flag ships of sessions that leave. -/
theorem dwindles_applyAction {world : World K} (wf : world.entities_.WellFormed)
    (new_players : List PendingJoin) (action : ActionEvent K) :
    Dwindles world.entities_ (applyAction (world, new_players) action).1.entities_ := by
  unfold applyAction
  dsimp only
  split
  · exact .refl _
  · intro i e' hat' htype hlive
    obtain ⟨e, hat, ⟨rfl, -⟩ | ⟨-, rfl⟩⟩ := at?_applyQuit wf _ hat'
    · exact ⟨e', hat, htype, hlive, rfl⟩
    · cases hlive
  · intro i e' hat' htype hlive
    rcases at?_applyMoveAndShoot wf action hat' with
      ⟨-, hbullet⟩ | ⟨e, hat, ⟨rfl, -⟩ | ⟨-, t, -, rfl⟩⟩
    · exact nomatch hbullet.symm.trans htype
    · exact ⟨e', hat, htype, hlive, rfl⟩
    · exact ⟨e, hat, htype, hlive, rfl⟩
  · exact .refl _
  · exact .refl _

theorem dwindles_foldl_applyAction (actions : List (ActionEvent K)) {world : World K}
    (hsound : world.Sound) (new_players : List PendingJoin) :
    Dwindles world.entities_ (actions.foldl applyAction (world, new_players)).1.entities_ := by
  induction actions generalizing world new_players with
  | nil => exact .refl _
  | cons action actions ih =>
    have hsound' := (quiet_applyAction world new_players action hsound).1
    exact (dwindles_applyAction hsound.pool new_players action).trans (ih hsound' _)

theorem dwindles_spawnShips (joins : List PendingJoin) {world : World K}
    (hsound : world.Sound) :
    Dwindles world.entities_ (world.spawnShips joins).entities_ := by
  induction joins generalizing world with
  | nil => exact .refl _
  | cons join joins ih =>
    have hship : EntityPool.Extends (fun e => e.type = .Ship) world.entities_
        (world.spawnShip join).entities_ :=
      EntityPool.extends_acquire_modify hsound.pool (fun _ => rfl) rfl
    refine (dwindles_extends hship fun e htype => ?_).trans (ih (hsound.spawnShip join))
    exact htype ▸ nofun

/-- Whatever collides, no asteroid gets another mass. -/
theorem dwindles_dispatchCollision {world : World K} (wf : world.entities_.WellFormed) {i j : ℕ}
    {a b : Entity K} (hij : i ≠ j) (hi : world.entities_.at? i = some a)
    (hj : world.entities_.at? j = some b) :
    Dwindles world.entities_ (world.dispatchCollision i a j b).entities_ := by
  have hpass := Collision.continues_pass world.can_grow
  -- Ships and bullets stay what they are.
  have hother {e e' : Entity K} (hcontinues : e.Continues e') (htype : e.type ≠ .Asteroid) :
      e'.type ≠ .Asteroid := hcontinues.type ▸ htype
  refine dispatchCollision_cases
    (P := fun world' => Dwindles world.entities_ world'.entities_) hij hi hj (.refl _) ?_ ?_ ?_
  · intro ha hb
    obtain ⟨ha', hb'⟩ := hpass.onCollisionShipShip a b
    exact dwindles_writePair hij hi hj (hother ha' (ha ▸ nofun))
      (Or.inl (hother hb' (hb ▸ nofun)))
  · intro p q ship asteroid hpq hp hq hship _
    obtain ⟨hship', -⟩ := hpass.eatAsteroid ship asteroid .CanGrow
    have hnot := hother hship' (hship ▸ nofun)
    unfold World.onCollisionShipAsteroid
    rw [onCollisionShipAsteroid_of_ship _ _ _ hship]
    refine dwindles_writePair hpq hp hq ?_ (Or.inr ?_)
    · split_ifs
      · exact hnot
      · exact hnot
    · refine (eatAsteroid_asteroid world.can_grow ship asteroid .CanGrow).imp_right fun heq => ?_
      rw [heq]
  · intro p q bullet ship hpq hp hq hbullet hship k e hat htype hlive
    rcases onCollisionBulletShip_cases wf.uniqueIds hpq hp hq hbullet with
      hsame | ⟨combat, health, points, -, -, -, -, hslots⟩
    · exact ⟨e, hsame k ▸ hat, htype, hlive, rfl⟩
    · -- Only the score of the owner changes beyond the two slots.
      rw [hslots] at hat
      obtain ⟨e₀, hat₀, rfl⟩ := Option.map_eq_some_iff.mp hat
      have hcredit : (credit combat.owner_id points e₀).type = e₀.type ∧
          (credit combat.owner_id points e₀).isDestroyed = e₀.isDestroyed ∧
          (credit combat.owner_id points e₀).mass = e₀.mass := by
        unfold credit
        split_ifs
        · exact ⟨rfl, rfl, rfl⟩
        · exact ⟨rfl, rfl, rfl⟩
      rw [hcredit.1] at htype
      rw [hcredit.2.1] at hlive
      split_ifs at hat₀
      · obtain rfl := Option.some.inj hat₀
        cases hlive
      · obtain rfl := Option.some.inj hat₀
        exact nomatch hship.symm.trans htype
      · exact ⟨e₀, hat₀, htype, hlive, hcredit.2.2⟩

end Dwindles

/-! ### The mass of a pool -/

section Mass

variable {F : Type} [Field F]

/-- What the entity of a slot adds to the mass of the asteroids. -/
def asteroidMass (slot : Option (Entity (Extended F))) : F :=
  (slot.map fun e =>
    if e.type = .Asteroid ∧ e.isDestroyed = false then e.mass.value else 0).getD 0

/-- The mass of the live asteroids of a pool. -/
def totalMass (pool : EntityPool (Extended F)) : F := (pool.storage_.map asteroidMass).sum

/-- Slots behind the last one add nothing. -/
theorem totalMass_eq_sum {pool : EntityPool (Extended F)} {n : ℕ}
    (hn : pool.storage_.length ≤ n) :
    totalMass pool = ∑ i ∈ Finset.range n, asteroidMass (pool.at? i) := by
  have hsum (slots : List (Option (Entity (Extended F)))) :
      ∀ n, slots.length ≤ n → (slots.map asteroidMass).sum =
        ∑ i ∈ Finset.range n, asteroidMass slots[i]?.join := by
    induction slots with
    | nil =>
      intro n _
      exact (Finset.sum_eq_zero fun i _ => rfl).symm
    | cons slot slots ih =>
      intro n hn
      cases n with
      | zero => cases hn
      | succ n =>
        rw [List.map_cons, List.sum_cons, Finset.sum_range_succ', add_comm]
        exact congrArg (· + asteroidMass slot) (ih n (Nat.le_of_succ_le_succ hn))
  exact hsum pool.storage_ n hn

/-- A new entity adds its mass, if it is an asteroid. -/
theorem totalMass_acquire_modify [LinearOrder F] [StdMath F] {pool : EntityPool (Extended F)}
    (wf : pool.WellFormed) (f : Entity (Extended F) → Entity (Extended F)) :
    totalMass (pool.acquire.2.modify pool.acquire.1 f) =
      totalMass pool + asteroidMass (some (f (Entity.fresh pool.next_id_))) := by
  have hat := EntityPool.at?_acquire_modify wf f
  have hempty := (EntityPool.placed_acquire wf).empty
  have hslot (i : ℕ) : asteroidMass ((pool.acquire.2.modify pool.acquire.1 f).at? i) =
      asteroidMass (pool.at? i) + if i = pool.acquire.1 then
        asteroidMass (some (f (Entity.fresh pool.next_id_))) else 0 := by
    rw [hat]
    split_ifs with hi
    · rw [hi, hempty]
      exact (zero_add _).symm
    · exact (add_zero _).symm
  have hmem : pool.acquire.1 ∈ Finset.range (max pool.storage_.length
      (pool.acquire.2.modify pool.acquire.1 f).storage_.length) := by
    have hfilled := hat pool.acquire.1
    rw [if_pos rfl] at hfilled
    exact Finset.mem_range.mpr (lt_max_of_lt_right (EntityPool.lt_length_of_at? hfilled))
  rw [totalMass_eq_sum (le_max_right pool.storage_.length _),
    totalMass_eq_sum (le_max_left _ (pool.acquire.2.modify pool.acquire.1 f).storage_.length)]
  simp only [hslot]
  rw [Finset.sum_add_distrib, Finset.sum_ite_eq', if_pos hmem]

variable [LinearOrder F]

/-- Live asteroids have masses that are finite and not negative. -/
def Massive (pool : EntityPool (Extended F)) : Prop :=
  ∀ {i e}, pool.at? i = some e → e.type = .Asteroid → e.isDestroyed = false →
    ∃ m, e.mass = .finite m ∧ 0 ≤ m

theorem Dwindles.massive {pool pool' : EntityPool (Extended F)} (h : Dwindles pool pool')
    (hmassive : Massive pool) : Massive pool' := by
  intro i e' hat' htype' hlive'
  obtain ⟨e, hat, htype, hlive, hmass⟩ := h i e' hat' htype' hlive'
  exact hmass ▸ hmassive hat htype hlive

theorem Massive.asteroidMass_nonneg {pool : EntityPool (Extended F)} (h : Massive pool)
    (i : ℕ) : 0 ≤ asteroidMass (pool.at? i) := by
  cases hat : pool.at? i with
  | none => exact le_rfl
  | some e =>
    simp only [asteroidMass, Option.map_some, Option.getD_some]
    split_ifs with hlive
    · obtain ⟨m, hm, hnonneg⟩ := h hat hlive.1 hlive.2
      rwa [hm]
    · exact le_rfl

theorem Dwindles.totalMass_le [IsStrictOrderedRing F] {pool pool' : EntityPool (Extended F)}
    (h : Dwindles pool pool') (hmassive : Massive pool) : totalMass pool' ≤ totalMass pool := by
  rw [totalMass_eq_sum (le_max_left _ pool.storage_.length),
    totalMass_eq_sum (le_max_right pool'.storage_.length _)]
  apply Finset.sum_le_sum
  intro i _
  cases hat' : pool'.at? i with
  | none => exact hmassive.asteroidMass_nonneg i
  | some e' =>
    by_cases hlive' : e'.type = .Asteroid ∧ e'.isDestroyed = false
    · obtain ⟨e, hat, htype, hlive, hmass⟩ := h i e' hat' hlive'.1 hlive'.2
      simp only [asteroidMass, hat, Option.map_some, Option.getD_some, if_pos hlive', hmass,
        if_pos (And.intro htype hlive)]
      exact le_rfl
    · simp only [asteroidMass, Option.map_some, Option.getD_some, if_neg hlive']
      exact hmassive.asteroidMass_nonneg i

/-- The factory sums up what the slots add. -/
theorem calculateCurrentWeight_eq [StdMath F] {pool : EntityPool (Extended F)}
    (h : Massive pool) : calculateCurrentWeight pool = .finite (totalMass pool) := by
  have hstart : (lit 0 : Extended F) = .finite 0 := congrArg Extended.finite Rat.cast_zero
  rw [calculateCurrentWeight, hstart, totalMass, ← zero_add (List.sum _)]
  refine Extended.foldl_finite (fun total slot hslot => ?_) 0
  cases slot with
  | none => exact congrArg Extended.finite (add_zero total).symm
  | some e =>
    simp only [asteroidMass, Option.map_some, Option.getD_some, Bool.and_eq_true,
      Bool.not_eq_true', decide_eq_true_eq]
    by_cases hlive : e.type = .Asteroid ∧ e.isDestroyed = false
    · obtain ⟨i, hat⟩ := EntityPool.mem_storage.mp hslot
      obtain ⟨m, hm, -⟩ := h hat hlive.1 hlive.2
      rw [if_pos hlive.symm, if_pos hlive, hm]
      rfl
    · rw [if_neg fun h => hlive h.symm, if_neg hlive, add_zero]

end Mass

/-! ### Worlds within the budget -/

section Budget

variable {F : Type} [Field F] [LinearOrder F] {world world' : World (Extended F)}

/-- The live asteroids have masses, which keep to the budget. -/
structure Budgeted (pool : EntityPool (Extended F)) : Prop where
  massive : Massive pool
  total_le : totalMass pool ≤ 500

variable [IsStrictOrderedRing F]

theorem Budgeted.of_dwindles {pool pool' : EntityPool (Extended F)} (h : Budgeted pool)
    (hdwindles : Dwindles pool pool') : Budgeted pool' :=
  ⟨hdwindles.massive h.massive, (hdwindles.totalMass_le h.massive).trans h.total_le⟩

variable [StdMath F]

/-- A new asteroid brings its weight. -/
theorem massive_createAsteroid {pool : EntityPool (Extended F)} (wf : pool.WellFormed)
    (h : Massive pool) {weight : Extended F} (hweight : AsteroidWeight weight)
    (position : Vector2D (Extended F)) :
    Massive (createAsteroid pool weight position) ∧
      totalMass (createAsteroid pool weight position) = totalMass pool + weight.value := by
  obtain ⟨w, rfl, hmin, -⟩ := hweight
  have hextends : EntityPool.Extends (fun e => ∃ m, e.mass = .finite m ∧ 0 ≤ m) pool
      (createAsteroid pool (.finite w) position) :=
    EntityPool.extends_acquire_modify wf (fun _ => rfl) ⟨w, rfl, by linarith⟩
  refine ⟨fun {i e} hat htype hlive => ?_, totalMass_acquire_modify wf _⟩
  rcases hextends.added hat with hold | ⟨-, hnew, -⟩
  · exact h hold htype hlive
  · exact hnew

/-- New asteroids whose weights fit into the budget. -/
theorem budgeted_createAsteroids (asteroids : List (Extended F × Vector2D (Extended F)))
    {pool : EntityPool (Extended F)} (wf : pool.WellFormed) (hmassive : Massive pool)
    (hweights : ∀ asteroid ∈ asteroids, AsteroidWeight asteroid.1)
    (hbudget : totalMass pool + (asteroids.map fun asteroid => asteroid.1.value).sum ≤ 500) :
    Budgeted (asteroids.foldl
      (fun pool (weight, position) => createAsteroid pool weight position) pool) := by
  induction asteroids generalizing pool with
  | nil =>
    rw [List.map_nil, List.sum_nil, add_zero] at hbudget
    exact ⟨hmassive, hbudget⟩
  | cons asteroid asteroids ih =>
    obtain ⟨hweight, hrest⟩ := List.forall_mem_cons.mp hweights
    obtain ⟨hmassive', htotal⟩ := massive_createAsteroid wf hmassive hweight asteroid.2
    rw [List.map_cons, List.sum_cons, ← add_assoc, ← htotal] at hbudget
    exact ih (extends_createAsteroid wf asteroid.1 asteroid.2).wellFormed hmassive' hrest hbudget

omit [StdMath F] in
/-- The sum of the weights that are paired with positions is at most that of all weights. -/
theorem sum_zip_le {weights : List (Extended F)}
    (hweights : ∀ weight ∈ weights, AsteroidWeight weight)
    (positions : List (Vector2D (Extended F))) :
    ((weights.zip positions).map fun asteroid => asteroid.1.value).sum ≤
      (weights.map Extended.value).sum := by
  induction weights generalizing positions with
  | nil => exact le_rfl
  | cons weight weights ih =>
    obtain ⟨⟨w, rfl, hmin, -⟩, hrest⟩ := List.forall_mem_cons.mp hweights
    cases positions with
    | nil =>
      have hnone := ih hrest []
      rw [List.zip_nil_right] at hnone ⊢
      rw [List.map_cons, List.sum_cons, Extended.value_finite]
      linarith
    | cons position positions =>
      rw [List.zip_cons_cons, List.map_cons, List.sum_cons, List.map_cons, List.sum_cons]
      exact add_le_add_right (ih hrest positions) _

/-- A pass of the factory keeps the budget. -/
theorem Budgeted.update {pool : EntityPool (Extended F)} (h : Budgeted pool)
    (wf : pool.WellFormed) {uniform : Uniform (Extended F)} (hdraws : DrawsInRange uniform)
    (area : Circle (Extended F)) : Budgeted (AsteroidFactory.update uniform area pool) := by
  have hmass : 0 ≤ totalMass pool := by
    rw [totalMass_eq_sum le_rfl]
    exact Finset.sum_nonneg fun i _ => Massive.asteroidMass_nonneg h.massive i
  obtain ⟨-, -, -, -, hweights, sum, hsum, hle⟩ := generates_generateAsteroidWeight hdraws hmass
  have hvalues := Extended.foldl_finite (f := (· + ·)) (g := Extended.value)
    (l := generateAsteroidWeight uniform (.finite (totalMass pool))) (fun total weight hmem => by
      obtain ⟨w, rfl, -, -⟩ := hweights weight hmem
      rfl) 0
  rw [hsum, zero_add] at hvalues
  unfold AsteroidFactory.update
  rw [calculateCurrentWeight_eq h.massive]
  dsimp only
  split_ifs with hfull
  · exact h
  · refine budgeted_createAsteroids _ wf h.massive (fun asteroid hmem => ?_) ?_
    · exact hweights _ (List.of_mem_zip hmem).1
    · refine (add_le_add_right (sum_zip_le hweights _) _).trans ?_
      have htotal := h.total_le
      rw [max_eq_right (by linarith)] at hle
      rw [← Extended.finite.inj hvalues]
      linarith

/-! ### Runs -/

/-- A sound world within the budget goes to one. -/
def Budgets (world world' : World (Extended F)) : Prop :=
  world.Sound → Budgeted world.entities_ → world'.Sound ∧ Budgeted world'.entities_

omit [StdMath F] in
theorem clears_budgets : Clears (Budgets (F := F)) :=
  clears_of_fewer (I := fun world => Budgeted world.entities_) fun h _ _ _ fewer =>
    h.of_dwindles (dwindles_of_fewer fewer)

theorem budgets_collidePair {i j : ℕ} (hij : i ≠ j) :
    Keeps Budgets (collidePair i j : Action (Extended F) PUnit) := by
  intro world hsound h
  have hquiet := (evolved_of_passed (keeps_collidePair hij world)).quiet hsound
  refine ⟨hquiet.1, ?_⟩
  rcases collidePair_cases i j world with heq | ⟨a, b, hi, hj, -, heq⟩
  · rw [heq]
    exact h
  · rw [heq]
    exact h.of_dwindles (dwindles_dispatchCollision hsound.pool hij hi hj)

theorem phases_budgets (ext : Externals (Extended F)) {choice : TickChoice (Extended F)}
    (hdraws : DrawsInRange choice.uniform) : Phases ext choice (Budgets (F := F)) where
  refl := clears_budgets.refl
  trans := clears_budgets.trans
  physics world tick_interval hsound h :=
    ⟨((evolved_updatePhysics world _).quiet hsound).1,
      h.of_dwindles (dwindles_updatePhysics world _)⟩
  collisions world := by
    rw [collidePairs_apply]
    exact keeps_forM clears_budgets.refl clears_budgets.trans
      (fun pair hpair => budgets_collidePair (lt_of_mem_pairs hpair).ne) world
  reaped := clears_budgets.reapDestroyedShips choice
  asteroids world hsound h :=
    ⟨(quiet_maintainAsteroidPopulation world choice hsound).1,
      h.update hsound.pool hdraws world.freePosition⟩
  broadcast := clears_budgets.broadcastSnapshot ext choice

theorem budgeted_of_run (ext : Externals (Extended F)) {width height : Extended F}
    {tick_interval : ℕ} {ops : List (Op (Extended F))}
    (draws : ∀ choice current_tick, .tick choice current_tick ∈ ops →
      DrawsInRange choice.uniform)
    (h : (machine ext width height tick_interval).run ops = some world) :
    Budgeted world.entities_ := by
  refine Machine.run_induction (m := machine ext width height tick_interval)
    (motive := fun ops world => (∀ choice current_tick, .tick choice current_tick ∈ ops →
      DrawsInRange choice.uniform) → Budgeted world.entities_) ?_ ?_ h draws
  · refine fun _ => ⟨nofun, ?_⟩
    change (0 : F) ≤ 500
    norm_num
  · intro ops world op world' hs ih hstep hdraws
    have hbudgeted := ih fun choice n hmem => hdraws choice n (List.mem_append_left _ hmem)
    have hsound : world.Sound := sound_of_reachable ext ⟨ops, hs⟩
    obtain rfl := Option.some.inj hstep
    cases op with
    | event event =>
      have hentities : (onEvent event world).entities_ = world.entities_ := by
        cases event <;> rfl
      exact hentities.symm ▸ hbudgeted
    | discardActions => exact hbudgeted
    | tick choice current_tick =>
      have hchoice := hdraws choice current_tick (List.mem_append_right _ List.mem_cons_self)
      obtain ⟨mid, joins, -, hmid, hrest⟩ :=
        (phases_budgets ext hchoice).runTickStages tick_interval current_tick world
      have hdrained := dwindles_foldl_applyAction world.action_queue_
        (hsound.congr rfl rfl rfl : ({ world with action_queue_ := [] } : World _).Sound) []
      obtain ⟨hmidSound, hmidBudgeted⟩ :=
        hmid (hsound.processInputQueue []) (hbudgeted.of_dwindles hdrained)
      have hspawned := hmidBudgeted.of_dwindles (dwindles_spawnShips joins hmidSound)
      exact (hrest (hmidSound.spawnShips joins) hspawned).2

/-- **The budget of asteroids.** Whatever is drawn, `generateAsteroidWeight` ends after at most 51
draws, each from a range that is not empty; the weights are from 10 to 80, and add up to no more
than the budget has left. The live asteroids of every world that a run gets to weigh 500 at most,
and no asteroid is created without a position. -/
theorem asteroids_keep_budget (ext : Externals (Extended F)) (width height : Extended F)
    (tick_interval : ℕ) :
    (∀ {uniform : Uniform (Extended F)}, DrawsInRange uniform → ∀ mass : F, 0 ≤ mass →
      ∃ ranges, Generates uniform (.finite mass) ranges
          (generateAsteroidWeight uniform (.finite mass)) ∧
        ranges.length ≤ 51 ∧ (∀ range ∈ ranges, range.1 ≤ range.2) ∧
        (∀ weight ∈ generateAsteroidWeight uniform (.finite mass), AsteroidWeight weight) ∧
        ∃ sum, (generateAsteroidWeight uniform (.finite mass)).foldl (· + ·) (.finite 0) =
          .finite sum ∧ sum ≤ max 0 (500 - mass)) ∧
      (∀ {ops world}, (machine ext width height tick_interval).run ops = some world →
        (∀ choice current_tick, .tick choice current_tick ∈ ops → DrawsInRange choice.uniform) →
          calculateCurrentWeight world.entities_ ≤ .finite 500) ∧
      ∀ (uniform : Uniform (Extended F)) free_coordinates pool,
        updateIndexed uniform free_coordinates pool =
          some (AsteroidFactory.update uniform free_coordinates pool) := by
  refine ⟨fun hdraws mass hmass => generates_generateAsteroidWeight hdraws hmass, ?_,
    updateIndexed_eq⟩
  intro ops world hrun draws
  have hbudgeted := budgeted_of_run ext draws hrun
  rw [calculateCurrentWeight_eq hbudgeted.massive]
  exact hbudgeted.total_le

end Budget

/-! ### Draws at the limits -/

section Exact

attribute [local instance] RationalScalar.stdMath

/-- The first draw takes all of the budget, the others take as little as they may. -/
def manyDraws : Uniform (Extended ℚ) := fun n low high => if n = 0 then high else low

theorem drawsInRange_manyDraws : DrawsInRange manyDraws := by
  intro n a b hle
  unfold manyDraws
  split_ifs
  · exact ⟨b, rfl, hle, le_rfl⟩
  · exact ⟨a, rfl, le_rfl, hle⟩

/-- The budget holds in the world of the ship that turned, and for as many draws as there can
be. -/
theorem asteroids_keep_budget_turning :
    calculateCurrentWeight turningWorld.entities_ ≤ .finite 500 ∧
      ∃ ranges, Generates manyDraws (.finite 0) ranges
          (generateAsteroidWeight manyDraws (.finite 0)) ∧ ranges.length ≤ 51 := by
  obtain ⟨hgenerates, hruns, -⟩ :=
    asteroids_keep_budget extendedExternals (.finite 2000) (.finite 2000) 16666
  have hrun : (machine extendedExternals (.finite 2000) (.finite 2000) 16666).run turningOps =
      some turningWorld := run_machine _ _ _ _ _
  obtain ⟨ranges, hranges, hlength, -⟩ := hgenerates drawsInRange_manyDraws 0 le_rfl
  exact ⟨hruns hrun fun _ _ => drawsInRange_turning, ranges, hranges, hlength⟩

/-- The draws of a `double` that lies between two others. -/
def roundedDraws : Uniform ℚ := fun n low high =>
  let drawn := if n = 0 then 30 else if n = 1 then 10 + 1 / 2 ^ 49 else 10
  if low ≤ drawn ∧ drawn ≤ high then drawn else low

/-- Fifty draws are not enough where every weight is 10, as one more draw comes first. And where
`remaining -= solo_weight` is rounded, weights can add up to more than was left of the budget. -/
theorem overdrawn_manyDraws :
    (¬ ∀ uniform : Uniform (Extended ℚ), DrawsInRange uniform →
      ∀ ranges weights, Generates uniform (.finite 0) ranges weights → ranges.length ≤ 50) ∧
      (∀ n (low high : ℚ), low ≤ high →
        low ≤ roundedDraws n low high ∧ roundedDraws n low high ≤ high) ∧
      500 - 470 < (@generateAsteroidWeight ℚ RationalScalar.double roundedDraws 470).sum := by
  refine ⟨fun h => ?_, fun n low high hle => ?_, by decide +kernel⟩
  · obtain ⟨ranges, hgenerates, -⟩ := generates_generateAsteroidWeight drawsInRange_manyDraws le_rfl
    have hcount : (generateAsteroidWeight manyDraws (.finite 0)).length = 50 := by decide +kernel
    have hweights : generateAsteroidWeight manyDraws (.finite 0) ≠ [] := by
      intro hnone
      rw [hnone] at hcount
      cases hcount
    have hfew := h manyDraws drawsInRange_manyDraws ranges _ hgenerates
    rw [hgenerates.length_ranges hweights, hcount] at hfew
    exact absurd hfew (by decide)
  · unfold roundedDraws
    dsimp only
    generalize (if n = 0 then 30 else if n = 1 then 10 + 1 / 2 ^ 49 else 10 : ℚ) = drawn
    split_ifs with hdrawn
    · exact hdrawn
    · exact ⟨le_rfl, hle⟩

end Exact

end SpaceShooter.Server.World
