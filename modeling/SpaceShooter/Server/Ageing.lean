/-
# How entities age

In every run an identifier means one entity: it is given to no other, and the entity that has left
the world does not come back. What it is stays, its ship keeps its name and its engine; it loses
health and never gets any, and it gains mass, size and frags and never loses any.
-/

import SpaceShooter.Server.Growth
import SpaceShooter.Server.LiveShips
import SpaceShooter.Server.SnapshotDelivery
import SpaceShooter.Server.Succession

namespace SpaceShooter.Server.World

open Scalar Domain Library Library.Outcome Math

variable {F : Type} [Field F] [LinearOrder F]

/-! ### What ages -/

/-- A size that stays, or is a larger number. -/
def Gains (a b : Extended F) : Prop := b = a ∨ ∃ x y, a = .finite x ∧ b = .finite y ∧ x ≤ y

/-- A health that was not restored. -/
structure Wears (health health' : HealthComponent) : Prop where
  max : health'.max = health.max
  current_le : health'.current ≤ health.current

/-- A ship under its name and with its engine; its score may change. -/
structure Serves (s s' : ShipComponent (Extended F)) : Prop where
  name : s'.name = s.name
  thrust_power : s'.thrust_power = s.thrust_power
  drag : s'.drag = s.drag
  is_thrusting : s'.is_thrusting = s.is_thrusting
  frags_le : s.frags ≤ s'.frags

/-- The same entity, later. -/
structure Ages (e e' : Entity (Extended F)) : Prop where
  id : e'.id = e.id
  type : e'.type = e.type
  destroyed : e.isDestroyed = true → e'.isDestroyed = true
  combat : e'.combat = e.combat
  asteroid : e'.asteroid = e.asteroid
  mass : Gains e.mass e'.mass
  radius : Gains e.radius e'.radius
  /-- Only ships grow. -/
  rigid : e.type ≠ .Ship → e'.mass = e.mass ∧ e'.radius = e.radius
  health : ∀ health ∈ e.health, ∃ health' ∈ e'.health, Wears health health'
  ship : ∀ s ∈ e.ship, ∃ s' ∈ e'.ship, Serves s s'

omit [Field F] in
theorem Gains.refl (a : Extended F) : Gains a a := .inl rfl

omit [Field F] in
theorem Gains.trans {a b c : Extended F} (h : Gains a b) (h' : Gains b c) : Gains a c := by
  rcases h with rfl | ⟨x, y, rfl, rfl, hxy⟩
  · exact h'
  · rcases h' with rfl | ⟨y', z, hy, rfl, hyz⟩
    · exact .inr ⟨x, y, rfl, rfl, hxy⟩
    · obtain rfl := Extended.finite.inj hy
      exact .inr ⟨x, z, rfl, rfl, hxy.trans hyz⟩

theorem Wears.refl (health : HealthComponent) : Wears health health := ⟨rfl, UInt16.le_refl _⟩

theorem Wears.trans {a b c : HealthComponent} (h : Wears a b) (h' : Wears b c) : Wears a c :=
  ⟨h'.max.trans h.max, UInt16.le_trans h'.current_le h.current_le⟩

omit [Field F] [LinearOrder F] in
theorem Serves.refl (s : ShipComponent (Extended F)) : Serves s s :=
  ⟨rfl, rfl, rfl, rfl, UInt16.le_refl _⟩

omit [Field F] [LinearOrder F] in
theorem Serves.trans {a b c : ShipComponent (Extended F)} (h : Serves a b) (h' : Serves b c) :
    Serves a c :=
  ⟨h'.name.trans h.name, h'.thrust_power.trans h.thrust_power, h'.drag.trans h.drag,
    h'.is_thrusting.trans h.is_thrusting, UInt16.le_trans h.frags_le h'.frags_le⟩

omit [Field F] [LinearOrder F] in
/-- Whatever the score is. -/
theorem serves_score (s : ShipComponent (Extended F)) (score : UInt32) :
    Serves s { s with score := score } :=
  ⟨rfl, rfl, rfl, rfl, UInt16.le_refl _⟩

omit [Field F] [LinearOrder F] in
theorem addScore_serves (s : ShipComponent (Extended F)) (points : UInt32) :
    Serves s (addScore s points) :=
  serves_score s _

omit [Field F] [LinearOrder F] in
theorem subtractScore_serves (s : ShipComponent (Extended F)) (penalty : UInt32) :
    Serves s (subtractScore s penalty) :=
  serves_score s _

omit [Field F] [LinearOrder F] in
/-- The count of frags stops before it would wrap around. -/
theorem rewardKill_serves (s : ShipComponent (Extended F)) :
    Serves s (Collision.rewardKill s) := by
  have hscored := addScore_serves s 30
  rw [Collision.rewardKill]
  generalize addScore s 30 = credited at hscored
  split_ifs with hfrags
  · refine hscored.trans ⟨rfl, rfl, rfl, rfl, ?_⟩
    rw [UInt16.lt_iff_toNat_lt] at hfrags
    rw [UInt16.le_iff_toNat_le, UInt16.toNat_add]
    change credited.frags.toNat < 65535 at hfrags
    change _ ≤ (credited.frags.toNat + 1) % 65536
    omega
  · exact hscored

namespace Ages

omit [Field F] in
theorem refl (e : Entity (Extended F)) : Ages e e :=
  ⟨rfl, rfl, fun h => h, rfl, rfl, .refl _, .refl _, fun _ => ⟨rfl, rfl⟩,
    fun health h => ⟨health, h, .refl _⟩, fun s h => ⟨s, h, .refl _⟩⟩

omit [Field F] in
theorem trans {a b c : Entity (Extended F)} (h : Ages a b) (h' : Ages b c) : Ages a c where
  id := h'.id.trans h.id
  type := h'.type.trans h.type
  destroyed := h'.destroyed ∘ h.destroyed
  combat := h'.combat.trans h.combat
  asteroid := h'.asteroid.trans h.asteroid
  mass := h.mass.trans h'.mass
  radius := h.radius.trans h'.radius
  rigid other := by
    obtain ⟨mass, radius⟩ := h.rigid other
    obtain ⟨mass', radius'⟩ := h'.rigid (h.type ▸ other)
    exact ⟨mass'.trans mass, radius'.trans radius⟩
  health health hmem := by
    obtain ⟨left, hleft, hwears⟩ := h.health health hmem
    obtain ⟨right, hright, hwears'⟩ := h'.health left hleft
    exact ⟨right, hright, hwears.trans hwears'⟩
  ship s hmem := by
    obtain ⟨left, hleft, hserves⟩ := h.ship s hmem
    obtain ⟨right, hright, hserves'⟩ := h'.ship left hleft
    exact ⟨right, hright, hserves.trans hserves'⟩

variable {e : Entity (Extended F)}

/-! ### Single changes -/

omit [Field F] in
theorem flag (e : Entity (Extended F)) : Ages e { e with isDestroyed := true } :=
  { refl e with destroyed := fun _ => rfl }

omit [Field F] in
theorem place (e : Entity (Extended F)) (t : Option (TransformComponent (Extended F))) :
    Ages e { e with transform := t } :=
  { refl e with }

omit [Field F] in
theorem damage {health : HealthComponent} (hhealth : e.health = some health) (points : UInt16)
    (dead : Bool) : Ages e { e with
      health := some (applyDamage health points), isDestroyed := e.isDestroyed || dead } where
  __ := refl e
  destroyed h := by simp [h]
  health health' hmem := by
    obtain rfl := Option.some.inj (hhealth.symm.trans hmem)
    obtain ⟨hmax, hle⟩ := applyDamage_spec health points
    exact ⟨_, rfl, hmax, hle⟩

omit [Field F] in
theorem serve {s s' : ShipComponent (Extended F)} (hship : e.ship = some s) (h : Serves s s') :
    Ages e { e with ship := some s' } where
  __ := refl e
  ship old hmem := by
    obtain rfl := Option.some.inj (hship.symm.trans hmem)
    exact ⟨s', rfl, h⟩

/-! ### Meals -/

section Meals

variable [IsStrictOrderedRing F] [StdMath F] {γ : Type}
  {can_grow : Vector2D (Extended F) → Extended F → γ → Bool × Vector2D (Extended F) × γ}

omit [Field F] [IsStrictOrderedRing F] [StdMath F] in
/-- A ship that grows may be moved, too. -/
theorem swell (hship : e.type = .Ship) {mass radius : Extended F} (hmass : Gains e.mass mass)
    (hradius : Gains e.radius radius) (t : Option (TransformComponent (Extended F))) :
    Ages e { e with mass := mass, radius := radius, transform := t } where
  __ := refl e
  mass := hmass
  radius := hradius
  rigid other := absurd hship other

/-- The growth loop doubles the radius of a ship. -/
theorem grow {r : F} (hship : e.type = .Ship) (hradius : e.radius = .finite r) (hpos : 0 < r)
    (fuel : ℕ) (g : γ) : Ages e (e.grow can_grow fuel g).2.1 := by
  induction fuel generalizing e r g with
  | zero => exact refl e
  | succ fuel ih =>
    rw [Entity.grow]
    dsimp only
    split
    · exact refl e
    · split
      · exact refl e
      · split
        · exact refl e
        · split
          · next t _ _ =>
            have hnext : e.radius * lit 2 = .finite (r * 2) := by
              rw [hradius]
              exact congrArg (fun two : F => Extended.finite (r * two)) (Rat.cast_ofNat 2)
            rw [hnext]
            have hswollen (position : Vector2D (Extended F)) : Ages e { e with
                radius := .finite (r * 2), transform := some { t with position := position } } :=
              swell hship (.refl _) (.inr ⟨r, r * 2, hradius, rfl, by linarith⟩) _
            apply (hswollen _).trans
            apply ih
            · exact hship
            · rfl
            · positivity
          · exact place e _

theorem addMass (amount : Extended F) (g : γ) :
    Ages e (e.addMass amount can_grow g).2.1 := by
  cases taken : (e.addMass amount can_grow g).1 with
  | true =>
    obtain ⟨m, a, r, t, takesIn⟩ := takesIn_of_addMass taken
    have hmass : Gains e.mass (.finite (m + a)) :=
      .inr ⟨m, m + a, takesIn.mass, rfl, le_add_of_nonneg_right takesIn.amount_nonneg⟩
    have hfed : Ages e { e with mass := .finite (m + a) } :=
      swell takesIn.type hmass (.refl _) e.transform
    rw [takesIn.addMass]
    apply hfed.trans
    apply grow
    · exact takesIn.type
    · exact takesIn.radius
    · exact takesIn.radius_pos
  | false =>
    rw [Entity.addMass_refused taken]
    exact refl e

theorem eatAsteroid (ship asteroid : Entity (Extended F)) (g : γ) :
    Ages ship (Collision.eatAsteroid can_grow ship asteroid g).1 := by
  have hadded : Ages ship (ship.addMass asteroid.mass can_grow g).2.1 := addMass asteroid.mass g
  rw [Collision.eatAsteroid]
  dsimp only
  split_ifs
  · exact refl ship
  · exact refl ship
  · exact refl ship
  · exact refl ship
  · exact refl ship
  · apply hadded.trans
    split
    · next hship _ => exact serve hship (addScore_serves _ _)
    · exact refl _
  · exact hadded
  · exact refl ship

end Meals

/-! ### Hits and rams -/

section Collisions

omit [Field F] in
theorem reward (e : Entity (Extended F)) (points : UInt32) :
    Ages e { e with ship := e.ship.map fun s => addScore s points } := by
  cases hship : e.ship with
  | none =>
    have hsame : { e with ship := none } = e := by rw [← hship]
    exact hsame.symm ▸ refl e
  | some s => exact serve hship (addScore_serves s points)

omit [Field F] in
theorem evolves_creditHit (pool : EntityPool (Extended F)) (hit : Collision.Hit) :
    EntityPool.Evolves Ages pool (creditHit pool hit) := by
  rw [creditHit]
  split
  · exact .refl refl pool
  · apply EntityPool.evolves_modify refl
    intro e _
    dsimp only
    split
    · exact refl e
    · exact reward e _

variable [StdMath F]

theorem hitShip (bullet ship : Entity (Extended F)) :
    Ages bullet (Collision.hitShip bullet ship).1 ∧
      Ages ship (Collision.hitShip bullet ship).2.1 := by
  rcases hitShip_cases bullet ship with hmiss | ⟨combat, health, -, hhealth, -, hhit⟩
  · rw [hmiss]
    exact ⟨refl bullet, refl ship⟩
  · rw [hhit]
    exact ⟨flag bullet, damage hhealth _ _⟩

theorem onCollisionShipShip (ship1 ship2 : Entity (Extended F)) :
    Ages ship1 (Collision.onCollisionShipShip ship1 ship2).1 ∧
      Ages ship2 (Collision.onCollisionShipShip ship1 ship2).2 := by
  have hkeep : Ages ship1 ship1 ∧ Ages ship2 ship2 := ⟨refl ship1, refl ship2⟩
  rw [Collision.onCollisionShipShip]
  split_ifs
  · exact hkeep
  · exact hkeep
  · exact hkeep
  · split
    · next s1 s2 h1 h2 hs1 hs2 hh1 hh2 =>
      -- The score changes, then the health.
      have hrammed {ship : Entity (Extended F)} {s s' : ShipComponent (Extended F)}
          {health : HealthComponent} (hship : ship.ship = some s)
          (hhealth : ship.health = some health) (hserves : Serves s s') (points : UInt16)
          (dead : Bool) : Ages ship { ship with
            ship := some s', health := some (applyDamage health points)
            isDestroyed := ship.isDestroyed || dead } :=
        (serve hship hserves).trans
          (damage (e := { ship with ship := some s' }) hhealth points dead)
      have hlost1 := subtractScore_serves s1 5
      have hlost2 := subtractScore_serves s2 5
      have hkill1 := hlost1.trans (rewardKill_serves (subtractScore s1 5))
      have hkill2 := hlost2.trans (rewardKill_serves (subtractScore s2 5))
      dsimp only
      split_ifs
      · exact ⟨hrammed hs1 hh1 hlost1 _ _, hrammed hs2 hh2 hkill2 _ _⟩
      · exact ⟨hrammed hs1 hh1 hkill1 _ _, hrammed hs2 hh2 hlost2 _ _⟩
      · exact ⟨hrammed hs1 hh1 hlost1 _ _, hrammed hs2 hh2 hlost2 _ _⟩
    · exact hkeep

/-- Whatever collides ages. -/
theorem evolves_dispatchCollision [IsStrictOrderedRing F] {world : World (Extended F)} {i j : ℕ}
    {a b : Entity (Extended F)} (hij : i ≠ j) (hi : world.entities_.at? i = some a)
    (hj : world.entities_.at? j = some b) :
    EntityPool.Evolves Ages world.entities_ (world.dispatchCollision i a j b).entities_ := by
  have htrans (e₁ e₂ e₃ : Entity (Extended F)) (h : Ages e₁ e₂) (h' : Ages e₂ e₃) : Ages e₁ e₃ :=
    h.trans h'
  refine dispatchCollision_cases
    (P := fun world' => EntityPool.Evolves Ages world.entities_ world'.entities_) hij hi hj
    (.refl refl _) ?_ ?_ ?_
  · intro _ _
    obtain ⟨ha, hb⟩ := onCollisionShipShip a b
    exact evolves_writePair refl htrans hij hi hj ha hb
  · intro p q ship asteroid hpq hp hq hship _
    have hfed : Ages ship (Collision.eatAsteroid world.can_grow ship asteroid .CanGrow).1 :=
      eatAsteroid ship asteroid GrowStatus.CanGrow
    have heaten := eatAsteroid_asteroid world.can_grow ship asteroid .CanGrow
    rw [World.onCollisionShipAsteroid, onCollisionShipAsteroid_of_ship _ _ _ hship]
    apply evolves_writePair refl htrans hpq hp hq
    · split_ifs
      · exact hfed.trans (flag _)
      · exact hfed
    · rcases heaten with heaten | heaten
      · rw [heaten]
        exact refl asteroid
      · rw [heaten]
        exact flag asteroid
  · intro p q bullet ship hpq hp hq hbullet _
    obtain ⟨ha, hb⟩ := hitShip bullet ship
    rw [World.onCollisionBulletShip, onCollisionBulletShip_of_bullet ship hbullet]
    have hpair := evolves_writePair refl htrans hpq hp hq ha hb
    dsimp only
    split
    · exact hpair.trans htrans (evolves_creditHit _ _)
    · exact hpair

end Collisions

/-! ### Ticks -/

variable [StdMath F]

theorem moved (dt w h : Extended F) (e : Entity (Extended F)) : Ages e (moveEntity dt w h e) := by
  obtain ⟨transform, out, -, hout, heq⟩ := moveEntity_eq dt w h e
  rw [heq]
  rcases hout with rfl | ⟨-, rfl⟩
  · exact place e transform
  · exact (flag e).trans (place _ transform)

theorem stays [IsStrictOrderedRing F] : Stays (Ages (F := F)) where
  refl := refl
  trans _ _ _ := trans
  id h := h.id
  flagged := flag
  collided _ hij hi hj := evolves_dispatchCollision hij hi hj

omit [Field F] [StdMath F] in
theorem turns : Turns (Ages (F := F)) :=
  fun e _ _ _ => place e _

end Ages

/-! ### Runs -/

section Runs

variable [IsStrictOrderedRing F] [StdMath F]

/-- An entity under the same identifier at two times of a run is there at all times between, and
has aged from each to the next: nobody else gets its identifier, and it never comes back. -/
theorem ageing_of_run (ext : Externals (Extended F)) {world_width world_height : Extended F}
    {tick_interval : ℕ} {first second third : List (Op (Extended F))} {a b c : World (Extended F)}
    (early : (machine ext world_width world_height tick_interval).run first = some a)
    (between : (machine ext world_width world_height tick_interval).run (first ++ second) = some b)
    (late : (machine ext world_width world_height tick_interval).run (first ++ second ++ third) =
      some c) {e e'' : Entity (Extended F)} (seen : e ∈ a.activeEntities)
    (again : e'' ∈ c.activeEntities) (same : e''.id = e.id) :
    ∃ e' ∈ b.activeEntities, Ages e e' ∧ Ages e' e'' := by
  have hsound (labels : List (Op (Extended F))) {world : World (Extended F)}
      (run : (machine ext world_width world_height tick_interval).run labels = some world) :
      world.Sound := sound_of_reachable ext ⟨labels, run⟩
  have hab := Ages.stays.succeeds_of_run ext tick_interval Ages.turns (Ages.moved _ _ _) early
    between
  have hbc := Ages.stays.succeeds_of_run ext tick_interval Ages.turns (Ages.moved _ _ _) between
    late
  obtain ⟨⟨i, hat⟩, htype, hlive⟩ := mem_activeEntities.mp seen
  obtain ⟨⟨k, hat''⟩, htype'', hlive''⟩ := mem_activeEntities.mp again
  -- Its identifier was in use at the first time, so it is not new at any later one.
  have hold : e''.id < a.entities_.next_id_ := by
    rw [same]
    exact (hsound first early).pool.id_lt hat
  obtain ⟨e', hat', hlater⟩ := hbc.of_lt hat'' (hold.trans_le hab.next_le)
  obtain ⟨e₀, hat₀, hearlier⟩ := hab.of_lt hat' (hlater.id ▸ hold)
  have hid : e₀.id = e.id := (hearlier.id.symm.trans hlater.id.symm).trans same
  have hslot := (hsound first early).pool.slot_eq hat₀ hat hid
  obtain rfl : e₀ = e := Option.some.inj (hat₀.symm.trans (hslot ▸ hat))
  refine ⟨e', mem_activeEntities.mpr ⟨⟨k, hat'⟩, hearlier.type ▸ htype, ?_⟩, hearlier, hlater⟩
  -- What is destroyed stays destroyed.
  by_contra hdestroyed
  have hgone := hlater.destroyed (Bool.eq_true_of_not_eq_false hdestroyed)
  exact nomatch hgone.symm.trans hlive''

end Runs

section Exact

attribute [local instance] RationalScalar.stdMath

/-- Session 7 has joined. -/
def arrivalOps : List (Op (Extended ℚ)) := turningOps.take 2

/-- Its ship, turned in the meantime, has fired. -/
def salvoOps : List (Op (Extended ℚ)) :=
  turningOps ++ [.event (.ShotMessageEvent 7), .tick lowChoice 2]

def worldAfter (ops : List (Op (Extended ℚ))) : World (Extended ℚ) :=
  ops.foldl (step extendedExternals 16666) (empty (.finite 2000) (.finite 2000))

theorem ageing_salvo : ∃ e ∈ (worldAfter arrivalOps).activeEntities,
    ∃ e'' ∈ (worldAfter salvoOps).activeEntities, e.LiveShip ∧ e''.id = e.id ∧
      ∃ e' ∈ turningWorld.activeEntities, Ages e e' ∧ Ages e' e'' := by
  have hslot (ops : List (Op (Extended ℚ)))
      (hships : ((worldAfter ops).entities_.at? 1).map (fun e => (e.id, e.type, e.isDestroyed)) =
        some (2, .Ship, false)) :
      ∃ e ∈ (worldAfter ops).activeEntities, e.id = 2 ∧ e.LiveShip := by
    obtain ⟨e, hat, heq⟩ := Option.map_eq_some_iff.mp hships
    obtain ⟨hid, hlive⟩ := Prod.mk.inj heq
    obtain ⟨htype, hlive⟩ := Prod.mk.inj hlive
    exact ⟨e, mem_activeEntities.mpr ⟨⟨1, hat⟩, htype ▸ nofun, hlive⟩, hid, htype, hlive⟩
  obtain ⟨e, seen, hid, hship⟩ := hslot arrivalOps (by decide +kernel)
  obtain ⟨e'', again, hid'', -⟩ := hslot salvoOps (by decide +kernel)
  have same : e''.id = e.id := hid''.trans hid.symm
  refine ⟨e, seen, e'', again, hship, same, ?_⟩
  have between : (machine extendedExternals (.finite 2000) (.finite 2000) 16666).run
      (arrivalOps ++ turningOps.drop 2) = some turningWorld := run_machine ..
  exact ageing_of_run extendedExternals (run_machine ..) between (run_machine ..) seen again same

end Exact

end SpaceShooter.Server.World
