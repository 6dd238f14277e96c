/-
# Entities

The components of the server's entities, with the rules for health, score and mass.
-/

import SpaceShooter.Common.MathUtils

namespace SpaceShooter.Domain

open Scalar

structure TransformComponent (K : Type) where
  position : Math.Vector2D K
  velocity : Math.Vector2D K
  angle : K
  deriving DecidableEq, Repr

/-- The size of a ship's name field; unused bytes are zero. -/
def kShipNameSize : ℕ := 32

abbrev ShipName := { name : Bytes // name.length = kShipNameSize }

structure ShipComponent (K : Type) where
  name : ShipName
  score : UInt32 := 0
  thrust_power : K
  drag : K
  is_thrusting : Bool := false
  frags : UInt16 := 0
  deriving DecidableEq, Repr

structure HealthComponent where
  current : UInt16 := 100
  max : UInt16 := 100
  deriving DecidableEq, Repr

structure CombatComponent where
  damage : UInt16 := 0
  owner_id : EntityId := 0
  deriving DecidableEq, Repr

structure AsteroidComponent where
  score_reward : UInt16 := 0
  deriving DecidableEq, Repr

structure Entity (K : Type) where
  id : EntityId
  type : EntityType
  mass : K
  radius : K
  isDestroyed : Bool
  transform : Option (TransformComponent K)
  ship : Option (ShipComponent K)
  health : Option HealthComponent
  combat : Option CombatComponent
  asteroid : Option AsteroidComponent
  deriving DecidableEq, Repr

variable {K : Type}

/-! ### Health and score -/

def applyDamage (health : HealthComponent) (damage : UInt16) : HealthComponent :=
  if health.current ≤ damage then { health with current := 0 }
  else { health with current := health.current - damage }

def isAlive (health : HealthComponent) : Bool := decide (0 < health.current)

/-- `std::numeric_limits<std::uint32_t>::max()`. -/
def maxScore : UInt32 := 0xFFFFFFFF

def addScore (ship : ShipComponent K) (points : UInt32) : ShipComponent K :=
  { ship with
    -- Scores saturate instead of wrapping around.
    score := if maxScore - ship.score < points then maxScore else ship.score + points }

def subtractScore (ship : ShipComponent K) (penalty : UInt32) : ShipComponent K :=
  { ship with score := if ship.score ≤ penalty then 0 else ship.score - penalty }

/-! ### What an entity is -/

namespace Entity

def isDamageable (e : Entity K) : Bool :=
  match e.health with
  | some health => decide (0 < health.current)
  | none => false

/-- A ship that is not destroyed. -/
def LiveShip (e : Entity K) : Prop := e.type = .Ship ∧ e.isDestroyed = false

instance (e : Entity K) : Decidable e.LiveShip :=
  inferInstanceAs (Decidable (e.type = .Ship ∧ e.isDestroyed = false))

/-- A live ship has a transform, a ship component and health left. -/
def Fit (e : Entity K) : Prop :=
  e.type = .Ship → e.isDestroyed = false →
    e.transform.isSome ∧ e.ship.isSome ∧ e.isDamageable = true

/-- What a pass over the world leaves of an entity: its identity, its destruction, and
its being fit. -/
structure Continues (e e' : Entity K) : Prop where
  id : e'.id = e.id
  type : e'.type = e.type
  destroyed : e.isDestroyed = true → e'.isDestroyed = true
  fit : e.Fit → e'.Fit

theorem Continues.refl (e : Entity K) : Continues e e := ⟨rfl, rfl, fun h => h, fun h => h⟩

theorem Continues.trans {e e' e'' : Entity K} (h : Continues e e')
    (h' : Continues e' e'') : Continues e e'' :=
  ⟨h'.id.trans h.id, h'.type.trans h.type, h'.destroyed ∘ h.destroyed, h'.fit ∘ h.fit⟩

/-- No ship comes to life. -/
theorem Continues.liveShip {e e' : Entity K} (h : e.Continues e') (hlive : e'.LiveShip) :
    e.LiveShip := by
  refine ⟨h.type.symm.trans hlive.1, ?_⟩
  by_contra hdestroyed
  exact nomatch (h.destroyed (Bool.eq_true_of_not_eq_false hdestroyed)).symm.trans hlive.2

/-- Flagging an entity. -/
theorem continues_destroyed (e : Entity K) : e.Continues { e with isDestroyed := true } :=
  ⟨rfl, rfl, fun _ => rfl, fun _ _ halive => nomatch halive⟩

/-- Moving, turning and growing an entity. -/
theorem continues_moved (e : Entity K) (radius : K) (t : TransformComponent K) :
    e.Continues { e with radius := radius, transform := some t } :=
  ⟨rfl, rfl, fun h => h, fun hfit htype halive => ⟨rfl, (hfit htype halive).2⟩⟩

/-- Changing the ship component of an entity. -/
theorem continues_ship (e : Entity K) {s : Option (ShipComponent K)}
    (hs : e.ship.isSome = true → s.isSome = true) : e.Continues { e with ship := s } := by
  refine ⟨rfl, rfl, fun h => h, fun hfit htype halive => ?_⟩
  obtain ⟨htransform, hship, hdamageable⟩ := hfit htype halive
  exact ⟨htransform, hs hship, hdamageable⟩

/-- Damaging an entity flags it when no health is left. -/
theorem continues_damaged (e : Entity K) (health : HealthComponent) :
    e.Continues { e with
      health := some health, isDestroyed := e.isDestroyed || !isAlive health } := by
  refine ⟨rfl, rfl, fun h => by simp [h], fun hfit htype halive => ?_⟩
  -- An entity that goes on living was fit and has health left.
  obtain ⟨hdestroyed, hhealth⟩ := Bool.or_eq_false_iff.mp halive
  obtain ⟨htransform, hship, -⟩ := hfit htype hdestroyed
  exact ⟨htransform, hship, by simpa [isDamageable, isAlive] using hhealth⟩

variable [Scalar K]

/-- The value an engaged slot starts with, under a fresh identifier. -/
def fresh (id : EntityId) : Entity K where
  id := id
  type := .None
  mass := lit 0
  radius := lit 0
  isDestroyed := false
  transform := none
  ship := none
  health := none
  combat := none
  asteroid := none

def massForRadius (radius : K) : K := pi * radius * radius

def isValid (e : Entity K) : Bool :=
  e.type ≠ .None && !e.isDestroyed && e.transform.isSome && isfinite e.mass &&
    decide (lit 0 ≤ e.mass) && isfinite e.radius && decide (lit 0 ≤ e.radius)

/-- Double the radius while the mass allows it and the predicate accepts; the
predicate may move the position and keeps a state of its own. -/
def grow {γ : Type} (can_grow : Math.Vector2D K → K → γ → Bool × Math.Vector2D K × γ) :
    ℕ → Entity K → γ → Bool × Entity K × γ
  | 0, e, g => (true, e, g)
  | fuel + 1, e, g =>
    if ¬ e.radius ≤ Scalar.max / lit 2 then
      (true, e, g)
    else
      let next_radius := e.radius * lit 2
      let target_mass := massForRadius next_radius
      if !isfinite target_mass || decide (e.mass < target_mass) then
        (true, e, g)
      else
        match e.transform with
        | none => (false, e, g)
        | some transform =>
          let (grows, position, g) := can_grow transform.position next_radius g
          -- The predicate may have moved the ship even when it refuses.
          let e := { e with transform := some { transform with position := position } }
          if grows then grow can_grow fuel { e with radius := next_radius } g else (true, e, g)

/-- The loop replaces the radius and the transform alone. -/
theorem grow_eq {γ : Type} (can_grow : Math.Vector2D K → K → γ → Bool × Math.Vector2D K × γ)
    (fuel : ℕ) (e : Entity K) (g : γ) :
    ∃ radius transform,
      (e.grow can_grow fuel g).2.1 = { e with radius := radius, transform := transform } := by
  induction fuel generalizing e g with
  | zero => exact ⟨_, _, rfl⟩
  | succ fuel ih =>
    unfold grow
    dsimp only
    split
    · exact ⟨_, _, rfl⟩
    · split
      · exact ⟨_, _, rfl⟩
      · split
        · exact ⟨_, _, rfl⟩
        · split
          · exact ih { e with radius := _, transform := _ } _
          · exact ⟨_, some _, rfl⟩

/-- Add mass to a ship and grow it. The number of doublings bounds the rounds. -/
def addMass {γ : Type} (amount : K)
    (can_grow : Math.Vector2D K → K → γ → Bool × Math.Vector2D K × γ) (e : Entity K) (g : γ) :
    Bool × Entity K × γ :=
  if e.type ≠ .Ship then
    (false, e, g)
  else if !isfinite amount || amount < lit 0 then
    (false, e, g)
  else if !isfinite e.mass || e.mass < lit 0 || !isfinite e.radius || e.radius ≤ lit 0 ||
      e.transform.isNone then
    (false, e, g)
  else
    let new_mass := e.mass + amount
    if !isfinite new_mass then
      (false, e, g)
    else
      grow can_grow (doublings e.radius) { e with mass := new_mass } g

end Entity

variable [Scalar K]

/-- `TransformComponent{}`. -/
def TransformComponent.default : TransformComponent K :=
  ⟨Math.Vector2D.zero, Math.Vector2D.zero, lit 0⟩

end SpaceShooter.Domain
