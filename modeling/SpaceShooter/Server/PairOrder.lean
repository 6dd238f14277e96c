/-
# The order of a pair

The pass hands every pair of colliding entities over in the order of their slots. What
the collision does to the pool is the same in the other order: the rule for two ships is
symmetric, and the dispatcher turns every other pair the way its rule expects it.
-/

import SpaceShooter.Common.ExtendedScalar
import SpaceShooter.Server.WorldTick

namespace SpaceShooter

namespace Library.Extended

variable {F : Type} [LinearOrder F] {x y : Extended F}

theorem not_lt_of_lt (h : x < y) : ¬ y < x := by
  intro h'
  cases x with
  | nan => cases y <;> exact h
  | finite a =>
    cases y with
    | nan => exact h
    | finite b => exact lt_asymm (finite_lt.mp h) (finite_lt.mp h')
    | infinite t => exact Bool.noConfusion (Eq.trans (Eq.symm h) h')
  | infinite s =>
    cases y with
    | nan => exact h
    | finite b => exact Bool.noConfusion (Eq.trans (Eq.symm h) h')
    | infinite t => exact Bool.noConfusion (Eq.trans (Eq.symm h.1) h'.2)

end Library.Extended

open Scalar Domain Library

variable {K : Type} [Scalar K]

namespace Domain.Collision

/-! ### Two ships -/

/-- The damage depends on which ship is lighter, not on which one is named first. -/
theorem shipDamages_swap (hlt : ∀ a b : K, a < b → ¬ b < a) (ship1 ship2 : Entity K) :
    shipDamages ship2 ship1 = (shipDamages ship1 ship2).swap := by
  unfold shipDamages
  by_cases h12 : ship1.mass < ship2.mass
  · have h21 : ¬ ship2.mass < ship1.mass := hlt _ _ h12
    rw [if_neg h21, if_pos h12, if_pos h12]
    rfl
  · rw [if_neg h12, if_neg h12]
    split_ifs <;> rfl

theorem onCollisionShipShip_swap (hlt : ∀ a b : K, a < b → ¬ b < a) (ship1 ship2 : Entity K) :
    onCollisionShipShip ship2 ship1 = (onCollisionShipShip ship1 ship2).swap := by
  have hdamages := shipDamages_swap hlt ship1 ship2
  unfold onCollisionShipShip
  rw [hdamages, Bool.or_comm (decide (ship2.type ≠ .Ship)), Bool.or_comm (!ship2.isValid),
    Bool.or_comm (!ship2.isDamageable)]
  split
  · rfl
  · split
    · rfl
    · split
      · rfl
      · cases ship1.ship with
        | none => cases ship2.ship <;> rfl
        | some s1 =>
          cases ship2.ship with
          | none => rfl
          | some s2 =>
            cases ship1.health with
            | none => cases ship2.health <;> rfl
            | some h1 =>
              cases ship2.health with
              | none => rfl
              | some h2 =>
                dsimp only [Prod.swap]
                -- At most one of the two is the sole survivor.
                cases ship1.isDestroyed || !isAlive (applyDamage h1 (shipDamages ship1 ship2).1) <;>
                  cases ship2.isDestroyed ||
                    !isAlive (applyDamage h2 (shipDamages ship1 ship2).2) <;> rfl

end Domain.Collision

namespace Server.World

variable {i j : ℕ}

omit [Scalar K] in
/-- Writes to different slots commute. -/
theorem writePair_comm (pool : EntityPool K) (hij : i ≠ j) (a b : Entity K) :
    writePair pool i a j b = writePair pool j b i a := by
  unfold writePair EntityPool.modify
  congr 1
  exact List.modify_modify_ne _ _ _ hij

theorem onCollisionShipShip_comm (hlt : ∀ a b : K, a < b → ¬ b < a) (world : World K)
    (hij : i ≠ j) (ship1 ship2 : Entity K) :
    world.onCollisionShipShip i ship1 j ship2 = world.onCollisionShipShip j ship2 i ship1 := by
  unfold onCollisionShipShip
  rw [Collision.onCollisionShipShip_swap hlt ship1 ship2]
  dsimp only [Prod.swap]
  rw [writePair_comm world.entities_ hij]

/-- A collision leaves the same world in either order of its two slots. -/
theorem dispatchCollision_comm (hlt : ∀ a b : K, a < b → ¬ b < a) (world : World K)
    (hij : i ≠ j) (a b : Entity K) :
    world.dispatchCollision i a j b = world.dispatchCollision j b i a := by
  unfold dispatchCollision
  cases a.type with
  | Ship =>
    cases b.type with
    | Ship => exact onCollisionShipShip_comm hlt world hij a b
    | None => rfl
    | Asteroid => rfl
    | Bullet => rfl
  -- Every other pair reaches the rule in one order.
  | None => cases b.type <;> rfl
  | Asteroid => cases b.type <;> rfl
  | Bullet => cases b.type <;> rfl

section

attribute [local instance] RationalScalar.stdMath

/-- A ship as it is spawned meets one that has twice its mass, in the slots of two ships. -/
theorem dispatchCollision_comm_crash :
    let world : World (Extended ℚ) := (empty (lit 2000) (lit 2000)).spawnShips [⟨1, []⟩, ⟨2, []⟩]
    let area : Math.Circle (Extended ℚ) := ⟨⟨lit 0, lit 0⟩, lit 100⟩
    let ship := outfitShip area [] (Entity.fresh 0)
    let heavy := { outfitShip area [] (Entity.fresh 1) with mass := ship.mass * lit 2 }
    ship.mass < heavy.mass ∧
      world.dispatchCollision 0 ship 1 heavy = world.dispatchCollision 1 heavy 0 ship := by
  intro world area ship heavy
  have hmass : ship.mass < heavy.mass := by decide +kernel
  exact ⟨hmass, dispatchCollision_comm (fun _ _ => Extended.not_lt_of_lt) world zero_ne_one
    ship heavy⟩

end

end Server.World

end SpaceShooter
