/-
# Numbers on first use

A counter hands each key a number when it is first asked for, and the same number ever after.
No two keys share a number.
-/

import Mathlib.Order.Basic
import Mathlib.Tactic.SplitIfs

namespace SpaceShooter.Library

/-- The numbers handed out so far. -/
structure Interner (α : Type) where
  ids : α → Option ℕ
  next : ℕ
  below : ∀ {a : α} {i : ℕ}, ids a = some i → i < next
  inj : ∀ {a b : α} {i : ℕ}, ids a = some i → ids b = some i → a = b

namespace Interner

variable {α : Type}

def empty : Interner α where
  ids _ := none
  next := 0
  below := by
    intro a i h
    cases h
  inj := by
    intro a b i h
    cases h

variable [DecidableEq α] {c : Interner α} {a b : α} {i : ℕ}

/-- Hand the next number to a key. -/
def add (c : Interner α) (a : α) : Interner α where
  ids := Function.update c.ids a (some c.next)
  next := c.next + 1
  below := by
    intro b i h
    rw [Function.update_apply] at h
    split_ifs at h
    · exact Option.some.inj h ▸ Nat.lt_succ_self _
    · exact Nat.lt_succ_of_lt (c.below h)
  inj := by
    intro b b' i h h'
    rw [Function.update_apply] at h h'
    split_ifs at h h' with hb hb' hb'
    · exact hb.trans hb'.symm
    · exact absurd (c.below h') (Option.some.inj h ▸ Nat.lt_irrefl _)
    · exact absurd (c.below h) (Option.some.inj h' ▸ Nat.lt_irrefl _)
    · exact c.inj h h'

/-- The number of a key, handed out if there is none yet. -/
def get (c : Interner α) (a : α) : ℕ × Interner α :=
  match c.ids a with
  | some i => (i, c)
  | none => (c.next, c.add a)

theorem ids_add_self (c : Interner α) (a : α) : (c.add a).ids a = some c.next :=
  Function.update_self ..

theorem ids_add_of_some (h : c.ids b = some i) (ha : c.ids a = none) :
    (c.add a).ids b = some i := by
  have hne : b ≠ a := by
    rintro rfl
    rw [ha] at h
    cases h
  exact (Function.update_of_ne hne ..).trans h

/-- The number that is returned is the key's from then on. -/
theorem ids_get_self (c : Interner α) (a : α) : (c.get a).2.ids a = some (c.get a).1 := by
  unfold get
  split
  · next h => exact h
  · exact ids_add_self c a

/-- Numbers do not change. -/
theorem ids_get_of_some (h : c.ids b = some i) (a : α) : (c.get a).2.ids b = some i := by
  unfold get
  split
  · exact h
  · next ha => exact ids_add_of_some h ha

/-- A key that has the number of another one is that key. -/
theorem eq_of_get (h : c.ids b = some (c.get a).1) : b = a :=
  (c.get a).2.inj (ids_get_of_some h a) (ids_get_self c a)

theorem get_fst_of_some (h : c.ids a = some i) : (c.get a).1 = i := by
  rw [get, h]

end Interner

end SpaceShooter.Library
