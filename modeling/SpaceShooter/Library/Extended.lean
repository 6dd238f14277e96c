/-
# Extended numbers

The elements of an ordered field together with two infinities and a value that is no
number. The arithmetic is that of floating point without rounding: what has no value is
`nan`, which every operation passes on and every comparison refuses.
-/

import Mathlib.Algebra.BigOperators.Group.List.Basic
import Mathlib.Algebra.Order.Field.Basic

namespace SpaceShooter.Library

inductive Extended (F : Type)
  | finite (a : F)
  | infinite (negative : Bool)
  | nan
  deriving DecidableEq, Repr

namespace Extended

variable {F : Type} {a b : F} {x y : Extended F}

/-- A value of the field. -/
def IsFinite (x : Extended F) : Prop := ∃ a, x = finite a

/-- The value in the field; what has none counts as zero. -/
def value [Zero F] : Extended F → F
  | finite a => a
  | _ => 0

@[simp] theorem value_finite [Zero F] (a : F) : (finite a).value = a := rfl

theorem IsFinite.ite {p : Prop} [Decidable p] (hx : x.IsFinite) (hy : y.IsFinite) :
    (if p then x else y).IsFinite := by
  split_ifs
  · exact hx
  · exact hy

/-! ### Comparisons -/

section Order

variable [LinearOrder F]

/-- No comparison with `nan` holds. -/
protected def lt : Extended F → Extended F → Prop
  | finite a, finite b => a < b
  | infinite s, infinite t => s = true ∧ t = false
  | infinite s, finite _ => s = true
  | finite _, infinite t => t = false
  | _, _ => False

protected def le : Extended F → Extended F → Prop
  | finite a, finite b => a ≤ b
  | infinite s, infinite t => s = true ∨ t = false
  | infinite s, finite _ => s = true
  | finite _, infinite t => t = false
  | _, _ => False

instance : LT (Extended F) := ⟨Extended.lt⟩
instance : LE (Extended F) := ⟨Extended.le⟩

instance : DecidableLT (Extended F)
  | finite a, finite b => inferInstanceAs (Decidable (a < b))
  | infinite s, infinite t => inferInstanceAs (Decidable (s = true ∧ t = false))
  | infinite s, finite _ => inferInstanceAs (Decidable (s = true))
  | finite _, infinite t => inferInstanceAs (Decidable (t = false))
  | nan, finite _ => isFalse nofun
  | nan, infinite _ => isFalse nofun
  | nan, nan => isFalse nofun
  | finite _, nan => isFalse nofun
  | infinite _, nan => isFalse nofun

instance : DecidableLE (Extended F)
  | finite a, finite b => inferInstanceAs (Decidable (a ≤ b))
  | infinite s, infinite t => inferInstanceAs (Decidable (s = true ∨ t = false))
  | infinite s, finite _ => inferInstanceAs (Decidable (s = true))
  | finite _, infinite t => inferInstanceAs (Decidable (t = false))
  | nan, finite _ => isFalse nofun
  | nan, infinite _ => isFalse nofun
  | nan, nan => isFalse nofun
  | finite _, nan => isFalse nofun
  | infinite _, nan => isFalse nofun

@[simp] theorem finite_lt : finite a < finite b ↔ a < b := Iff.rfl

@[simp] theorem finite_le : finite a ≤ finite b ↔ a ≤ b := Iff.rfl

theorem IsFinite.not_le (hx : x.IsFinite) (hy : y.IsFinite) : ¬ x ≤ y ↔ y < x := by
  obtain ⟨a, rfl⟩ := hx
  obtain ⟨b, rfl⟩ := hy
  rw [finite_le, finite_lt, lt_iff_not_ge]

end Order

/-! ### Sums -/

section Sums

variable [Field F]

protected def neg : Extended F → Extended F
  | finite a => finite (-a)
  | infinite s => infinite !s
  | nan => nan

protected def add : Extended F → Extended F → Extended F
  | finite a, finite b => finite (a + b)
  | infinite s, infinite t => if s = t then infinite s else nan
  | infinite s, finite _ => infinite s
  | finite _, infinite t => infinite t
  | _, _ => nan

instance : Neg (Extended F) := ⟨Extended.neg⟩
instance : Add (Extended F) := ⟨Extended.add⟩
instance : Sub (Extended F) := ⟨fun a b => a.add b.neg⟩

@[simp] theorem finite_neg (a : F) : -finite a = finite (-a) := rfl

@[simp] theorem finite_add (a b : F) : finite a + finite b = finite (a + b) := rfl

@[simp] theorem finite_sub (a b : F) : finite a - finite b = finite (a - b) :=
  congrArg finite (sub_eq_add_neg a b).symm

/-- A loop that adds a value of the field each time. -/
theorem foldl_finite {α : Type} {f : Extended F → α → Extended F} {g : α → F} {l : List α}
    (h : ∀ total, ∀ x ∈ l, f (finite total) x = finite (total + g x)) (total : F) :
    l.foldl f (finite total) = finite (total + (l.map g).sum) := by
  induction l generalizing total with
  | nil => rw [List.map_nil, List.sum_nil, add_zero, List.foldl_nil]
  | cons x l ih =>
    rw [List.foldl_cons, h total x List.mem_cons_self, List.map_cons, List.sum_cons, ← add_assoc]
    exact ih (fun total y hy => h total y (List.mem_cons_of_mem x hy)) (total + g x)

theorem IsFinite.neg (hx : x.IsFinite) : (-x).IsFinite := by
  obtain ⟨a, rfl⟩ := hx
  exact ⟨_, finite_neg a⟩

theorem IsFinite.add (hx : x.IsFinite) (hy : y.IsFinite) : (x + y).IsFinite := by
  obtain ⟨a, rfl⟩ := hx
  obtain ⟨b, rfl⟩ := hy
  exact ⟨_, finite_add a b⟩

theorem IsFinite.sub (hx : x.IsFinite) (hy : y.IsFinite) : (x - y).IsFinite := by
  obtain ⟨a, rfl⟩ := hx
  obtain ⟨b, rfl⟩ := hy
  exact ⟨_, finite_sub a b⟩

end Sums

/-! ### Products -/

section Products

variable [Field F] [LinearOrder F]

protected def mul : Extended F → Extended F → Extended F
  | finite a, finite b => finite (a * b)
  | infinite s, infinite t => infinite (s ^^ t)
  | infinite s, finite b => if b = 0 then nan else infinite (s ^^ decide (b < 0))
  | finite a, infinite t => if a = 0 then nan else infinite (decide (a < 0) ^^ t)
  | _, _ => nan

/-- There is one zero, so its sign does not count in a quotient. -/
protected def div : Extended F → Extended F → Extended F
  | finite a, finite b =>
    if b = 0 then if a = 0 then nan else infinite (a < 0) else finite (a / b)
  | infinite s, finite b => infinite (s ^^ decide (b < 0))
  | finite _, infinite _ => finite 0
  | _, _ => nan

instance : Mul (Extended F) := ⟨Extended.mul⟩
instance : Div (Extended F) := ⟨Extended.div⟩

@[simp] theorem finite_mul (a b : F) : finite a * finite b = finite (a * b) := rfl

theorem finite_div (a : F) (hb : b ≠ 0) : finite a / finite b = finite (a / b) := by
  change Extended.div (finite a) (finite b) = _
  rw [Extended.div, if_neg hb]

theorem IsFinite.mul (hx : x.IsFinite) (hy : y.IsFinite) : (x * y).IsFinite := by
  obtain ⟨a, rfl⟩ := hx
  obtain ⟨b, rfl⟩ := hy
  exact ⟨_, finite_mul a b⟩

end Products

end Extended

end SpaceShooter.Library
