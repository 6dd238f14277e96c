/-
# Partial sorting

A partial sort puts the least elements of a list in front, in order, and leaves the
rest behind them in any order. Sorted by a key, it ranks whatever carries the keys.
-/

import Mathlib.Data.List.Perm.Basic
import Mathlib.Data.List.Sort
import Mathlib.Order.Defs.LinearOrder

namespace SpaceShooter.Library

variable {α β : Type*}

/-- A comparison under which "not smaller" is transitive. -/
structure StrictWeakOrder (lt : α → α → Bool) : Prop where
  asymm : ∀ a b, lt a b = true → lt b a = false
  trans_not : ∀ a b c, lt a b = false → lt b c = false → lt a c = false

/-- The first `count` elements of `ys` are the least of `xs`, in order. -/
structure PartiallySorted (lt : α → α → Bool) (count : ℕ) (xs ys : List α) : Prop where
  perm : ys.Perm xs
  sorted : (ys.take count).Pairwise fun a b => lt b a = false
  least : ∀ a ∈ ys.take count, ∀ b ∈ ys.drop count, lt b a = false

/-- What a partial sort promises for every comparison that is a strict weak order. -/
def PartiallySorts (sort : (α → α → Bool) → ℕ → List α → List α) : Prop :=
  ∀ lt, StrictWeakOrder lt → ∀ count xs, count ≤ xs.length →
    PartiallySorted lt count xs (sort lt count xs)

/-- Comparing by a key from the greatest down. -/
theorem strictWeakOrder_of_key {κ : Type*} [LinearOrder κ] (key : α → κ) :
    StrictWeakOrder fun a b => decide (key b < key a) where
  asymm a b h := by
    rw [decide_eq_true_eq] at h
    exact decide_eq_false (lt_asymm h)
  trans_not a b c hab hbc := by
    rw [decide_eq_false_iff_not, not_lt] at *
    exact le_trans hab hbc

/-- Sorting a whole list is a partial sort. -/
theorem partiallySorts_insertionSort :
    PartiallySorts fun (lt : α → α → Bool) _ xs => xs.insertionSort fun a b => lt b a = false := by
  intro lt order count xs _
  have htotal : Std.Total fun a b => lt b a = false := by
    constructor
    intro a b
    cases h : lt b a with
    | false => exact Or.inl rfl
    | true => exact Or.inr (order.asymm b a h)
  have htrans : IsTrans α fun a b => lt b a = false :=
    ⟨fun a b c hab hbc => order.trans_not c b a hbc hab⟩
  have hsorted := List.pairwise_insertionSort (fun a b => lt b a = false) xs
  refine ⟨List.perm_insertionSort _ xs, hsorted.sublist (List.take_sublist count _), ?_⟩
  rw [← List.take_append_drop count (xs.insertionSort _), List.pairwise_append] at hsorted
  exact hsorted.2.2

/-- A partial sort of keys ranks the elements that carry them. -/
theorem PartiallySorted.of_map {lt : β → β → Bool} {count : ℕ} {f : α → β} {xs : List α}
    {ys : List β} (h : PartiallySorted lt count (xs.map f) ys) :
    ∃ ranked, ranked.Perm xs ∧ ys = ranked.map f ∧
      PartiallySorted (fun a b => lt (f a) (f b)) count xs ranked := by
  obtain ⟨ranked, rfl, hranked⟩ :=
    (congrFun (congrFun (List.eq_map_comp_perm f) ys) xs).mpr h.perm
  refine ⟨ranked, hranked, rfl, hranked, ?_, ?_⟩
  · have hsorted := h.sorted
    rwa [← List.map_take, List.pairwise_map] at hsorted
  · intro a ha b hb
    refine h.least _ ?_ _ ?_
    · rw [← List.map_take]
      exact List.mem_map_of_mem ha
    · rw [← List.map_drop]
      exact List.mem_map_of_mem hb

end SpaceShooter.Library
