/-
# Rosters

A roster assigns items to owners, and some items are live. It corresponds when the
assignment is a bijection between the owners with an item and the live items. Owners
quit with their items, items are lost, the owners of lost items are struck off, and
owners are given fresh items.
-/

import Mathlib.Data.Set.Function
import Mathlib.Logic.Function.Basic

namespace SpaceShooter.Library

/-- The live items and the item of each owner. -/
@[ext] structure Roster (S I : Type*) where
  live : Set I
  item : S → Option I

namespace Roster

variable {S I : Type*} {r : Roster S I}

/-- No item has two owners, and each live item has one. -/
structure Owned (r : Roster S I) : Prop where
  injective : ∀ {s s' i}, r.item s = some i → r.item s' = some i → s = s'
  owned : ∀ {i}, i ∈ r.live → ∃ s, r.item s = some i

/-- Beyond that, owners have live items only. -/
structure Corresponds (r : Roster S I) : Prop extends Owned r where
  resolves : ∀ {s i}, r.item s = some i → i ∈ r.live

/-- Correspondence is a bijection of the owners that have an item and the live items. -/
theorem corresponds_iff_bijOn :
    r.Corresponds ↔ Set.BijOn r.item {s | (r.item s).isSome} (Set.image some r.live) := by
  constructor
  · intro h
    refine ⟨fun s hs => ?_, fun s hs s' _ heq => ?_, ?_⟩
    · obtain ⟨i, hi⟩ := Option.isSome_iff_exists.mp hs
      exact ⟨i, h.resolves hi, hi.symm⟩
    · obtain ⟨i, hi⟩ := Option.isSome_iff_exists.mp hs
      exact h.injective hi (heq.symm.trans hi)
    · rintro _ ⟨i, hi, rfl⟩
      obtain ⟨s, hs⟩ := h.owned hi
      exact ⟨s, Option.isSome_iff_exists.mpr ⟨i, hs⟩, hs⟩
  · rintro ⟨hmaps, hinjective, hsurjective⟩
    refine ⟨⟨fun {s s' i} hs hs' => ?_, fun {i} hi => ?_⟩, fun {s i} hs => ?_⟩
    · exact hinjective (Option.isSome_iff_exists.mpr ⟨i, hs⟩)
        (Option.isSome_iff_exists.mpr ⟨i, hs'⟩) (hs.trans hs'.symm)
    · obtain ⟨s, -, hs⟩ := hsurjective ⟨i, hi, rfl⟩
      exact ⟨s, hs⟩
    · obtain ⟨j, hj, heq⟩ := hmaps (Option.isSome_iff_exists.mpr ⟨i, hs⟩)
      rw [hs, Option.some.injEq] at heq
      exact heq ▸ hj

/-! ### Losing items -/

/-- Items are lost and their owners keep them. -/
def lose (r : Roster S I) (lost : Set I) : Roster S I := ⟨r.live \ lost, r.item⟩

theorem Owned.lose (h : r.Owned) (lost : Set I) : (r.lose lost).Owned :=
  ⟨h.injective, fun hi => h.owned hi.1⟩

open Classical in
/-- Owners whose item is not live are struck off. -/
noncomputable def reap (r : Roster S I) : Roster S I :=
  ⟨r.live, fun s => (r.item s).filter fun i => decide (i ∈ r.live)⟩

open Classical in
theorem item_reap {s : S} {i : I} : r.reap.item s = some i ↔ r.item s = some i ∧ i ∈ r.live := by
  rw [reap, Option.filter_eq_some_iff, decide_eq_true_eq]

theorem Owned.reap (h : r.Owned) : r.reap.Corresponds where
  injective hs hs' := h.injective (item_reap.mp hs).1 (item_reap.mp hs').1
  owned hi := by
    obtain ⟨s, hs⟩ := h.owned hi
    exact ⟨s, item_reap.mpr ⟨hs, hi⟩⟩
  resolves hs := (item_reap.mp hs).2

/-- A live item that has no owner. -/
def Orphan (r : Roster S I) (i : I) : Prop := i ∈ r.live ∧ ∀ s, r.item s ≠ some i

theorem Orphan.not_corresponds {i : I} (h : r.Orphan i) : ¬ r.Corresponds := by
  intro hcorresponds
  obtain ⟨s, hs⟩ := hcorresponds.owned h.1
  exact h.2 s hs

/-! ### Owners that come and go -/

variable [DecidableEq S]

/-- An owner quits and its item is gone. -/
def quit (r : Roster S I) (s : S) : Roster S I :=
  ⟨{i ∈ r.live | r.item s ≠ some i}, Function.update r.item s none⟩

theorem item_quit {s s' : S} {i : I} :
    (r.quit s).item s' = some i ↔ s' ≠ s ∧ r.item s' = some i := by
  change Function.update r.item s none s' = some i ↔ _
  rw [Function.update_apply]
  split_ifs with hs
  · exact iff_of_false nofun fun h => h.1 hs
  · exact (and_iff_right hs).symm

theorem Corresponds.quit (h : r.Corresponds) (s : S) : (r.quit s).Corresponds where
  injective hs hs' := h.injective (item_quit.mp hs).2 (item_quit.mp hs').2
  owned {i} hi := by
    obtain ⟨s', hs'⟩ := h.owned hi.1
    refine ⟨s', item_quit.mpr ⟨?_, hs'⟩⟩
    -- A live item that is left is not the one that went with its owner.
    rintro rfl
    exact hi.2 hs'
  resolves {s' i} hs' := by
    obtain ⟨hne, hs'⟩ := item_quit.mp hs'
    exact ⟨h.resolves hs', fun hs => hne (h.injective hs' hs)⟩

/-- An owner is given a new item, in place of the one it may have. -/
def spawn (r : Roster S I) (s : S) (i : I) : Roster S I :=
  ⟨insert i r.live, Function.update r.item s (some i)⟩

theorem item_spawn {s s' : S} {i j : I} :
    (r.spawn s i).item s' = some j ↔ s' = s ∧ i = j ∨ s' ≠ s ∧ r.item s' = some j := by
  change Function.update r.item s (some i) s' = some j ↔ _
  rw [Function.update_apply]
  split_ifs with hs
  · simp [hs]
  · simp [hs]

/-- Orphans stay orphans when fresh items are given out. -/
theorem Orphan.spawn {i j : I} (h : r.Orphan j) (s : S) (hne : i ≠ j) :
    (r.spawn s i).Orphan j := by
  refine ⟨Set.mem_insert_of_mem i h.1, fun s' hs' => ?_⟩
  rcases item_spawn.mp hs' with ⟨-, heq⟩ | ⟨-, hs'⟩
  · exact hne heq
  · exact h.2 s' hs'

/-- Giving a fresh item to an owner without one keeps the correspondence. -/
theorem Corresponds.spawn {i : I} {s : S} (h : r.Corresponds) (fresh : i ∉ r.live)
    (hs : r.item s = none) : (r.spawn s i).Corresponds where
  injective {a b j} ha hb := by
    rcases item_spawn.mp ha with ⟨rfl, rfl⟩ | ⟨-, hold⟩
    · rcases item_spawn.mp hb with ⟨rfl, -⟩ | ⟨-, hold⟩
      · rfl
      · exact absurd (h.resolves hold) fresh
    · rcases item_spawn.mp hb with ⟨rfl, rfl⟩ | ⟨-, hold'⟩
      · exact absurd (h.resolves hold) fresh
      · exact h.injective hold hold'
  owned {j} hj := by
    rcases hj with rfl | hj
    · exact ⟨s, item_spawn.mpr (Or.inl ⟨rfl, rfl⟩)⟩
    · obtain ⟨s', hs'⟩ := h.owned hj
      refine ⟨s', item_spawn.mpr (Or.inr ⟨?_, hs'⟩)⟩
      rintro rfl
      rw [hs] at hs'
      cases hs'
  resolves {s' j} hs' := by
    rcases item_spawn.mp hs' with ⟨-, rfl⟩ | ⟨-, hs'⟩
    · exact Set.mem_insert i r.live
    · exact Set.mem_insert_of_mem i (h.resolves hs')

/-- Giving a fresh item to an owner that has one orphans the old item. -/
theorem Corresponds.orphan_spawn {i j : I} {s : S} (h : r.Corresponds) (fresh : i ∉ r.live)
    (hs : r.item s = some j) : (r.spawn s i).Orphan j := by
  refine ⟨Set.mem_insert_of_mem i (h.resolves hs), fun s' hs' => ?_⟩
  rcases item_spawn.mp hs' with ⟨-, rfl⟩ | ⟨hne, hs'⟩
  · exact fresh (h.resolves hs)
  · exact hne (h.injective hs' hs)

end Roster

end SpaceShooter.Library
