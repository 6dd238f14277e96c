/-
# Interleavings

Two lists interleave the same sequences when every key finds its own elements in the same
order in both. A fold whose steps commute across keys does not tell such lists apart.
-/

import Mathlib.Data.List.Basic

namespace SpaceShooter.Library.Interleaving

variable {α κ σ τ : Type} [DecidableEq κ] {key : α → κ}

/-- The elements of a key. -/
def own (key : α → κ) (k : κ) (items : List α) : List α := items.filter (key · = k)

/-- Every key finds the same sequence in both lists. -/
def Interleaves (key : α → κ) (xs ys : List α) : Prop := ∀ k, own key k xs = own key k ys

theorem own_cons_self (a : α) (items : List α) :
    own key (key a) (a :: items) = a :: own key (key a) items :=
  List.filter_cons_of_pos (decide_eq_true rfl)

theorem own_cons_other {a : α} {k : κ} (h : key a ≠ k) (items : List α) :
    own key k (a :: items) = own key k items :=
  List.filter_cons_of_neg (by simpa using h)

theorem own_append (k : κ) (xs ys : List α) :
    own key k (xs ++ ys) = own key k xs ++ own key k ys := List.filter_append ..

/-- Neighbours of different keys may change places. -/
theorem interleaves_swap {a b : α} (h : key a ≠ key b) (items : List α) :
    Interleaves key (a :: b :: items) (b :: a :: items) := by
  intro k
  by_cases ha : key a = k
  · have hb : key b ≠ k := fun hb => h (ha.trans hb.symm)
    subst ha
    rw [own_cons_self, own_cons_other hb, own_cons_other hb, own_cons_self]
  · rw [own_cons_other ha]
    by_cases hb : key b = k
    · subst hb
      rw [own_cons_self, own_cons_self, own_cons_other ha]
    · rw [own_cons_other hb, own_cons_other hb, own_cons_other ha]

theorem Interleaves.nil_left {ys : List α} (h : Interleaves key [] ys) : ys = [] := by
  cases ys with
  | nil => rfl
  | cons b ys =>
    have hempty := h (key b)
    rw [own_cons_self] at hempty
    cases hempty

/-- The first element of one list stands in the other behind elements of other keys only. -/
theorem Interleaves.exists_split {a : α} {xs ys : List α} (h : Interleaves key (a :: xs) ys) :
    ∃ before after, ys = before ++ a :: after ∧ (∀ b ∈ before, key b ≠ key a) ∧
      Interleaves key xs (before ++ after) := by
  have hfirst := h (key a)
  rw [own_cons_self] at hfirst
  obtain ⟨before, after, rfl, hbefore, -, hafter⟩ := List.filter_eq_cons_iff.mp hfirst.symm
  have hothers : ∀ b ∈ before, key b ≠ key a := fun b hb => by simpa using hbefore b hb
  refine ⟨before, after, rfl, hothers, fun k => ?_⟩
  by_cases hk : key a = k
  · subst hk
    have hnone : own key (key a) before = [] :=
      List.filter_eq_nil_iff.mpr fun b hb => by simpa using hothers b hb
    rw [own_append, hnone, List.nil_append]
    exact hafter.symm
  · have hsame := h k
    rwa [own_cons_other hk, own_append, own_cons_other hk, ← own_append] at hsame

/-- Steps that keep an invariant and commute across keys. -/
structure Commutes (key : α → κ) (Inv : σ → Prop) (step : σ → α → σ) : Prop where
  keeps : ∀ s a, Inv s → Inv (step s a)
  swap : ∀ s a b, Inv s → key a ≠ key b → step (step s a) b = step (step s b) a

variable {Inv : σ → Prop} {step : σ → α → σ}

omit [DecidableEq κ] in
/-- An element moves before elements of other keys. -/
theorem Commutes.foldl_middle (h : Commutes key Inv step) {a : α} {before : List α}
    (hbefore : ∀ b ∈ before, key b ≠ key a) (after : List α) {s : σ} (hs : Inv s) :
    (before ++ a :: after).foldl step s = (before ++ after).foldl step (step s a) := by
  induction before generalizing s with
  | nil => rfl
  | cons b before ih =>
    obtain ⟨hfirst, hrest⟩ := List.forall_mem_cons.mp hbefore
    calc (b :: before ++ a :: after).foldl step s
      _ = (before ++ after).foldl step (step (step s b) a) := ih hrest (h.keeps s b hs)
      _ = (before ++ after).foldl step (step (step s a) b) := by rw [h.swap s b a hs hfirst]
      _ = (b :: before ++ after).foldl step (step s a) := rfl

/-- The fold depends on what each key does, not on how the keys interleave. -/
theorem Commutes.foldl_eq (h : Commutes key Inv step) {xs ys : List α}
    (hinterleaves : Interleaves key xs ys) {s : σ} (hs : Inv s) :
    xs.foldl step s = ys.foldl step s := by
  induction xs generalizing ys s with
  | nil => rw [hinterleaves.nil_left]
  | cons a xs ih =>
    obtain ⟨before, after, rfl, hbefore, hrest⟩ := hinterleaves.exists_split
    rw [List.foldl_cons, ih hrest (h.keeps s a hs), h.foldl_middle hbefore after hs]

omit [DecidableEq κ] in
/-- A view of the state that follows every step follows the fold. -/
theorem foldl_view {Inv : σ → Prop} {step : σ → α → σ} {view : σ → τ} {step' : τ → α → τ}
    (keeps : ∀ s a, Inv s → Inv (step s a))
    (follows : ∀ s a, Inv s → view (step s a) = step' (view s) a) (items : List α) {s : σ}
    (hs : Inv s) : view (items.foldl step s) = items.foldl step' (view s) := by
  induction items generalizing s with
  | nil => rfl
  | cons a items ih => rw [List.foldl_cons, ih (keeps s a hs), follows s a hs, List.foldl_cons]

end SpaceShooter.Library.Interleaving
