/-
# Executable labelled transition systems

A machine refuses a label or answers it with one next state. A run is a list of
labels that are answered one after the other. Safety properties follow from what
holds initially and is kept by every step; when a step keeps them only under a
guard, they hold along the runs all of whose steps meet the guard.
-/

import Mathlib.Data.List.Induction

namespace SpaceShooter.Library

/-- A transition system over states `σ` and labels `α`. -/
structure Machine (σ α : Type*) where
  init : σ
  step : σ → α → Option σ

namespace Machine

variable {σ α : Type*} (m : Machine σ α)

/-- Answer a list of labels from a state. -/
def runFrom : σ → List α → Option σ
  | s, [] => some s
  | s, a :: labels => (m.step s a).bind fun s' => runFrom s' labels

/-- Answer a list of labels from the initial state. -/
def run (labels : List α) : Option σ := m.runFrom m.init labels

/-- A state some run ends in. -/
def Reachable (s : σ) : Prop := ∃ labels, m.run labels = some s

variable {m}

@[simp] theorem runFrom_nil (s : σ) : m.runFrom s [] = some s := rfl

theorem runFrom_cons {s t : σ} {a : α} {labels : List α} :
    m.runFrom s (a :: labels) = some t ↔
      ∃ u, m.step s a = some u ∧ m.runFrom u labels = some t := by
  rw [runFrom, Option.bind_eq_some_iff]

theorem runFrom_append {s t : σ} {first second : List α} :
    m.runFrom s (first ++ second) = some t ↔
      ∃ u, m.runFrom s first = some u ∧ m.runFrom u second = some t := by
  induction first generalizing s with
  | nil => simp
  | cons a first ih =>
    rw [List.cons_append, runFrom_cons]
    constructor
    · rintro ⟨v, hstep, hrest⟩
      obtain ⟨u, hfirst, hsecond⟩ := ih.mp hrest
      exact ⟨u, runFrom_cons.mpr ⟨v, hstep, hfirst⟩, hsecond⟩
    · rintro ⟨u, hfirst, hsecond⟩
      obtain ⟨v, hstep, hrest⟩ := runFrom_cons.mp hfirst
      exact ⟨v, hstep, ih.mpr ⟨u, hrest, hsecond⟩⟩

/-- A run extended by one label. -/
theorem run_concat {labels : List α} {a : α} {t : σ} :
    m.run (labels ++ [a]) = some t ↔ ∃ s, m.run labels = some s ∧ m.step s a = some t := by
  rw [run, runFrom_append]
  simp only [runFrom_cons, runFrom_nil, Option.some.injEq, exists_eq_right, run]

variable (m) in
/-- Every step of the run meets a guard on the state before it and its label. -/
def Meets (guard : σ → α → Prop) (labels : List α) : Prop :=
  ∀ before a after, labels = before ++ a :: after → ∀ s, m.run before = some s → guard s a

theorem Meets.of_append {guard : σ → α → Prop} {first second : List α}
    (h : m.Meets guard (first ++ second)) : m.Meets guard first := by
  intro before a after heq s hs
  refine h before a (after ++ second) ?_ s hs
  rw [heq, List.append_assoc, List.cons_append]

theorem Meets.nil (guard : σ → α → Prop) : m.Meets guard [] :=
  fun before _ _ heq => by cases before <;> cases heq

theorem Meets.concat {guard : σ → α → Prop} {labels : List α} {a : α}
    (h : m.Meets guard labels) (last : ∀ s, m.run labels = some s → guard s a) :
    m.Meets guard (labels ++ [a]) := by
  intro before b after heq s hs
  rcases List.eq_nil_or_concat after with rfl | ⟨rest, c, rfl⟩
  · obtain ⟨rfl, hlast⟩ := List.append_inj' heq rfl
    exact List.singleton_inj.mp hlast ▸ last s hs
  · rw [List.concat_eq_append, ← List.cons_append, ← List.append_assoc] at heq
    exact h before b rest (List.append_inj' heq rfl).1 s hs

theorem Meets.last {guard : σ → α → Prop} {labels : List α} {a : α}
    (h : m.Meets guard (labels ++ [a])) {s : σ} (hs : m.run labels = some s) : guard s a :=
  h labels a [] rfl s hs

/-- What holds initially, and is kept by each step that meets the guard, holds at
the end of every run that meets it. The property may speak about the run. -/
theorem guarded_induction (guard : σ → α → Prop) {motive : List α → σ → Prop}
    (init : motive [] m.init)
    (step : ∀ labels s a t, m.run labels = some s → m.Meets guard (labels ++ [a]) →
      motive labels s → guard s a → m.step s a = some t → motive (labels ++ [a]) t)
    {labels : List α} {t : σ} (meets : m.Meets guard labels)
    (h : m.run labels = some t) : motive labels t := by
  induction labels using List.reverseRecOn generalizing t with
  | nil =>
    rw [run, runFrom_nil, Option.some.injEq] at h
    exact h ▸ init
  | append_singleton labels a ih =>
    obtain ⟨s, hs, hstep⟩ := run_concat.mp h
    exact step labels s a t hs meets (ih meets.of_append hs) (meets.last hs) hstep

variable (m) in
/-- Whether every step of a run from a state meets a decidable guard. -/
def checks (guard : σ → α → Prop) [∀ s a, Decidable (guard s a)] : σ → List α → Bool
  | _, [] => true
  | s, a :: labels =>
    decide (guard s a) &&
      match m.step s a with
      | none => true
      | some t => checks guard t labels

theorem checks_cons {guard : σ → α → Prop} [∀ s a, Decidable (guard s a)] {s : σ} {a : α}
    {labels : List α} (h : m.checks guard s (a :: labels) = true) :
    guard s a ∧ ∀ t, m.step s a = some t → m.checks guard t labels = true := by
  rw [checks, Bool.and_eq_true, decide_eq_true_eq] at h
  refine ⟨h.1, fun t ht => ?_⟩
  simpa only [ht] using h.2

/-- A guard that was checked along a list of labels is met by it. -/
theorem meets_of_checks {guard : σ → α → Prop} [∀ s a, Decidable (guard s a)]
    {labels : List α} (h : m.checks guard m.init labels = true) : m.Meets guard labels := by
  rintro before a after rfl s hs
  rw [run] at hs
  generalize m.init = start at h hs
  induction before generalizing start with
  | nil =>
    obtain rfl := Option.some.inj hs
    exact (checks_cons h).1
  | cons b before ih =>
    obtain ⟨u, hstep, hrest⟩ := runFrom_cons.mp hs
    exact ih u ((checks_cons h).2 u hstep) hrest

theorem meets_true (labels : List α) : m.Meets (fun _ _ => True) labels :=
  fun _ _ _ _ _ _ => trivial

/-- What holds initially and is kept by every step holds at the end of every run. -/
theorem run_induction {motive : List α → σ → Prop}
    (init : motive [] m.init)
    (step : ∀ labels s a t, m.run labels = some s → motive labels s → m.step s a = some t →
      motive (labels ++ [a]) t)
    {labels : List α} {t : σ} (h : m.run labels = some t) : motive labels t :=
  guarded_induction (fun _ _ => True) init
    (fun labels s a t hs _ hm _ hstep => step labels s a t hs hm hstep) (meets_true labels) h

/-- What the labels of a run keep from one state to the next, the run keeps. -/
theorem runFrom_induction {motive : σ → Prop} {labels : List α} {s t : σ}
    (step : ∀ u, ∀ a ∈ labels, ∀ v, motive u → m.step u a = some v → motive v)
    (hs : motive s) (h : m.runFrom s labels = some t) : motive t := by
  induction labels generalizing s with
  | nil => exact Option.some.inj h ▸ hs
  | cons a labels ih =>
    obtain ⟨u, hstep, hrest⟩ := runFrom_cons.mp h
    exact ih (fun v b hb => step v b (List.mem_cons_of_mem a hb))
      (step s a List.mem_cons_self u hs hstep) hrest

/-- An invariant of the states alone. -/
theorem invariant {motive : σ → Prop} (init : motive m.init)
    (step : ∀ s a t, motive s → m.step s a = some t → motive t)
    {s : σ} (h : m.Reachable s) : motive s := by
  obtain ⟨labels, hrun⟩ := h
  exact run_induction (motive := fun _ s => motive s) init
    (fun _ s a t _ hs hstep => step s a t hs hstep) hrun

end Machine

end SpaceShooter.Library
