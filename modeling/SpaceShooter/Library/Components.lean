/-
# Components of a machine

The state of a machine may hold components that come into being during a run and then make
steps of their own. What is told to a component is part of the state around it; so each
component has a run of its own, with the same words in the same order.
-/

import SpaceShooter.Library.Machine

namespace SpaceShooter.Library

namespace Machine

variable {σ α ι τ β γ : Type*}

/-- The words that a list of labels carries. -/
def words (word : β → Option γ) (labels : List β) : List γ := labels.filterMap word

theorem words_append (word : β → Option γ) (first second : List β) :
    words word (first ++ second) = words word first ++ words word second :=
  List.filterMap_append

theorem words_singleton (word : β → Option γ) (label : β) :
    words word [label] = (word label).toList := by
  rw [words, List.filterMap_cons]
  cases word label with
  | none => rfl
  | some w => rfl

/-- What becomes of one component in a step of the machine around it, and of the words that were
told to it: it comes into being, stays as it was, or makes a step. -/
inductive Moves (part : Machine τ β) (word : β → Option γ) :
    Option τ → List γ → τ → List γ → Prop
  | born : Moves part word none [] part.init []
  | stay (c : τ) (told : List γ) : Moves part word (some c) told c told
  | step (c : τ) (told : List γ) (label : β) (c' : τ) (answers : part.step c label = some c') :
      Moves part word (some c) told c' (told ++ (word label).toList)

/-- What a step offers to a component decides on what becomes of it. -/
theorem moves_of_offer {part : Machine τ β} {word : β → Option γ} {before : Option τ} {c : τ}
    {told told' : List γ} (offer : Option β)
    (accepts : ∀ label ∈ offer, ∃ b, before = some b ∧ part.step b label = some c)
    (waits : offer = none → before = some c ∨ before = none ∧ c = part.init ∧ told = [])
    (hears : told' = told ++ (offer.bind word).toList) : Moves part word before told c told' := by
  cases offer with
  | none =>
    obtain rfl := hears.trans (List.append_nil told)
    rcases waits rfl with rfl | ⟨rfl, rfl, rfl⟩
    · exact .stay c told'
    · exact .born
  | some label =>
    obtain ⟨b, rfl, answers⟩ := accepts label rfl
    exact hears ▸ .step b told label c answers

/-- A component has made a run of its own to the words that it was told. -/
def Ran (part : Machine τ β) (word : β → Option γ) (c : τ) (told : List γ) : Prop :=
  ∃ labels, part.run labels = some c ∧ words word labels = told

variable {part : Machine τ β} {word : β → Option γ}

theorem Ran.moves {before : Option τ} {told told' : List γ} {c : τ}
    (ran : ∀ b ∈ before, Ran part word b told) (h : Moves part word before told c told') :
    Ran part word c told' := by
  cases h with
  | born => exact ⟨[], rfl, rfl⟩
  | stay => exact ran _ rfl
  | step b _ label _ answers =>
    obtain ⟨labels, hrun, hwords⟩ := ran b rfl
    refine ⟨labels ++ [label], run_concat.mpr ⟨b, hrun, answers⟩, ?_⟩
    rw [words_append, hwords, words_singleton]

/-- Every component of a reached state has made a run of its own. -/
theorem ran_of_run {m : Machine σ α} (component : σ → ι → Option τ)
    (parts : σ → ι → Machine τ β) (told : σ → ι → List γ)
    (init : ∀ i, component m.init i = none)
    (moves : ∀ s a t, m.Reachable s → m.step s a = some t →
      ∀ i c, component t i = some c →
      Moves (parts t i) word (component s i) (told s i) c (told t i))
    (steady : ∀ s a t, m.step s a = some t → ∀ i, (component s i).isSome →
      parts t i = parts s i)
    {labels : List α} {s : σ} (run : m.run labels = some s) {i : ι} {c : τ}
    (h : component s i = some c) : Ran (parts s i) word c (told s i) := by
  refine run_induction
    (motive := fun _ s => ∀ i c, component s i = some c → Ran (parts s i) word c (told s i))
    ?_ ?_ run i c h
  · intro i c h
    rw [init i] at h
    cases h
  · intro before s a t hrun ih hstep i c h
    refine Ran.moves (fun b hb => ?_) (moves s a t ⟨before, hrun⟩ hstep i c h)
    have known : (component s i).isSome := Option.isSome_iff_exists.mpr ⟨b, hb⟩
    rw [steady s a t hstep i known]
    exact ih i b hb

end Machine

end SpaceShooter.Library
