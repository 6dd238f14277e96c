/-
# Outcomes of stateful programs that may fail

A program of `EStateM` ends in a state whether it returns or throws. A relation that
is reflexive and transitive holds between the first and the last state of every
outcome when each step keeps to it.
-/

import Mathlib.Data.List.Basic

namespace SpaceShooter.Library.Outcome

variable {ε σ α β : Type}

/-- The state a program ends in, whether it returned or threw. -/
def resultState : EStateM.Result ε σ α → σ
  | .ok _ state => state
  | .error _ state => state

/-- A sequence goes on only from a state that was returned. -/
theorem bind_apply (program : EStateM ε σ α) (k : α → EStateM ε σ β) (s : σ) :
    (program >>= k) s =
      match program s with
      | .ok value s' => k value s'
      | .error e s' => .error e s' := by
  change EStateM.bind program k s = _
  unfold EStateM.bind
  cases program s with
  | ok value s' => rfl
  | error e s' => rfl

/-- A sequence returns when its parts do. -/
theorem bind_eq_ok {program : EStateM ε σ α} {k : α → EStateM ε σ β} {s t : σ} {result : β} :
    (program >>= k) s = .ok result t ↔
      ∃ value u, program s = .ok value u ∧ k value u = .ok result t := by
  rw [bind_apply]
  cases program s with
  | ok value u =>
    constructor
    · exact fun h => ⟨value, u, rfl, h⟩
    · rintro ⟨_, _, heq, h⟩
      cases heq
      exact h
  | error e u => exact iff_of_false nofun fun ⟨_, _, heq, _⟩ => nomatch heq

/-- Every outcome is related to the state the program started from. -/
def Keeps (R : σ → σ → Prop) (program : EStateM ε σ α) : Prop :=
  ∀ s, R s (resultState (program s))

theorem keeps_of_forall {R : σ → σ → Prop} {f : σ → σ} (h : ∀ s, R s (f s)) :
    Keeps R (modify f : EStateM ε σ PUnit) := h

theorem keeps_throw {R : σ → σ → Prop} (hrefl : ∀ s, R s s) (e : ε) :
    Keeps R (throw e : EStateM ε σ α) := hrefl

/-- Reading the state, then going on from it. -/
theorem keeps_get_bind {R : σ → σ → Prop} {k : σ → EStateM ε σ β}
    (h : ∀ s, R s (resultState (k s s))) : Keeps R (get >>= k) := h

theorem Keeps.bind {R : σ → σ → Prop} (htrans : ∀ a b c, R a b → R b c → R a c)
    {program : EStateM ε σ α} {k : α → EStateM ε σ β} (h : Keeps R program)
    (hk : ∀ value, Keeps R (k value)) : Keeps R (program >>= k) := by
  intro s
  have hfirst := h s
  rw [bind_apply]
  cases hresult : program s with
  | ok value s' =>
    rw [hresult] at hfirst
    exact htrans _ _ _ hfirst (hk value s')
  | error e s' =>
    rw [hresult] at hfirst
    exact hfirst

/-- A program run for each element of a list. -/
theorem keeps_forM {R : σ → σ → Prop} (hrefl : ∀ s, R s s)
    (htrans : ∀ a b c, R a b → R b c → R a c) {body : α → EStateM ε σ PUnit} {items : List α}
    (h : ∀ item ∈ items, Keeps R (body item)) : Keeps R (items.forM body) := by
  induction items with
  | nil => exact hrefl
  | cons item items ih =>
    change Keeps R (body item >>= fun _ => items.forM body)
    refine Keeps.bind htrans (h item List.mem_cons_self) fun _ => ih ?_
    exact fun other hmem => h other (List.mem_cons_of_mem item hmem)

/-- Steps that change nothing, one after the other. -/
theorem forM_eq_self {body : α → EStateM ε σ PUnit} {items : List α} {s : σ}
    (h : ∀ item ∈ items, body item s = .ok ⟨⟩ s) : items.forM body s = .ok ⟨⟩ s := by
  induction items with
  | nil => rfl
  | cons item items ih =>
    obtain ⟨hfirst, hrest⟩ := List.forall_mem_cons.mp h
    change (body item >>= fun _ => items.forM body) s = .ok ⟨⟩ s
    rw [bind_apply, hfirst]
    exact ih hrest

/-- Steps that return from every state of an invariant and stay in it, one after the other. -/
theorem forM_ok {I : σ → Prop} {body : α → EStateM ε σ PUnit} {items : List α}
    (h : ∀ item ∈ items, ∀ s, I s → ∃ t, body item s = .ok ⟨⟩ t ∧ I t) {s : σ} (hs : I s) :
    ∃ t, items.forM body s = .ok ⟨⟩ t ∧ I t := by
  induction items generalizing s with
  | nil => exact ⟨s, rfl, hs⟩
  | cons item items ih =>
    obtain ⟨hfirst, hrest⟩ := List.forall_mem_cons.mp h
    obtain ⟨u, hu, hinv⟩ := hfirst s hs
    obtain ⟨t, ht, hend⟩ := ih hrest hinv
    refine ⟨t, ?_, hend⟩
    change (body item >>= fun _ => items.forM body) s = .ok ⟨⟩ t
    rw [bind_apply, hu]
    exact ht

/-- Nested loops run through the elements of the flattened list. -/
theorem forM_flatMap {rows : List β} {row : β → List α} {body : α → EStateM ε σ PUnit} :
    (rows.flatMap row).forM body = rows.forM fun item => (row item).forM body := by
  simp only [List.forM_eq_forM]
  induction rows with
  | nil => rfl
  | cons item rows ih => rw [List.flatMap_cons, List.forM_append, ih, List.forM_cons]

/-! ### Tallies of loops -/

variable {τ : Type}

/-- What the steps of a loop enter, until one throws. -/
def tally (body : α → EStateM ε σ PUnit) (entries : σ → α → List τ) : List α → σ → List τ
  | [], _ => []
  | item :: items, s =>
    match body item s with
    | .ok _ t => entries s item ++ tally body entries items t
    | .error _ _ => entries s item

/-- What the entries of each step say of the step, the tally says of the loop. -/
theorem tally_induction {R : σ → List τ → σ → Prop} (hrefl : ∀ s, R s [] s)
    (htrans : ∀ s l t l' u, R s l t → R t l' u → R s (l ++ l') u)
    {body : α → EStateM ε σ PUnit} {entries : σ → α → List τ} {items : List α}
    (h : ∀ item ∈ items, ∀ s, R s (entries s item) (resultState (body item s))) (s : σ) :
    R s (tally body entries items s) (resultState (items.forM body s)) := by
  induction items generalizing s with
  | nil => exact hrefl s
  | cons item items ih =>
    have hfirst := h item List.mem_cons_self s
    have hrest := ih fun other hmem => h other (List.mem_cons_of_mem item hmem)
    change R s _ (resultState ((body item >>= fun _ => items.forM body) s))
    rw [bind_apply, tally]
    cases hresult : body item s with
    | ok value t =>
      rw [hresult] at hfirst
      exact htrans _ _ _ _ _ hfirst (hrest t)
    | error e t =>
      rw [hresult] at hfirst
      exact hfirst

/-- The tally of the first part of a loop begins that of the loop. -/
theorem tally_append_prefix (body : α → EStateM ε σ PUnit) (entries : σ → α → List τ)
    (first rest : List α) (s : σ) :
    tally body entries first s <+: tally body entries (first ++ rest) s := by
  induction first generalizing s with
  | nil => exact List.nil_prefix
  | cons item first ih =>
    rw [List.cons_append, tally, tally]
    cases body item s with
    | ok value t => exact List.prefix_append_right_inj _ |>.mpr (ih t)
    | error e t => exact List.prefix_rfl

/-- The rest of a loop goes on from the state in which its first part ends. -/
theorem keeps_forM_append {R : σ → σ → Prop} (hrefl : ∀ s, R s s)
    {body : α → EStateM ε σ PUnit} {first rest : List α} (h : Keeps R (rest.forM body)) (s : σ) :
    R (resultState (first.forM body s)) (resultState ((first ++ rest).forM body s)) := by
  induction first generalizing s with
  | nil => exact h s
  | cons item first ih =>
    change R (resultState ((body item >>= fun _ => first.forM body) s))
      (resultState ((body item >>= fun _ => (first ++ rest).forM body) s))
    rw [bind_apply, bind_apply]
    cases body item s with
    | ok value t => exact ih t
    | error e t => exact hrefl t

end SpaceShooter.Library.Outcome
