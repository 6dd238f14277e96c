/-
# Things that are used up

A step of a system uses up some of the things that are alive in its state: they were alive
before it and are not any more behind it, and nothing comes to life. Along a run nothing is
used up twice.
-/

import Mathlib.Data.List.Nodup

namespace SpaceShooter.Library

variable {σ ρ : Type}

/-- Between two states each of these things was used up once. -/
structure UsesUp (alive : σ → ρ → Prop) (before : σ) (used : List ρ) (after : σ) : Prop where
  nodup : used.Nodup
  alive_before : ∀ x ∈ used, alive before x
  dead_after : ∀ x ∈ used, ¬ alive after x
  alive_of_alive : ∀ x, alive after x → alive before x

namespace UsesUp

variable {alive : σ → ρ → Prop}

theorem nil {s t : σ} (h : ∀ x, alive t x → alive s x) : UsesUp alive s [] t :=
  ⟨List.nodup_nil, nofun, nofun, h⟩

theorem singleton {s t : σ} {x : ρ} (hbefore : alive s x) (hafter : ¬ alive t x)
    (h : ∀ x, alive t x → alive s x) : UsesUp alive s [x] t where
  nodup := List.nodup_singleton x
  alive_before _ hx := List.mem_singleton.mp hx ▸ hbefore
  dead_after _ hx := List.mem_singleton.mp hx ▸ hafter
  alive_of_alive := h

/-- What was used up is not alive later, and so not used up again. -/
theorem trans {s t u : σ} {used used' : List ρ} (h : UsesUp alive s used t)
    (h' : UsesUp alive t used' u) : UsesUp alive s (used ++ used') u where
  nodup := by
    refine List.nodup_append.mpr ⟨h.nodup, h'.nodup, ?_⟩
    rintro x hx _ hx' rfl
    exact h.dead_after x hx (h'.alive_before x hx')
  alive_before x hx := by
    rcases List.mem_append.mp hx with hx | hx
    · exact h.alive_before x hx
    · exact h.alive_of_alive x (h'.alive_before x hx)
  dead_after x hx := by
    rcases List.mem_append.mp hx with hx | hx
    · exact fun halive => h.dead_after x hx (h'.alive_of_alive x halive)
    · exact h'.dead_after x hx
  alive_of_alive x hx := h.alive_of_alive x (h'.alive_of_alive x hx)

end UsesUp

end SpaceShooter.Library
