/-
# Loops that lower a bound and loops that select

A loop that lowers a value at each element to the largest one that the element allows ends with
the largest value that all of them allow.

A loop that keeps the best candidate seen so far may let it go for one that is worse by no more
than a tolerance. What it ends with is at most one tolerance for every step worse than anything
it has seen.
-/

import Mathlib.Algebra.Order.Field.Basic
import Mathlib.Tactic.Linarith
import Mathlib.Tactic.Ring

namespace SpaceShooter.Library

variable {α β F : Type}

theorem foldl_le_iff [LinearOrder F] [Zero F] {f : F → β → F} {allows : β → F → Prop} {l : List β}
    (h : ∀ r, ∀ x ∈ l, ∀ s, 0 < s → (s ≤ f r x ↔ s ≤ r ∧ allows x s)) (r : F) {s : F}
    (hs : 0 < s) : s ≤ l.foldl f r ↔ s ≤ r ∧ ∀ x ∈ l, allows x s := by
  induction l generalizing r with
  | nil => simp
  | cons x l ih =>
    rw [List.foldl_cons, ih (fun r y hy => h r y (List.mem_cons_of_mem x hy)) (f r x),
      h r x List.mem_cons_self s hs, List.forall_mem_cons, and_assoc]

/-! ### Selection with a tolerance -/

variable [Field F] [LinearOrder F]

/-- A step keeps the best candidate so far or takes the new one, and loses no more than the
tolerance on the other. -/
def Selects (score : α → F) (tolerance : F) (best new result : α) : Prop :=
  result = best ∧ score new ≤ score best + tolerance ∨
    result = new ∧ score best ≤ score new + tolerance

theorem Selects.eq_or_eq {score : α → F} {tolerance : F} {best new result : α}
    (h : Selects score tolerance best new result) : result = best ∨ result = new :=
  h.imp And.left And.left

theorem Selects.of {score : α → F} {tolerance : F} {best new result : α}
    (h : Selects score tolerance best new result) {P : α → Prop} (hbest : P best) (hnew : P new) :
    P result := by
  rcases h.eq_or_eq with heq | heq
  · rw [heq]
    exact hbest
  · rw [heq]
    exact hnew

variable [IsStrictOrderedRing F]

theorem Selects.score_le {score : α → F} {tolerance : F} {best new result : α}
    (h : Selects score tolerance best new result) (nonneg : 0 ≤ tolerance) :
    score best ≤ score result + tolerance ∧ score new ≤ score result + tolerance := by
  rcases h with ⟨rfl, hle⟩ | ⟨rfl, hle⟩
  · exact ⟨le_add_of_nonneg_right nonneg, hle⟩
  · exact ⟨hle, le_add_of_nonneg_right nonneg⟩

/-- A selection over a list ends with what it started with or with a candidate of the list,
and with a score that is close to the best of them. -/
theorem foldl_selects {step : α → β → α} {pick : β → α} {score : α → F} {tolerance : F}
    (nonneg : 0 ≤ tolerance) {P : α → Prop} {candidates : List β}
    (selects : ∀ best, P best → ∀ v ∈ candidates,
      Selects score tolerance best (pick v) (step best v))
    (picked : ∀ v ∈ candidates, P (pick v)) (start : α) (hstart : P start) :
    (candidates.foldl step start = start ∨ ∃ v ∈ candidates, candidates.foldl step start = pick v) ∧
      score start ≤ score (candidates.foldl step start) + candidates.length * tolerance ∧
      ∀ v ∈ candidates,
        score (pick v) ≤ score (candidates.foldl step start) + candidates.length * tolerance := by
  induction candidates generalizing start with
  | nil =>
    refine ⟨Or.inl rfl, ?_, nofun⟩
    simp
  | cons v candidates ih =>
    have hselects := selects start hstart v List.mem_cons_self
    obtain ⟨hkept, htaken⟩ := hselects.score_le nonneg
    have hstep := hselects.of hstart (picked v List.mem_cons_self)
    obtain ⟨hresult, hlow, hall⟩ := ih
      (fun best hbest u hu => selects best hbest u (List.mem_cons_of_mem v hu))
      (fun u hu => picked u (List.mem_cons_of_mem v hu)) (step start v) hstep
    rw [List.foldl_cons, List.length_cons]
    -- One more step costs one more tolerance.
    have hcount : ((candidates.length + 1 : ℕ) : F) * tolerance =
        candidates.length * tolerance + tolerance := by
      push_cast
      ring
    rw [hcount]
    refine ⟨?_, by linarith, fun u hu => ?_⟩
    · rcases hresult with hsame | ⟨u, hu, htail⟩
      · rcases hselects.eq_or_eq with heq | heq
        · exact Or.inl (hsame.trans heq)
        · exact Or.inr ⟨v, List.mem_cons_self, hsame.trans heq⟩
      · exact Or.inr ⟨u, List.mem_cons_of_mem v hu, htail⟩
    · rcases List.mem_cons.mp hu with rfl | hu
      · linarith
      · have htail := hall u hu
        linarith

section Good

variable {step : α → β → α} (pick : β → α) (score : α → F) {tolerance : F} {P : α → Prop}
  (good : α → Prop) {candidates : List β} {start : α}

end Good

end SpaceShooter.Library
