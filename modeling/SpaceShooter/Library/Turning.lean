/-
# Turning on a circle

An angle counts up to full turns; its representative is the one in `(-h, h]`, where `h` is half
a turn. A bounded step along the shorter arc to a target shortens that arc by its own length,
also across the seam at half a turn, and the steps reach the target when together they are as
long as half a turn.
-/

import Mathlib.Algebra.Order.ToIntervalMod

namespace SpaceShooter.Library.Turning

variable {G : Type*} [AddCommGroup G] [LinearOrder G] [IsOrderedAddMonoid G] [Archimedean G]
variable {h : G} (hh : 0 < h) {a b s margin current target : G}

noncomputable section

/-- The representative of an angle in `(-h, h]`. -/
def wrap (a : G) : G := toIocMod (add_pos hh hh) (-h) a

/-- The shorter way from one angle to another, with its direction. -/
def arc (current target : G) : G := wrap hh (target - current)

/-- Turn by `s` along the arc to the target, or to the target if the arc is longer by no more
than a margin. -/
def turn (s margin current target : G) : G :=
  if |arc hh current target| ≤ s + margin then wrap hh target
  else wrap hh (current + if arc hh current target < 0 then -s else s)

end

/-! ### Representatives -/

theorem wrap_eq_iff :
    wrap hh a = b ↔ (-h < b ∧ b ≤ h) ∧ ∃ n : ℤ, a = b + n • (h + h) := by
  have hright : -h + (h + h) = h := neg_add_cancel_left h h
  rw [wrap, toIocMod_eq_iff, Set.mem_Ioc, hright]

theorem wrap_mem (a : G) : -h < wrap hh a ∧ wrap hh a ≤ h := ((wrap_eq_iff hh).mp rfl).1

theorem exists_eq_wrap_add (a : G) : ∃ n : ℤ, a = wrap hh a + n • (h + h) :=
  ((wrap_eq_iff hh).mp rfl).2

theorem wrap_of_mem (hlow : -h < a) (hhigh : a ≤ h) : wrap hh a = a := by
  refine (wrap_eq_iff hh).mpr ⟨⟨hlow, hhigh⟩, 0, ?_⟩
  rw [zero_zsmul, add_zero]

theorem abs_wrap_le (a : G) : |wrap hh a| ≤ h :=
  abs_le.mpr ⟨(wrap_mem hh a).1.le, (wrap_mem hh a).2⟩

/-- Full turns do not matter. -/
theorem wrap_add_turns (a : G) (n : ℤ) : wrap hh (a + n • (h + h)) = wrap hh a :=
  toIocMod_add_zsmul (add_pos hh hh) (-h) a n

theorem wrap_wrap_add (a b : G) : wrap hh (wrap hh a + b) = wrap hh (a + b) := by
  obtain ⟨n, hn⟩ := exists_eq_wrap_add hh a
  calc wrap hh (wrap hh a + b) = wrap hh (wrap hh a + b + n • (h + h)) :=
        (wrap_add_turns hh _ n).symm
    _ = wrap hh (a + b) := by rw [add_right_comm, ← hn]

theorem wrap_sub_wrap (a b : G) : wrap hh (b - wrap hh a) = wrap hh (b - a) := by
  obtain ⟨n, hn⟩ := exists_eq_wrap_add hh a
  calc wrap hh (b - wrap hh a) = wrap hh (b - wrap hh a + -n • (h + h)) :=
        (wrap_add_turns hh _ (-n)).symm
    _ = wrap hh (b - a) := by
        rw [neg_zsmul, ← sub_eq_add_neg, sub_sub, ← hn]

/-- An arc does not depend on the representatives of its ends. -/
theorem arc_wrap_wrap (a b : G) : arc hh (wrap hh a) (wrap hh b) = arc hh a b := by
  rw [arc, arc, wrap_sub_wrap, sub_eq_add_neg, wrap_wrap_add, ← sub_eq_add_neg]

theorem arc_wrap_left (a b : G) : arc hh (wrap hh a) b = arc hh a b := wrap_sub_wrap hh a b

theorem arc_self (a : G) : arc hh a a = 0 := by
  rw [arc, sub_self]
  exact wrap_of_mem hh (neg_neg_of_pos hh) hh.le

/-! ### Steps -/

theorem turn_mem (s margin current target : G) :
    -h < turn hh s margin current target ∧ turn hh s margin current target ≤ h := by
  unfold turn
  split_ifs
  · exact wrap_mem hh _
  · exact wrap_mem hh _
  · exact wrap_mem hh _

/-- A step that is shorter than the arc leaves the rest of it. -/
theorem arc_turn_of_lt (hs : 0 ≤ s) (hlt : s < |arc hh current target|) :
    |arc hh (wrap hh (current + if arc hh current target < 0 then -s else s)) target| =
      |arc hh current target| - s := by
  obtain ⟨hlow, hhigh⟩ := wrap_mem hh (target - current)
  have hrest (t : G) : arc hh (wrap hh (current + t)) target =
      wrap hh (arc hh current target - t) := by
    rw [arc_wrap_left, arc, arc, sub_eq_add_neg (wrap hh _), wrap_wrap_add, ← sub_eq_add_neg,
      sub_sub]
  rw [hrest]
  change -h < arc hh current target at hlow
  change arc hh current target ≤ h at hhigh
  generalize arc hh current target = d at hlt hlow hhigh ⊢
  -- What is left of the arc keeps its sign, so it does not cross the seam.
  split_ifs with hneg
  · rw [abs_of_neg hneg] at hlt ⊢
    have hleft : d + s < 0 := (add_comm d s).trans_lt (lt_neg_iff_add_neg.mp hlt)
    rw [sub_neg_eq_add, wrap_of_mem hh (hlow.trans_le (le_add_of_nonneg_right hs))
      (hleft.le.trans hh.le), abs_of_neg hleft, neg_add, sub_eq_add_neg]
  · rw [abs_of_nonneg (not_lt.mp hneg)] at hlt ⊢
    have hleft : 0 < d - s := sub_pos.mpr hlt
    rw [wrap_of_mem hh ((neg_neg_of_pos hh).trans hleft) ((sub_le_self d hs).trans hhigh),
      abs_of_pos hleft]

theorem abs_arc_turn (hs : 0 ≤ s) (hmargin : 0 ≤ margin) (current target : G) :
    |arc hh (turn hh s margin current target) target| =
      if |arc hh current target| ≤ s + margin then 0 else |arc hh current target| - s := by
  by_cases hnear : |arc hh current target| ≤ s + margin
  · rw [turn, if_pos hnear, if_pos hnear, arc_wrap_left, arc_self, abs_zero]
  · rw [turn, if_neg hnear, if_neg hnear]
    exact arc_turn_of_lt hh hs ((le_add_of_nonneg_right hmargin).trans_lt (not_le.mp hnear))

/-- From the target no step leads away. -/
theorem turn_of_arc_eq_zero (hs : 0 ≤ s) (hmargin : 0 ≤ margin)
    (harc : arc hh current target = 0) : turn hh s margin current target = wrap hh target := by
  rw [turn, harc, abs_zero, if_pos (add_nonneg hs hmargin)]

/-! ### Runs -/

/-- After some steps the target is reached, or they have all gone into the arc and some of it
is left. -/
theorem arc_iterate_turn (hs : 0 ≤ s) (hmargin : 0 ≤ margin) (current target : G) (n : ℕ) :
    (turn hh s margin · target)^[n + 1] current = wrap hh target ∨
      0 < |arc hh ((turn hh s margin · target)^[n + 1] current) target| ∧
        |arc hh ((turn hh s margin · target)^[n + 1] current) target| + (n + 1) • s ≤ h := by
  -- One step from an arc that with the steps before it is no longer than half a turn.
  have hstep (k : ℕ) (angle : G) (hle : |arc hh angle target| + k • s ≤ h) :
      turn hh s margin angle target = wrap hh target ∨
        0 < |arc hh (turn hh s margin angle target) target| ∧
          |arc hh (turn hh s margin angle target) target| + (k + 1) • s ≤ h := by
    by_cases hnear : |arc hh angle target| ≤ s + margin
    · exact Or.inl (if_pos hnear)
    · right
      rw [abs_arc_turn hh hs hmargin, if_neg hnear, succ_nsmul', ← add_assoc, sub_add_cancel]
      exact ⟨sub_pos.mpr ((le_add_of_nonneg_right hmargin).trans_lt (not_le.mp hnear)), hle⟩
  induction n with
  | zero =>
    refine hstep 0 current ?_
    rw [zero_nsmul, add_zero]
    exact abs_wrap_le hh _
  | succ n ih =>
    rw [Function.iterate_succ_apply']
    rcases ih with hreached | ⟨-, hle⟩
    · left
      rw [hreached]
      exact turn_of_arc_eq_zero hh hs hmargin ((arc_wrap_left hh _ _).trans (arc_self hh _))
    · exact hstep (n + 1) _ hle

/-- Steps that together are as long as half a turn reach the target. -/
theorem iterate_turn (hs : 0 ≤ s) (hmargin : 0 ≤ margin) (current target : G) {n : ℕ}
    (hn : h ≤ n • s) : (turn hh s margin · target)^[n] current = wrap hh target := by
  cases n with
  | zero =>
    rw [zero_nsmul] at hn
    exact absurd hh hn.not_gt
  | succ n =>
    rcases arc_iterate_turn hh hs hmargin current target n with hreached | ⟨hpos, hle⟩
    · exact hreached
    · exact absurd (hle.trans hn) (lt_add_of_pos_left _ hpos).not_ge

end SpaceShooter.Library.Turning
