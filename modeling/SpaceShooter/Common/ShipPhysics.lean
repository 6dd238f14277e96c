/-
# The speed of ships

The movement of a ship in exact arithmetic: its velocity is pushed along the heading, slowed
down by the drag, cut to the largest speed and set to zero when it is small. Thrust and drag
balance at a speed that no sequence of steps exceeds once the ship is below it.
-/

import SpaceShooter.Common.Config
import SpaceShooter.Common.RealScalar
import SpaceShooter.Common.WorldBounds
import SpaceShooter.Library.Plane

namespace SpaceShooter.Math

open Library Library.Plane Scalar

variable {F : Type} [Field F] [LinearOrder F]

/-- A vector of exact numbers. -/
def point (v : F × F) : Vector2D (Extended F) := ⟨.finite v.1, .finite v.2⟩

omit [Field F] [LinearOrder F] in
theorem exists_point {velocity : Vector2D (Extended F)} (h : FinitePoint velocity) :
    ∃ v, velocity = point v := by
  obtain ⟨⟨x, hx⟩, y, hy⟩ := h
  exact ⟨(x, y), congrArg₂ Vector2D.mk hx hy⟩

/-! ### The stages of a step -/

/-- The share of its speed that the drag leaves a ship. -/
def dragFactor (drag dt : F) : F :=
  if 1 - drag * dt < 0 then 0 else if 1 < 1 - drag * dt then 1 else 1 - drag * dt

def scaled (k : F) (v : F × F) : F × F := (v.1 * k, v.2 * k)

/-- The velocity with the stop threshold applied. -/
def stopped (v : F × F) : F × F :=
  if sqrNorm v.1 v.2 < ((1 / 100 : ℚ) : F) then (0, 0) else v

variable [StdMath F]

def thrusted (angle : F) (is_thrusting : Bool) (thrust_power dt : F) (v : F × F) : F × F :=
  if is_thrusting then
    (v.1 + StdMath.cos angle * thrust_power * dt, v.2 + StdMath.sin angle * thrust_power * dt)
  else
    v

/-- The velocity cut to the largest speed. -/
def limited (max_speed : F) (v : F × F) : F × F :=
  if max_speed ^ 2 < sqrNorm v.1 v.2 then
    scaled (max_speed / StdMath.sqrt (sqrNorm v.1 v.2)) v
  else
    v

/-- The velocity after a step, from exact numbers. -/
def nextVelocity (angle : F) (is_thrusting : Bool) (thrust_power drag dt max_speed : F)
    (v : F × F) : F × F :=
  stopped (limited max_speed
    (scaled (dragFactor drag dt) (thrusted angle is_thrusting thrust_power dt v)))

/-! ### The step in exact numbers -/

variable {angle thrust_power drag dt max_speed : F} {is_thrusting : Bool} {v : F × F}

theorem lengthSquared_point (v : F × F) :
    (point v).lengthSquared = .finite (sqrNorm v.1 v.2) := by
  rw [sqrNorm, sq, sq]
  rfl

theorem point_mul (v : F × F) (k : F) : point v * (.finite k : Extended F) = point (scaled k v) :=
  rfl

theorem clamp_dragFactor :
    (clamp (lit 1 - .finite drag * .finite dt) (lit 0) (lit 1) : Extended F) =
      .finite (dragFactor drag dt) := by
  have hone : (lit 1 : Extended F) = .finite 1 := congrArg Extended.finite Rat.cast_one
  rw [hone, lit_zero, Extended.finite_mul, Extended.finite_sub, dragFactor,
    apply_ite Extended.finite, apply_ite Extended.finite]
  rfl

variable [IsStrictOrderedRing F]

/-- The cut to the largest speed divides by a root that is not zero. -/
theorem limited_point (v : F × F) :
    (if (.finite max_speed * .finite max_speed : Extended F) < .finite (sqrNorm v.1 v.2) then
        point v * (.finite max_speed / Scalar.sqrt (.finite (sqrNorm v.1 v.2)) : Extended F)
      else point v) = point (limited max_speed v) := by
  have hcondition : (.finite max_speed * .finite max_speed : Extended F) <
      .finite (sqrNorm v.1 v.2) ↔ max_speed ^ 2 < sqrNorm v.1 v.2 := by
    rw [sq]
    exact Iff.rfl
  unfold limited
  by_cases hfast : max_speed ^ 2 < sqrNorm v.1 v.2
  · have hpos : 0 < sqrNorm v.1 v.2 := (sq_nonneg max_speed).trans_lt hfast
    rw [if_pos (hcondition.mpr hfast), if_pos hfast, sqrt_finite hpos.le,
      Extended.finite_div _ (StdMath.sqrt_pos hpos).ne', point_mul]
  · rw [if_neg (mt hcondition.mp hfast), if_neg hfast]

/-- The code's step is the exact one. -/
theorem updateShipPhysics_point (position : Vector2D (Extended F)) :
    updateShipPhysics position (point v) (.finite angle) is_thrusting (.finite thrust_power)
        (.finite drag) (.finite dt) (.finite max_speed) =
      (position + point (nextVelocity angle is_thrusting thrust_power drag dt max_speed v) *
          (.finite dt : Extended F),
        point (nextVelocity angle is_thrusting thrust_power drag dt max_speed v)) := by
  unfold updateShipPhysics
  lift_lets
  -- Each stage of the code is the one of the exact step, by the stage before it.
  extract_lets thrust drag_factor dragged speed_sqr cut stop final
  have hthrust : thrust = point (thrusted angle is_thrusting thrust_power dt v) := by
    unfold thrust thrusted
    cases is_thrusting <;> rfl
  have hdragged : dragged = point (scaled (dragFactor drag dt)
      (thrusted angle is_thrusting thrust_power dt v)) := by
    unfold dragged drag_factor
    rw [hthrust, clamp_dragFactor, point_mul]
  have hcut : cut = point (limited max_speed (scaled (dragFactor drag dt)
      (thrusted angle is_thrusting thrust_power dt v))) := by
    unfold cut speed_sqr
    rw [hdragged, lengthSquared_point, limited_point]
  have hfinal : final =
      point (nextVelocity angle is_thrusting thrust_power drag dt max_speed v) := by
    unfold final nextVelocity stopped
    rw [hcut, lengthSquared_point, apply_ite point, zero_eq]
    rfl
  rw [hfinal]

/-! ### Lengths -/

theorem length_point (v : F × F) :
    (point v).length = .finite (StdMath.sqrt (sqrNorm v.1 v.2)) := by
  rw [Vector2D.length, lengthSquared_point, sqrt_finite (sqrNorm_nonneg _ _)]

section Roots

variable (roots : ExactRoots F) {s : F} (hs : 0 ≤ s)
include roots

theorem sq_sqrt (v : F × F) : StdMath.sqrt (sqrNorm v.1 v.2) ^ 2 = sqrNorm v.1 v.2 := by
  rw [sq]
  exact roots.sqrt_mul_self (sqrNorm_nonneg _ _)

include hs

theorem length_le_iff : (point v).length ≤ .finite s ↔ sqrNorm v.1 v.2 ≤ s ^ 2 := by
  have hroot := roots.sqrt_nonneg (sqrNorm_nonneg v.1 v.2)
  rw [length_point, Extended.finite_le, ← pow_le_pow_iff_left₀ hroot hs two_ne_zero,
    sq_sqrt roots]

theorem le_length_iff : .finite s ≤ (point v).length ↔ s ^ 2 ≤ sqrNorm v.1 v.2 := by
  have hroot := roots.sqrt_nonneg (sqrNorm_nonneg v.1 v.2)
  rw [length_point, Extended.finite_le, ← pow_le_pow_iff_left₀ hs hroot two_ne_zero,
    sq_sqrt roots]

end Roots

/-! ### The speed after each stage -/

omit [StdMath F] in
theorem dragFactor_nonneg (drag dt : F) : 0 ≤ dragFactor drag dt := by
  unfold dragFactor
  split_ifs with hneg
  · exact le_rfl
  · exact zero_le_one
  · exact not_lt.mp hneg

omit [StdMath F] in
/-- The drag takes away what the thrust adds to the balanced speed, and more. -/
theorem balanced_mul_dragFactor_le {balance : F} (hbalance : 0 ≤ balance) (hdrag : 0 ≤ drag)
    (hdt : 0 ≤ dt) : (balance + balance * drag * dt) * dragFactor drag dt ≤ balance := by
  have hloss : 0 ≤ drag * dt := mul_nonneg hdrag hdt
  unfold dragFactor
  split_ifs with hneg hgains
  · rw [mul_zero]
    exact hbalance
  · linarith
  · calc (balance + balance * drag * dt) * (1 - drag * dt)
        = balance - balance * (drag * dt) ^ 2 := by ring
      _ ≤ balance := sub_le_self _ (mul_nonneg hbalance (sq_nonneg _))

theorem sqrNorm_thrusted_le {s : F} (hs : 0 ≤ s) (hpush : 0 ≤ thrust_power * dt)
    (hunit : sqrNorm (StdMath.cos angle) (StdMath.sin angle) = 1)
    (hv : sqrNorm v.1 v.2 ≤ s ^ 2) :
    sqrNorm (thrusted angle is_thrusting thrust_power dt v).1
        (thrusted angle is_thrusting thrust_power dt v).2 ≤ (s + thrust_power * dt) ^ 2 := by
  unfold thrusted
  cases is_thrusting with
  | false => exact hv.trans (pow_le_pow_left₀ hs (le_add_of_nonneg_right hpush) 2)
  | true =>
    rw [if_pos rfl, mul_assoc, mul_assoc]
    exact sqrNorm_push_le hs hpush hv hunit

theorem sqrNorm_limited (roots : ExactRoots F) (max_speed : F) (v : F × F) :
    sqrNorm (limited max_speed v).1 (limited max_speed v).2 =
      min (max_speed ^ 2) (sqrNorm v.1 v.2) := by
  unfold limited
  split_ifs with hfast
  · have hpos : 0 < sqrNorm v.1 v.2 := (sq_nonneg max_speed).trans_lt hfast
    rw [scaled, sqrNorm_scale, div_pow, sq_sqrt roots, mul_div_cancel₀ _ hpos.ne',
      min_eq_left hfast.le]
  · rw [min_eq_right (not_lt.mp hfast)]

omit [StdMath F] in
theorem sqrNorm_stopped_le (v : F × F) :
    sqrNorm (stopped v).1 (stopped v).2 ≤ sqrNorm v.1 v.2 := by
  unfold stopped
  split_ifs
  · exact sqrNorm_zero.trans_le (sqrNorm_nonneg _ _)
  · exact le_rfl

/-- No ship creeps: below the threshold it stands. -/
theorem length_stopped (roots : ExactRoots F) (v : F × F) :
    (point (stopped v)).length = .finite 0 ∨
      .finite (1 / 10) ≤ (point (stopped v)).length := by
  rw [le_length_iff roots (by norm_num), length_point]
  unfold stopped
  split_ifs with hslow
  · have hroot := sq_sqrt roots ((0, 0) : F × F)
    rw [sqrNorm_zero] at hroot ⊢
    exact Or.inl (congrArg Extended.finite (pow_eq_zero_iff two_ne_zero |>.mp hroot))
  · refine Or.inr (le_trans (le_of_eq ?_) (not_lt.mp hslow))
    norm_num

/-! ### Runs -/

/-- What a step depends on besides the engine of the ship. -/
structure Push (F : Type) [Field F] [LinearOrder F] where
  angle : F
  is_thrusting : Bool
  dt : F
  max_speed : F
  dt_nonneg : 0 ≤ dt
  max_speed_nonneg : 0 ≤ max_speed

/-- A step of a ship, from its position and velocity. -/
def Push.apply (thrust_power drag : F) (ship : Vector2D (Extended F) × Vector2D (Extended F))
    (push : Push F) : Vector2D (Extended F) × Vector2D (Extended F) :=
  updateShipPhysics ship.1 ship.2 (.finite push.angle) push.is_thrusting (.finite thrust_power)
    (.finite drag) (.finite push.dt) (.finite push.max_speed)

/-- The velocity after a step, from exact numbers. -/
def Push.next (thrust_power drag : F) (v : F × F) (push : Push F) : F × F :=
  nextVelocity push.angle push.is_thrusting thrust_power drag push.dt push.max_speed v

theorem Push.apply_point (push : Push F) (position : Vector2D (Extended F)) (v : F × F) :
    push.apply thrust_power drag (position, point v) =
      (position + point (push.next thrust_power drag v) * (.finite push.dt : Extended F),
        point (push.next thrust_power drag v)) :=
  updateShipPhysics_point position

theorem foldl_apply_point (thrust_power drag : F) (pushes : List (Push F))
    (position : Vector2D (Extended F)) (v : F × F) :
    ∃ position', pushes.foldl (Push.apply thrust_power drag) (position, point v) =
      (position', point (pushes.foldl (Push.next thrust_power drag) v)) := by
  induction pushes generalizing position v with
  | nil => exact ⟨position, rfl⟩
  | cons push pushes ih =>
    rw [List.foldl_cons, List.foldl_cons, push.apply_point]
    exact ih _ _

section Balance

variable (roots : ExactRoots F)
  (hunit : ∀ a : F, sqrNorm (StdMath.cos a) (StdMath.sin a) = 1)
  (hthrust : 0 ≤ thrust_power) (hdrag : 0 < drag)
include roots

theorem Push.sqrNorm_next_le_max (push : Push F) (v : F × F) :
    sqrNorm (push.next thrust_power drag v).1 (push.next thrust_power drag v).2 ≤
      push.max_speed ^ 2 := by
  refine (sqrNorm_stopped_le _).trans ?_
  rw [sqrNorm_limited roots]
  exact min_le_left _ _

include hunit hthrust hdrag

/-- A step does not take a ship beyond the speed at which thrust and drag balance. -/
theorem Push.sqrNorm_next_le (push : Push F)
    (hv : sqrNorm v.1 v.2 ≤ (thrust_power / drag) ^ 2) :
    sqrNorm (push.next thrust_power drag v).1 (push.next thrust_power drag v).2 ≤
      (thrust_power / drag) ^ 2 := by
  have hbalance : 0 ≤ thrust_power / drag := div_nonneg hthrust hdrag.le
  have hpush : 0 ≤ thrust_power * push.dt := mul_nonneg hthrust push.dt_nonneg
  have hgained : thrust_power * push.dt = thrust_power / drag * drag * push.dt := by
    rw [div_mul_cancel₀ _ hdrag.ne']
  have hfactor := dragFactor_nonneg drag push.dt
  -- The stop and the cut only shorten, so the thrust and the drag decide.
  refine (sqrNorm_stopped_le _).trans ?_
  rw [sqrNorm_limited roots]
  refine (min_le_right _ _).trans ?_
  rw [scaled, sqrNorm_scale]
  calc _ ≤ (thrust_power / drag + thrust_power * push.dt) ^ 2 * dragFactor drag push.dt ^ 2 :=
        mul_le_mul_of_nonneg_right
          (sqrNorm_thrusted_le hbalance hpush (hunit push.angle) hv) (sq_nonneg _)
    _ = ((thrust_power / drag + thrust_power * push.dt) * dragFactor drag push.dt) ^ 2 :=
        (mul_pow _ _ 2).symm
    _ ≤ (thrust_power / drag) ^ 2 := by
        refine pow_le_pow_left₀ (mul_nonneg (add_nonneg hbalance hpush) hfactor) ?_ 2
        rw [hgained]
        exact balanced_mul_dragFactor_le hbalance hdrag.le push.dt_nonneg

theorem sqrNorm_foldl_next_le (pushes : List (Push F))
    (hv : sqrNorm v.1 v.2 ≤ (thrust_power / drag) ^ 2) :
    sqrNorm (pushes.foldl (Push.next thrust_power drag) v).1
        (pushes.foldl (Push.next thrust_power drag) v).2 ≤ (thrust_power / drag) ^ 2 := by
  induction pushes generalizing v with
  | nil => exact hv
  | cons push pushes ih =>
    exact ih (push.sqrNorm_next_le roots hunit hthrust hdrag hv)

end Balance

/-! ### Real numbers -/

section Reals

attribute [local instance] RealScalar.stdMath

/-- The speed of a ship over a whole run, whatever the headings, the thrusting, the lengths of
the steps and their largest speeds. -/
theorem speed_of_run {thrust_power drag : ℝ} (hthrust : 0 ≤ thrust_power) (hdrag : 0 < drag)
    (position : Vector2D (Extended ℝ)) {velocity : Vector2D (Extended ℝ)}
    (hvelocity : FinitePoint velocity) (pushes : List (Push ℝ)) :
    (∀ push : Push ℝ,
      let ship := pushes.foldl (Push.apply thrust_power drag) (position, velocity)
      let ship' := push.apply thrust_power drag ship
      ship'.2.length ≤ .finite push.max_speed ∧
        (ship'.2.length = .finite 0 ∨ .finite (1 / 10) ≤ ship'.2.length) ∧
        ship'.1 = ship.1 + ship'.2 * (.finite push.dt : Extended ℝ)) ∧
      (velocity.length ≤ .finite (thrust_power / drag) →
        (pushes.foldl (Push.apply thrust_power drag) (position, velocity)).2.length ≤
          .finite (thrust_power / drag)) ∧
      (World.kShipDefaultThrustPower = Extended.finite thrust_power →
        World.kShipDefaultDrag = Extended.finite drag → thrust_power / drag = 60) := by
  obtain ⟨v, rfl⟩ := exists_point hvelocity
  have hbalance : 0 ≤ thrust_power / drag := div_nonneg hthrust hdrag.le
  obtain ⟨position', hrun⟩ := foldl_apply_point thrust_power drag pushes position v
  rw [hrun]
  refine ⟨fun push => ?_, fun hv => ?_, fun hpower hloss => ?_⟩
  · dsimp only
    rw [push.apply_point]
    refine ⟨?_, ?_, rfl⟩
    · rw [length_le_iff exactRoots_real push.max_speed_nonneg]
      exact push.sqrNorm_next_le_max exactRoots_real _
    · exact length_stopped exactRoots_real _
  · rw [length_le_iff exactRoots_real hbalance] at hv ⊢
    exact sqrNorm_foldl_next_le exactRoots_real unit_heading hthrust hdrag pushes hv
  · have hpower' : ((15 / 2 : ℚ) : ℝ) = thrust_power := Extended.finite.inj hpower
    have hloss' : ((1 / 8 : ℚ) : ℝ) = drag := Extended.finite.inj hloss
    rw [← hpower', ← hloss']
    norm_num

/-- A default ship thrusts from rest, for two ticks of a sixtieth of a second. -/
theorem speed_of_run_twoTicks :
    let push : Push ℝ := ⟨0, true, 1 / 60, 600, by norm_num, by norm_num⟩
    ([push, push].foldl (Push.apply (15 / 2) (1 / 8)) (Vector2D.zero, Vector2D.zero)).2.length ≤
      .finite 60 := by
  intro push
  have hbalance : (15 / 2 : ℝ) / (1 / 8) = 60 := by norm_num
  have hrest : (Vector2D.zero : Vector2D (Extended ℝ)).length ≤ .finite (15 / 2 / (1 / 8)) := by
    rw [hbalance, zero_eq]
    change (point ((0, 0) : ℝ × ℝ)).length ≤ _
    rw [length_le_iff exactRoots_real (by norm_num), sqrNorm_zero]
    norm_num
  have hrun := (speed_of_run (by norm_num) (by norm_num) Vector2D.zero
    (finitePoint_zero : FinitePoint (Vector2D.zero : Vector2D (Extended ℝ))) [push, push]).2.1 hrest
  rwa [hbalance] at hrun

end Reals

end SpaceShooter.Math
