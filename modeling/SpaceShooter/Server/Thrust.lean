/-
# Thrust from rest

A ship with the default engine that thrusts from rest gains speed along its heading, as long
as a tick is neither too short for its thrust to reach the stop threshold nor so long that the
drag takes all of it. The length of a tick comes from the rate that the world is created with.
-/

import SpaceShooter.Common.ShipPhysics
import SpaceShooter.Server.EdgeMotion
import SpaceShooter.Server.WorldTick

namespace SpaceShooter.Server.World

open Scalar Domain Library Library.Plane Math

/-- The tick interval that the constructor derives from a rate, in microseconds. -/
def tickInterval (tick_rate_hz : ℚ) : Except StdException ℕ :=
  if tick_rate_hz ≤ 0 then
    .error (.invalid_argument "WorldInstance: tick_rate_hz must be positive")
  else
    -- The conversion truncates.
    let tick_interval := ⌊1 / tick_rate_hz * 1000000⌋.toNat
    .ok (if tick_interval < 1 then 1 else tick_interval)

section Reals

attribute [local instance] RealScalar.stdMath

/-! ### The speed of one tick -/

/-- The speed that a tick of thrust leaves a ship at rest with, before the stop threshold. -/
noncomputable def thrustSpeed (thrust_power drag dt : ℝ) : ℝ :=
  thrust_power * dt * dragFactor drag dt

variable {thrust_power drag dt : ℝ}

theorem thrustSpeed_nonneg (hthrust : 0 ≤ thrust_power) (hdt : 0 ≤ dt) :
    0 ≤ thrustSpeed thrust_power drag dt :=
  mul_nonneg (mul_nonneg hthrust hdt) (dragFactor_nonneg drag dt)

theorem thrustSpeed_le (hthrust : 0 ≤ thrust_power) (hdrag : 0 < drag) (hdt : 0 ≤ dt) :
    thrustSpeed thrust_power drag dt ≤ thrust_power / drag := by
  have hbalance : 0 ≤ thrust_power / drag := div_nonneg hthrust hdrag.le
  have hgained : thrust_power / drag * drag * dt = thrust_power * dt := by
    rw [div_mul_cancel₀ _ hdrag.ne']
  have hle := balanced_mul_dragFactor_le hbalance hdrag.le hdt
  rw [hgained, add_mul] at hle
  exact (le_add_of_nonneg_left (mul_nonneg hbalance (dragFactor_nonneg drag dt))).trans hle

noncomputable def heading (angle : ℝ) : ℝ × ℝ := (StdMath.cos angle, StdMath.sin angle)

theorem sqrNorm_scaled_heading (angle s : ℝ) :
    sqrNorm (scaled s (heading angle)).1 (scaled s (heading angle)).2 = s ^ 2 :=
  sqrNorm_unit (unit_heading angle) s

/-- The velocity after a tick of thrust from rest, below the largest speed. -/
theorem nextVelocity_rest (angle : ℝ) {max_speed : ℝ}
    (hslow : thrustSpeed thrust_power drag dt ^ 2 ≤ max_speed ^ 2) :
    nextVelocity angle true thrust_power drag dt max_speed (0, 0) =
      stopped (scaled (thrustSpeed thrust_power drag dt) (heading angle)) := by
  have hthrust : scaled (dragFactor drag dt) (thrusted angle true thrust_power dt (0, 0)) =
      scaled (thrustSpeed thrust_power drag dt) (heading angle) := by
    unfold scaled thrusted thrustSpeed heading
    rw [if_pos rfl]
    refine Prod.ext ?_ ?_
    · ring
    · ring
  unfold nextVelocity limited
  rw [hthrust, sqrNorm_scaled_heading, if_neg hslow.not_gt]

/-- The stop threshold compares the speed with a tenth. -/
theorem stopped_scaled (angle : ℝ) {s : ℝ} (hs : 0 ≤ s) :
    stopped (scaled s (heading angle)) =
      scaled (if s < ((1 / 10 : ℚ) : ℝ) then 0 else s) (heading angle) := by
  have hthreshold : s ^ 2 < ((1 / 100 : ℚ) : ℝ) ↔ s < ((1 / 10 : ℚ) : ℝ) := by
    have hsquare : ((1 / 100 : ℚ) : ℝ) = ((1 / 10 : ℚ) : ℝ) ^ 2 := by norm_num
    rw [hsquare, pow_lt_pow_iff_left₀ hs (by norm_num) two_ne_zero]
  unfold stopped
  rw [sqrNorm_scaled_heading]
  by_cases hslow : s < ((1 / 10 : ℚ) : ℝ)
  · rw [if_pos (hthreshold.mpr hslow), if_pos hslow, scaled, mul_zero, mul_zero]
  · rw [if_neg (mt hthreshold.mp hslow), if_neg hslow]

/-! ### The default engine -/

/-- The speed after a tick of the default engine. -/
noncomputable def defaultSpeed (dt : ℝ) : ℝ :=
  thrustSpeed ((15 / 2 : ℚ) : ℝ) ((1 / 8 : ℚ) : ℝ) dt

theorem defaultSpeed_nonneg (hdt : 0 ≤ dt) : 0 ≤ defaultSpeed dt :=
  thrustSpeed_nonneg (by norm_num) hdt

theorem defaultSpeed_le_max (hdt : 0 ≤ dt) : defaultSpeed dt ^ 2 ≤ ((600 : ℚ) : ℝ) ^ 2 := by
  have hle : defaultSpeed dt ≤ ((15 / 2 : ℚ) : ℝ) / ((1 / 8 : ℚ) : ℝ) :=
    thrustSpeed_le (by norm_num) (by norm_num) hdt
  refine pow_le_pow_left₀ (defaultSpeed_nonneg hdt) (hle.trans ?_) 2
  norm_num

/-- Up to eight seconds the drag leaves something. -/
theorem defaultSpeed_eq (hdt : 0 ≤ dt) (hshort : dt ≤ 8) :
    defaultSpeed dt = 15 / 2 * dt * (1 - dt / 8) := by
  unfold defaultSpeed thrustSpeed dragFactor
  push_cast
  rw [if_neg (by linarith), if_neg (by linarith)]
  ring

theorem defaultSpeed_of_long (hlong : 8 ≤ dt) : defaultSpeed dt = 0 := by
  unfold defaultSpeed thrustSpeed dragFactor
  push_cast
  split_ifs with hneg
  · rw [mul_zero]
  · linarith
  · have hnone : 1 - 1 / 8 * dt = 0 := by linarith
    rw [hnone, mul_zero]

/-- Between these bounds the thrust of a tick reaches the stop threshold. -/
theorem tenth_le_defaultSpeed (hlow : 13356 / 1000000 ≤ dt) (hhigh : dt ≤ 7986644 / 1000000) :
    1 / 10 ≤ defaultSpeed dt := by
  rw [defaultSpeed_eq (by linarith) (by linarith)]
  -- The speed is a concave function of the length of the tick.
  have hconcave := mul_nonneg (sub_nonneg.mpr hlow) (sub_nonneg.mpr hhigh)
  linarith

/-! ### One tick of a world -/

/-- The length of a tick in seconds. -/
noncomputable def tickSeconds (tick_interval : ℕ) : ℝ := ((tick_interval / 1000000 : ℚ) : ℝ)

theorem secondsOfMicros_eq (n : ℕ) :
    (secondsOfMicros n : Extended ℝ) = .finite (tickSeconds n) := by
  change Extended.finite ((n : ℝ) / 1000000) = _
  rw [tickSeconds]
  push_cast
  rfl

theorem tickSeconds_nonneg (n : ℕ) : 0 ≤ tickSeconds n := by
  rw [tickSeconds]
  positivity

/-- A ship with the default engine that thrusts and is at rest. -/
structure Resting (ship : Entity (Extended ℝ)) (angle x y : ℝ) : Prop where
  live : ship.LiveShip
  engine : ∃ s, ship.ship = some s ∧ s.is_thrusting = true ∧
    s.thrust_power = World.kShipDefaultThrustPower ∧ s.drag = World.kShipDefaultDrag
  transform : ship.transform =
    some ⟨⟨.finite x, .finite y⟩, Vector2D.zero, .finite angle⟩

/-- The walls are farther away than a ship gets in a tick. -/
structure Away (width height reach x y : ℝ) : Prop where
  x : |x| + reach + eps ≤ width / 2
  y : |y| + reach + eps ≤ height / 2

/-- After a tick the ship of a slot has this speed along a heading. -/
structure Speeds (world' : World (Extended ℝ)) (i : ℕ) (angle speed : ℝ) : Prop where
  velocity : ∃ ship' t', world'.entities_.at? i = some ship' ∧ ship'.transform = some t' ∧
    t'.velocity = point (scaled speed (heading angle))

/-- The speed after a tick of the default engine, with the stop threshold applied. -/
noncomputable def keptSpeed (dt : ℝ) : ℝ :=
  if defaultSpeed dt < ((1 / 10 : ℚ) : ℝ) then 0 else defaultSpeed dt

theorem keptSpeed_nonneg (hdt : 0 ≤ dt) : 0 ≤ keptSpeed dt := by
  unfold keptSpeed
  split_ifs
  · exact le_rfl
  · exact defaultSpeed_nonneg hdt

theorem keptSpeed_le (hdt : 0 ≤ dt) : keptSpeed dt ≤ defaultSpeed dt := by
  unfold keptSpeed
  split_ifs
  · exact defaultSpeed_nonneg hdt
  · exact le_rfl

theorem integrate_resting {ship : Entity (Extended ℝ)} {angle x y : ℝ}
    (h : Resting ship angle x y) (hdt : 0 ≤ dt) :
    integrate ship ⟨⟨.finite x, .finite y⟩, Vector2D.zero, .finite angle⟩ (.finite dt) =
      ⟨point (x + (heading angle).1 * keptSpeed dt * dt,
          y + (heading angle).2 * keptSpeed dt * dt),
        point (scaled (keptSpeed dt) (heading angle)), .finite angle⟩ := by
  obtain ⟨s, hs, hthrusting, hpower, hdrag⟩ := h.engine
  -- A ship at rest has only its thrust, which is far below the largest speed.
  have hzero : (Vector2D.zero : Vector2D (Extended ℝ)) = point (0, 0) := zero_eq
  have hnext : nextVelocity angle true ((15 / 2 : ℚ) : ℝ) ((1 / 8 : ℚ) : ℝ) dt ((600 : ℚ) : ℝ)
      (0, 0) = scaled (keptSpeed dt) (heading angle) := by
    rw [nextVelocity_rest angle (defaultSpeed_le_max hdt)]
    exact stopped_scaled angle (defaultSpeed_nonneg hdt)
  have hphysics : updateShipPhysics ⟨.finite x, .finite y⟩ (point (0, 0)) (.finite angle) true
      (.finite ((15 / 2 : ℚ) : ℝ)) (.finite ((1 / 8 : ℚ) : ℝ)) (.finite dt)
      (.finite ((600 : ℚ) : ℝ)) =
        (point (x + (heading angle).1 * keptSpeed dt * dt,
            y + (heading angle).2 * keptSpeed dt * dt),
          point (scaled (keptSpeed dt) (heading angle))) := by
    rw [updateShipPhysics_point, hnext]
    rfl
  unfold integrate
  rw [h.live.1, hs]
  dsimp only
  rw [hthrusting, hpower, hdrag, hzero]
  exact congrArg
    (fun moved => (⟨moved.1, moved.2, .finite angle⟩ : TransformComponent (Extended ℝ))) hphysics

theorem exact_of_resting {ship : Entity (Extended ℝ)} {angle x y : ℝ}
    (h : Resting ship angle x y) : Exact ship where
  motion ht := by
    obtain rfl := Option.some.inj (h.transform.symm.trans ht)
    exact ⟨⟨⟨x, rfl⟩, y, rfl⟩, finitePoint_zero, angle, rfl⟩
  engine hs := by
    obtain ⟨s, hs', -, hpower, hdrag⟩ := h.engine
    obtain rfl := Option.some.inj (hs'.symm.trans hs)
    rw [hpower, hdrag]
    exact ⟨⟨_, rfl⟩, _, rfl⟩
  asteroid hasteroid := absurd (h.live.1.symm.trans hasteroid) EntityType.noConfusion

/-- A ship away from the walls does not reach them. -/
theorem abs_moved_le {side reach x c dt : ℝ} (hdt : 0 ≤ dt) (hc : |c| ≤ 1)
    (hreach : keptSpeed dt * dt ≤ reach) (haway : |x| + reach + eps ≤ side / 2) :
    |x + c * keptSpeed dt * dt| ≤ side / 2 := by
  have hmoved : 0 ≤ keptSpeed dt * dt := mul_nonneg (keptSpeed_nonneg hdt) hdt
  have heps : (0 : ℝ) ≤ eps := eps_nonneg
  calc |x + c * keptSpeed dt * dt|
      ≤ |x| + |c * keptSpeed dt * dt| := abs_add_le _ _
    _ = |x| + |c| * (keptSpeed dt * dt) := by rw [mul_assoc, abs_mul, abs_of_nonneg hmoved]
    _ ≤ |x| + 1 * (keptSpeed dt * dt) := by gcongr
    _ ≤ side / 2 := by linarith

/-- The tick of a resting ship: it ends with the kept speed along its heading. -/
theorem speeds_of_resting {world : World (Extended ℝ)} {width height : ℝ}
    (hwidth : world.world_width_ = .finite width)
    (hheight : world.world_height_ = .finite height) {i : ℕ} {ship : Entity (Extended ℝ)}
    {angle x y dt : ℝ} (hat : world.entities_.at? i = some ship) (h : Resting ship angle x y)
    (hdt : 0 ≤ dt) (haway : Away width height (defaultSpeed dt * dt) x y) :
    Speeds (world.updatePhysics (.finite dt)) i angle (keptSpeed dt) := by
  have hreach : keptSpeed dt * dt ≤ defaultSpeed dt * dt :=
    mul_le_mul_of_nonneg_right (keptSpeed_le hdt) hdt
  have hmoved : 0 ≤ defaultSpeed dt * dt := mul_nonneg (defaultSpeed_nonneg hdt) hdt
  have hwide : 2 * eps ≤ width := by linarith [haway.x, abs_nonneg x]
  have hhigh : 2 * eps ≤ height := by linarith [haway.y, abs_nonneg y]
  have hlive : ship.type ≠ .None := by
    rw [h.live.1]
    exact EntityType.noConfusion
  have hcos : |(heading angle).1| ≤ 1 := Real.abs_cos_le_one angle
  have hsin : |(heading angle).2| ≤ 1 := Real.abs_sin_le_one angle
  -- What the movement pass makes of a ship, the integrated motion known.
  obtain ⟨x', y', vx, vy, hintegrated, hwalls⟩ :=
    (moves_moveEntity hwide hhigh (exact_of_resting h) dt).moved hlive h.live.2 h.transform
  obtain ⟨xb, yb, vx', vy', hx, hy, hship⟩ := hwalls.ship h.live.1
  have hintegrated' := (integrate_resting h hdt).symm.trans hintegrated
  have hposition := congrArg TransformComponent.position hintegrated'
  have hvelocity := congrArg TransformComponent.velocity hintegrated'
  have hx' : x + (heading angle).1 * keptSpeed dt * dt = x' :=
    Extended.finite.inj (congrArg Vector2D.x hposition)
  have hy' : y + (heading angle).2 * keptSpeed dt * dt = y' :=
    Extended.finite.inj (congrArg Vector2D.y hposition)
  -- Inside the walls the ship keeps its velocity.
  obtain ⟨-, rfl⟩ := hx.kept (hx' ▸ abs_moved_le hdt hcos hreach haway.x)
  obtain ⟨-, rfl⟩ := hy.kept (hy' ▸ abs_moved_le hdt hsin hreach haway.y)
  have hat' : (world.updatePhysics (.finite dt)).entities_.at? i =
      some (moveEntity (.finite dt) (.finite width) (.finite height) ship) := by
    unfold updatePhysics updateMovementAndBounds
    rw [EntityPool.at?_map, hat, hwidth, hheight, Option.map_some]
  rw [hship] at hat'
  exact ⟨_, _, hat', rfl, hvelocity.symm⟩

theorem keptSpeed_of_slow {dt : ℝ} (hslow : defaultSpeed dt < 1 / 10) : keptSpeed dt = 0 := by
  refine if_pos ?_
  push_cast
  exact hslow

theorem keptSpeed_pos {dt : ℝ} (hfast : 1 / 10 ≤ defaultSpeed dt) : 0 < keptSpeed dt := by
  have hpos : (0 : ℝ) < 1 / 10 := by norm_num
  unfold keptSpeed
  push_cast
  rw [if_neg hfast.not_gt]
  exact hpos.trans_le hfast

theorem Speeds.unique {world' : World (Extended ℝ)} {i : ℕ} {angle s s' : ℝ}
    (h : Speeds world' i angle s) (h' : Speeds world' i angle s') : s = s' := by
  obtain ⟨ship, t, hat, ht, hv⟩ := h.velocity
  obtain ⟨ship', t', hat', ht', hv'⟩ := h'.velocity
  obtain rfl := Option.some.inj (hat.symm.trans hat')
  obtain rfl := Option.some.inj (ht.symm.trans ht')
  have hpoint := hv.symm.trans hv'
  have hcos : StdMath.cos angle * s = StdMath.cos angle * s' :=
    Extended.finite.inj (congrArg Vector2D.x hpoint)
  have hsin : StdMath.sin angle * s = StdMath.sin angle * s' :=
    Extended.finite.inj (congrArg Vector2D.y hpoint)
  have hunit : StdMath.cos angle ^ 2 + StdMath.sin angle ^ 2 = 1 := unit_heading angle
  calc s = (StdMath.cos angle ^ 2 + StdMath.sin angle ^ 2) * s := by rw [hunit, one_mul]
    _ = StdMath.cos angle * (StdMath.cos angle * s) +
        StdMath.sin angle * (StdMath.sin angle * s) := by ring
    _ = (StdMath.cos angle ^ 2 + StdMath.sin angle ^ 2) * s' := by
        rw [hcos, hsin]
        ring
    _ = s' := by rw [hunit, one_mul]

/-! ### Tick rates -/

/-- At a tick rate, thrust from rest leaves every ship with a speed of some kind. -/
def LeavesWith (tick_rate_hz : ℚ) (P : ℝ → Prop) : Prop :=
  ∀ n, tickInterval tick_rate_hz = .ok n → ∀ {world : World (Extended ℝ)} {width height : ℝ},
    world.world_width_ = .finite width → world.world_height_ = .finite height →
    ∀ {i ship angle x y}, world.entities_.at? i = some ship → Resting ship angle x y →
      Away width height (defaultSpeed (tickSeconds n) * tickSeconds n) x y →
      ∃ speed, P speed ∧ Speeds (world.updatePhysics (secondsOfMicros n)) i angle speed

/-- It is enough to look at the kept speed. -/
theorem leavesWith_of_keptSpeed {tick_rate_hz : ℚ} {n : ℕ} {P : ℝ → Prop}
    (hrate : tickInterval tick_rate_hz = .ok n) (hP : P (keptSpeed (tickSeconds n))) :
    LeavesWith tick_rate_hz P := by
  intro n' hrate' world width height hwidth hheight i ship angle x y hat hresting haway
  obtain rfl := Except.ok.inj (hrate.symm.trans hrate')
  rw [secondsOfMicros_eq]
  exact ⟨_, hP, speeds_of_resting hwidth hheight hat hresting (tickSeconds_nonneg n) haway⟩

/-- Thrust from rest takes effect at all rates whose ticks are neither too short nor too long;
ticks of eight seconds and more let the drag stop the ship. -/
theorem thrust_of_rate {tick_rate_hz : ℚ} {n : ℕ} (hrate : tickInterval tick_rate_hz = .ok n) :
    (13356 ≤ n → n ≤ 7986644 → LeavesWith tick_rate_hz (0 < ·)) ∧
      (8000000 ≤ n → LeavesWith tick_rate_hz (· = 0)) ∧ LeavesWith tick_rate_hz (0 ≤ ·) := by
  refine ⟨fun hlow hhigh => ?_, fun hlong => ?_, ?_⟩
  · have hlow' : (13356 : ℝ) ≤ n := by exact_mod_cast hlow
    have hhigh' : (n : ℝ) ≤ 7986644 := by exact_mod_cast hhigh
    refine leavesWith_of_keptSpeed (P := (0 < ·)) hrate
      (keptSpeed_pos (tenth_le_defaultSpeed ?_ ?_))
    · rw [tickSeconds]
      push_cast
      gcongr
    · rw [tickSeconds]
      push_cast
      gcongr
  · have hlong' : (8000000 : ℝ) ≤ n := by exact_mod_cast hlong
    refine leavesWith_of_keptSpeed (P := (· = 0)) hrate (keptSpeed_of_slow ?_)
    rw [defaultSpeed_of_long]
    · norm_num
    · rw [tickSeconds]
      push_cast
      linarith
  · exact leavesWith_of_keptSpeed hrate (keptSpeed_nonneg (tickSeconds_nonneg n))

/-! ### A ship at the origin -/

/-- A world of the default size with one ship, at rest at the origin. -/
noncomputable def restingWorld : World (Extended ℝ) :=
  { empty World.kDefaultWidth World.kDefaultHeight with
    entities_ := { storage_ := [some (outfitShip ⟨Vector2D.zero, lit 0⟩ [] (Entity.fresh 0))] } }

theorem resting_restingWorld :
    ∃ ship, restingWorld.entities_.at? 0 = some ship ∧ Resting ship 0 0 0 := by
  refine ⟨_, rfl, ⟨rfl, rfl⟩, ⟨_, rfl, rfl, rfl, rfl⟩, ?_⟩
  rw [zero_eq, ← lit_zero]
  rfl

theorem away_restingWorld {n : ℕ} (hn : n ≤ 10000000) :
    Away ((2000 : ℚ) : ℝ) ((2000 : ℚ) : ℝ)
      (defaultSpeed (tickSeconds n) * tickSeconds n) 0 0 := by
  have hn' : (n : ℝ) ≤ 10000000 := by exact_mod_cast hn
  have hdt : tickSeconds n ≤ 10 := by
    rw [tickSeconds]
    push_cast
    linarith
  have hspeed : defaultSpeed (tickSeconds n) ≤ 60 := by
    refine (thrustSpeed_le (by norm_num) (by norm_num) (tickSeconds_nonneg n)).trans ?_
    norm_num
  have hreach : defaultSpeed (tickSeconds n) * tickSeconds n ≤ 60 * 10 :=
    mul_le_mul hspeed hdt (tickSeconds_nonneg n) (by norm_num)
  have heps : (eps : ℝ) ≤ 1 := by
    rw [eps]
    norm_num
  have hroom : |(0 : ℝ)| + defaultSpeed (tickSeconds n) * tickSeconds n + eps ≤
      ((2000 : ℚ) : ℝ) / 2 := by
    rw [abs_zero]
    push_cast
    linarith
  exact ⟨hroom, hroom⟩

/-- At the default rate of 60 Hz. -/
theorem thrust_of_rate_default :
    ∃ speed, 0 < speed ∧ Speeds (restingWorld.updatePhysics (secondsOfMicros 16666)) 0 0 speed := by
  have hrate : tickInterval 60 = .ok 16666 := by decide +kernel
  obtain ⟨ship, hat, hresting⟩ := resting_restingWorld
  exact (thrust_of_rate hrate).1 (by norm_num) (by norm_num) _ hrate rfl rfl hat hresting
    (away_restingWorld (by norm_num))

theorem not_leavesWith_of_slow {tick_rate_hz : ℚ} {n : ℕ}
    (hrate : tickInterval tick_rate_hz = .ok n) (hn : n ≤ 10000000)
    (hslow : defaultSpeed (tickSeconds n) < 1 / 10) : ¬ LeavesWith tick_rate_hz (0 < ·) := by
  intro hleaves
  obtain ⟨ship, hat, hresting⟩ := resting_restingWorld
  have haway := away_restingWorld hn
  obtain ⟨speed, hpos, hspeed⟩ := hleaves n hrate rfl rfl hat hresting haway
  have hkept : Speeds (restingWorld.updatePhysics (.finite (tickSeconds n))) 0 0
      (keptSpeed (tickSeconds n)) :=
    speeds_of_resting rfl rfl hat hresting (tickSeconds_nonneg n) haway
  rw [← secondsOfMicros_eq, keptSpeed_of_slow hslow] at hkept
  exact hpos.ne' (hspeed.unique hkept)

/-- At 75 Hz the ship never leaves its place, for its speed stays below the stop threshold, and
at a tenth of a hertz the drag stops it. -/
theorem not_leavesWith_fastTicks :
    tickInterval 75 = .ok 13333 ∧ ¬ LeavesWith 75 (0 < ·) ∧
      tickInterval (1 / 10) = .ok 10000000 ∧ ¬ LeavesWith (1 / 10) (0 < ·) := by
  have hfast : tickInterval 75 = .ok 13333 := by decide +kernel
  have hslow : tickInterval (1 / 10) = .ok 10000000 := by decide +kernel
  refine ⟨hfast, not_leavesWith_of_slow hfast (by norm_num) ?_, hslow,
    not_leavesWith_of_slow hslow le_rfl ?_⟩
  · rw [tickSeconds, defaultSpeed_eq (by norm_num) (by norm_num)]
    norm_num
  · rw [tickSeconds, defaultSpeed_of_long (by norm_num)]
    norm_num

end Reals

end SpaceShooter.Server.World
