/-
# Plane geometry of the world

The world is a rectangle centred at the origin. This module has the turning and the
movement of a ship, the treatment of the world's edges, the search for free room, the
collision test of two circles and the elastic impulse, over any scalars.
-/

import SpaceShooter.Common.Scalar

namespace SpaceShooter.Math

open Scalar

variable {K : Type} [Scalar K]

/-- The same angle in `(-pi, pi]`. -/
def normalizeAngle (angle_rad : K) : K :=
  let two_kPi : K := lit 2 * pi
  let ans := remainder angle_rad two_kPi
  -- `remainder` rounds a half to even, so an odd number of half turns may leave either end.
  if eq ans (-pi) then pi else ans

/-- Turn toward a target by at most one step, the shorter way round. -/
def rotateTowards (current_angle target_angle max_angular_velocity dt : K) : K :=
  let max_step := max_angular_velocity * dt
  let cur := normalizeAngle current_angle
  let tgt := normalizeAngle target_angle
  let delta := normalizeAngle (tgt - cur)
  if fabs delta ≤ max_step + kEps then tgt
  else normalizeAngle (cur + copysign max_step delta)

/-- Position and velocity of a ship after one tick of thrust and linear drag. -/
def updateShipPhysics (position velocity : Vector2D K) (angle : K) (is_thrusting : Bool)
    (thrust_power drag dt : K) (max_speed : K := lit 600) : Vector2D K × Vector2D K :=
  let velocity : Vector2D K :=
    if is_thrusting then
      ⟨velocity.x + cos angle * thrust_power * dt, velocity.y + sin angle * thrust_power * dt⟩
    else
      velocity
  -- Drag never turns a ship around.
  let drag_factor := clamp (lit 1 - drag * dt) (lit 0) (lit 1)
  let velocity := velocity * drag_factor
  let speed_sqr := velocity.lengthSquared
  let velocity :=
    if max_speed * max_speed < speed_sqr then velocity * (max_speed / sqrt speed_sqr)
    else velocity
  -- A ship that is slow enough stops.
  let kStopThresholdSqr : K := lit (1 / 100)
  let velocity := if velocity.lengthSquared < kStopThresholdSqr then Vector2D.zero else velocity
  (position + velocity * dt, velocity)

/-- Clamp a position into the world, a margin away from its edges. -/
def clampToWorldBounds (position : Vector2D K) (world_width world_height : K) : Vector2D K :=
  let half_w := world_width * lit (1 / 2) - kEps
  let half_h := world_height * lit (1 / 2) - kEps
  ⟨clamp position.x (-half_w) half_w, clamp position.y (-half_h) half_h⟩

/-- Wrap a circle that has left the world to the opposite edge. -/
def wrapCircleThroughWorldBounds (position : Vector2D K) (radius world_width world_height : K) :
    Vector2D K :=
  let half_w := world_width * lit (1 / 2)
  let half_h := world_height * lit (1 / 2)
  let x :=
    if position.x + radius < -half_w then half_w + radius
    else if half_w < position.x - radius then -half_w - radius
    else position.x
  let y :=
    if position.y + radius < -half_h then half_h + radius
    else if half_h < position.y - radius then -half_h - radius
    else position.y
  ⟨x, y⟩

/-- Whether a circle touches two opposite edges of the world. -/
def circleIntersectsOppositeWorldBounds (position : Vector2D K)
    (radius world_width world_height : K) : Bool :=
  if !isfinite position.x || !isfinite position.y || !isfinite radius || radius < lit 0 then
    false
  else if !isfinite world_width || !isfinite world_height ||
      world_width ≤ lit 0 || world_height ≤ lit 0 then
    false
  else
    let half_width := world_width * lit (1 / 2)
    let half_height := world_height * lit (1 / 2)
    -- The points of the edges nearest to the centre.
    let nearest_y := clamp position.y (-half_height) half_height
    let nearest_x := clamp position.x (-half_width) half_width
    let radius_squared := radius * radius
    let to_left := position - ⟨-half_width, nearest_y⟩
    let to_right := position - ⟨half_width, nearest_y⟩
    let to_bottom := position - ⟨nearest_x, -half_height⟩
    let to_top := position - ⟨nearest_x, half_height⟩
    let intersects_left := decide (to_left.lengthSquared ≤ radius_squared)
    let intersects_right := decide (to_right.lengthSquared ≤ radius_squared)
    let intersects_bottom := decide (to_bottom.lengthSquared ≤ radius_squared)
    let intersects_top := decide (to_top.lengthSquared ≤ radius_squared)
    (intersects_left && intersects_right) || (intersects_bottom && intersects_top)

/-! ### Free room -/

/-- The radius of the largest free circle around a centre. -/
def maxRadiusAt (occupied : List (Vector2D K × K)) (half_w half_h : K) (center : Vector2D K) :
    K :=
  let inside := Scalar.min (half_w - fabs center.x) (half_h - fabs center.y)
  let r := occupied.foldl (fun r (pos, rad) =>
    let sqr_d := (center - pos).lengthSquared
    let r_plus_rad := r + rad
    -- The root is taken only where the circle is in the way.
    if sqr_d < r_plus_rad * r_plus_rad then
      let d := sqrt sqr_d - rad
      if d < r then d else r
    else
      r) inside
  maxOf r (lit 0)

/-- Keep the better of the best circle so far and the one around a centre. -/
def consider (occupied : List (Vector2D K × K)) (half_w half_h : K) (best : Circle K)
    (center : Vector2D K) : Circle K :=
  let r := maxRadiusAt occupied half_w half_h center
  if best.radius + kEps < r ∨
      (fabs (r - best.radius) ≤ kEps ∧ center.lengthSquared < best.center.lengthSquared) then
    ⟨center, r⟩
  else
    best

/-- The candidates on the line through two occupied circles. -/
def pairCandidates : Vector2D K × K → Vector2D K × K → List (Vector2D K)
  | (pa, ra), (pb, rb) =>
    let delta := pb - pa
    let dist := delta.length
    -- Circles with one centre have no line through them.
    if dist < kEps then
      []
    else
      let dir := delta * (lit 1 / dist)
      let t := (dist + ra - rb) * lit (1 / 2)
      (if lit 0 ≤ t ∧ t ≤ dist then [pa + dir * t] else []) ++ [pa - dir * ra, pb + dir * rb]

/-- The candidates between an occupied circle and the edges: right, left, top, bottom. -/
def edgeCandidates (half_w half_h : K) : Vector2D K × K → List (Vector2D K)
  | (pa, ra) =>
    [⟨pa.x + (half_w - pa.x + ra) * lit (1 / 2), pa.y⟩,
      ⟨pa.x - (half_w + pa.x + ra) * lit (1 / 2), pa.y⟩,
      ⟨pa.x, pa.y + (half_h - pa.y + ra) * lit (1 / 2)⟩,
      ⟨pa.x, pa.y - (half_h + pa.y + ra) * lit (1 / 2)⟩]

/-- The candidates in the order in which the loops try them. -/
def candidates (half_w half_h : K) : List (Vector2D K × K) → List (Vector2D K)
  | [] => []
  | a :: rest =>
    rest.flatMap (pairCandidates a) ++ edgeCandidates half_w half_h a ++
      candidates half_w half_h rest

/-- A large circle inside the world that touches no occupied circle. -/
def largestEmptyCircle (occupied : List (Vector2D K × K)) (world_width world_height : K) :
    Circle K :=
  let half_w := world_width * lit (1 / 2)
  let half_h := world_height * lit (1 / 2)
  if occupied.isEmpty then
    ⟨Vector2D.zero, Scalar.min half_w half_h⟩
  else
    let best := (candidates half_w half_h occupied ++ [Vector2D.zero]).foldl
      (consider occupied half_w half_h) ⟨Vector2D.zero, lit (-1)⟩
    let best := if best.radius < lit 0 then ⟨Vector2D.zero, lit 0⟩ else best
    { best with radius := maxOf (lit 0) (best.radius - kFreeCircleMargin) }

/-! ### Collision test -/

/-- Whether two circles overlap or touch. -/
def checkCircleCollision (pos1 : Vector2D K) (radius1 : K) (pos2 : Vector2D K) (radius2 : K) :
    Except StdException Bool :=
  if ¬ lit 0 ≤ radius1 then
    .error (.invalid_argument "Radius1 must be non-negative.")
  else if ¬ lit 0 ≤ radius2 then
    .error (.invalid_argument "Radius2 must be non-negative.")
  else
    let delta := pos1 - pos2
    let radius_sum := radius1 + radius2
    .ok (decide (delta.lengthSquared ≤ radius_sum * radius_sum))

/-! ### Elastic impulse -/

/-- The velocities of two bodies after a perfectly elastic collision. The assertions on the
masses and on the distance are not part of a release build. -/
def resolveElasticImpulse (pos1 vel1 : Vector2D K) (mass1 : K) (pos2 vel2 : Vector2D K)
    (mass2 : K) : Vector2D K × Vector2D K :=
  let delta := pos2 - pos1
  let sqr_dist := delta.x * delta.x + delta.y * delta.y
  -- Bodies in one place have no contact normal.
  if sqr_dist < kEps then (vel1, vel2)
  else
    let n := delta * (lit 1 / sqrt sqr_dist)
    let rel_vel := vel2 - vel1
    let vn := rel_vel.dot n
    -- Bodies that do not approach each other keep their velocities.
    if lit 0 ≤ vn then (vel1, vel2)
    else
      let inv_m1 := lit 1 / mass1
      let inv_m2 := lit 1 / mass2
      let j := lit (-2) * vn / (inv_m1 + inv_m2)
      let impulse := n * j
      (vel1 - impulse * inv_m1, vel2 + impulse * inv_m2)

end SpaceShooter.Math
