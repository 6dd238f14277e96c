/-
# The asteroid factory

Keeps the mass of the asteroids near a budget. The random engine is an oracle: the
`n`-th draw of a pass answers a range with a value.
-/

import SpaceShooter.Server.EntityPool

namespace SpaceShooter.AsteroidFactory

open Scalar Domain

variable {K : Type} [Scalar K]

def MIN_ASTEROIDS_WEIGHT : K := lit 500

def MIN_ASTEROID_WEIGHT : K := lit 10

def MAX_ASTEROID_WEIGHT : K := lit 80

def MAX_WEIGHT_FOR_RADIUS : K := lit 30

def MAX_RADIUS_COUNTER : K := lit 30

def MIN_RADIUS_COUNTER : K := lit 30

/-- A draw of `std::uniform_real_distribution` takes its number and the range. -/
abbrev Uniform (K : Type) := ℕ → K → K → K

/-- More rounds than a budget of 500 has room for weights of at least 10. -/
def kMaxRounds : ℕ := 50

def calculateCurrentWeight (pool : EntityPool K) : K :=
  pool.storage_.foldl (fun total_weight slot =>
    match slot with
    | some entity =>
      if !entity.isDestroyed && entity.type = .Asteroid then total_weight + entity.mass
      else total_weight
    | none => total_weight) (lit 0)

/-- Split what remains of the budget into weights. -/
def drawWeights (uniform : Uniform K) : ℕ → ℕ → K → List K
  | 0, _, _ => []
  | rounds + 1, draw, remaining =>
    if MIN_ASTEROID_WEIGHT ≤ remaining then
      let upper := Scalar.min MAX_ASTEROID_WEIGHT remaining
      let solo_weight := uniform draw MIN_ASTEROID_WEIGHT upper
      solo_weight :: drawWeights uniform rounds (draw + 1) (remaining - solo_weight)
    else
      []

/-- The weights of the asteroids to create; their count is the number of draws made
after the first one. -/
def generateAsteroidWeight (uniform : Uniform K) (current_weight : K) : List K :=
  if MIN_ASTEROIDS_WEIGHT ≤ current_weight then
    []
  else
    let budget_left := MIN_ASTEROIDS_WEIGHT - current_weight
    -- What is left may be too little for a single asteroid.
    if budget_left < MIN_ASTEROID_WEIGHT then
      []
    else
      drawWeights uniform kMaxRounds 1 (uniform 0 MIN_ASTEROID_WEIGHT budget_left)

/-- Random points of a circle, two draws each. -/
def generatePositions (uniform : Uniform K) (draw pos_count : ℕ)
    (free_coordinates : Math.Circle K) : List (Math.Vector2D K) :=
  if pos_count = 0 ∨ free_coordinates.radius ≤ lit 0 then
    []
  else
    let two_pi := lit 2 * pi
    (List.range pos_count).map fun i =>
      let angle := two_pi * uniform (draw + 2 * i) (lit 0) (lit 1)
      let r := free_coordinates.radius * sqrt (uniform (draw + 2 * i + 1) (lit 0) (lit 1))
      ⟨free_coordinates.center.x + r * cos angle, free_coordinates.center.y + r * sin angle⟩

def createAsteroid (pool : EntityPool K) (weight : K) (position : Math.Vector2D K) :
    EntityPool K :=
  let (idx, pool) := pool.acquire
  pool.modify idx fun entity => { entity with
    type := .Asteroid
    mass := weight
    radius := if weight < MAX_WEIGHT_FOR_RADIUS then weight * MAX_RADIUS_COUNTER
      else weight * MIN_RADIUS_COUNTER
    transform := some ⟨position, Math.Vector2D.zero, lit 0⟩
    asteroid := some { score_reward := toUInt16 weight }
    health := some {} }

def update (uniform : Uniform K) (free_coordinates : Math.Circle K) (pool : EntityPool K) :
    EntityPool K :=
  let current_weight := calculateCurrentWeight pool
  if MIN_ASTEROIDS_WEIGHT ≤ current_weight then
    pool
  else
    let free_weight := generateAsteroidWeight uniform current_weight
    let rand_positions :=
      generatePositions uniform (free_weight.length + 1) free_weight.length free_coordinates
    -- Both lists are equally long, or there is no room and no asteroid is created.
    (free_weight.zip rand_positions).foldl
      (fun pool (weight, position) => createAsteroid pool weight position) pool

theorem extends_createAsteroid {pool : EntityPool K} (wf : pool.WellFormed) (weight : K)
    (position : Math.Vector2D K) :
    EntityPool.Extends (fun e => e.type = .Asteroid) pool
      (createAsteroid pool weight position) :=
  EntityPool.extends_acquire_modify wf (fun _ => rfl) rfl

theorem extends_createAsteroids (asteroids : List (K × Math.Vector2D K)) {pool : EntityPool K}
    (wf : pool.WellFormed) :
    EntityPool.Extends (fun e => e.type = .Asteroid) pool
      (asteroids.foldl (fun pool (weight, position) => createAsteroid pool weight position)
        pool) := by
  -- Each asteroid needs a well-formed pool to be placed in, and leaves one.
  induction asteroids generalizing pool with
  | nil => exact .refl wf
  | cons asteroid asteroids ih =>
    have hcreate := extends_createAsteroid wf asteroid.1 asteroid.2
    exact hcreate.trans (ih hcreate.wellFormed)

/-- A pass of the factory only adds asteroids. -/
theorem extends_update (uniform : Uniform K) (free_coordinates : Math.Circle K)
    {pool : EntityPool K} (wf : pool.WellFormed) :
    EntityPool.Extends (fun e => e.type = .Asteroid) pool
      (update uniform free_coordinates pool) := by
  unfold update
  dsimp only
  split
  · exact .refl wf
  · exact extends_createAsteroids _ wf

end SpaceShooter.AsteroidFactory
