/-
# Draws of the asteroid factory

The loop of `generateAsteroidWeight` has no bound on its rounds. Each round takes at least 10 of
what remains, so it ends, and the rounds that there is fuel for are all it takes. Whatever the
draws are, their ranges are not empty, and the weights keep to what was left of the budget.
-/

import Mathlib.Data.Int.Log
import SpaceShooter.Server.ShipBounds

namespace SpaceShooter

open Library

/-! ### Rounded arithmetic -/

namespace RationalScalar

/-- The nearest number of 53 significant bits, ties to even. -/
def roundDouble (q : ℚ) : ℚ :=
  if q = 0 then 0
  else
    let ulp : ℚ := 2 ^ (Int.log 2 |q| - 52)
    roundHalfEven (q / ulp) * ulp

/-- Rationals whose sums, differences, products and quotients are rounded like those of `double`;
there is no largest and no least one. -/
@[reducible]
def double : Scalar ℚ :=
  { rational with
    add := fun a b => roundDouble (a + b)
    sub := fun a b => roundDouble (a - b)
    mul := fun a b => roundDouble (a * b)
    div := fun a b => roundDouble (a / b)
    lit := roundDouble }

end RationalScalar

namespace AsteroidFactory

open Scalar Domain

variable {K : Type} [Scalar K]

/-! ### Draws -/

/-- The loop of `generateAsteroidWeight`: what remains, the ranges of the distributions that were
drawn from, and the weights so far. -/
structure Splitting (K : Type) where
  remaining : K
  ranges : List (K × K)
  asteroids_weight : List K := []

/-- One round of the loop, if there is another one. -/
def Splitting.next (uniform : Uniform K) (loop : Splitting K) : Option (Splitting K) :=
  if MIN_ASTEROID_WEIGHT ≤ loop.remaining then
    let upper := Scalar.min MAX_ASTEROID_WEIGHT loop.remaining
    let solo_weight := uniform loop.ranges.length MIN_ASTEROID_WEIGHT upper
    some
      { remaining := loop.remaining - solo_weight
        ranges := loop.ranges ++ [(MIN_ASTEROID_WEIGHT, upper)]
        asteroids_weight := loop.asteroids_weight ++ [solo_weight] }
  else
    none

/-- The loop ends in a state, after any number of rounds. -/
inductive Splits (uniform : Uniform K) : Splitting K → Splitting K → Prop
  | done {loop} (h : loop.next uniform = none) : Splits uniform loop loop
  | round {loop loop' last} (h : loop.next uniform = some loop')
    (rest : Splits uniform loop' last) : Splits uniform loop last

/-- `generateAsteroidWeight` without a bound on its rounds: it draws from these ranges, ends and
returns these weights. -/
inductive Generates (uniform : Uniform K) (current_weight : K) : List (K × K) → List K → Prop
  | full (h : MIN_ASTEROIDS_WEIGHT ≤ current_weight) : Generates uniform current_weight [] []
  | scarce (hfull : ¬ MIN_ASTEROIDS_WEIGHT ≤ current_weight)
    (h : (MIN_ASTEROIDS_WEIGHT : K) - current_weight < MIN_ASTEROID_WEIGHT) :
    Generates uniform current_weight [] []
  | split {last : Splitting K} (hfull : ¬ MIN_ASTEROIDS_WEIGHT ≤ current_weight)
    (hscarce : ¬ (MIN_ASTEROIDS_WEIGHT : K) - current_weight < MIN_ASTEROID_WEIGHT)
    (h : Splits uniform
      { remaining := uniform 0 MIN_ASTEROID_WEIGHT (MIN_ASTEROIDS_WEIGHT - current_weight)
        ranges := [(MIN_ASTEROID_WEIGHT, MIN_ASTEROIDS_WEIGHT - current_weight)] } last) :
    Generates uniform current_weight last.ranges last.asteroids_weight

/-- `update` with the positions read by their index, which may be missing. -/
def updateIndexed (uniform : Uniform K) (free_coordinates : Math.Circle K)
    (pool : EntityPool K) : Option (EntityPool K) :=
  let current_weight := calculateCurrentWeight pool
  if MIN_ASTEROIDS_WEIGHT ≤ current_weight then
    some pool
  else
    let free_weight := generateAsteroidWeight uniform current_weight
    if free_weight.isEmpty then
      some pool
    else
      let rand_positions :=
        generatePositions uniform (free_weight.length + 1) free_weight.length free_coordinates
      if rand_positions.isEmpty then
        some pool
      else
        (List.range free_weight.length).foldlM (fun pool i => do
          let weight ← free_weight[i]?
          let position ← rand_positions[i]?
          return createAsteroid pool weight position) pool

/-- A loop over the indices of two lists of one length goes through their pairs. -/
theorem foldlM_range_getElem? {σ α β : Type} (f : σ → α → β → σ) (as : List α) (bs : List β)
    (hlength : bs.length = as.length) (s : σ) :
    (List.range as.length).foldlM (fun s i => do
      let a ← as[i]?
      let b ← bs[i]?
      return f s a b) s = some ((as.zip bs).foldl (fun s (a, b) => f s a b) s) := by
  induction as generalizing bs s with
  | nil => rfl
  | cons a as ih =>
    cases bs with
    | nil => cases hlength
    | cons b bs =>
      rw [List.length_cons, List.range_succ_eq_map, List.foldlM_cons]
      simp only [List.getElem?_cons_zero, Option.bind_eq_bind, Option.bind_some, pure_bind,
        List.foldlM_map, Nat.succ_eq_add_one, List.getElem?_cons_succ]
      exact ih bs (Nat.succ.inj hlength) (f s a b)

/-- No asteroid is created without a position. -/
theorem updateIndexed_eq (uniform : Uniform K) (free_coordinates : Math.Circle K)
    (pool : EntityPool K) :
    updateIndexed uniform free_coordinates pool = some (update uniform free_coordinates pool) := by
  unfold updateIndexed update
  dsimp only
  split_ifs with hfull hempty hnowhere
  · rfl
  · rw [List.isEmpty_iff.mp hempty]
    rfl
  · rw [List.isEmpty_iff.mp hnowhere, List.zip_nil_right]
    rfl
  · refine foldlM_range_getElem? createAsteroid _ _ ?_ pool
    unfold generatePositions at hnowhere ⊢
    split_ifs at hnowhere ⊢ with hroom
    · exact absurd rfl hnowhere
    · rw [List.length_map, List.length_range]

/-- One draw comes before the loop, and one in every round. -/
theorem Splits.length_ranges {uniform : Uniform K} {loop last : Splitting K}
    (h : Splits uniform loop last)
    (hloop : loop.ranges.length = loop.asteroids_weight.length + 1) :
    last.ranges.length = last.asteroids_weight.length + 1 := by
  induction h with
  | done _ => exact hloop
  | round hnext _ ih =>
    apply ih
    unfold Splitting.next at hnext
    split_ifs at hnext
    obtain rfl := Option.some.inj hnext
    rw [List.length_append, List.length_append, hloop]
    rfl

theorem Generates.length_ranges {uniform : Uniform K} {current_weight : K}
    {ranges : List (K × K)} {weights : List K}
    (h : Generates uniform current_weight ranges weights) (hweights : weights ≠ []) :
    ranges.length = weights.length + 1 := by
  cases h with
  | full _ => exact absurd rfl hweights
  | scarce _ _ => exact absurd rfl hweights
  | split _ _ hsplits => exact hsplits.length_ranges rfl

/-! ### The loop ends -/

section Exact

variable {F : Type} [Field F] [LinearOrder F] [StdMath F] [IsStrictOrderedRing F]
  {uniform : Uniform (Extended F)}

open Server.World

omit [IsStrictOrderedRing F] in
theorem minAsteroidsWeight_eq : (MIN_ASTEROIDS_WEIGHT : Extended F) = .finite 500 :=
  congrArg Extended.finite (Rat.cast_ofNat 500)

omit [IsStrictOrderedRing F] in
theorem minAsteroidWeight_eq : (MIN_ASTEROID_WEIGHT : Extended F) = .finite 10 :=
  congrArg Extended.finite (Rat.cast_ofNat 10)

/-- What the loop has drawn so far: from ranges that are not empty, weights of asteroids, and no
more than the budget that was drawn first. -/
structure Draws (budget : F) (loop : Splitting (Extended F)) : Prop where
  ranges : ∀ range ∈ loop.ranges, ∃ a b : F, range = (.finite a, .finite b) ∧ a ≤ b
  length : loop.ranges.length = loop.asteroids_weight.length + 1
  weights : ∀ weight ∈ loop.asteroids_weight, AsteroidWeight weight
  remaining : ∃ r sum : F, loop.remaining = .finite r ∧ 0 ≤ r ∧
    loop.asteroids_weight.foldl (· + ·) (.finite 0) = .finite sum ∧ r + sum = budget ∧
      10 * (loop.asteroids_weight.length : F) ≤ sum

/-- A round draws a weight of an asteroid from what remains. -/
theorem Draws.next {budget : F} {loop loop' : Splitting (Extended F)} (h : Draws budget loop)
    (hdraws : DrawsInRange uniform) (hnext : loop.next uniform = some loop') :
    Draws budget loop' := by
  obtain ⟨r, sum, hr, hnonneg, hsum, hbudget, hcount⟩ := h.remaining
  unfold Splitting.next at hnext
  rw [hr] at hnext
  split_ifs at hnext with hroom
  have hlow : 10 ≤ r := by
    rwa [minAsteroidWeight_eq] at hroom
  obtain ⟨u, w, hu, hw, hmin, hle, hmax, hrest⟩ :=
    draw_solo_weight hdraws loop.ranges.length hlow
  dsimp only at hnext
  rw [hu, hw] at hnext
  obtain rfl := Option.some.inj hnext
  refine ⟨fun range hmem => ?_, ?_, fun weight hmem => ?_, r - w, sum + w, ?_, ?_, ?_, ?_, ?_⟩
  · rcases List.mem_append.mp hmem with hmem | hmem
    · exact h.ranges range hmem
    · refine ⟨10, u, ?_, hmin.trans hle⟩
      rw [← minAsteroidWeight_eq]
      exact List.mem_singleton.mp hmem
  · rw [List.length_append, List.length_append, h.length]
    rfl
  · rcases List.mem_append.mp hmem with hmem | hmem
    · exact h.weights weight hmem
    · exact ⟨w, List.mem_singleton.mp hmem, hmin, hle.trans hmax⟩
  · exact Extended.finite_sub r w
  · linarith
  · rw [List.foldl_append, hsum]
    rfl
  · linarith
  · rw [List.length_append, List.length_singleton, Nat.cast_add, Nat.cast_one]
    linarith

/-- As each round takes at least 10 of what remains, the loop ends within the rounds that there is
fuel for. -/
theorem Draws.splits {budget : F} (hbudget : budget ≤ 500) (hdraws : DrawsInRange uniform)
    (rounds : ℕ) {loop : Splitting (Extended F)} (h : Draws budget loop)
    (hrounds : loop.asteroids_weight.length + rounds = kMaxRounds) :
    ∃ last, Splits uniform loop last ∧ Draws budget last ∧
      last.asteroids_weight = loop.asteroids_weight ++
        drawWeights uniform rounds loop.ranges.length loop.remaining := by
  induction rounds generalizing loop with
  | zero =>
    obtain ⟨r, sum, hr, -, -, htotal, hcount⟩ := h.remaining
    -- After the last round nothing remains.
    have hnone : loop.next uniform = none := by
      unfold Splitting.next
      rw [hr, minAsteroidWeight_eq, if_neg]
      intro hroom
      have hlow : 10 ≤ r := hroom
      rw [Nat.add_zero] at hrounds
      rw [hrounds, kMaxRounds] at hcount
      norm_num at hcount
      linarith
    exact ⟨loop, .done hnone, h, (List.append_nil _).symm⟩
  | succ rounds ih =>
    cases hnext : loop.next uniform with
    | none =>
      refine ⟨loop, .done hnext, h, ?_⟩
      unfold Splitting.next at hnext
      split_ifs at hnext with hroom
      rw [drawWeights, if_neg hroom, List.append_nil]
    | some loop' =>
      have hnext' := h.next hdraws hnext
      unfold Splitting.next at hnext
      split_ifs at hnext with hroom
      obtain rfl := Option.some.inj hnext
      obtain ⟨last, hsplits, hlast, hweights⟩ := ih hnext' (by
        dsimp only
        rw [List.length_append, List.length_singleton]
        omega)
      refine ⟨last, .round (by rw [Splitting.next, if_pos hroom]) hsplits, hlast, ?_⟩
      rw [hweights, drawWeights, if_pos hroom, List.append_assoc, List.length_append]
      rfl

/-- Whatever is drawn: the loop ends with the weights that the rounds with fuel return, after at
most 50 rounds and 51 draws, each from a range that is not empty. The weights are those of
asteroids, and keep to the budget. -/
theorem generates_generateAsteroidWeight (hdraws : DrawsInRange uniform) {mass : F}
    (hmass : 0 ≤ mass) :
    ∃ ranges, Generates uniform (.finite mass) ranges
        (generateAsteroidWeight uniform (.finite mass)) ∧
      ranges.length ≤ 51 ∧ (∀ range ∈ ranges, range.1 ≤ range.2) ∧
      (∀ weight ∈ generateAsteroidWeight uniform (.finite mass), AsteroidWeight weight) ∧
      ∃ sum, (generateAsteroidWeight uniform (.finite mass)).foldl (· + ·) (.finite 0) =
        .finite sum ∧ sum ≤ max 0 (500 - mass) := by
  have hnone : ∃ sum, ([] : List (Extended F)).foldl (· + ·) (.finite 0) = .finite sum ∧
      sum ≤ max 0 (500 - mass) := ⟨0, rfl, le_max_left _ _⟩
  unfold generateAsteroidWeight
  dsimp only
  split_ifs with hfull hscarce
  · exact ⟨[], .full hfull, by simp, nofun, nofun, hnone⟩
  · exact ⟨[], .scarce hfull hscarce, by simp, nofun, nofun, hnone⟩
  · rw [minAsteroidsWeight_eq, minAsteroidWeight_eq, Extended.finite_sub] at hscarce
    have hroom : 10 ≤ 500 - mass := le_of_not_gt hscarce
    obtain ⟨drawn, hdrawn, hmin, hmax⟩ := hdraws 0 10 (500 - mass) hroom
    -- The first draw takes a part of the budget; the rounds then split it.
    have hfirst : Draws drawn (F := F)
        { remaining := uniform 0 MIN_ASTEROID_WEIGHT (MIN_ASTEROIDS_WEIGHT - .finite mass)
          ranges := [(MIN_ASTEROID_WEIGHT, MIN_ASTEROIDS_WEIGHT - .finite mass)] } := by
      rw [minAsteroidsWeight_eq, minAsteroidWeight_eq, Extended.finite_sub]
      refine ⟨fun range hmem => ?_, rfl, nofun, drawn, 0, hdrawn, ?_, rfl, add_zero _, ?_⟩
      · exact ⟨10, 500 - mass, List.mem_singleton.mp hmem, hroom⟩
      · linarith
      · simp
    obtain ⟨last, hsplits, hlast, hweights⟩ :=
      hfirst.splits (by linarith) hdraws kMaxRounds (Nat.zero_add _)
    rw [List.nil_append] at hweights
    change last.asteroids_weight = drawWeights uniform kMaxRounds 1 _ at hweights
    rw [← hweights]
    obtain ⟨r, sum, -, hnonneg, hsum, htotal, hcount⟩ := hlast.remaining
    refine ⟨last.ranges, .split hfull ?_ hsplits, ?_, fun range hmem => ?_, hlast.weights, sum,
      hsum, le_max_of_le_right ?_⟩
    · rwa [minAsteroidsWeight_eq, minAsteroidWeight_eq, Extended.finite_sub]
    · -- At most fifty weights of ten fit into what was drawn.
      have hle : (last.asteroids_weight.length : F) ≤ (50 : ℕ) := by
        push_cast
        linarith
      rw [hlast.length]
      exact Nat.succ_le_succ (Nat.cast_le.mp hle)
    · obtain ⟨a, b, rfl, hle⟩ := hlast.ranges range hmem
      exact hle
    · linarith

end Exact

end AsteroidFactory

end SpaceShooter
