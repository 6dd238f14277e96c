/-
# Growth

What adding mass does to a ship: the loop that doubles the radius ends, and it ends at the
first level that the mass does not pay for or the predicate refuses. In exact arithmetic it
makes no difference whether a ship takes in its mass at once or in portions.
-/

import SpaceShooter.Server.ShipCondition

namespace SpaceShooter.Domain.Entity

open Scalar Library Math Server.World

variable {γ : Type}

/-! ### Refused mass -/

section Refused

variable {K : Type} [Scalar K] {can_grow : Vector2D K → K → γ → Bool × Vector2D K × γ}
  {e : Entity K}

/-- The loop fails only for want of a transform. -/
theorem grow_succeeds (htransform : e.transform.isSome = true) (fuel : ℕ) (g : γ) :
    (e.grow can_grow fuel g).1 = true := by
  induction fuel generalizing e g with
  | zero => rfl
  | succ fuel ih =>
    unfold grow
    dsimp only
    split
    · rfl
    · split
      · rfl
      · split
        · next hnone => simp [hnone] at htransform
        · split
          · exact ih rfl _
          · rfl

theorem grow_mass (fuel : ℕ) (g : γ) : (e.grow can_grow fuel g).2.1.mass = e.mass := by
  obtain ⟨radius, transform, heq⟩ := grow_eq can_grow fuel e g
  rw [heq]

/-- Every guard of `addMass` stands before its first write. -/
theorem addMass_refused {amount : K} {g : γ} (h : (e.addMass amount can_grow g).1 = false) :
    (e.addMass amount can_grow g).2 = (e, g) := by
  unfold addMass at h ⊢
  dsimp only at h ⊢
  split_ifs at h ⊢ with htype hamount hbody hsum
  · rfl
  · rfl
  · rfl
  · rfl
  · have htransform : e.transform.isSome = true := by
      rw [Bool.or_eq_true, not_or, Option.isNone_iff_eq_none] at hbody
      exact Option.isSome_iff_ne_none.mpr hbody.2
    have hgrown : (grow can_grow (doublings e.radius) { e with mass := e.mass + amount } g).1 =
        true := grow_succeeds (e := { e with mass := e.mass + amount }) htransform _ g
    exact absurd (hgrown.symm.trans h) Bool.noConfusion

end Refused

/-! ### The loop without a bound -/

section Unbounded

variable {K : Type} [Scalar K] {can_grow : Vector2D K → K → γ → Bool × Vector2D K × γ}

/-- The mass does not pay for the doubled radius. -/
def Unpaid (e : Entity K) : Prop :=
  (!isfinite (massForRadius (e.radius * lit 2)) ||
    decide (e.mass < massForRadius (e.radius * lit 2))) = true

/-- The entity of a given radius when the predicate has been asked for the doubled one. -/
def shifted (can_grow : Vector2D K → K → γ → Bool × Vector2D K × γ) (e : Entity K)
    (t : TransformComponent K) (radius : K) (g : γ) : Entity K :=
  { e with
    radius := radius
    transform := some { t with position := (can_grow t.position (e.radius * lit 2) g).2.1 } }

/-- The loop of `addMass` without a bound on its rounds: it ends and returns this. -/
inductive Grows (can_grow : Vector2D K → K → γ → Bool × Vector2D K × γ) :
    Entity K → γ → Bool × Entity K × γ → Prop
  | large {e g} (h : ¬ e.radius ≤ Scalar.max / lit 2) : Grows can_grow e g (true, e, g)
  | unpaid {e g} (h : e.radius ≤ Scalar.max / lit 2) (hmass : Unpaid e) :
    Grows can_grow e g (true, e, g)
  | bodiless {e g} (h : e.radius ≤ Scalar.max / lit 2) (hmass : ¬ Unpaid e)
    (ht : e.transform = none) : Grows can_grow e g (false, e, g)
  | refused {e g t} (h : e.radius ≤ Scalar.max / lit 2) (hmass : ¬ Unpaid e)
    (ht : e.transform = some t) (hasked : (can_grow t.position (e.radius * lit 2) g).1 = false) :
    Grows can_grow e g
      (true, shifted can_grow e t e.radius g, (can_grow t.position (e.radius * lit 2) g).2.2)
  | round {e g t out} (h : e.radius ≤ Scalar.max / lit 2) (hmass : ¬ Unpaid e)
    (ht : e.transform = some t) (hasked : (can_grow t.position (e.radius * lit 2) g).1 = true)
    (rest : Grows can_grow (shifted can_grow e t (e.radius * lit 2) g)
      (can_grow t.position (e.radius * lit 2) g).2.2 out) : Grows can_grow e g out

theorem exists_rounds {e : Entity K} {g : γ} {out : Bool × Entity K × γ}
    (h : ∀ fuel, e.grow can_grow (fuel + 1) g = out) :
    ∃ rounds, ∀ fuel, rounds ≤ fuel → e.grow can_grow fuel g = out := by
  refine ⟨1, fun fuel hle => ?_⟩
  obtain ⟨fuel, rfl⟩ := Nat.exists_eq_add_of_le' hle
  exact h fuel

/-- What the loop returns is what any sufficient number of rounds returns. -/
theorem Grows.grow_eq {e : Entity K} {g : γ} {out : Bool × Entity K × γ}
    (h : Grows can_grow e g out) :
    ∃ rounds, ∀ fuel, rounds ≤ fuel → e.grow can_grow fuel g = out := by
  induction h with
  | large h =>
    apply exists_rounds
    intro fuel
    rw [grow, if_pos h]
  | unpaid h hmass =>
    apply exists_rounds
    intro fuel
    rw [grow, if_neg (not_not.mpr h)]
    exact if_pos hmass
  | bodiless h hmass ht =>
    apply exists_rounds
    intro fuel
    rw [grow, if_neg (not_not.mpr h)]
    refine (if_neg hmass).trans ?_
    rw [ht]
  | refused h hmass ht hasked =>
    apply exists_rounds
    intro fuel
    rw [grow, if_neg (not_not.mpr h)]
    refine (if_neg hmass).trans ?_
    rw [ht]
    dsimp only
    rw [hasked, if_neg Bool.false_ne_true, shifted]
  | round h hmass ht hasked _ ih =>
    obtain ⟨rounds, hrest⟩ := ih
    refine ⟨rounds + 1, fun fuel hle => ?_⟩
    obtain ⟨fuel, rfl⟩ := Nat.exists_eq_add_of_le' (Nat.le_of_add_left_le hle)
    have htail := hrest fuel (Nat.le_of_succ_le_succ hle)
    rw [grow, if_neg (not_not.mpr h)]
    refine (if_neg hmass).trans ?_
    rw [ht]
    dsimp only
    rw [hasked, if_pos rfl]
    exact htail

theorem Grows.unique {e : Entity K} {g : γ} {out out' : Bool × Entity K × γ}
    (h : Grows can_grow e g out) (h' : Grows can_grow e g out') : out = out' := by
  obtain ⟨rounds, hresult⟩ := h.grow_eq
  obtain ⟨rounds', hresult'⟩ := h'.grow_eq
  rw [← hresult _ (le_max_left rounds rounds'), ← hresult' _ (le_max_right rounds rounds')]

end Unbounded

/-! ### Levels -/

/-- A growth predicate with a state of its own. -/
abbrev GrowthPredicate (F γ : Type) :=
  Vector2D (Extended F) → Extended F → γ → Bool × Vector2D (Extended F) × γ

section Levels

variable {F : Type} [Field F]
  {can_grow : GrowthPredicate F γ}
  {r : F} {position : Vector2D (Extended F)} {g : γ}

/-- The radius after a number of doublings. -/
def levelRadius (r : F) (k : ℕ) : F := r * (2 ^ k : ℕ)

theorem levelRadius_eq (r : F) (k : ℕ) : levelRadius r k = r * 2 ^ k := by
  rw [levelRadius, Nat.cast_pow, Nat.cast_ofNat]

theorem levelRadius_zero (r : F) : levelRadius r 0 = r := by
  rw [levelRadius_eq, pow_zero, mul_one]

theorem levelRadius_shift (r : F) (k : ℕ) : levelRadius (2 * r) k = levelRadius r (k + 1) := by
  rw [levelRadius_eq, levelRadius_eq]
  ring

theorem levelRadius_add (r : F) (k j : ℕ) :
    levelRadius (levelRadius r k) j = levelRadius r (k + j) := by
  rw [levelRadius_eq, levelRadius_eq, levelRadius_eq, pow_add, mul_assoc]

/-- The position and the state of the predicate when it has been asked for the first levels of
a radius, one after the other. -/
def asked (can_grow : GrowthPredicate F γ) (r : F) (position : Vector2D (Extended F)) (g : γ) :
    ℕ → Vector2D (Extended F) × γ
  | 0 => (position, g)
  | k + 1 =>
    (can_grow (asked can_grow r position g k).1 (.finite (levelRadius r (k + 1)))
      (asked can_grow r position g k).2).2

/-- Whether the predicate accepts the level above a level. -/
def accepts (can_grow : GrowthPredicate F γ) (r : F) (position : Vector2D (Extended F)) (g : γ)
    (k : ℕ) : Bool :=
  (can_grow (asked can_grow r position g k).1 (.finite (levelRadius r (k + 1)))
    (asked can_grow r position g k).2).1

theorem asked_one :
    asked can_grow r position g 1 = (can_grow position (.finite (2 * r)) g).2 := by
  rw [asked, asked, ← levelRadius_shift, levelRadius_zero]

theorem accepts_zero :
    accepts can_grow r position g 0 = (can_grow position (.finite (2 * r)) g).1 := by
  rw [accepts, asked, ← levelRadius_shift, levelRadius_zero]

theorem asked_shift (k : ℕ) :
    asked can_grow (2 * r) (can_grow position (.finite (2 * r)) g).2.1
        (can_grow position (.finite (2 * r)) g).2.2 k =
      asked can_grow r position g (k + 1) := by
  induction k with
  | zero => rw [asked, asked_one]
  | succ k ih =>
    rw [asked, ih, levelRadius_shift]
    rfl

theorem accepts_shift (k : ℕ) :
    accepts can_grow (2 * r) (can_grow position (.finite (2 * r)) g).2.1
        (can_grow position (.finite (2 * r)) g).2.2 k =
      accepts can_grow r position g (k + 1) := by
  rw [accepts, accepts, asked_shift, levelRadius_shift]

end Levels

variable {F : Type} [Field F] [LinearOrder F] [StdMath F]
  {can_grow : GrowthPredicate F γ}
  {e : Entity (Extended F)} {r m : F} {position : Vector2D (Extended F)} {g : γ}

/-- The mass that the level above a level asks for. -/
def levelMass (r : F) (k : ℕ) : F := StdMath.pi * levelRadius r (k + 1) ^ 2

/-- A ship of this mass does not grow beyond this level. -/
def StopsAt (can_grow : GrowthPredicate F γ) (r : F) (position : Vector2D (Extended F)) (g : γ)
    (m : F) (k : ℕ) : Prop :=
  m < levelMass r k ∨ accepts can_grow r position g k = false

/-- The last question of the loop is that for the level it stops at, or for the one above if
the mass pays for it. -/
def settled (can_grow : GrowthPredicate F γ) (r : F) (position : Vector2D (Extended F)) (g : γ)
    (m : F) (k : ℕ) : Vector2D (Extended F) × γ :=
  asked can_grow r position g (if m < levelMass r k then k else k + 1)

/-- How the loop ends at a level, and how many levels it has asked for by then. -/
inductive EndsAt (can_grow : GrowthPredicate F γ) (r : F) (position : Vector2D (Extended F))
    (g : γ) (m : F) (k : ℕ) : ℕ → Prop
  | refused : levelMass r k ≤ m → accepts can_grow r position g k = false →
    EndsAt can_grow r position g m k (k + 1)
  | light : m < levelMass r k → EndsAt can_grow r position g m k k
  | large : StdMath.max < levelRadius r (k + 1) → EndsAt can_grow r position g m k k

theorem levelMass_zero (r : F) : levelMass r 0 = StdMath.pi * (2 * r) * (2 * r) := by
  rw [levelMass, levelRadius_eq]
  ring

theorem levelMass_shift (r : F) (k : ℕ) : levelMass (2 * r) k = levelMass r (k + 1) := by
  rw [levelMass, levelRadius_shift, levelMass]

theorem stopsAt_shift (k : ℕ) :
    StopsAt can_grow (2 * r) (can_grow position (.finite (2 * r)) g).2.1
        (can_grow position (.finite (2 * r)) g).2.2 m k ↔
      StopsAt can_grow r position g m (k + 1) := by
  rw [StopsAt, StopsAt, accepts_shift, levelMass_shift]

theorem EndsAt.shift {k asks : ℕ}
    (h : EndsAt can_grow (2 * r) (can_grow position (.finite (2 * r)) g).2.1
      (can_grow position (.finite (2 * r)) g).2.2 m k asks) :
    EndsAt can_grow r position g m (k + 1) (asks + 1) := by
  cases h with
  | refused hpays hrefused =>
    rw [levelMass_shift] at hpays
    rw [accepts_shift] at hrefused
    exact .refused hpays hrefused
  | light hlight =>
    rw [levelMass_shift] at hlight
    exact .light hlight
  | large hlarge =>
    rw [levelRadius_shift] at hlarge
    exact .large hlarge

/-! ### The loop -/

section Loop

variable [IsStrictOrderedRing F] (std : StandardMath F)
include std

/-- A level that a mass in the finite range pays for is within the loop's bound. -/
theorem le_half_max_of_levelMass_le {k : ℕ} (hmax : m ≤ StdMath.max)
    (hpays : levelMass r k ≤ m) : levelRadius r (k + 1) ≤ StdMath.max / 2 := by
  have hpi := std.three_lt_pi
  have hlarge := std.le_max
  by_contra hover
  rw [not_le] at hover
  have hone : 1 ≤ levelRadius r (k + 1) := by linarith
  -- The area would exceed the largest value.
  have hsquare := le_self_pow₀ hone two_ne_zero
  have harea : 3 * levelRadius r (k + 1) ^ 2 ≤ levelMass r k :=
    mul_le_mul_of_nonneg_right hpi.le (sq_nonneg _)
  linarith

omit std in
/-- The loop ends at some level, having passed all levels below. -/
theorem grow_levels (can_grow : GrowthPredicate F γ) (g : γ) {fuel : ℕ}
    {t : TransformComponent (Extended F)} (hmass : e.mass = .finite m)
    (hradius : e.radius = .finite r) (ht : e.transform = some t)
    (hfuel : StdMath.max / 2 < r * 2 ^ fuel) :
    ∃ k asks, (∀ j < k, ¬ StopsAt can_grow r t.position g m j) ∧
      EndsAt can_grow r t.position g m k asks ∧
      e.grow can_grow fuel g =
        (true,
          { e with
            radius := .finite (levelRadius r k)
            transform := some { t with position := (asked can_grow r t.position g asks).1 } },
          (asked can_grow r t.position g asks).2) := by
  induction fuel generalizing e r t g with
  | zero =>
    rw [pow_zero, mul_one] at hfuel
    have hlarge : StdMath.max < levelRadius r (0 + 1) := by
      rw [← levelRadius_shift, levelRadius_zero]
      linarith
    refine ⟨0, 0, fun j hj => absurd hj j.not_lt_zero, .large hlarge, ?_⟩
    rw [levelRadius_zero, ← hradius, asked, ← ht]
    rfl
  | succ fuel ih =>
    obtain hlight | hpays := lt_or_ge m (levelMass r 0)
    · refine ⟨0, 0, fun j hj => absurd hj j.not_lt_zero, .light hlight, ?_⟩
      rw [levelMass_zero] at hlight
      rw [grow_of_lt hmass hradius hlight, levelRadius_zero, ← hradius, asked, ← ht]
    obtain hlarge | hroom := lt_or_ge (StdMath.max / 2) r
    · have hlarge' : StdMath.max < levelRadius r (0 + 1) := by
        rw [← levelRadius_shift, levelRadius_zero]
        linarith
      have hends : ¬ e.radius ≤ Scalar.max / lit 2 := by
        rw [hradius, half_max, Extended.finite_le, not_le]
        exact hlarge
      refine ⟨0, 0, fun j hj => absurd hj j.not_lt_zero, .large hlarge', ?_⟩
      unfold grow
      rw [if_pos hends, levelRadius_zero, ← hradius, asked, ← ht]
    have hheavy := hpays
    rw [levelMass_zero] at hheavy
    have hgrow : e.grow can_grow (fuel + 1) g = _ :=
      grow_of_le hmass hradius ht hroom hheavy fuel g
    rw [← asked_one, ← accepts_zero] at hgrow
    cases haccepted : accepts can_grow r t.position g 0 with
    | false =>
      refine ⟨0, 1, fun j hj => absurd hj j.not_lt_zero, .refused hpays haccepted, ?_⟩
      rw [hgrow, haccepted, if_neg Bool.false_ne_true, levelRadius_zero, ← hradius]
    | true =>
      -- The rest of the loop runs from the doubled radius.
      have hfuel' : StdMath.max / 2 < 2 * r * 2 ^ fuel := by
        rw [pow_succ] at hfuel
        linarith
      obtain ⟨k, asks, hpasses, hends, hrest⟩ := ih (e := { e with
          transform := some { t with position := (asked can_grow r t.position g 1).1 }
          radius := .finite (2 * r) })
        (t := { t with position := (asked can_grow r t.position g 1).1 })
        (g := (asked can_grow r t.position g 1).2) hmass rfl rfl hfuel'
      dsimp only at hpasses hends
      rw [hgrow, haccepted, if_pos rfl, hrest]
      rw [asked_one] at hpasses hends ⊢
      refine ⟨k + 1, asks + 1, fun j hj => ?_, hends.shift, ?_⟩
      · cases j with
        | zero =>
          rw [StopsAt, not_or, not_lt, Bool.not_eq_false]
          exact ⟨hpays, haccepted⟩
        | succ j => exact mt (stopsAt_shift j).mpr (hpasses j (Nat.lt_of_succ_lt_succ hj))
      · rw [asked_shift, levelRadius_shift]

/-- Inside the finite range the loop ends at the first level at which a ship of its mass
stops. -/
theorem grow_of_isLeast {k : ℕ} {t : TransformComponent (Extended F)} {fuel : ℕ}
    (hmass : e.mass = .finite m) (hradius : e.radius = .finite r) (ht : e.transform = some t)
    (hmax : m ≤ StdMath.max) (hfuel : StdMath.max / 2 < r * 2 ^ fuel)
    (hleast : IsLeast {k | StopsAt can_grow r t.position g m k} k) :
    e.grow can_grow fuel g =
      (true,
        { e with
          radius := .finite (levelRadius r k)
          transform := some { t with position := (settled can_grow r t.position g m k).1 } },
        (settled can_grow r t.position g m k).2) := by
  obtain ⟨k', asks, hpasses, hends, hgrow⟩ :=
    grow_levels can_grow g hmass hradius ht hfuel
  have hstops : StopsAt can_grow r t.position g m k' ∧
      asks = if m < levelMass r k' then k' else k' + 1 := by
    have hlight (h : m < levelMass r k') : StopsAt can_grow r t.position g m k' ∧
        k' = if m < levelMass r k' then k' else k' + 1 := ⟨Or.inl h, (if_pos h).symm⟩
    cases hends with
    | refused hpays hrefused => exact ⟨Or.inr hrefused, (if_neg hpays.not_gt).symm⟩
    | light h => exact hlight h
    | large hlarge =>
      refine hlight (lt_of_not_ge fun hpays => ?_)
      have hle := le_half_max_of_levelMass_le std hmax hpays
      have hpos := std.le_max
      linarith
  -- No level below it stops the ship, so it is the first.
  have hk : k' = k := by
    refine le_antisymm (le_of_not_gt fun hlt => ?_) (hleast.2 hstops.1)
    exact hpasses k hlt hleast.1
  rw [hgrow, settled, hstops.2, hk]

/-- There is a level at which a ship stops: one asks for more than the largest value. -/
theorem exists_isLeast_stopsAt (can_grow : GrowthPredicate F γ) (position : Vector2D (Extended F))
    (g : γ) (hr : 0 < r) (hmax : m ≤ StdMath.max) :
    ∃ k, IsLeast {k | StopsAt can_grow r position g m k} k := by
  classical
  have hstops : ∃ k, StopsAt can_grow r position g m k := by
    refine ⟨StdMath.doublings r, Or.inl ?_⟩
    by_contra hpays
    have hle := le_half_max_of_levelMass_le std hmax (not_lt.mp hpays)
    have hrounds := std.doublings hr
    rw [levelRadius_eq, pow_succ, ← mul_assoc] at hle
    have hpos : 0 < r * 2 ^ StdMath.doublings r := mul_pos hr (pow_pos two_pos _)
    linarith
  exact ⟨Nat.find hstops, Nat.find_spec hstops, fun j hj => Nat.find_min' hstops hj⟩

omit [IsStrictOrderedRing F] in
theorem rounds_enough (hradius : e.radius = .finite r) (hr : 0 < r) :
    StdMath.max / 2 < r * 2 ^ doublings e.radius := by
  rw [hradius]
  exact std.doublings hr

omit std in
/-- The loop ends by itself within the rounds that double the radius beyond its bound. -/
theorem grows_grow {fuel : ℕ} (hradius : e.radius = .finite r)
    (hrounds : StdMath.max / 2 < r * 2 ^ fuel) :
    Grows can_grow e g (e.grow can_grow fuel g) := by
  induction fuel generalizing e r g with
  | zero =>
    have hends : ¬ e.radius ≤ Scalar.max / lit 2 := by
      rw [hradius, half_max, Extended.finite_le, not_le]
      rwa [pow_zero, mul_one] at hrounds
    exact .large hends
  | succ fuel ih =>
    by_cases hroom : e.radius ≤ Scalar.max / lit 2
    · rw [grow, if_neg (not_not.mpr hroom)]
      dsimp only
      split
      · next hmass => exact .unpaid hroom hmass
      · next hmass =>
        cases ht : e.transform with
        | none => exact .bodiless hroom hmass ht
        | some t =>
          dsimp only
          split
          · next hasked =>
            have hdouble : e.radius * lit 2 = .finite (r * 2) := by
              rw [hradius]
              change Extended.finite (r * ((2 : ℚ) : F)) = _
              rw [Rat.cast_ofNat]
            have hrounds' : StdMath.max / 2 < r * 2 * 2 ^ fuel := by
              rw [pow_succ] at hrounds
              linarith
            apply Grows.round hroom hmass ht hasked
            exact ih hdouble hrounds'
          · next hasked => exact .refused hroom hmass ht (Bool.eq_false_of_not_eq_true hasked)
    · rw [grow, if_pos hroom]
      exact .large hroom

/-- The loop ends by itself, and what it returns is what the bounded one does. -/
theorem grows_iff (hradius : e.radius = .finite r) (hr : 0 < r) {out : Bool × Entity _ × γ} :
    Grows can_grow e g out ↔ e.grow can_grow (doublings e.radius) g = out := by
  have hbounded : Grows can_grow e g (e.grow can_grow (doublings e.radius) g) :=
    grows_grow hradius (rounds_enough std hradius hr)
  constructor
  · intro hgrows
    exact hbounded.unique hgrows
  · rintro rfl
    exact hbounded

/-- More rounds than it takes to double the radius beyond the loop's bound change nothing. -/
theorem grow_of_more_fuel {fuel : ℕ} (hradius : e.radius = .finite r) (hr : 0 < r)
    (hle : doublings e.radius ≤ fuel) :
    e.grow can_grow fuel g = e.grow can_grow (doublings e.radius) g := by
  have hmore : StdMath.max / 2 < r * 2 ^ fuel :=
    (rounds_enough std hradius hr).trans_le
      (mul_le_mul_of_nonneg_left (pow_le_pow_right₀ one_le_two hle) hr.le)
  exact ((grows_iff std hradius hr).mp (grows_grow hradius hmore)).symm

end Loop

/-! ### Portions -/

/-- A predicate that accepts every level and moves nothing. -/
def Yielding (can_grow : GrowthPredicate F γ) : Prop :=
  ∀ position radius g,
    (can_grow position radius g).1 = true ∧ (can_grow position radius g).2.1 = position

omit [LinearOrder F] [StdMath F] in
theorem Yielding.asked (h : Yielding can_grow) (k : ℕ) :
    (Entity.asked can_grow r position g k).1 = position := by
  induction k with
  | zero => rfl
  | succ k ih => exact (h _ _ _).2.trans ih

theorem Yielding.stopsAt (h : Yielding can_grow) (k : ℕ) :
    StopsAt can_grow r position g m k ↔ m < levelMass r k := by
  have haccepts : accepts can_grow r position g k = true := (h _ _ _).1
  rw [StopsAt, haccepts]
  exact or_iff_left (Bool.noConfusion)

theorem levelMass_levelRadius (r : F) (k j : ℕ) :
    levelMass (levelRadius r k) j = levelMass r (k + j) := by
  rw [levelMass, levelMass, levelRadius_add, add_assoc]

/-- The levels of a meal in two portions add up to those of the whole meal. -/
theorem isLeast_add {m' : F} {k j : ℕ} (hle : m ≤ m')
    (hfirst : IsLeast {k | m < levelMass r k} k)
    (hsecond : IsLeast {j | m' < levelMass (levelRadius r k) j} j) :
    IsLeast {k | m' < levelMass r k} (k + j) := by
  refine ⟨?_, fun i hi => ?_⟩
  · have hstops : m' < levelMass (levelRadius r k) j := hsecond.1
    rwa [levelMass_levelRadius] at hstops
  · -- The whole meal passes every level of the first portion.
    have hki : k ≤ i := hfirst.2 (hle.trans_lt hi)
    obtain ⟨d, rfl⟩ := Nat.exists_eq_add_of_le hki
    have hd : m' < levelMass (levelRadius r k) d := by
      rw [levelMass_levelRadius]
      exact hi
    exact Nat.add_le_add_left (hsecond.2 hd) k

section Spec

variable [IsStrictOrderedRing F] {amount : Extended F} {a b : F}
  {t : TransformComponent (Extended F)} (std : StandardMath F)
include std

/-- What `addMass` leaves of a ship that takes in an amount, inside the finite range. -/
theorem addMass_of_takesIn {k : ℕ} (h : TakesIn e amount m a r t) (hmax : m + a ≤ StdMath.max)
    (hleast : IsLeast {k | StopsAt can_grow r t.position g (m + a) k} k) :
    e.addMass amount can_grow g =
      (true,
        { e with
          mass := .finite (m + a)
          radius := .finite (levelRadius r k)
          transform := some { t with position := (settled can_grow r t.position g (m + a) k).1 } },
        (settled can_grow r t.position g (m + a) k).2) := by
  rw [h.addMass]
  exact grow_of_isLeast (e := { e with mass := .finite (m + a) }) std rfl h.radius h.transform
    hmax (rounds_enough std h.radius h.radius_pos) hleast

/-- A ship takes in its mass at once or in portions, if nothing stops its growth. -/
theorem addMass_portions (hyielding : Yielding can_grow) (h : TakesIn e (.finite a) m a r t)
    (hb : 0 ≤ b) (hmax : m + a + b ≤ StdMath.max) :
    ((e.addMass (.finite a) can_grow g).2.1.addMass (.finite b) can_grow
        (e.addMass (.finite a) can_grow g).2.2).2.1 =
      (e.addMass (.finite (a + b)) can_grow g).2.1 := by
  have hstops (r m : F) (position : Vector2D (Extended F)) (g : γ) :
      {k | StopsAt can_grow r position g m k} = {k | m < levelMass r k} :=
    Set.ext fun k => hyielding.stopsAt k
  have hfirst_max : m + a ≤ StdMath.max := by linarith
  have hwhole_max : m + (a + b) ≤ StdMath.max := by linarith
  obtain ⟨k, hk⟩ :=
    exists_isLeast_stopsAt std can_grow t.position g h.radius_pos hfirst_max
  have hfirst := addMass_of_takesIn std h hfirst_max hk
  rw [settled, hyielding.asked] at hfirst
  rw [hfirst]
  -- The second portion meets a ship that has grown by the levels of the first.
  have hradius : 0 < levelRadius r k := by
    rw [levelRadius_eq]
    exact mul_pos h.radius_pos (pow_pos two_pos k)
  have hsecond_takes : TakesIn
      { e with mass := .finite (m + a), radius := .finite (levelRadius r k), transform := some t }
      (.finite b) (m + a) b (levelRadius r k) t :=
    ⟨h.type, rfl, add_nonneg h.mass_nonneg h.amount_nonneg, rfl, hradius, rfl, rfl, hb⟩
  obtain ⟨j, hj⟩ := exists_isLeast_stopsAt std can_grow t.position
    (asked can_grow r t.position g (if m + a < levelMass r k then k else k + 1)).2 hradius hmax
  rw [addMass_of_takesIn std hsecond_takes hmax hj, settled, hyielding.asked]
  -- The whole meal makes the levels of both.
  rw [hstops] at hk hj
  have hsum : IsLeast {k | StopsAt can_grow r t.position g (m + (a + b)) k} (k + j) := by
    rw [hstops, ← add_assoc]
    exact isLeast_add (by linarith) hk hj
  have hwhole_takes : TakesIn e (.finite (a + b)) m (a + b) r t :=
    ⟨h.type, h.mass, h.mass_nonneg, h.radius, h.radius_pos, h.transform, rfl,
      add_nonneg h.amount_nonneg hb⟩
  rw [addMass_of_takesIn std hwhole_takes hwhole_max hsum, settled, hyielding.asked, ← add_assoc,
    levelRadius_add]

end Spec

/-- What adding mass to an entity promises, whatever the amount and the predicate. -/
structure AddsMass (can_grow : GrowthPredicate F γ) (e : Entity (Extended F))
    (amount : Extended F) (g : γ) : Prop where
  /-- The loop ends by itself, with what the bounded one returns. -/
  exits : ∀ {r}, e.radius = .finite r → 0 < r → ∀ mass out,
    Grows can_grow { e with mass := mass } g out ↔
      grow can_grow (doublings e.radius) { e with mass := mass } g = out
  /-- No number of further rounds changes what the loop returns. -/
  terminates : ∀ {r}, e.radius = .finite r → 0 < r → ∀ mass fuel, doublings e.radius ≤ fuel →
    grow can_grow fuel { e with mass := mass } g =
      grow can_grow (doublings e.radius) { e with mass := mass } g
  refused : (e.addMass amount can_grow g).1 = false → (e.addMass amount can_grow g).2 = (e, g)
  accepted : (e.addMass amount can_grow g).1 = true → ∃ m a r t, TakesIn e amount m a r t ∧
    (e.addMass amount can_grow g).2.1.mass = .finite (m + a) ∧
    (m + a ≤ StdMath.max → ∃ k, IsLeast {k | StopsAt can_grow r t.position g (m + a) k} k ∧
      (e.addMass amount can_grow g).2 =
        ({ e with
          mass := .finite (m + a)
          radius := .finite (levelRadius r k)
          transform := some { t with position := (settled can_grow r t.position g (m + a) k).1 } },
        (settled can_grow r t.position g (m + a) k).2))
  portions : Yielding can_grow → ∀ {a b}, 0 ≤ a → 0 ≤ b →
    (∀ {m}, e.mass = .finite m → m + a + b ≤ StdMath.max) →
    ((e.addMass (.finite a) can_grow g).2.1.addMass (.finite b) can_grow
        (e.addMass (.finite a) can_grow g).2.2).2.1 =
      (e.addMass (.finite (a + b)) can_grow g).2.1

theorem addsMass [IsStrictOrderedRing F] (std : StandardMath F) (can_grow : GrowthPredicate F γ)
    (e : Entity (Extended F)) (amount : Extended F) (g : γ) : AddsMass can_grow e amount g where
  exits hradius hr mass out := grows_iff (e := { e with mass := mass }) std hradius hr
  terminates hradius hr mass fuel hfuel :=
    grow_of_more_fuel (e := { e with mass := mass }) std hradius hr hfuel
  refused := addMass_refused
  accepted hadded := by
    obtain ⟨m, a, r, t, htakes⟩ := takesIn_of_addMass hadded
    refine ⟨m, a, r, t, htakes, ?_, fun hmax => ?_⟩
    · rw [htakes.addMass]
      exact grow_mass _ _
    · obtain ⟨k, hk⟩ :=
        exists_isLeast_stopsAt std can_grow t.position g htakes.radius_pos hmax
      exact ⟨k, hk, congrArg Prod.snd (addMass_of_takesIn std htakes hmax hk)⟩
  portions hyielding {a b} ha hb hmax := by
    cases hadded : (e.addMass (.finite a) can_grow g).1 with
    | true =>
      obtain ⟨m, a', r, t, htakes⟩ := takesIn_of_addMass hadded
      obtain rfl := Extended.finite.inj htakes.amount
      exact addMass_portions std hyielding htakes hb (hmax htakes.mass)
    | false =>
      -- What does not take in the first portion takes in nothing.
      have hrefuses {c : F} (g' : γ) : (e.addMass (.finite c) can_grow g').1 = false := by
        by_contra htaken
        rw [Bool.not_eq_false] at htaken
        obtain ⟨m, c', r, t, htakes⟩ := takesIn_of_addMass htaken
        have hfirst : TakesIn e (.finite a) m a r t :=
          ⟨htakes.type, htakes.mass, htakes.mass_nonneg, htakes.radius, htakes.radius_pos,
            htakes.transform, rfl, ha⟩
        have hgrown : (grow can_grow (doublings e.radius) { e with mass := .finite (m + a) } g).1 =
            true := grow_succeeds (e := { e with mass := .finite (m + a) })
          (Option.isSome_iff_exists.mpr ⟨t, htakes.transform⟩) _ g
        rw [hfirst.addMass] at hadded
        exact absurd (hgrown.symm.trans hadded) Bool.noConfusion
      rw [addMass_refused hadded, addMass_refused (hrefuses g), addMass_refused (hrefuses g)]

section Exact

attribute [local instance] RationalScalar.stdMath

/-- A ship as it is spawned takes in a mass that lets it grow twice. -/
theorem addsMass_spawned :
    let area : Circle (Extended ℚ) := ⟨⟨lit 0, lit 0⟩, lit 100⟩
    let ship := outfitShip area [] (fresh 0)
    let can_grow : GrowthPredicate ℚ Unit := fun position _ g => (true, position, g)
    AddsMass can_grow ship (.finite 1200) () ∧ Yielding can_grow ∧
      (ship.addMass (.finite 1200) can_grow ()).1 = true ∧
      (ship.addMass (.finite 1200) can_grow ()).2.1.radius = .finite 20 := by
  intro area ship can_grow
  exact ⟨addsMass standardMath_rational can_grow ship (.finite 1200) (), fun _ _ _ => ⟨rfl, rfl⟩,
    by decide +kernel, by decide +kernel⟩

end Exact

end SpaceShooter.Domain.Entity
