/-
# Ships stay in the world

Over exact numbers extended with the non-finite values, the motion of every entity stays
finite and every ship stays in the rectangle of the world, as long as the angles that the
players' ships are left at are finite. The parser lets a player send any angle, so this is
a condition on the input and not a property of the server.
-/

import SpaceShooter.Common.WorldBounds
import SpaceShooter.Server.WorldInvariant

namespace SpaceShooter.Server.World

open Scalar Domain Library Library.Outcome Math

variable {F : Type} [Field F] [LinearOrder F] {width height : F}

/-! ### Steady entities -/

/-- An entity with finite components, in the rectangle if it is a ship. The angle, which
the players choose, is left out. -/
structure Steady (width height : F) (e : Entity (Extended F)) : Prop where
  radius : e.radius.IsFinite
  mass : e.mass.IsFinite
  engine : ∀ {s}, e.ship = some s → s.thrust_power.IsFinite ∧ s.drag.IsFinite
  motion : ∀ {t}, e.transform = some t → FinitePoint t.position ∧ FinitePoint t.velocity
  inside : ∀ {t}, e.type = .Ship → e.transform = some t → InRectangle width height t.position

/-- A live ship has a finite angle. -/
def Aimed (e : Entity (Extended F)) : Prop :=
  e.LiveShip → ∀ t, e.transform = some t → t.angle.IsFinite

/-- What movement and collisions keep. -/
def Tame (width height : F) (e : Entity (Extended F)) : Prop := Steady width height e ∧ Aimed e

theorem Steady.congr {e e' : Entity (Extended F)} (h : Steady width height e)
    (type : e'.type = e.type) (mass : e'.mass = e.mass) (radius : e'.radius = e.radius)
    (transform : e'.transform = e.transform) (ship : e'.ship = e.ship) :
    Steady width height e' where
  radius := radius ▸ h.radius
  mass := mass ▸ h.mass
  engine hs := h.engine (ship ▸ hs)
  motion ht := h.motion (transform ▸ ht)
  inside htype ht := h.inside (type ▸ htype) (transform ▸ ht)

/-- A new place and speed for an entity. -/
theorem Steady.place {e : Entity (Extended F)} (h : Steady width height e)
    {t : TransformComponent (Extended F)} (hposition : FinitePoint t.position)
    (hvelocity : FinitePoint t.velocity)
    (hinside : e.type = .Ship → InRectangle width height t.position) :
    Steady width height { e with transform := some t } where
  radius := h.radius
  mass := h.mass
  engine := h.engine
  motion ht := by
    obtain rfl := Option.some.inj ht
    exact ⟨hposition, hvelocity⟩
  inside htype ht := by
    obtain rfl := Option.some.inj ht
    exact hinside htype

omit [Field F] [LinearOrder F] in
theorem Aimed.of_angle {e e' : Entity (Extended F)} (h : Aimed e) (hlive : e'.LiveShip → e.LiveShip)
    (hangle : ∀ t', e'.transform = some t' → ∃ t, e.transform = some t ∧ t'.angle = t.angle) :
    Aimed e' := by
  intro hlive' t' ht'
  obtain ⟨t, ht, heq⟩ := hangle t' ht'
  exact heq ▸ h (hlive hlive') t ht

variable [StdMath F] [IsStrictOrderedRing F]

/-! ### Movement -/

theorem finite_integrate {e : Entity (Extended F)} {t : TransformComponent (Extended F)}
    (hposition : FinitePoint t.position) (hvelocity : FinitePoint t.velocity)
    (hangle : e.type = .Ship → t.angle.IsFinite)
    (hengine : ∀ {s}, e.ship = some s → s.thrust_power.IsFinite ∧ s.drag.IsFinite)
    {dt : Extended F} (hdt : dt.IsFinite) :
    FinitePoint (integrate e t dt).position ∧ FinitePoint (integrate e t dt).velocity ∧
      (integrate e t dt).angle = t.angle := by
  unfold integrate
  split
  · next s htype hship =>
    obtain ⟨hthrust, hdrag⟩ := hengine hship
    obtain ⟨hmoved, hspeed⟩ := finite_updateShipPhysics s.is_thrusting hposition hvelocity
      (hangle htype) hthrust hdrag hdt (isFinite_lit 600)
    exact ⟨hmoved, hspeed, rfl⟩
  · exact ⟨hposition.add (hvelocity.scale hdt), hvelocity, rfl⟩

omit [IsStrictOrderedRing F] in
theorem finite_wrapCircleThroughWorldBounds {v : Vector2D (Extended F)} (hv : FinitePoint v)
    {radius world_width world_height : Extended F} (hradius : radius.IsFinite)
    (hwidth : world_width.IsFinite) (hheight : world_height.IsFinite) :
    FinitePoint (wrapCircleThroughWorldBounds v radius world_width world_height) := by
  have hw := hwidth.mul (isFinite_lit (1 / 2))
  have hh := hheight.mul (isFinite_lit (1 / 2))
  exact ⟨.ite (hw.add hradius) (.ite (hw.neg.sub hradius) hv.1),
    .ite (hh.add hradius) (.ite (hh.neg.sub hradius) hv.2)⟩

variable (hwidth : 2 * eps ≤ width) (hheight : 2 * eps ≤ height)
include hwidth hheight

/-- At the edges a ship that is clamped is inside, and one that is not was inside. -/
theorem steady_bound {e : Entity (Extended F)} (h : Steady width height e)
    {t : TransformComponent (Extended F)} (hposition : FinitePoint t.position)
    (hvelocity : FinitePoint t.velocity) :
    Steady width height (bound e t (.finite width) (.finite height)) := by
  obtain ⟨hclamped, hunmoved⟩ := clampToWorldBounds_spec hwidth hheight hposition
  unfold bound
  split_ifs with hasteroid
  · refine h.place ?_ hvelocity fun hship => nomatch hasteroid.symm.trans hship
    exact finite_wrapCircleThroughWorldBounds hposition h.radius ⟨_, rfl⟩ ⟨_, rfl⟩
  · dsimp only
    split
    · next hnone =>
      simp only [Bool.and_eq_true, Bool.not_eq_true', decide_eq_false_iff_not] at hnone
      exact h.place hposition hvelocity fun _ => hunmoved hnone.1 hnone.2
    · split
      · next hbullet =>
        have hplaced : Steady width height { e with transform := some t } :=
          h.place hposition hvelocity fun hship => nomatch hbullet.symm.trans hship
        exact hplaced.congr rfl rfl rfl rfl rfl
      · refine h.place hclamped.finite ⟨?_, ?_⟩ fun _ => hclamped
        · exact .ite (isFinite_lit 0) hvelocity.1
        · exact .ite (isFinite_lit 0) hvelocity.2
      · next hship =>
        exact h.place hposition hvelocity fun htype => absurd htype hship

theorem tame_moveEntity {dt : Extended F} (hdt : dt.IsFinite) {e : Entity (Extended F)}
    (h : Tame width height e) :
    Tame width height (moveEntity dt (.finite width) (.finite height) e) := by
  have hlive := (moveEntity_continues dt (.finite width) (.finite height) e).liveShip
  unfold moveEntity at hlive ⊢
  by_cases hskip : (decide (e.type = .None) || e.isDestroyed) = true
  · rwa [if_pos hskip]
  rw [if_neg hskip] at hlive ⊢
  simp only [Bool.or_eq_true, not_or, Bool.not_eq_true] at hskip
  cases ht : e.transform with
  | none => exact h
  | some t =>
    rw [ht] at hlive
    obtain ⟨hposition, hvelocity, hangle⟩ := finite_integrate (h.1.motion ht).1 (h.1.motion ht).2
      (fun htype => h.2 ⟨htype, hskip.2⟩ t ht) h.1.engine hdt
    refine ⟨steady_bound hwidth hheight h.1 hposition hvelocity, ?_⟩
    refine h.2.of_angle hlive fun t' ht' => ⟨t, ht, ?_⟩
    obtain ⟨t₀, out, hangle₀, -, heq⟩ := bound_eq e (integrate e t dt) (.finite width)
      (.finite height)
    change (bound e _ _ _).transform = some t' at ht'
    rw [heq] at ht'
    obtain rfl := Option.some.inj ht'
    exact hangle₀.trans hangle

/-! ### Collisions -/

/-- Room to grow is looked for inside the rectangle. -/
theorem tryGrowShip_spec {world : World (Extended F)} (hw : world.world_width_ = .finite width)
    (hh : world.world_height_ = .finite height) {v : Vector2D (Extended F)}
    (hv : FinitePoint v) (radius : Extended F) :
    FinitePoint (world.tryGrowShip v radius).2 ∧
      (InRectangle width height v →
        InRectangle width height (world.tryGrowShip v radius).2) := by
  have hclamped := (clampToWorldBounds_spec hwidth hheight hv).1
  unfold tryGrowShip
  rw [hw, hh]
  split
  · exact ⟨hv, fun h => h⟩
  · dsimp only
    split
    · exact ⟨hclamped.finite, fun _ => hclamped⟩
    · exact ⟨hclamped.finite, fun _ => hclamped⟩

/-- Collisions keep entities tame. -/
theorem tame_pass {world : World (Extended F)} (hw : world.world_width_ = .finite width)
    (hh : world.world_height_ = .finite height) :
    Collision.Pass world.can_grow fun e e' => Tame width height e → Tame width height e' where
  refl _ h := h
  trans _ _ _ h h' := h' ∘ h
  destroyed _ h := ⟨h.1.congr rfl rfl rfl rfl rfl, fun hlive => nomatch hlive.2⟩
  damaged e health h := by
    refine ⟨h.1.congr rfl rfl rfl rfl rfl, h.2.of_angle ?_ fun t ht => ⟨t, ht, rfl⟩⟩
    exact (e.continues_damaged health).liveShip
  scored e s s' hs hthrust hdrag h := by
    refine ⟨⟨h.1.radius, h.1.mass, fun hs' => ?_, h.1.motion, h.1.inside⟩, h.2⟩
    obtain rfl := Option.some.inj hs'
    obtain ⟨hfinite, hfinite'⟩ := h.1.engine hs
    exact ⟨hthrust ▸ hfinite, hdrag ▸ hfinite'⟩
  gained _ _ hmass h :=
    ⟨⟨h.1.radius, isFinite_of_isfinite hmass, h.1.engine, h.1.motion, h.1.inside⟩, h.2⟩
  moved e t radius g ht h := by
    obtain ⟨hposition, hvelocity⟩ := h.1.motion ht
    obtain ⟨hfinite, hinside⟩ := tryGrowShip_spec hwidth hheight hw hh hposition radius
    refine ⟨h.1.place hfinite hvelocity fun hship => hinside (h.1.inside hship ht), ?_⟩
    refine h.2.of_angle (fun hlive => hlive) fun t' ht' => ⟨t, ht, ?_⟩
    obtain rfl := Option.some.inj ht'
    rfl
  grown _ h :=
    ⟨⟨h.1.radius.mul (isFinite_lit 2), h.1.mass, h.1.engine, h.1.motion, h.1.inside⟩, h.2⟩

omit hwidth hheight

/-! ### Asteroids -/

/-- A draw of `std::uniform_real_distribution` lies in its range. -/
def DrawsInRange (uniform : AsteroidFactory.Uniform (Extended F)) : Prop :=
  ∀ n (a b : F), a ≤ b → ∃ u, uniform n (.finite a) (.finite b) = .finite u ∧ a ≤ u ∧ u ≤ b

/-- A weight that the factory gives to an asteroid. -/
def AsteroidWeight (weight : Extended F) : Prop := ∃ w, weight = .finite w ∧ 10 ≤ w ∧ w ≤ 80

omit [StdMath F] [IsStrictOrderedRing F] in
theorem AsteroidWeight.finite {weight : Extended F} (h : AsteroidWeight weight) :
    weight.IsFinite := by
  obtain ⟨w, rfl, -, -⟩ := h
  exact ⟨w, rfl⟩

/-- A draw from what remains of a budget, which has room for one more asteroid. -/
theorem draw_solo_weight {uniform : AsteroidFactory.Uniform (Extended F)}
    (hdraws : DrawsInRange uniform) (draw : ℕ) {r : F} (hroom : 10 ≤ r) :
    ∃ u w : F, Scalar.min AsteroidFactory.MAX_ASTEROID_WEIGHT (.finite r) = Extended.finite u ∧
      uniform draw AsteroidFactory.MIN_ASTEROID_WEIGHT (.finite u) = .finite w ∧
        10 ≤ w ∧ w ≤ u ∧ u ≤ 80 ∧ u ≤ r := by
  -- The range of the draw is not empty.
  have hupper : ∃ u, Scalar.min AsteroidFactory.MAX_ASTEROID_WEIGHT (.finite r) =
      Extended.finite u ∧ 10 ≤ u ∧ u ≤ 80 ∧ u ≤ r := by
    unfold Scalar.min
    split
    · next hlt =>
      have hle : r < ((80 : ℚ) : F) := hlt
      rw [Rat.cast_ofNat] at hle
      exact ⟨r, rfl, hroom, hle.le, le_rfl⟩
    · next hge =>
      have hle : ((80 : ℚ) : F) ≤ r := le_of_not_gt hge
      rw [Rat.cast_ofNat] at hle
      exact ⟨((80 : ℚ) : F), rfl, by norm_num, by norm_num, by rwa [Rat.cast_ofNat]⟩
  obtain ⟨u, hu, hmin, hmax, hle⟩ := hupper
  obtain ⟨w, hw, hlow, hhigh⟩ := hdraws draw ((10 : ℚ) : F) u (by rwa [Rat.cast_ofNat])
  rw [Rat.cast_ofNat] at hlow
  exact ⟨u, w, hu, hw, hlow, hhigh, hmax, hle⟩

/-- The draws that split a budget are weights of asteroids. -/
theorem asteroidWeight_drawWeights {uniform : AsteroidFactory.Uniform (Extended F)}
    (hdraws : DrawsInRange uniform) (rounds draw : ℕ) {remaining : Extended F}
    (hremaining : remaining.IsFinite) :
    ∀ weight ∈ AsteroidFactory.drawWeights uniform rounds draw remaining,
      AsteroidWeight weight := by
  induction rounds generalizing draw remaining with
  | zero => exact nofun
  | succ rounds ih =>
    obtain ⟨r, rfl⟩ := hremaining
    unfold AsteroidFactory.drawWeights
    split
    · next hroom =>
      have hlow : ((10 : ℚ) : F) ≤ r := hroom
      rw [Rat.cast_ofNat] at hlow
      obtain ⟨u, w, hu, hw, hmin, hle, hmax, -⟩ := draw_solo_weight hdraws draw hlow
      dsimp only
      rw [hu, hw]
      exact List.forall_mem_cons.mpr
        ⟨⟨w, rfl, hmin, hle.trans hmax⟩, ih (draw + 1) ⟨_, Extended.finite_sub r w⟩⟩
    · exact nofun

theorem asteroidWeight_generateAsteroidWeight {uniform : AsteroidFactory.Uniform (Extended F)}
    (hdraws : DrawsInRange uniform) {current_weight : Extended F}
    (hcurrent : current_weight.IsFinite) :
    ∀ weight ∈ AsteroidFactory.generateAsteroidWeight uniform current_weight,
      AsteroidWeight weight := by
  obtain ⟨c, rfl⟩ := hcurrent
  unfold AsteroidFactory.generateAsteroidWeight
  split
  · exact nofun
  · dsimp only
    split
    · exact nofun
    · next hbudget =>
      have hbudget' : ¬ ((500 : ℚ) : F) - c < ((10 : ℚ) : F) := by
        intro hlt
        refine hbudget ?_
        change Extended.finite ((500 : ℚ) : F) - Extended.finite c < Extended.finite ((10 : ℚ) : F)
        rw [Extended.finite_sub]
        exact hlt
      obtain ⟨u, hu, -, -⟩ := hdraws 0 ((10 : ℚ) : F) _ (le_of_not_gt hbudget')
      refine asteroidWeight_drawWeights hdraws _ _ ⟨u, ?_⟩
      rw [← hu, ← Extended.finite_sub]
      rfl

/-- The asteroids' positions are finite. -/
theorem finite_generatePositions {uniform : AsteroidFactory.Uniform (Extended F)}
    (hdraws : DrawsInRange uniform) (draw pos_count : ℕ) {area : Circle (Extended F)}
    (hcenter : FinitePoint area.center) (hradius : area.radius.IsFinite) :
    ∀ v ∈ AsteroidFactory.generatePositions uniform draw pos_count area, FinitePoint v := by
  have hunit (n : ℕ) : ∃ u, uniform n (lit 0) (lit 1) = Extended.finite u ∧ 0 ≤ u := by
    obtain ⟨u, hu, hle, -⟩ := hdraws n ((0 : ℚ) : F) ((1 : ℚ) : F) (by norm_num)
    exact ⟨u, hu, by rwa [Rat.cast_zero] at hle⟩
  unfold AsteroidFactory.generatePositions
  split
  · exact nofun
  · intro v hv
    obtain ⟨i, -, rfl⟩ := List.mem_map.mp hv
    obtain ⟨u, hu, -⟩ := hunit (draw + 2 * i)
    obtain ⟨w, hw, hnonneg⟩ := hunit (draw + 2 * i + 1)
    have hpi : (pi : Extended F).IsFinite := ⟨_, rfl⟩
    have hangle : (lit 2 * pi * uniform (draw + 2 * i) (lit 0) (lit 1)).IsFinite :=
      ((isFinite_lit 2).mul hpi).mul ⟨u, hu⟩
    have hr : (area.radius *
        Scalar.sqrt (uniform (draw + 2 * i + 1) (lit 0) (lit 1))).IsFinite :=
      hradius.mul ⟨_, hw ▸ sqrt_finite hnonneg⟩
    exact ⟨hcenter.1.add (hr.mul (isFinite_cos hangle)),
      hcenter.2.add (hr.mul (isFinite_sin hangle))⟩

omit [IsStrictOrderedRing F] in
theorem finite_calculateCurrentWeight {pool : EntityPool (Extended F)}
    (hmass : ∀ {i e}, pool.at? i = some e → e.mass.IsFinite) :
    (AsteroidFactory.calculateCurrentWeight pool).IsFinite := by
  unfold AsteroidFactory.calculateCurrentWeight
  refine List.foldlRecOn _ _ (isFinite_lit 0) fun total htotal slot hslot => ?_
  split
  · next e =>
    obtain ⟨i, hat⟩ := EntityPool.mem_storage.mp hslot
    exact .ite (htotal.add (hmass hat)) htotal
  · exact htotal

/-- What holds of every asteroid of a possible weight at a finite position holds of those that
a pass of the factory adds. -/
theorem extends_update {P : Entity (Extended F) → Prop}
    (hcreate : ∀ {pool : EntityPool (Extended F)} {weight position}, pool.WellFormed →
      AsteroidWeight weight → FinitePoint position →
        EntityPool.Extends P pool (AsteroidFactory.createAsteroid pool weight position))
    {uniform : AsteroidFactory.Uniform (Extended F)} (hdraws : DrawsInRange uniform)
    {area : Circle (Extended F)} (hcenter : FinitePoint area.center)
    (hradius : area.radius.IsFinite) {pool : EntityPool (Extended F)} (wf : pool.WellFormed)
    (hmass : ∀ {i e}, pool.at? i = some e → e.mass.IsFinite) :
    EntityPool.Extends P pool (AsteroidFactory.update uniform area pool) := by
  have hfold (asteroids : List (Extended F × Vector2D (Extended F)))
      (hasteroids : ∀ a ∈ asteroids, AsteroidWeight a.1 ∧ FinitePoint a.2)
      (pool : EntityPool (Extended F)) (wf : pool.WellFormed) :
      EntityPool.Extends P pool (asteroids.foldl
        (fun pool (weight, position) => AsteroidFactory.createAsteroid pool weight position)
        pool) := by
    induction asteroids generalizing pool with
    | nil => exact .refl wf
    | cons asteroid asteroids ih =>
      obtain ⟨⟨hweight, hposition⟩, hrest⟩ := List.forall_mem_cons.mp hasteroids
      have hfirst := hcreate wf hweight hposition
      exact hfirst.trans (ih hrest _ hfirst.wellFormed)
  unfold AsteroidFactory.update
  dsimp only
  split
  · exact .refl wf
  · have hcurrent : (AsteroidFactory.calculateCurrentWeight pool).IsFinite :=
      finite_calculateCurrentWeight hmass
    have hweights := asteroidWeight_generateAsteroidWeight hdraws hcurrent
    refine hfold _ (fun a ha => ?_) pool wf
    obtain ⟨hweight, hposition⟩ := List.of_mem_zip ha
    exact ⟨hweights _ hweight, finite_generatePositions hdraws _ _ hcenter hradius _ hposition⟩

omit [IsStrictOrderedRing F] in
/-- An asteroid of finite weight and position is tame. -/
theorem tame_createAsteroid {pool : EntityPool (Extended F)} {weight : Extended F}
    {position : Vector2D (Extended F)} (wf : pool.WellFormed) (hweight : AsteroidWeight weight)
    (hposition : FinitePoint position) :
    EntityPool.Extends (Tame width height) pool
      (AsteroidFactory.createAsteroid pool weight position) := by
  have hfinite := hweight.finite
  refine EntityPool.extends_acquire_modify wf (fun _ => rfl) ⟨⟨?_, hfinite, nofun, ?_, nofun⟩, ?_⟩
  · exact .ite (hfinite.mul (isFinite_lit 30)) (hfinite.mul (isFinite_lit 30))
  · rintro t ht
    obtain rfl := Option.some.inj ht
    exact ⟨hposition, finitePoint_zero⟩
  · exact fun hlive => nomatch hlive.1

/-! ### Free room -/

/-- Among finite entities free room is found inside the rectangle. -/
theorem freePosition_spec {world : World (Extended F)} (hw : world.world_width_ = .finite width)
    (hh : world.world_height_ = .finite height)
    (hfinite : ∀ {i e t}, world.entities_.at? i = some e → e.transform = some t →
      FinitePoint t.position ∧ e.radius.IsFinite)
    (hwidth : 0 ≤ width) (hheight : 0 ≤ height) :
    InRectangle width height world.freePosition.center ∧ world.freePosition.radius.IsFinite := by
  have hoccupied : FiniteCircles ((collectLiveEntities world.entities_).filterMap fun e =>
      e.transform.map fun transform => (transform.position, e.radius)) := by
    intro o ho
    obtain ⟨e, he, hcircle⟩ := List.mem_filterMap.mp ho
    obtain ⟨t, ht, rfl⟩ := Option.map_eq_some_iff.mp hcircle
    have hslot := List.mem_of_mem_filter he
    rw [List.reduceOption_mem_iff, EntityPool.mem_storage] at hslot
    obtain ⟨i, hat⟩ := hslot
    exact hfinite hat ht
  have hspec := largestEmptyCircle_spec hoccupied hwidth hheight
  unfold World.freePosition
  dsimp only
  rw [hw, hh]
  exact hspec

end SpaceShooter.Server.World
