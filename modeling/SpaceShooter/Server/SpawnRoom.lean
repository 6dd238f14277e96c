/-
# Room for new ships

The entities that take room are discs, and the search for free room works on them. A new ship
is placed where the search ends; from then on it takes room itself, so that the ships of one
tick keep clear of each other.
-/

import SpaceShooter.Common.FreeCircle
import SpaceShooter.Server.AsteroidFactory
import SpaceShooter.Server.WorldInvariant

namespace SpaceShooter.Server.World

open Library Scalar Math Domain

variable {F : Type} [Field F] [LinearOrder F]

/-- The disc that an entity covers. -/
def Covers (e : Entity (Extended F)) (d : Disc F) : Prop :=
  ∃ t, e.transform = some t ∧ (t.position, e.radius) = d.circle

/-- Every entity that takes room covers a disc: its position and its radius are numbers. -/
def Covered [StdMath F] (pool : EntityPool (Extended F)) : Prop :=
  ∀ e ∈ collectLiveEntities pool, ∃ d, Covers e d

theorem Covers.unique {e : Entity (Extended F)} {d d' : Disc F} (h : Covers e d)
    (h' : Covers e d') : d = d' := by
  obtain ⟨t, ht, hcircle⟩ := h
  obtain ⟨t', ht', hcircle'⟩ := h'
  obtain rfl := Option.some.inj (ht.symm.trans ht')
  have hequal := hcircle.symm.trans hcircle'
  obtain ⟨x, y, r, hr⟩ := d
  obtain ⟨x', y', r', hr'⟩ := d'
  cases hequal
  rfl

variable [StdMath F]

/-- A circle around a point lies inside the world and touches no entity that takes room. -/
def RoomAt (pool : EntityPool (Extended F)) (width height s : F) (v : Vector2D (Extended F)) :
    Prop :=
  ∃ x y, v = ⟨.finite x, .finite y⟩ ∧ Encloses width height s x y ∧
    ∀ e ∈ collectLiveEntities pool, ∀ d, Covers e d → s + d.radius < d.dist x y

/-- A ship lies inside the world and touches no entity that takes room. -/
def Seated (pool : EntityPool (Extended F)) (width height : F) (ship : Entity (Extended F)) :
    Prop :=
  ∃ d, Covers ship d ∧ RoomAt pool width height d.radius ⟨.finite d.x, .finite d.y⟩

/-- Two entities do not touch. -/
def Apart (e e' : Entity (Extended F)) : Prop :=
  ∃ d d', Covers e d ∧ Covers e' d' ∧ d.radius + d'.radius < d'.dist d.x d.y

/-- The circles of the entities that take room. -/
def occupied {K : Type} [Scalar K] (pool : EntityPool K) : List (Vector2D K × K) :=
  (collectLiveEntities pool).filterMap fun e =>
    e.transform.map fun transform => (transform.position, e.radius)

omit [StdMath F] in
theorem exists_discs {entities : List (Entity (Extended F))}
    (h : ∀ e ∈ entities, ∃ d : Disc F, Covers e d) :
    ∃ discs : List (Disc F), entities.filterMap (fun e =>
        e.transform.map fun transform => (transform.position, e.radius)) =
      discs.map Disc.circle ∧ ∀ d, d ∈ discs ↔ ∃ e ∈ entities, Covers e d := by
  induction entities with
  | nil => exact ⟨[], rfl, fun d => by simp⟩
  | cons e entities ih =>
    obtain ⟨⟨d, hd⟩, hrest⟩ := List.forall_mem_cons.mp h
    obtain ⟨discs, hcircles, hmem⟩ := ih hrest
    refine ⟨d :: discs, ?_, fun d' => ?_⟩
    · obtain ⟨t, ht, hcircle⟩ := hd
      rw [List.filterMap_cons_some (by rw [ht, Option.map_some]), hcircles, hcircle,
        List.map_cons]
    · have hself : d' = d ↔ Covers e d' := ⟨fun heq => heq ▸ hd, fun hd' => hd'.unique hd⟩
      simp only [List.mem_cons, exists_eq_or_imp, hmem, hself]

variable {world : World (Extended F)} {width height : F}

/-- The search for free room works on the discs of the entities that take room. -/
theorem exists_freePosition (hwidth : world.world_width_ = .finite width)
    (hheight : world.world_height_ = .finite height) (covered : Covered world.entities_) :
    ∃ discs : List (Disc F), occupied world.entities_ = discs.map Disc.circle ∧
      (∀ d, d ∈ discs ↔ ∃ e ∈ collectLiveEntities world.entities_, Covers e d) ∧
      world.freePosition =
        largestEmptyCircle (discs.map Disc.circle) (.finite width) (.finite height) := by
  obtain ⟨discs, hcircles, hmem⟩ := exists_discs covered
  refine ⟨discs, hcircles, hmem, ?_⟩
  rw [← hcircles, ← hwidth, ← hheight]
  rfl

/-- There is room at a point if the point seats a circle among the discs. -/
theorem roomAt_iff {pool : EntityPool (Extended F)} {discs : List (Disc F)}
    (hmem : ∀ d, d ∈ discs ↔ ∃ e ∈ collectLiveEntities pool, Covers e d) {s : F}
    {v : Vector2D (Extended F)} :
    RoomAt pool width height s v ↔ Seats discs (width / 2) (height / 2) s v := by
  refine exists_congr fun x => exists_congr fun y => and_congr_right fun _ => ?_
  unfold Encloses
  rw [and_assoc]
  refine and_congr_right fun _ => and_congr_right fun _ => ?_
  constructor
  · intro hapart d hd
    obtain ⟨e, he, hcovers⟩ := (hmem d).mp hd
    exact hapart e he d hcovers
  · intro hapart e he d hcovers
    exact hapart d ((hmem d).mpr ⟨e, he, hcovers⟩)

/-! ### New ships -/

/-- The ship of a player who joins. -/
def newShip {K : Type} [Scalar K] (world : World K) (join : PendingJoin) : Entity K :=
  outfitShip world.freePosition join.player_name (Entity.fresh world.entities_.next_id_)

/-- The ships that `spawnShips` adds, in their order. -/
def newShips {K : Type} [Scalar K] (world : World K) : List PendingJoin → List (Entity K)
  | [] => []
  | join :: joins => world.newShip join :: (world.spawnShip join).newShips joins

section Storage

variable {K : Type} [Scalar K] {world : World K}

theorem mem_spawnShip (wf : world.entities_.WellFormed) (join : PendingJoin) {e : Entity K} :
    some e ∈ (world.spawnShip join).entities_.storage_ ↔
      e = world.newShip join ∨ some e ∈ world.entities_.storage_ := by
  have hat := EntityPool.at?_acquire_modify wf (outfitShip world.freePosition join.player_name)
  rw [EntityPool.mem_storage, EntityPool.mem_storage]
  constructor
  · rintro ⟨i, hslot⟩
    have hslot' := (hat i).symm.trans hslot
    split_ifs at hslot'
    · exact Or.inl (Option.some.inj hslot').symm
    · exact Or.inr ⟨i, hslot'⟩
  · rintro (rfl | ⟨i, hslot⟩)
    · exact ⟨world.entities_.acquire.1, (hat _).trans (if_pos rfl)⟩
    · exact ⟨i, (extends_spawnShip wf join).keeps hslot⟩

/-- The new ships are the entities that are added. -/
theorem mem_spawnShips (wf : world.entities_.WellFormed) (joins : List PendingJoin)
    {e : Entity K} :
    some e ∈ (world.spawnShips joins).entities_.storage_ ↔
      e ∈ world.newShips joins ∨ some e ∈ world.entities_.storage_ := by
  induction joins generalizing world with
  | nil => simp [spawnShips, newShips]
  | cons join joins ih =>
    refine (ih (extends_spawnShip wf join).wellFormed).trans ?_
    rw [mem_spawnShip wf, newShips, List.mem_cons, or_left_comm, or_assoc]

theorem not_decide_of_not {p : Prop} [Decidable p] (h : ¬ p) : (!decide p) = true := by
  rw [decide_eq_false h]
  rfl

/-- A new ship takes room from now on. -/
theorem mem_collectLiveEntities_spawnShip (wf : world.entities_.WellFormed) (join : PendingJoin)
    (positive : ¬ (World.kShipDefaultRadius : K) ≤ lit 0) {e : Entity K} :
    e ∈ collectLiveEntities (world.spawnShip join).entities_ ↔
      e = world.newShip join ∨ e ∈ collectLiveEntities world.entities_ := by
  unfold collectLiveEntities
  rw [List.mem_filter, List.mem_filter, List.reduceOption_mem_iff, List.reduceOption_mem_iff,
    mem_spawnShip wf, or_and_right]
  refine or_congr_left (and_iff_left_of_imp ?_)
  rintro rfl
  exact not_decide_of_not positive

end Storage

variable [IsStrictOrderedRing F]

/-- The radius of a ship as an exact number. -/
def shipRadius : F := ((5 : ℚ) : F)

omit [StdMath F] in
theorem shipRadius_pos : 0 < (shipRadius : F) := by
  unfold shipRadius
  positivity

def shipDisc (x y : F) : Disc F := ⟨x, y, shipRadius, shipRadius_pos.le⟩

theorem not_kShipDefaultRadius_le :
    ¬ (World.kShipDefaultRadius : Extended F) ≤ lit 0 := by
  rw [lit_zero]
  exact (shipRadius_pos (F := F)).not_ge

theorem covers_newShip {join : PendingJoin} {x y : F}
    (hcenter : world.freePosition.center = ⟨.finite x, .finite y⟩) :
    Covers (world.newShip join) (shipDisc x y) := by
  refine ⟨_, rfl, ?_⟩
  rw [hcenter]
  rfl

/-- A new ship is seated if the centre of the free room seats it. -/
theorem seated_newShip_iff {discs : List (Disc F)}
    (hmem : ∀ d, d ∈ discs ↔ ∃ e ∈ collectLiveEntities world.entities_, Covers e d)
    (join : PendingJoin) :
    Seated world.entities_ width height (world.newShip join) ↔
      Seats discs (width / 2) (height / 2) shipRadius world.freePosition.center := by
  constructor
  · rintro ⟨d, ⟨t, ht, hcircle⟩, hroom⟩
    obtain rfl := Option.some.inj ht
    obtain ⟨hcenter, hradius⟩ := Prod.mk.inj hcircle
    have hship : shipRadius = d.radius := Extended.finite.inj hradius
    rw [roomAt_iff hmem, ← hship, ← hcenter] at hroom
    exact hroom
  · rintro ⟨x, y, hcenter, hseats⟩
    exact ⟨shipDisc x y, covers_newShip hcenter, (roomAt_iff hmem).mpr ⟨x, y, rfl, hseats⟩⟩

theorem Covered.spawnShip (covered : Covered world.entities_) (wf : world.entities_.WellFormed)
    (join : PendingJoin) (hcovers : ∃ d, Covers (world.newShip join) d) :
    Covered (world.spawnShip join).entities_ := by
  intro e he
  rcases (mem_collectLiveEntities_spawnShip wf join not_kShipDefaultRadius_le).mp he with
    rfl | hold
  · exact hcovers
  · exact covered e hold

/-- Ships that find room one after another keep clear of each other and of the entities that
were there. -/
theorem newShips_apart (roots : ExactRoots F) (wf : world.entities_.WellFormed)
    (covered : Covered world.entities_) (hwidth : world.world_width_ = .finite width)
    (hheight : world.world_height_ = .finite height) (joins : List PendingJoin)
    (room : ∀ before join after, joins = before ++ join :: after →
      World.kShipDefaultRadius ≤ (world.spawnShips before).freePosition.radius) :
    (world.newShips joins).Pairwise Apart ∧
      ∀ ship ∈ world.newShips joins, Seated world.entities_ width height ship := by
  -- The entities that take room stay discs, so each ship is placed by the same search.
  induction joins generalizing world with
  | nil => exact ⟨.nil, fun ship hship => absurd hship List.not_mem_nil⟩
  | cons join joins ih =>
    obtain ⟨discs, -, hmem, hposition⟩ := exists_freePosition hwidth hheight covered
    have hfirst : Seats discs (width / 2) (height / 2) shipRadius world.freePosition.center := by
      have hle := room [] join joins rfl
      rw [spawnShips, List.foldl_nil, hposition] at hle
      rw [hposition]
      exact seats_of_le_radius roots discs width height shipRadius_pos hle
    have hseated := (seated_newShip_iff hmem join).mpr hfirst
    have hcovered := covered.spawnShip wf join ⟨_, hseated.choose_spec.1⟩
    obtain ⟨hpairwise, hothers⟩ := ih (extends_spawnShip wf join).wellFormed hcovered hwidth
      hheight fun before join' after hjoins =>
        room (join :: before) join' after (congrArg (List.cons join) hjoins)
    have htakes {e : Entity (Extended F)} := mem_collectLiveEntities_spawnShip wf join
      not_kShipDefaultRadius_le (e := e)
    refine ⟨List.pairwise_cons.mpr ⟨fun ship hship => ?_, hpairwise⟩, fun ship hship => ?_⟩
    · -- The first ship takes room when the others are placed.
      obtain ⟨d, hd, -⟩ := hseated
      obtain ⟨d', hd', _, _, hequal, -, hapart⟩ := hothers ship hship
      cases hequal
      have hlt := hapart (world.newShip join) (htakes.mpr (Or.inl rfl)) d hd
      refine ⟨d, d', hd, hd', ?_⟩
      rwa [add_comm, ← d.dist_comm]
    · rcases List.mem_cons.mp hship with rfl | hship
      · exact hseated
      · obtain ⟨d, hd, x, y, hequal, hinside, hapart⟩ := hothers ship hship
        exact ⟨d, hd, x, y, hequal, hinside, fun e he => hapart e (htakes.mpr (Or.inr he))⟩

omit [IsStrictOrderedRing F] in
theorem length_newShips (world : World (Extended F)) (joins : List PendingJoin) :
    (world.newShips joins).length = joins.length := by
  induction joins generalizing world with
  | nil => rfl
  | cons join joins ih => exact congrArg Nat.succ (ih (world.spawnShip join))

/-- Where the free radius before each spawn is at least that of a ship, `spawnShips` adds one ship
for each join; they keep clear of each other and of every entity that took room, and lie inside
the world. -/
theorem spawnShips_apart (roots : ExactRoots F) (wf : world.entities_.WellFormed)
    (covered : Covered world.entities_) (hwidth : world.world_width_ = .finite width)
    (hheight : world.world_height_ = .finite height) (joins : List PendingJoin)
    (room : ∀ before join after, joins = before ++ join :: after →
      World.kShipDefaultRadius ≤ (world.spawnShips before).freePosition.radius) :
    (world.newShips joins).length = joins.length ∧
      (∀ e, some e ∈ (world.spawnShips joins).entities_.storage_ ↔
        e ∈ world.newShips joins ∨ some e ∈ world.entities_.storage_) ∧
      (world.newShips joins).Pairwise Apart ∧
      ∀ ship ∈ world.newShips joins, Seated world.entities_ width height ship :=
  ⟨length_newShips world joins, fun _ => mem_spawnShips wf joins,
    newShips_apart roots wf covered hwidth hheight joins room⟩

/-! ### Where the search looks

Besides the origin the search only tries points on the lines through two centres, and straight
above, below and beside a centre. Free room elsewhere, as in a corner, is not found. -/

section Reals

attribute [local instance] RealScalar.stdMath

/-- A world without entities. -/
noncomputable def vacant (width height : ℝ) : World (Extended ℝ) :=
  { world_width_ := .finite width, world_height_ := .finite height }

theorem freePosition_vacant (width height : ℝ) :
    (vacant width height).freePosition =
      ⟨⟨.finite 0, .finite 0⟩, .finite (min (width / 2) (height / 2))⟩ := by
  have hnil := largestEmptyCircle_nil width height
  rwa [zero_eq] at hnil

theorem freePosition_spawnShip_vacant (width height : ℝ) (join : PendingJoin) :
    ((vacant width height).spawnShip join).freePosition =
      largestEmptyCircle ([shipDisc 0 0].map Disc.circle) (.finite width) (.finite height) := by
  have hlive : collectLiveEntities ((vacant width height).spawnShip join).entities_ =
      [(vacant width height).newShip join] :=
    List.filter_cons_of_pos (not_decide_of_not not_kShipDefaultRadius_le)
  have hcircle : ((vacant width height).freePosition.center,
      (World.kShipDefaultRadius : Extended ℝ)) = (shipDisc 0 0).circle := by
    rw [freePosition_vacant]
    rfl
  have hoccupied : occupied ((vacant width height).spawnShip join).entities_ =
      [(shipDisc 0 0).circle] := by
    unfold occupied
    rw [hlive]
    exact congrArg (fun circle => [circle]) hcircle
  have hposition : ((vacant width height).spawnShip join).freePosition =
      largestEmptyCircle (occupied ((vacant width height).spawnShip join).entities_)
        (.finite width) (.finite height) := rfl
  rw [hposition, hoccupied]
  rfl

/-- The first ship leaves room for the second one, to its right. -/
theorem radius_spawnShip_vacant {width height : ℝ} (hwidth : 100 ≤ width) (hheight : 100 ≤ height)
    (join : PendingJoin) :
    World.kShipDefaultRadius ≤
      ((vacant width height).spawnShip join).freePosition.radius := by
  obtain ⟨R, hradius, hle⟩ := clearanceAt_le_radius width height
    (List.cons_ne_nil (shipDisc 0 0) [])
  have hship : (shipRadius : ℝ) = 5 := by norm_num [shipRadius]
  have hcount : (tried [shipDisc (0 : ℝ) 0] (width / 2) (height / 2)).length = 5 := rfl
  have hright : (⟨.finite ((width / 2 + 5) / 2), .finite 0⟩ : Vector2D (Extended ℝ)) ∈
      tried [shipDisc 0 0] (width / 2) (height / 2) := by
    have hx : (0 : ℝ) + (width / 2 + -0 + shipRadius) * ((1 / 2 : ℚ) : ℝ) =
        (width / 2 + 5) / 2 := by
      rw [hship]
      push_cast
      ring
    rw [← hx]
    exact List.mem_cons_self
  -- Halfway to the wall there is room on all sides.
  have hclearance : (20 : ℝ) ≤ clearanceAt [shipDisc 0 0] (width / 2) (height / 2)
      ⟨.finite ((width / 2 + 5) / 2), .finite 0⟩ := by
    unfold clearanceAt
    rw [Extended.value, Extended.value, le_clearance_iff exactRoots_real (by norm_num)]
    refine ⟨?_, ?_, fun d hd => ?_⟩
    · rw [abs_of_nonneg (by linarith)]
      linarith
    · rw [abs_zero]
      linarith
    · rw [List.mem_singleton.mp hd]
      refine Real.le_sqrt_of_sq_le ?_
      change (20 + shipRadius) ^ 2 ≤
        ((width / 2 + 5) / 2 - 0) * ((width / 2 + 5) / 2 - 0) + (0 - 0) * (0 - 0)
      have hfar : 20 + shipRadius ≤ (width / 2 + 5) / 2 := by
        rw [hship]
        linarith
      rw [sub_zero, sub_zero, mul_zero, add_zero, ← sq]
      exact pow_le_pow_left₀ (add_nonneg (by norm_num) shipRadius_pos.le) hfar 2
  -- So the best of the tried points has at least as much, up to the tolerances.
  have hbest := hclearance.trans (hle _ hright)
  rw [hcount] at hbest
  rw [freePosition_spawnShip_vacant, hradius]
  change (shipRadius : ℝ) ≤ R
  rw [hship]
  norm_num [margin, eps] at hbest
  linarith

/-- An empty world of 100 by 100. -/
noncomputable def emptyWorld : World (Extended ℝ) :=
  { world_width_ := .finite 100, world_height_ := .finite 100 }

theorem freePosition_emptyWorld : emptyWorld.freePosition =
    ⟨⟨.finite 0, .finite 0⟩, .finite 50⟩ := by
  refine (freePosition_vacant 100 100).trans ?_
  norm_num

def twoJoins : List PendingJoin := [⟨1, []⟩, ⟨2, []⟩]

theorem room_twoJoins (before : List PendingJoin) (join : PendingJoin) (after : List PendingJoin)
    (hjoins : twoJoins = before ++ join :: after) :
    World.kShipDefaultRadius ≤ (emptyWorld.spawnShips before).freePosition.radius := by
  cases before with
  | nil =>
    change _ ≤ emptyWorld.freePosition.radius
    rw [freePosition_emptyWorld]
    change (shipRadius : ℝ) ≤ 50
    norm_num [shipRadius]
  | cons first before =>
    cases before with
    | nil => exact radius_spawnShip_vacant le_rfl le_rfl first
    | cons second before =>
      have hlength := congrArg List.length hjoins
      simp [twoJoins] at hlength

theorem covered_emptyWorld : Covered emptyWorld.entities_ :=
  fun _ he => absurd he List.not_mem_nil

/-- Two players join an empty world. -/
theorem spawnShips_apart_twoJoins :
    (emptyWorld.newShips twoJoins).length = 2 ∧ (emptyWorld.newShips twoJoins).Pairwise Apart := by
  have h := spawnShips_apart exactRoots_real EntityPool.wellFormed_empty covered_emptyWorld rfl rfl
    twoJoins room_twoJoins
  exact ⟨h.1, h.2.2.1⟩

section Asteroid

variable {d : Disc ℝ} {weight : ℝ}

end Asteroid

end Reals

end SpaceShooter.Server.World
