/-
# Hits and their credit

Wherever the collision pass is in a tick of a run, a pair with a bullet credits the ship that
fired the bullet or nobody, and never hurts this ship: identifiers are handed out once,
whatever took over the slot of the ship since.
-/

import SpaceShooter.Server.CollisionPass
import SpaceShooter.Server.FiredBullets

namespace SpaceShooter.Server.World

open Scalar Domain Library Library.Outcome

variable {K : Type} [Scalar K]

/-! ### Fair hits -/

omit [Scalar K] in
/-- The score of an entity, if it is a ship. -/
def scoreOf (e : Entity K) : Option UInt32 := e.ship.map (·.score)

/-- What a pair with the bullet of a shot may do: points go to the live ship that fired it,
in the slot it fired from, and do go there when the bullet hits; this ship is not hurt; and
ships spawned after the shot get nothing. -/
structure FairHit (shot : Shot) (world world' : World K) : Prop where
  credited : ∀ {k e e'}, world.entities_.at? k = some e → world'.entities_.at? k = some e' →
    scoreOf e' ≠ scoreOf e → k = shot.slot ∧ e.id = shot.shooter ∧ e.LiveShip ∧ e'.LiveShip
  paid : ∀ {k bullet bullet'}, world.entities_.at? k = some bullet → bullet.id = shot.bullet →
    bullet.isDestroyed = false → world'.entities_.at? k = some bullet' →
    bullet'.isDestroyed = true →
    ∀ {m e e'}, world.entities_.at? m = some e → e.id = shot.shooter → e.LiveShip →
      world'.entities_.at? m = some e' →
      ∃ points, (points = 5 ∨ points = 50) ∧ e'.ship = e.ship.map (addScore · points)
  unharmed : ∀ {k e e'}, world.entities_.at? k = some e → world'.entities_.at? k = some e' →
    e.id = shot.shooter → e'.health = e.health ∧ e'.isDestroyed = e.isDestroyed
  late : ∀ {s id}, (s, id) ∈ world.spawned → (s, id) ∉ shot.known →
    ∀ {k e e'}, world.entities_.at? k = some e → e.id = id →
      world'.entities_.at? k = some e' → scoreOf e' = scoreOf e

variable {shots : List Shot} {shot : Shot} {world world' : World K}

omit [Scalar K] in
theorem scoreOf_credit {owner_id : EntityId} {points : UInt32} {e : Entity K}
    (h : scoreOf (credit owner_id points e) ≠ scoreOf e) : e.LiveShip ∧ e.id = owner_id := by
  by_contra hnot
  rw [credit_of_not hnot] at h
  exact h rfl

omit [Scalar K] in
theorem health_credit (owner_id : EntityId) (points : UInt32) (e : Entity K) :
    (credit owner_id points e).health = e.health ∧
      (credit owner_id points e).isDestroyed = e.isDestroyed ∧
      (credit owner_id points e).type = e.type := by
  unfold credit
  split_ifs
  · exact ⟨rfl, rfl, rfl⟩
  · exact ⟨rfl, rfl, rfl⟩

omit [Scalar K] in
/-- Slots that stay as they are. -/
theorem fairHit_of_same (h : ∀ k, world'.entities_.at? k = world.entities_.at? k) :
    FairHit shot world world' where
  credited {k e e'} hat hat' hne := by
    rw [h, hat, Option.some.injEq] at hat'
    exact absurd (hat' ▸ rfl) hne
  paid {k bullet bullet'} hat _ hlive hat' hflagged := by
    rw [h, hat, Option.some.injEq] at hat'
    rw [hat', hflagged] at hlive
    cases hlive
  unharmed {k e e'} hat hat' _ := by
    rw [h, hat, Option.some.injEq] at hat'
    exact hat' ▸ ⟨rfl, rfl⟩
  late {_ _} _ _ {k e e'} hat _ hat' := by
    rw [h, hat, Option.some.injEq] at hat'
    exact hat' ▸ rfl

/-- A bullet and a ship meet. -/
theorem fairHit_onCollisionBulletShip (htraced : Traced shots world) (hsound : world.Sound)
    (hshot : shot ∈ shots) {i j : ℕ} {bullet ship : Entity K} (hij : i ≠ j)
    (hi : world.entities_.at? i = some bullet) (hj : world.entities_.at? j = some ship)
    (hbullet : bullet.type = .Bullet) (hid : shot.bullet = bullet.id)
    (howner : bullet.combat.map (·.owner_id) = some shot.shooter) :
    FairHit shot world (world.onCollisionBulletShip i bullet j ship) := by
  rcases onCollisionBulletShip_cases hsound.pool.uniqueIds hij hi hj hbullet with
    hsame | ⟨combat, health, points, hcombat, -, hother, hpoints, hslots⟩
  · exact fairHit_of_same hsame
  rw [hcombat, Option.map_some, Option.some.injEq] at howner
  rw [howner] at hother hslots
  have hyounger := (htraced.lt shot hshot).1
  -- The two entities that met are not the ship that fired.
  have hentry {k : ℕ} {e e' : Entity K} (hat : world.entities_.at? k = some e)
      (hat' : (world.onCollisionBulletShip i bullet j ship).entities_.at? k = some e') :
      e' = credit shot.shooter points e ∨ e.id ≠ shot.shooter ∧ scoreOf e' = scoreOf e := by
    rw [hslots] at hat'
    split_ifs at hat' with hki hkj
    · subst hki
      obtain rfl := Option.some.inj (hi.symm.trans hat)
      obtain rfl := Option.some.inj hat'
      refine Or.inr ⟨hid ▸ hyounger.ne', ?_⟩
      have hspent : ¬ ({ bullet with isDestroyed := true }.LiveShip ∧ bullet.id = shot.shooter) :=
        fun h => (by cases h.1.2)
      exact (congrArg scoreOf (credit_of_not hspent)).trans rfl
    · subst hkj
      obtain rfl := Option.some.inj (hj.symm.trans hat)
      obtain rfl := Option.some.inj hat'
      refine Or.inr ⟨hother.symm, ?_⟩
      generalize applyDamage health Collision.kBulletDamage = left
      have hvictim : ¬ ({ ship with
          health := some left, isDestroyed := ship.isDestroyed || !isAlive left }.LiveShip ∧
            ship.id = shot.shooter) := fun h => hother h.2.symm
      exact (congrArg scoreOf (credit_of_not hvictim)).trans rfl
    · rw [hat, Option.map_some, Option.some.injEq] at hat'
      exact Or.inl hat'.symm
  have hcredited {k : ℕ} {e e' : Entity K} (hat : world.entities_.at? k = some e)
      (hat' : (world.onCollisionBulletShip i bullet j ship).entities_.at? k = some e')
      (hne : scoreOf e' ≠ scoreOf e) :
      k = shot.slot ∧ e.id = shot.shooter ∧ e.LiveShip ∧ e'.LiveShip := by
    rcases hentry hat hat' with rfl | ⟨-, hscore⟩
    · obtain ⟨hlive, heid⟩ := scoreOf_credit hne
      obtain ⟨-, hdestroyed, htype⟩ := health_credit shot.shooter points e
      exact ⟨htraced.slot shot hshot hat heid, heid, hlive, htype.trans hlive.1,
        hdestroyed.trans hlive.2⟩
    · exact absurd hscore hne
  refine ⟨hcredited, ?_, ?_, ?_⟩
  · intro k _ _ _ _ _ _ _ m e e' hat heid hlive hat'
    rcases hentry hat hat' with rfl | ⟨hne, -⟩
    · refine ⟨points, hpoints, ?_⟩
      rw [credit, if_pos ⟨hlive, heid⟩]
    · exact absurd heid hne
  · intro k e e' hat hat' heid
    rcases hentry hat hat' with rfl | ⟨hne, -⟩
    · exact ⟨(health_credit _ _ _).1, (health_credit _ _ _).2.1⟩
    · exact absurd heid hne
  · intro s id hspawned hunknown k e e' hat heid hat'
    by_contra hne
    obtain ⟨-, hshooter, -⟩ := hcredited hat hat' hne
    -- A ship that is spawned after the shot is younger than its bullet.
    rcases htraced.late shot hshot _ hspawned with hknown | hlt
    · exact hunknown hknown
    · exact absurd (heid.symm.trans hshooter) (hyounger.trans hlt).ne'

/-- A pair with a bullet. -/
theorem fairHit_collidePair (htraced : Traced shots world) (hsound : world.Sound) {i j : ℕ}
    (hij : i ≠ j) {k : ℕ} (hk : k = i ∨ k = j) {bullet : Entity K}
    (hat : world.entities_.at? k = some bullet) (hbullet : bullet.type = .Bullet)
    (hshot : shot ∈ shots) (hid : shot.bullet = bullet.id)
    (howner : bullet.combat.map (·.owner_id) = some shot.shooter) :
    FairHit shot world (resultState (collidePair i j world)) := by
  rcases collidePair_cases i j world with heq | ⟨a, b, hi, hj, hmay, heq⟩
  · exact fairHit_of_same fun m => by rw [heq]
  have hsame (h : world.dispatchCollision i a j b = world) :
      FairHit shot world (world.dispatchCollision i a j b) :=
    fairHit_of_same fun m => by rw [h]
  rw [heq]
  rcases hk with rfl | rfl
  · obtain rfl := Option.some.inj (hi.symm.trans hat)
    unfold dispatchCollision at hsame ⊢
    rw [hbullet] at hsame ⊢
    cases hb : b.type with
    | Ship => exact fairHit_onCollisionBulletShip htraced hsound hshot hij hi hj hbullet hid howner
    | None => exact fairHit_of_same fun m => rfl
    | Asteroid => exact fairHit_of_same fun m => rfl
    | Bullet => exact fairHit_of_same fun m => rfl
  · obtain rfl := Option.some.inj (hj.symm.trans hat)
    unfold dispatchCollision
    rw [hbullet]
    cases ha : a.type with
    | Ship =>
      exact fairHit_onCollisionBulletShip htraced hsound hshot hij.symm hj hi hbullet hid howner
    | None => exact fairHit_of_same fun m => rfl
    | Asteroid => exact fairHit_of_same fun m => rfl
    | Bullet => exact fairHit_of_same fun m => rfl

theorem keeps_peaceful_collidePair {i j : ℕ} (hij : i ≠ j) :
    Keeps Peaceful (collidePair i j : Action K PUnit) :=
  fun world => peaceful_of_passed (keeps_collidePair hij world) (keeps_collidePair hij world)

/-- **Bullets credit and hurt the right ships.** In every tick of every run, whatever pairs
have collided before: a bullet comes from one shot, and a pair with it credits no ship but the
one that fired this shot, if it is alive, and does not hurt this ship. -/
theorem fairHit_of_run (ext : Externals K) {world_width world_height : K} {tick_interval : ℕ}
    {ops : List (Op K)} {mid : World K}
    (hrun : (machine ext world_width world_height tick_interval).run ops = some world)
    {done rest : List (ℕ × ℕ)} {i j : ℕ}
    (hpairs : pairs (world.moved tick_interval).entities_.storage_.length =
      done ++ (i, j) :: rest)
    (hdone : done.forM (fun pair => collidePair pair.1 pair.2) (world.moved tick_interval) =
      .ok ⟨⟩ mid)
    {k : ℕ} {bullet : Entity K} (hk : k = i ∨ k = j)
    (hat : mid.entities_.at? k = some bullet) (hbullet : bullet.type = .Bullet) :
    ∃ shot ∈ firedShots ext tick_interval (empty world_width world_height) ops ++
        world.tickShots,
      shot.bullet = bullet.id ∧ (shot.session, shot.shooter) ∈ shot.known ∧
      (∀ other ∈ firedShots ext tick_interval (empty world_width world_height) ops ++
        world.tickShots, other.bullet = bullet.id → other = shot) ∧
      FairHit shot mid (resultState (collidePair i j mid)) := by
  have hsound : world.Sound := sound_of_reachable ext ⟨ops, hrun⟩
  have hne {i j : ℕ} (hmem : (i, j) ∈ pairs (world.moved tick_interval).entities_.storage_.length) :
      i ≠ j := (lt_of_mem_pairs hmem).ne
  -- The pairs before this one fire nothing.
  have hbefore : Peaceful (world.processInputQueue []).1 mid := by
    have hdonePairs : Keeps Peaceful
        (done.forM fun pair => (collidePair pair.1 pair.2 : Action K PUnit)) :=
      keeps_forM Peaceful.refl (fun _ _ _ => Peaceful.trans) fun pair hpair =>
        keeps_peaceful_collidePair (hne (hpairs ▸ List.mem_append_left _ hpair))
    have hpass := hdonePairs (world.moved tick_interval)
    rw [hdone] at hpass
    exact (peaceful_updatePhysics _ _).trans hpass
  obtain ⟨hmidSound, hholds⟩ := hbefore (hsound.processInputQueue [])
  have htraced := ((traced_of_run ext hrun).processInputQueue hsound).holdsFire hholds
  obtain ⟨shot, hshot, hid, howner⟩ := htraced.bullets hat hbullet
  have hij : i ≠ j := hne (hpairs ▸ List.mem_append_right _ List.mem_cons_self)
  refine ⟨shot, hshot, hid, htraced.known shot hshot, fun other hother heq => ?_, ?_⟩
  · exact htraced.unique shot hshot other hother (heq.trans hid.symm)
  · exact fairHit_collidePair htraced hmidSound hij hk hat hbullet hshot hid howner

section Exact

attribute [local instance] RationalScalar.rational

/-- The ship of session 7 is there and a shot is queued. -/
def armedOps : List (Op ℚ) :=
  [.event (.PlayerJoinEvent 7 (bytesOf "Ace")), exactTick, .event (.ShotMessageEvent 7)]

/-- The bullet of session 7 passes the ship that fired it. -/
theorem fairHit_armedShip :
    ∃ shot, ∃ mid : World ℚ, shot ∈ firedShots exactExternals 16666 (empty World.kDefaultWidth
        World.kDefaultHeight) armedOps ++ (exactWorld armedOps).tickShots ∧
      shot.session = 7 ∧ shot.shooter = 2 ∧
      FairHit shot mid (resultState (collidePair 1 2 mid)) := by
  have hpairs : pairs ((exactWorld armedOps).moved 16666).entities_.storage_.length =
      [(0, 1), (0, 2)] ++ (1, 2) :: [] := by decide +kernel
  have hshots : firedShots exactExternals 16666 (empty World.kDefaultWidth
      World.kDefaultHeight) armedOps ++ (exactWorld armedOps).tickShots =
        [⟨3, 7, 2, 1, [(7, 2)]⟩] := by decide +kernel
  have hbullet : (match [(0, 1), (0, 2)].forM (fun pair => collidePair pair.1 pair.2)
      ((exactWorld armedOps).moved 16666) with
    | .ok _ mid => (mid.entities_.at? 2).any (·.type = .Bullet)
    | .error _ _ => false) = true := by decide +kernel
  cases hdone : [(0, 1), (0, 2)].forM (fun pair => collidePair pair.1 pair.2)
      ((exactWorld armedOps).moved 16666) with
  | error e mid => rw [hdone] at hbullet; cases hbullet
  | ok _ mid =>
    rw [hdone] at hbullet
    obtain ⟨bullet, hat, htype⟩ := (Option.any_eq_true _ _).mp hbullet
    obtain ⟨shot, hshot, -, -, -, hfair⟩ := fairHit_of_run exactExternals (run_exactMachine _)
      hpairs hdone (Or.inr rfl) hat (of_decide_eq_true htype)
    obtain rfl := List.mem_singleton.mp (hshots ▸ hshot)
    exact ⟨_, mid, hshot, rfl, rfl, hfair⟩

end Exact

end SpaceShooter.Server.World
