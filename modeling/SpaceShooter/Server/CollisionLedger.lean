/-
# The ledger of the collision pass

A collision that damages or rewards ships enters into a ledger what it does to each of them.
The health and the score of every entity behind a pass are those before it with the entries of
the ledger posted. A bullet and a victim are used up by their entries, so that no bullet
damages twice and no death is paid twice; a destroyed entity is not touched any more.
-/

import SpaceShooter.Library.UsedUp
import SpaceShooter.Server.CollisionPass

namespace SpaceShooter.Server.World

open Scalar Domain Library Library.Outcome

/-- What a collision does to one ship. -/
inductive Entry
  /-- The price of ramming, for each of the two ships. -/
  | rammed (ship : EntityId) (damage : UInt16)
  | ramKill (victim survivor : EntityId)
  | shot (bullet victim : EntityId)
  | shotHit (owner : EntityId)
  | shotKill (victim owner : EntityId)
  | meal (ship : EntityId) (points : UInt32)
  deriving DecidableEq, Repr

/-- What the ledger keeps track of in an entity. -/
structure Account (K : Type) where
  id : EntityId
  ship : Option (ShipComponent K)
  health : Option HealthComponent

variable {K : Type}

def account (e : Entity K) : Account K := ⟨e.id, e.ship, e.health⟩

namespace Entry

/-- The entity that an entry is about. -/
@[simp] def holder : Entry → EntityId
  | rammed ship _ => ship
  | ramKill _ survivor => survivor
  | shot _ victim => victim
  | shotHit owner => owner
  | shotKill _ owner => owner
  | meal ship _ => ship

@[simp] def scored (s : ShipComponent K) : Entry → ShipComponent K
  | rammed _ _ => subtractScore s 5
  | ramKill _ _ => Collision.rewardKill s
  | shot _ _ => s
  | shotHit _ => addScore s 5
  | shotKill _ _ => addScore s 50
  | meal _ points => addScore s points

@[simp] def harmed (health : HealthComponent) : Entry → HealthComponent
  | rammed _ damage => applyDamage health damage
  | shot _ _ => applyDamage health Collision.kBulletDamage
  | _ => health

/-- Post an entry to an account. -/
def post (a : Account K) (entry : Entry) : Account K :=
  if entry.holder = a.id then
    { a with ship := a.ship.map (scored · entry), health := a.health.map (harmed · entry) }
  else
    a

/-- The bullet that an entry uses up. -/
@[simp] def spent : Entry → Option EntityId
  | shot bullet _ => some bullet
  | _ => none

/-- The victim that an entry pays for. -/
@[simp] def avenged : Entry → Option EntityId
  | ramKill victim _ => some victim
  | shotKill victim _ => some victim
  | _ => none

end Entry

variable [Scalar K]

/-! ### The entries of a pair -/

/-- Whether damage leaves a ship destroyed. -/
def dies (e : Entity K) (damage : UInt16) : Bool :=
  e.isDestroyed || !e.health.any fun health => isAlive (applyDamage health damage)

def ramLedger (ship1 ship2 : Entity K) : List Entry :=
  if !ship1.isValid || !ship2.isValid || !ship1.isDamageable || !ship2.isDamageable ||
      ship1.ship.isNone || ship2.ship.isNone then
    []
  else
    let damages := Collision.shipDamages ship1 ship2
    let dead1 := dies ship1 damages.1
    let dead2 := dies ship2 damages.2
    [.rammed ship1.id damages.1, .rammed ship2.id damages.2] ++
      (if dead1 && !dead2 then [.ramKill ship1.id ship2.id]
      else if dead2 && !dead1 then [.ramKill ship2.id ship1.id]
      else [])

/-- The reward for a hit goes to an owner that is a live ship. -/
def hitReward (pool : EntityPool K) (victim : EntityId) (hit : Collision.Hit) : List Entry :=
  if pool.HasLiveShip hit.owner_id then
    [if hit.ship_destroyed then .shotKill victim hit.owner_id else .shotHit hit.owner_id]
  else
    []

def shotLedger (pool : EntityPool K) (bullet ship : Entity K) : List Entry :=
  (Collision.onCollisionBulletShip bullet ship).2.2.elim [] fun hit =>
    .shot bullet.id ship.id :: hitReward pool ship.id hit

/-- The reward for an asteroid. -/
def reward (ship : EntityId) (asteroid : Entity K) : List Entry :=
  asteroid.asteroid.toList.map fun a => .meal ship a.score_reward.toUInt32

def mealLedger (world : World K) (ship asteroid : Entity K) : List Entry :=
  if (Collision.onCollisionShipAsteroid world.can_grow ship asteroid .CanGrow).2.1.isDestroyed then
    reward ship.id asteroid
  else
    []

def dispatchLedger (world : World K) (a b : Entity K) : List Entry :=
  match a.type, b.type with
  | .Ship, .Ship => ramLedger a b
  | .Ship, .Asteroid => mealLedger world a b
  | .Asteroid, .Ship => mealLedger world b a
  | .Bullet, .Ship => shotLedger world.entities_ a b
  | .Ship, .Bullet => shotLedger world.entities_ b a
  | _, _ => []

/-- The entries of a pair of slots, under the conditions of `collidePair`. -/
def pairLedger (world : World K) (pair : ℕ × ℕ) : List Entry :=
  (collider world.entities_ pair.1).elim [] fun first =>
    (collider world.entities_ pair.2).elim [] fun second =>
      if mayCollide first.1.type second.1.type ∧
          (Math.checkCircleCollision first.2.position first.1.radius second.2.position
            second.1.radius).toOption = some true then
        dispatchLedger world first.1 second.1
      else
        []

/-- The entries of a pass over pairs of slots. -/
def ledger (world : World K) (slots : List (ℕ × ℕ)) : List Entry :=
  tally (fun pair => collidePair pair.1 pair.2) pairLedger slots world

/-! ### Posting -/

omit [Scalar K] in
theorem post_of_ne {a : Account K} {entry : Entry} (h : entry.holder ≠ a.id) :
    entry.post a = a := if_neg h

omit [Scalar K] in
theorem foldl_post_of_ne {a : Account K} {entries : List Entry}
    (h : ∀ entry ∈ entries, entry.holder ≠ a.id) : entries.foldl Entry.post a = a := by
  induction entries with
  | nil => rfl
  | cons entry entries ih =>
    obtain ⟨hfirst, hrest⟩ := List.forall_mem_cons.mp h
    rw [List.foldl_cons, post_of_ne hfirst]
    exact ih hrest

/-- The accounts of every slot are those before with the entries posted. -/
def Posts (entries : List Entry) (pool pool' : EntityPool K) : Prop :=
  ∀ k, (pool'.at? k).map account =
    (pool.at? k).map fun e => entries.foldl Entry.post (account e)

omit [Scalar K] in
theorem Posts.refl (pool : EntityPool K) : Posts [] pool pool := fun _ => rfl

omit [Scalar K] in
theorem Posts.trans {entries entries' : List Entry} {pool pool' pool'' : EntityPool K}
    (h : Posts entries pool pool') (h' : Posts entries' pool' pool'') :
    Posts (entries ++ entries') pool pool'' := by
  intro k
  calc (pool''.at? k).map account
      = ((pool'.at? k).map account).map (entries'.foldl Entry.post) := by
        rw [h' k, Option.map_map]
        rfl
    _ = (pool.at? k).map fun e => (entries ++ entries').foldl Entry.post (account e) := by
        rw [h k, Option.map_map]
        simp only [Function.comp_def, List.foldl_append]

omit [Scalar K] in
/-- Entries about two entities that are written back. -/
theorem posts_writePair {pool : EntityPool K} (unique : pool.UniqueIds) {i j : ℕ}
    {a b a' b' : Entity K} (hij : i ≠ j) (hi : pool.at? i = some a) (hj : pool.at? j = some b)
    {entries : List Entry} (ha : account a' = entries.foldl Entry.post (account a))
    (hb : account b' = entries.foldl Entry.post (account b))
    (holders : ∀ entry ∈ entries, entry.holder = a.id ∨ entry.holder = b.id) :
    Posts entries pool (writePair pool i a' j b') := by
  intro k
  rw [at?_writePair hij hi hj]
  split_ifs with hki hkj
  · rw [hki, hi, Option.map_some, Option.map_some, ha]
  · rw [hkj, hj, Option.map_some, Option.map_some, hb]
  · -- In any other slot there is another identifier.
    refine Option.map_congr fun e hk => (foldl_post_of_ne fun entry hmem heq => ?_).symm
    rcases holders entry hmem with hholder | hholder
    · exact hki (unique k i e a hk hi (heq.symm.trans hholder))
    · exact hkj (unique k j e b hk hj (heq.symm.trans hholder))

/-! ### Destroyed entities -/

/-- An entity that is not destroyed carries the identifier. -/
def Alive (world : World K) (id : EntityId) : Prop :=
  ∃ k e, world.entities_.at? k = some e ∧ e.id = id ∧ e.isDestroyed = false

/-- Destroyed entities stay as they are. -/
def Frozen (pool pool' : EntityPool K) : Prop :=
  ∀ k e, pool.at? k = some e → e.isDestroyed = true → pool'.at? k = some e

omit [Scalar K] in
theorem Frozen.refl (pool : EntityPool K) : Frozen pool pool := fun _ _ hat _ => hat

omit [Scalar K] in
theorem Frozen.trans {pool pool' pool'' : EntityPool K} (h : Frozen pool pool')
    (h' : Frozen pool' pool'') : Frozen pool pool'' :=
  fun k e hat hdead => h' k e (h k e hat hdead) hdead

omit [Scalar K] in
theorem frozen_writePair {pool : EntityPool K} {i j : ℕ} {a b : Entity K} (hij : i ≠ j)
    (hi : pool.at? i = some a) (hj : pool.at? j = some b) (ha : a.isDestroyed = false)
    (hb : b.isDestroyed = false) (a' b' : Entity K) :
    Frozen pool (writePair pool i a' j b') := by
  intro k e hat hdead
  rw [at?_writePair hij hi hj, if_neg, if_neg, hat]
  · rintro rfl
    rw [Option.some.inj (hat.symm.trans hj), hb] at hdead
    cases hdead
  · rintro rfl
    rw [Option.some.inj (hat.symm.trans hi), ha] at hdead
    cases hdead

omit [Scalar K] in
/-- The identifier of a destroyed entity is not that of a live one. -/
theorem not_alive {world : World K} (unique : world.entities_.UniqueIds) {k : ℕ} {e : Entity K}
    (hat : world.entities_.at? k = some e) (hdead : e.isDestroyed = true) :
    ¬ world.Alive e.id := by
  rintro ⟨m, f, hf, hid, hlive⟩
  obtain rfl := unique k m e f hat hf hid.symm
  rw [Option.some.inj (hat.symm.trans hf), hlive] at hdead
  cases hdead

omit [Scalar K] in
theorem Evolved.alive {world world' : World K} (h : Evolved world world') (id : EntityId)
    (halive : world'.Alive id) : world.Alive id := by
  obtain ⟨pool, hpool, rfl⟩ := h
  obtain ⟨k, e', hat', hid, hlive⟩ := halive
  obtain ⟨e, hat, hcontinues⟩ := hpool.some_of_some' hat'
  -- What is destroyed stays so, hence what is alive behind the step was alive before it.
  refine ⟨k, e, hat, hcontinues.id ▸ hid, Bool.eq_false_of_not_eq_true fun hdead => ?_⟩
  rw [hcontinues.destroyed hdead] at hlive
  cases hlive

omit [Scalar K] in
theorem Evolved.uniqueIds {world world' : World K} (h : Evolved world world')
    (unique : world.entities_.UniqueIds) : world'.entities_.UniqueIds := by
  obtain ⟨pool, hpool, rfl⟩ := h
  exact hpool.uniqueIds (fun h => h.id) unique

omit [Scalar K] in
/-- An entity that a step destroys is used up. -/
theorem Evolved.usesUp {world world' : World K} (h : Evolved world world')
    (unique : world.entities_.UniqueIds) {k : ℕ} {e e' : Entity K}
    (hat : world.entities_.at? k = some e) (hlive : e.isDestroyed = false)
    (hat' : world'.entities_.at? k = some e') (hdead : e'.isDestroyed = true) :
    UsesUp Alive world [e.id] world' := by
  have hid : e'.id = e.id := by
    obtain ⟨pool, hpool, rfl⟩ := h
    obtain ⟨f, hf, hcontinues⟩ := hpool.some_of_some' hat'
    rw [hcontinues.id, Option.some.inj (hat.symm.trans hf)]
  refine .singleton ⟨k, e, hat, rfl, hlive⟩ ?_ h.alive
  rw [← hid]
  exact not_alive (h.uniqueIds unique) hat' hdead

/-- The entries account for all that a step does to health and scores; each bullet and each
victim they name was alive before and is not any more. -/
structure Booked (world : World K) (entries : List Entry) (world' : World K) : Prop where
  unique : world'.entities_.UniqueIds
  posts : Posts entries world.entities_ world'.entities_
  spent : UsesUp Alive world (entries.filterMap Entry.spent) world'
  avenged : UsesUp Alive world (entries.filterMap Entry.avenged) world'
  frozen : Frozen world.entities_ world'.entities_

omit [Scalar K] in
theorem Booked.refl {world : World K} (unique : world.entities_.UniqueIds) :
    Booked world [] world :=
  ⟨unique, .refl _, .nil fun _ h => h, .nil fun _ h => h, .refl _⟩

omit [Scalar K] in
theorem Booked.trans {a b c : World K} {entries entries' : List Entry} (h : Booked a entries b)
    (h' : Booked b entries' c) : Booked a (entries ++ entries') c where
  unique := h'.unique
  posts := h.posts.trans h'.posts
  spent := by
    rw [List.filterMap_append]
    exact h.spent.trans h'.spent
  avenged := by
    rw [List.filterMap_append]
    exact h.avenged.trans h'.avenged
  frozen := h.frozen.trans h'.frozen

/-! ### Ships that ram each other -/

omit [Scalar K] in
theorem dies_eq {e : Entity K} {health : HealthComponent} (h : e.health = some health)
    (damage : UInt16) :
    dies e damage = (e.isDestroyed || !isAlive (applyDamage health damage)) := by
  rw [dies, h, Option.any_some]

omit [Scalar K] in
theorem exists_health_of_isDamageable {e : Entity K} (h : e.isDamageable = true) :
    ∃ health, e.health = some health := by
  unfold Entity.isDamageable at h
  cases hhealth : e.health with
  | none =>
    rw [hhealth] at h
    cases h
  | some health => exact ⟨health, rfl⟩

/-- What ramming leaves of a ship, given the score, the health and the damage of it and whether
it is the only survivor. -/
def rammed (ship : Entity K) (s : ShipComponent K) (health : HealthComponent) (damage : UInt16)
    (survives : Bool) : Entity K :=
  { ship with
    ship := some (if survives then Collision.rewardKill (subtractScore s 5)
      else subtractScore s 5)
    health := some (applyDamage health damage)
    isDestroyed := dies ship damage }

/-- Two ships ram each other without effect, or each of them is rammed. -/
theorem onCollisionShipShip_cases {ship1 ship2 : Entity K} (h1 : ship1.type = .Ship)
    (h2 : ship2.type = .Ship) :
    (Collision.onCollisionShipShip ship1 ship2 = (ship1, ship2) ∧ ramLedger ship1 ship2 = []) ∨
      ∃ s1 s2 health1 health2 damage1 damage2, ship1.ship = some s1 ∧ ship2.ship = some s2 ∧
        ship1.health = some health1 ∧ ship2.health = some health2 ∧
        Collision.onCollisionShipShip ship1 ship2 =
          (rammed ship1 s1 health1 damage1 (dies ship2 damage2 && !dies ship1 damage1),
            rammed ship2 s2 health2 damage2 (dies ship1 damage1 && !dies ship2 damage2)) ∧
        ramLedger ship1 ship2 =
          [.rammed ship1.id damage1, .rammed ship2.id damage2] ++
            (if dies ship1 damage1 && !dies ship2 damage2 then [.ramKill ship1.id ship2.id]
            else if dies ship2 damage2 && !dies ship1 damage1 then [.ramKill ship2.id ship1.id]
            else []) := by
  have htypes : ¬ (decide (ship1.type ≠ .Ship) || decide (ship2.type ≠ .Ship)) = true := by
    simp [h1, h2]
  unfold Collision.onCollisionShipShip ramLedger
  rw [if_neg htypes]
  -- Nothing happens before both ships pass all checks.
  by_cases hvalid : (!ship1.isValid || !ship2.isValid) = true
  · left
    simp [hvalid]
  by_cases hdamageable : (!ship1.isDamageable || !ship2.isDamageable) = true
  · left
    simp [hvalid, hdamageable]
  obtain ⟨hdamageable1, hdamageable2⟩ : ship1.isDamageable = true ∧ ship2.isDamageable = true := by
    simpa using hdamageable
  obtain ⟨health1, hhealth1⟩ := exists_health_of_isDamageable hdamageable1
  obtain ⟨health2, hhealth2⟩ := exists_health_of_isDamageable hdamageable2
  cases hs1 : ship1.ship with
  | none =>
    left
    simp
  | some s1 =>
    cases hs2 : ship2.ship with
    | none =>
      left
      simp
    | some s2 =>
      right
      -- The code asks the health that is left, the ledger the damage.
      have hdies1 := dies_eq hhealth1 (Collision.shipDamages ship1 ship2).1
      have hdies2 := dies_eq hhealth2 (Collision.shipDamages ship1 ship2).2
      refine ⟨s1, s2, health1, health2, (Collision.shipDamages ship1 ship2).1,
        (Collision.shipDamages ship1 ship2).2, rfl, rfl, hhealth1, hhealth2, ?_, ?_⟩
      · rw [if_neg hvalid, if_neg hdamageable, hhealth1, hhealth2]
        dsimp only
        rw [← hdies1, ← hdies2]
        unfold rammed
        cases dies ship1 (Collision.shipDamages ship1 ship2).1 with
        | false =>
          cases dies ship2 (Collision.shipDamages ship1 ship2).2 with
          | false => simp
          | true => simp
        | true =>
          cases dies ship2 (Collision.shipDamages ship1 ship2).2 with
          | false => simp
          | true => simp
      · have hboth : ¬ (!ship1.isValid || !ship2.isValid || !ship1.isDamageable ||
            !ship2.isDamageable || (some s1).isNone || (some s2).isNone) = true := by
          simpa [hdamageable1, hdamageable2] using hvalid
        rw [if_neg hboth]

/-- What two ships do to each other is what the ledger says; a victim it names is destroyed. -/
theorem onCollisionShipShip_ledger {ship1 ship2 : Entity K} (h1 : ship1.type = .Ship)
    (h2 : ship2.type = .Ship) (hne : ship1.id ≠ ship2.id) :
    account (Collision.onCollisionShipShip ship1 ship2).1 =
        (ramLedger ship1 ship2).foldl Entry.post (account ship1) ∧
      account (Collision.onCollisionShipShip ship1 ship2).2 =
        (ramLedger ship1 ship2).foldl Entry.post (account ship2) ∧
      (∀ entry ∈ ramLedger ship1 ship2,
        entry.holder = ship1.id ∨ entry.holder = ship2.id) ∧
      (ramLedger ship1 ship2).filterMap Entry.spent = [] ∧
      ((ramLedger ship1 ship2).filterMap Entry.avenged = [] ∨
        (ramLedger ship1 ship2).filterMap Entry.avenged = [ship1.id] ∧
          (Collision.onCollisionShipShip ship1 ship2).1.isDestroyed = true ∨
        (ramLedger ship1 ship2).filterMap Entry.avenged = [ship2.id] ∧
          (Collision.onCollisionShipShip ship1 ship2).2.isDestroyed = true) := by
  rcases onCollisionShipShip_cases h1 h2 with ⟨hsame, hnone⟩ |
    ⟨s1, s2, health1, health2, damage1, damage2, hs1, hs2, hhealth1, hhealth2, hram, hledger⟩
  · rw [hsame, hnone]
    exact ⟨rfl, rfl, nofun, rfl, Or.inl rfl⟩
  · rw [hram, hledger]
    unfold rammed
    -- Which of the two dies decides who is credited, if anyone.
    cases dies ship1 damage1 with
    | false =>
      cases dies ship2 damage2 with
      | false =>
        simp [account, Entry.post, List.filterMap_cons, hs1, hs2, hhealth1, hhealth2, hne,
          hne.symm]
      | true =>
        simp [account, Entry.post, List.filterMap_cons, hs1, hs2, hhealth1, hhealth2, hne,
          hne.symm]
    | true =>
      cases dies ship2 damage2 with
      | false =>
        simp [account, Entry.post, List.filterMap_cons, hs1, hs2, hhealth1, hhealth2, hne,
          hne.symm]
      | true =>
        simp [account, Entry.post, List.filterMap_cons, hs1, hs2, hhealth1, hhealth2, hne,
          hne.symm]

omit [Scalar K] in
/-- Two entities that are written back, at most one of them a destroyed victim. -/
theorem booked_writePair {world : World K} (unique : world.entities_.UniqueIds) {i j : ℕ}
    {a b a' b' : Entity K} (hij : i ≠ j) (hi : world.entities_.at? i = some a)
    (hj : world.entities_.at? j = some b) (ha : a.isDestroyed = false)
    (hb : b.isDestroyed = false) {entries : List Entry}
    (hevolved : Evolved world { world with entities_ := writePair world.entities_ i a' j b' })
    (haccount : account a' = entries.foldl Entry.post (account a))
    (haccount' : account b' = entries.foldl Entry.post (account b))
    (holders : ∀ entry ∈ entries, entry.holder = a.id ∨ entry.holder = b.id)
    (hspent : entries.filterMap Entry.spent = [])
    (havenged : entries.filterMap Entry.avenged = [] ∨
      entries.filterMap Entry.avenged = [a.id] ∧ a'.isDestroyed = true ∨
        entries.filterMap Entry.avenged = [b.id] ∧ b'.isDestroyed = true) :
    Booked world entries { world with entities_ := writePair world.entities_ i a' j b' } := by
  have hat := at?_writePair hij hi hj a' b'
  refine ⟨hevolved.uniqueIds unique,
    posts_writePair unique hij hi hj haccount haccount' holders, ?_, ?_,
    frozen_writePair hij hi hj ha hb a' b'⟩
  · rw [hspent]
    exact .nil hevolved.alive
  · rcases havenged with hnone | ⟨hvictim, hdead⟩ | ⟨hvictim, hdead⟩
    · rw [hnone]
      exact .nil hevolved.alive
    · rw [hvictim]
      exact hevolved.usesUp unique hi ha ((hat i).trans (if_pos rfl)) hdead
    · rw [hvictim]
      have hatj := (hat j).trans ((if_neg hij.symm).trans (if_pos rfl))
      exact hevolved.usesUp unique hj hb hatj hdead

theorem booked_onCollisionShipShip {world : World K} (unique : world.entities_.UniqueIds)
    {i j : ℕ} {a b : Entity K} (hij : i ≠ j) (hi : world.entities_.at? i = some a)
    (hj : world.entities_.at? j = some b) (ha : a.isDestroyed = false)
    (hb : b.isDestroyed = false) (hship : a.type = .Ship) (hship' : b.type = .Ship)
    (hevolved : Evolved world (world.onCollisionShipShip i a j b)) :
    Booked world (ramLedger a b) (world.onCollisionShipShip i a j b) := by
  have hne : a.id ≠ b.id := fun heq => hij (unique i j a b hi hj heq)
  obtain ⟨haccount, haccount', holders, hspent, havenged⟩ :=
    onCollisionShipShip_ledger hship hship' hne
  exact booked_writePair unique hij hi hj ha hb hevolved haccount haccount' holders hspent havenged

/-! ### Ships that eat asteroids -/

section Eating

variable {γ : Type} (can_grow : Math.Vector2D K → K → γ → Bool × Math.Vector2D K × γ)

theorem account_grow (fuel : ℕ) (e : Entity K) (g : γ) :
    account (e.grow can_grow fuel g).2.1 = account e := by
  obtain ⟨radius, transform, heq⟩ := e.grow_eq can_grow fuel g
  rw [heq]
  rfl

theorem account_addMass (amount : K) (e : Entity K) (g : γ) :
    account (e.addMass amount can_grow g).2.1 = account e := by
  unfold Entity.addMass
  dsimp only
  split_ifs
  · rfl
  · rfl
  · rfl
  · rfl
  · exact account_grow can_grow _ _ _

omit [Scalar K] in
/-- The reward goes to a ship that may have grown. -/
theorem account_rewarded {ship grown : Entity K} (h : account grown = account ship)
    (asteroid : Entity K) :
    account
        (match grown.ship, asteroid.asteroid with
        | some s, some a => { grown with ship := some (addScore s a.score_reward.toUInt32) }
        | _, _ => grown) =
      (reward ship.id asteroid).foldl Entry.post (account ship) := by
  rw [← h, ← show grown.id = ship.id from congrArg Account.id h]
  unfold reward account
  cases hship : grown.ship with
  | none =>
    cases asteroid.asteroid with
    | none => simp [hship]
    | some a => simp [Entry.post, hship]
  | some s =>
    cases asteroid.asteroid with
    | none => simp [hship]
    | some a => simp [Entry.post]

/-- An asteroid is left as it is, or it is eaten and the ship is rewarded. -/
theorem eatAsteroid_cases (ship asteroid : Entity K) (g : γ) :
    (Collision.eatAsteroid can_grow ship asteroid g).2.1 = asteroid ∧
        account (Collision.eatAsteroid can_grow ship asteroid g).1 = account ship ∨
      (Collision.eatAsteroid can_grow ship asteroid g).2.1 = { asteroid with isDestroyed := true } ∧
        account (Collision.eatAsteroid can_grow ship asteroid g).1 =
          (reward ship.id asteroid).foldl Entry.post (account ship) := by
  have hmass := account_addMass can_grow asteroid.mass ship g
  unfold Collision.eatAsteroid
  split
  · exact Or.inl ⟨rfl, rfl⟩
  · split
    · exact Or.inl ⟨rfl, rfl⟩
    · split
      · exact Or.inl ⟨rfl, rfl⟩
      · split
        · exact Or.inl ⟨rfl, rfl⟩
        · dsimp only
          split
          · exact Or.inl ⟨rfl, rfl⟩
          · split
            · split
              · right
                refine ⟨rfl, ?_⟩
                exact account_rewarded hmass asteroid
              · exact Or.inl ⟨rfl, hmass⟩
            · exact Or.inl ⟨rfl, rfl⟩

end Eating

omit [Scalar K] in
theorem spent_reward (ship : EntityId) (asteroid : Entity K) :
    (reward ship asteroid).filterMap Entry.spent = [] := by
  unfold reward
  cases asteroid.asteroid with
  | none => rfl
  | some a => rfl

omit [Scalar K] in
theorem avenged_reward (ship : EntityId) (asteroid : Entity K) :
    (reward ship asteroid).filterMap Entry.avenged = [] := by
  unfold reward
  cases asteroid.asteroid with
  | none => rfl
  | some a => rfl

omit [Scalar K] in
theorem holder_of_mem_reward {ship : EntityId} {asteroid : Entity K} {entry : Entry}
    (h : entry ∈ reward ship asteroid) : entry.holder = ship := by
  obtain ⟨a, -, rfl⟩ := List.mem_map.mp h
  rfl

omit [Scalar K] in
theorem account_outgrown (status : GrowStatus) (ship : Entity K) :
    account (if status = .CannotFit then { ship with isDestroyed := true } else ship) =
      account ship := by
  split_ifs
  · rfl
  · rfl

theorem booked_onCollisionShipAsteroid {world : World K} (unique : world.entities_.UniqueIds)
    {i j : ℕ} {ship asteroid : Entity K} (hij : i ≠ j) (hi : world.entities_.at? i = some ship)
    (hj : world.entities_.at? j = some asteroid) (hlive : ship.isDestroyed = false)
    (hlive' : asteroid.isDestroyed = false) (hship : ship.type = .Ship)
    (hevolved : Evolved world (world.onCollisionShipAsteroid i ship j asteroid)) :
    Booked world (mealLedger world ship asteroid)
      (world.onCollisionShipAsteroid i ship j asteroid) := by
  have hne : ship.id ≠ asteroid.id := fun heq => hij (unique i j ship asteroid hi hj heq)
  have hcases := eatAsteroid_cases world.can_grow ship asteroid .CanGrow
  unfold mealLedger
  unfold World.onCollisionShipAsteroid at hevolved ⊢
  rw [onCollisionShipAsteroid_of_ship _ _ _ hship] at hevolved ⊢
  generalize Collision.eatAsteroid world.can_grow ship asteroid .CanGrow = result
    at hcases hevolved ⊢
  obtain ⟨ship', asteroid', status⟩ := result
  rcases hcases with ⟨rfl, haccount⟩ | ⟨rfl, haccount⟩
  · rw [if_neg (Bool.eq_false_iff.mp hlive')]
    exact booked_writePair unique hij hi hj hlive hlive' hevolved
      ((account_outgrown status ship').trans haccount) rfl nofun rfl (Or.inl rfl)
  · rw [if_pos rfl]
    refine booked_writePair unique hij hi hj hlive hlive' hevolved
      ((account_outgrown status ship').trans haccount) ?_
      (fun entry hmem => Or.inl (holder_of_mem_reward hmem)) (spent_reward _ _)
      (Or.inl (avenged_reward _ _))
    -- The reward is about the ship alone.
    refine (foldl_post_of_ne fun entry hmem => ?_).symm
    rw [holder_of_mem_reward hmem]
    exact hne

/-! ### Bullets that hit ships -/

omit [Scalar K] in
theorem holder_of_mem_hitReward {pool : EntityPool K} {victim : EntityId} {hit : Collision.Hit}
    {entry : Entry} (h : entry ∈ hitReward pool victim hit) :
    pool.HasLiveShip hit.owner_id ∧ entry.holder = hit.owner_id := by
  unfold hitReward at h
  split_ifs at h with hlive
  · rw [List.mem_singleton] at h
    rw [h]
    exact ⟨hlive, rfl⟩
  · rw [List.mem_singleton] at h
    rw [h]
    exact ⟨hlive, rfl⟩
  · cases h

omit [Scalar K] in
theorem spent_hitReward (pool : EntityPool K) (victim : EntityId) (hit : Collision.Hit) :
    (hitReward pool victim hit).filterMap Entry.spent = [] := by
  unfold hitReward
  split_ifs
  · rfl
  · rfl
  · rfl

omit [Scalar K] in
theorem avenged_hitReward (pool : EntityPool K) (victim : EntityId) (hit : Collision.Hit) :
    (hitReward pool victim hit).filterMap Entry.avenged = [] ∨
      (hitReward pool victim hit).filterMap Entry.avenged = [victim] ∧
        hit.ship_destroyed = true := by
  unfold hitReward
  split_ifs with hlive hdestroyed
  · exact Or.inr ⟨rfl, hdestroyed⟩
  · exact Or.inl rfl
  · exact Or.inl rfl

omit [Scalar K] in
/-- What the owner of a bullet gets for a hit. -/
theorem posts_creditHit {pool : EntityPool K} (unique : pool.UniqueIds) (hit : Collision.Hit)
    (victim : EntityId) : Posts (hitReward pool victim hit) pool (creditHit pool hit) := by
  intro k
  rw [at?_creditHit unique, Option.map_map]
  refine Option.map_congr fun e hat => ?_
  change account (credit _ _ e) = _
  by_cases howner : e.LiveShip ∧ e.id = hit.owner_id
  · have hlive : pool.HasLiveShip hit.owner_id := ⟨k, e, hat, howner.2, howner.1⟩
    rw [hitReward, if_pos hlive, credit, if_pos howner]
    cases hit.ship_destroyed with
    | false => simp [account, Entry.post, howner.2]
    | true => simp [account, Entry.post, howner.2]
  · rw [credit_of_not howner]
    refine (foldl_post_of_ne fun entry hmem heq => howner ?_).symm
    -- The live ship that is rewarded would be this entity.
    obtain ⟨⟨m, f, hatf, hidf, hlivef⟩, hholder⟩ := holder_of_mem_hitReward hmem
    have hid : e.id = hit.owner_id := heq.symm.trans hholder
    obtain rfl := unique _ _ _ _ hat hatf (hid.trans hidf.symm)
    obtain rfl := Option.some.inj (hat.symm.trans hatf)
    exact ⟨hlivef, hid⟩

omit [Scalar K] in
theorem frozen_creditHit {pool : EntityPool K} (unique : pool.UniqueIds) (hit : Collision.Hit) :
    Frozen pool (creditHit pool hit) := by
  intro k e hat hdead
  rw [at?_creditHit unique, hat, Option.map_some, credit_of_not]
  rintro ⟨hlive, -⟩
  rw [hlive.2] at hdead
  cases hdead

omit [Scalar K] in
/-- A pair that is written back leaves alone the ships that it is not about. -/
theorem hasLiveShip_writePair {pool : EntityPool K} {i j : ℕ} {a b a' b' : Entity K}
    (hij : i ≠ j) (hi : pool.at? i = some a) (hj : pool.at? j = some b)
    (ha : a.Continues a') (hb : b.Continues b') (hother : a.type ≠ .Ship) {id : EntityId}
    (hid : id ≠ b.id) : (writePair pool i a' j b').HasLiveShip id ↔ pool.HasLiveShip id := by
  have hevolves : EntityPool.Evolves Entity.Continues pool (writePair pool i a' j b') :=
    evolves_writePair Entity.Continues.refl (fun _ _ _ => Entity.Continues.trans) hij hi hj ha hb
  refine ⟨hevolves.hasLiveShip, ?_⟩
  rintro ⟨k, e, hat, heq, hlive⟩
  refine ⟨k, e, ?_, heq, hlive⟩
  rw [at?_writePair hij hi hj, if_neg, if_neg, hat]
  · rintro rfl
    exact hid (heq.symm.trans (congrArg Entity.id (Option.some.inj (hat.symm.trans hj))))
  · rintro rfl
    rw [Option.some.inj (hat.symm.trans hi)] at hlive
    exact hother hlive.1

/-- What a hit leaves of a victim. -/
def hurt (ship : Entity K) (health : HealthComponent) : Entity K :=
  { ship with
    health := some (applyDamage health Collision.kBulletDamage)
    isDestroyed := ship.isDestroyed || !isAlive (applyDamage health Collision.kBulletDamage) }

omit [Scalar K] in
/-- The damage of a bullet. -/
theorem posts_shot {pool : EntityPool K} (unique : pool.UniqueIds) {i j : ℕ}
    {bullet ship : Entity K} (hij : i ≠ j) (hi : pool.at? i = some bullet)
    (hj : pool.at? j = some ship) {health : HealthComponent}
    (hhealth : ship.health = some health) :
    Posts [.shot bullet.id ship.id] pool
      (writePair pool i { bullet with isDestroyed := true } j (hurt ship health)) := by
  have hne : ship.id ≠ bullet.id := fun heq => hij (unique j i ship bullet hj hi heq).symm
  refine posts_writePair unique hij hi hj ?_ ?_ ?_
  · have hother : (Entry.shot bullet.id ship.id).holder ≠ (account bullet).id := hne
    exact (post_of_ne hother).symm
  · simp [account, Entry.post, hurt, hhealth]
  · exact fun entry hmem => Or.inr (List.mem_singleton.mp hmem ▸ rfl)

omit [Scalar K] in
/-- A bullet is used up, its victim is hurt and its owner is rewarded. -/
theorem booked_hit {world : World K} (unique : world.entities_.UniqueIds) {i j : ℕ}
    {bullet ship : Entity K} (hij : i ≠ j) (hi : world.entities_.at? i = some bullet)
    (hj : world.entities_.at? j = some ship) (hlive : bullet.isDestroyed = false)
    (hlive' : ship.isDestroyed = false) (hbullet : bullet.type = .Bullet)
    {health : HealthComponent} (hhealth : ship.health = some health) {hit : Collision.Hit}
    (howner : hit.owner_id ≠ ship.id)
    (hkills : hit.ship_destroyed = true → (hurt ship health).isDestroyed = true)
    (hevolved : Evolved world { world with
      entities_ := creditHit (writePair world.entities_ i { bullet with isDestroyed := true } j
        (hurt ship health)) hit }) :
    Booked world (.shot bullet.id ship.id :: hitReward world.entities_ ship.id hit)
      { world with
        entities_ := creditHit (writePair world.entities_ i { bullet with isDestroyed := true } j
          (hurt ship health)) hit } := by
  have hcontinues : ship.Continues (hurt ship health) := ship.continues_damaged _
  have hwritten : EntityPool.Evolves Entity.Continues world.entities_
      (writePair world.entities_ i { bullet with isDestroyed := true } j (hurt ship health)) :=
    evolves_writePair Entity.Continues.refl (fun _ _ _ => Entity.Continues.trans) hij hi hj
      bullet.continues_destroyed hcontinues
  have hunique := hwritten.uniqueIds (fun h => h.id) unique
  have hat := at?_writePair hij hi hj { bullet with isDestroyed := true } (hurt ship health)
  have hfrozen := frozen_creditHit hunique hit
  -- Neither the bullet nor the victim is the ship that is rewarded.
  have hsame : hitReward (writePair world.entities_ i { bullet with isDestroyed := true } j
      (hurt ship health)) ship.id hit = hitReward world.entities_ ship.id hit := by
    unfold hitReward
    simp only [hasLiveShip_writePair hij hi hj bullet.continues_destroyed hcontinues
      (by simp [hbullet]) howner]
  refine ⟨hevolved.uniqueIds unique, ?_, ?_, ?_, ?_⟩
  · have hcredit := posts_creditHit hunique hit ship.id
    rw [hsame] at hcredit
    exact (posts_shot unique hij hi hj hhealth).trans hcredit
  · rw [List.filterMap_cons_some (f := Entry.spent) rfl, spent_hitReward]
    exact hevolved.usesUp unique hi hlive (hfrozen i _ ((hat i).trans (if_pos rfl)) rfl) rfl
  · rw [List.filterMap_cons_none (f := Entry.avenged) rfl]
    rcases avenged_hitReward world.entities_ ship.id hit with hnone | ⟨hvictim, hkilled⟩
    · rw [hnone]
      exact .nil hevolved.alive
    · rw [hvictim]
      have hatj := (hat j).trans ((if_neg hij.symm).trans (if_pos rfl))
      have hdead := hkills hkilled
      exact hevolved.usesUp unique hj hlive' (hfrozen j _ hatj hdead) hdead
  · exact (frozen_writePair hij hi hj hlive hlive' _ _).trans hfrozen

theorem booked_onCollisionBulletShip {world : World K} (unique : world.entities_.UniqueIds)
    {i j : ℕ} {bullet ship : Entity K} (hij : i ≠ j) (hi : world.entities_.at? i = some bullet)
    (hj : world.entities_.at? j = some ship) (hlive : bullet.isDestroyed = false)
    (hlive' : ship.isDestroyed = false) (hbullet : bullet.type = .Bullet)
    (hevolved : Evolved world (world.onCollisionBulletShip i bullet j ship)) :
    Booked world (shotLedger world.entities_ bullet ship)
      (world.onCollisionBulletShip i bullet j ship) := by
  unfold shotLedger
  unfold World.onCollisionBulletShip at hevolved ⊢
  rw [onCollisionBulletShip_of_bullet ship hbullet] at hevolved ⊢
  rcases hitShip_cases bullet ship with hmiss | ⟨combat, health, hcombat, hhealth, howner, hhit⟩
  · rw [hmiss] at hevolved ⊢
    exact booked_writePair unique hij hi hj hlive hlive' hevolved rfl rfl nofun rfl (Or.inl rfl)
  · rw [hhit] at hevolved ⊢
    refine booked_hit unique hij hi hj hlive hlive' hbullet hhealth howner (fun hkilled => ?_)
      hevolved
    exact Bool.or_eq_true_iff.mpr (Or.inr hkilled)

/-! ### Pairs -/

/-- What two colliders do to each other, and what it enters into the ledger. -/
theorem booked_dispatchCollision {world : World K} (unique : world.entities_.UniqueIds) {i j : ℕ}
    {a b : Entity K} (hij : i ≠ j) (hi : world.entities_.at? i = some a)
    (hj : world.entities_.at? j = some b) (ha : a.isDestroyed = false)
    (hb : b.isDestroyed = false) :
    Booked world (dispatchLedger world a b) (world.dispatchCollision i a j b) := by
  have hevolved := evolved_of_passed (passed_dispatchCollision world hij hi hj)
  revert hevolved
  unfold dispatchCollision dispatchLedger
  cases hatype : a.type with
  | None => exact fun _ => .refl unique
  | Ship =>
    cases hbtype : b.type with
    | None => exact fun _ => .refl unique
    | Ship => exact booked_onCollisionShipShip unique hij hi hj ha hb hatype hbtype
    | Asteroid => exact booked_onCollisionShipAsteroid unique hij hi hj ha hb hatype
    | Bullet => exact booked_onCollisionBulletShip unique hij.symm hj hi hb ha hbtype
  | Asteroid =>
    cases hbtype : b.type with
    | Ship => exact booked_onCollisionShipAsteroid unique hij.symm hj hi hb ha hbtype
    | None | Asteroid | Bullet => exact fun _ => .refl unique
  | Bullet =>
    cases b.type with
    | Ship => exact booked_onCollisionBulletShip unique hij hi hj ha hb hatype
    | None | Asteroid | Bullet => exact fun _ => .refl unique

theorem booked_collidePair {world : World K} (unique : world.entities_.UniqueIds) {i j : ℕ}
    (hij : i ≠ j) :
    Booked world (pairLedger world (i, j)) (resultState (collidePair i j world)) := by
  unfold collidePair pairLedger
  rw [bind_apply, show (get : Action K (World K)) world = .ok world world from rfl]
  dsimp only
  rcases hi : collider world.entities_ i with _ | ⟨a, ta⟩
  · exact .refl unique
  · rcases hj : collider world.entities_ j with _ | ⟨b, tb⟩
    · exact .refl unique
    · dsimp only [Option.elim_some]
      by_cases hmay : mayCollide a.type b.type = true
      · rw [if_pos hmay]
        obtain ⟨hati, hlivei, -⟩ := of_collider_eq_some hi
        obtain ⟨hatj, hlivej, -⟩ := of_collider_eq_some hj
        rcases Math.checkCircleCollision ta.position a.radius tb.position b.radius with e | hit
        · -- The collision test throws.
          rw [if_neg fun h => nomatch h.2]
          exact .refl unique
        · cases hit with
          | false =>
            rw [if_neg fun h => nomatch h.2]
            exact .refl unique
          | true =>
            rw [if_pos ⟨hmay, rfl⟩]
            exact booked_dispatchCollision unique hij hati hatj hlivei hlivej
      · rw [if_neg hmay, if_neg fun h => hmay h.1]
        exact .refl unique

/-! ### Passes -/

/-- A pass over pairs of different slots, whether it ends or throws. -/
theorem booked_ledger {world : World K} (unique : world.entities_.UniqueIds)
    {slots : List (ℕ × ℕ)} (h : ∀ pair ∈ slots, pair.1 ≠ pair.2) :
    Booked world (ledger world slots)
      (resultState (slots.forM (fun pair => collidePair pair.1 pair.2) world)) := by
  refine tally_induction
    (R := fun s entries t => s.entities_.UniqueIds → Booked s entries t) (fun s => .refl)
    (fun s l t l' u hfirst hrest unique => ?_) (fun pair hmem s unique => ?_) world unique
  · have hbooked := hfirst unique
    exact hbooked.trans (hrest hbooked.unique)
  · exact booked_collidePair unique (h pair hmem)

theorem ne_of_mem_pairs {n : ℕ} {pair : ℕ × ℕ} (h : pair ∈ pairs n) : pair.1 ≠ pair.2 :=
  Nat.ne_of_lt (lt_of_mem_pairs h)

/-- The world after a pass over pairs of slots. -/
def afterPairs (world : World K) (slots : List (ℕ × ℕ)) : World K :=
  resultState (slots.forM (fun pair => collidePair pair.1 pair.2) world)

/-- Later pairs leave what earlier pairs have destroyed as it is. -/
theorem frozen_afterPairs {world : World K} (unique : world.entities_.UniqueIds)
    {first second : List (ℕ × ℕ)} (h : ∀ pair ∈ first ++ second, pair.1 ≠ pair.2) :
    Frozen (world.afterPairs first).entities_ (world.afterPairs (first ++ second)).entities_ := by
  have hrest : Keeps (fun s t => s.entities_.UniqueIds → Frozen s.entities_ t.entities_)
      (second.forM fun pair => (collidePair pair.1 pair.2 : Action K PUnit)) := fun s unique =>
    (booked_ledger unique fun pair hmem => h pair (List.mem_append_right _ hmem)).frozen
  exact keeps_forM_append (fun s _ => .refl _) hrest world
    (booked_ledger unique fun pair hmem => h pair (List.mem_append_left _ hmem)).unique

/-- **The collision pass is accounted for.** Whatever a pool with unique identifiers holds, each
bullet damages one ship at most, and each victim is paid for once at most; the entries account
for health and scores after every part of the pass, and what a part has destroyed stays as it is. -/
theorem collidePairs_accounted {world : World K} (unique : world.entities_.UniqueIds) :
    resultState (collidePairs world) =
        world.afterPairs (pairs world.entities_.storage_.length) ∧
      ((world.ledger (pairs world.entities_.storage_.length)).filterMap Entry.spent).Nodup ∧
      ((world.ledger (pairs world.entities_.storage_.length)).filterMap Entry.avenged).Nodup ∧
      (∀ first rest, pairs world.entities_.storage_.length = first ++ rest →
        world.ledger first <+: world.ledger (pairs world.entities_.storage_.length) ∧
          Posts (world.ledger first) world.entities_ (world.afterPairs first).entities_) ∧
      ∀ first second rest, pairs world.entities_.storage_.length = first ++ second ++ rest →
        Frozen (world.afterPairs first).entities_
          (world.afterPairs (first ++ second)).entities_ := by
  have hne : ∀ pair ∈ pairs world.entities_.storage_.length, pair.1 ≠ pair.2 :=
    fun _ => ne_of_mem_pairs
  have hbooked := booked_ledger unique hne
  refine ⟨congrArg resultState (collidePairs_apply world), hbooked.spent.nodup,
    hbooked.avenged.nodup, fun first rest hsplit => ⟨?_, ?_⟩, fun first second rest hsplit => ?_⟩
  · rw [hsplit]
    exact tally_append_prefix _ _ _ _ _
  · refine (booked_ledger unique fun pair hmem => ?_).posts
    exact hne pair (hsplit ▸ List.mem_append_left rest hmem)
  · refine frozen_afterPairs unique fun pair hmem => ?_
    exact hne pair (hsplit ▸ List.mem_append_left rest hmem)

section Exact

attribute [local instance] RationalScalar.rational

/-- A bullet, the ship it kills and the ship that has shot it, all in one place. -/
def skirmish : World ℚ :=
  let place : TransformComponent ℚ := ⟨⟨0, 0⟩, ⟨0, 0⟩, 0⟩
  let ship (id : EntityId) (health : UInt16) : Entity ℚ :=
    ⟨id, .Ship, 1, 5, false, some place,
      some { name := ⟨List.replicate _ 0, List.length_replicate⟩, thrust_power := 1, drag := 0 },
      some ⟨health, 100⟩, none, none⟩
  { world_width_ := 2000
    world_height_ := 2000
    entities_ :=
      { storage_ :=
          [some ⟨1, .Bullet, 0, 1, false, some place, none, none, some ⟨25, 3⟩, none⟩,
            some (ship 2 25), some (ship 3 100)] } }

theorem uniqueIds_skirmish : skirmish.entities_.UniqueIds :=
  EntityPool.uniqueIds_of_nodup (by decide)

/-- One shot, and one reward for the victim. -/
theorem collidePairs_accounted_skirmish :
    skirmish.ledger (pairs skirmish.entities_.storage_.length) = [.shot 1 2, .shotKill 2 3] ∧
      ((skirmish.ledger (pairs skirmish.entities_.storage_.length)).filterMap
        Entry.avenged).Nodup :=
  ⟨by decide +kernel, (collidePairs_accounted uniqueIds_skirmish).2.2.1⟩

end Exact

end SpaceShooter.Server.World
