/-
# The entity pool

Slots of entities with a stack of free slots and an index from identifiers to slots.
A pointer to an entity is its slot. The pool hands out every identifier once; what
callers do to entities keeps their identifiers.
-/

import Mathlib.Data.List.AList
import Mathlib.Data.List.ReduceOption
import SpaceShooter.Server.Entity

namespace SpaceShooter.Domain

structure EntityPool (K : Type) where
  storage_ : List (Option (Entity K)) := []
  /-- The back of the vector comes first. -/
  free_indices_ : List ℕ := []
  id_to_indices_ : AList (fun _ : EntityId => ℕ) := ∅
  next_id_ : ℕ := 1

namespace EntityPool

variable {K : Type}

/-- A fresh entity in a free slot, or in a new one. -/
def acquire [Scalar K] (pool : EntityPool K) : ℕ × EntityPool K :=
  let entity := Entity.fresh pool.next_id_
  match pool.free_indices_ with
  -- The slot that was released last is taken first.
  | idx :: free =>
    (idx,
      { storage_ := pool.storage_.set idx (some entity)
        free_indices_ := free
        id_to_indices_ := pool.id_to_indices_.insert entity.id idx
        next_id_ := pool.next_id_ + 1 })
  | [] =>
    (pool.storage_.length,
      { storage_ := pool.storage_ ++ [some entity]
        free_indices_ := []
        id_to_indices_ := pool.id_to_indices_.insert entity.id pool.storage_.length
        next_id_ := pool.next_id_ + 1 })

/-- Release the slot if its entity is flagged. -/
def recycleSlot (pool : EntityPool K) (i : ℕ) : EntityPool K :=
  match pool.storage_[i]? with
  | some (some entity) =>
    if entity.isDestroyed then
      { pool with
        storage_ := pool.storage_.set i none
        free_indices_ := i :: pool.free_indices_
        id_to_indices_ := pool.id_to_indices_.erase entity.id }
    else
      pool
  | _ => pool

def recycleDestroyed (pool : EntityPool K) : EntityPool K :=
  (List.range pool.storage_.length).foldl recycleSlot pool

/-- The entity of a slot. -/
def at? (pool : EntityPool K) (i : ℕ) : Option (Entity K) := pool.storage_[i]?.join

def findByEntityID (pool : EntityPool K) (id : EntityId) : Option (ℕ × Entity K) :=
  (pool.id_to_indices_.lookup id).bind fun i => (pool.at? i).map fun entity => (i, entity)

/-- Change the entity of a slot through its pointer. -/
def modify (pool : EntityPool K) (i : ℕ) (f : Entity K → Entity K) : EntityPool K :=
  { pool with storage_ := pool.storage_.modify i (Option.map f) }

def isActive (slot : Option (Entity K)) : Bool :=
  match slot with
  | some entity => entity.type ≠ .None && !entity.isDestroyed
  | none => false

def activeCount (pool : EntityPool K) : ℕ := pool.storage_.length - pool.free_indices_.length

/-! ### Slots -/

theorem at?_eq_some {pool : EntityPool K} {i : ℕ} {entity : Entity K} :
    pool.at? i = some entity ↔ pool.storage_[i]? = some (some entity) :=
  Option.join_eq_some_iff

theorem at?_of_length_le {pool : EntityPool K} {i : ℕ} (h : pool.storage_.length ≤ i) :
    pool.at? i = none := by
  rw [at?, List.getElem?_eq_none h]
  rfl

theorem lt_length_of_at? {pool : EntityPool K} {i : ℕ} {entity : Entity K}
    (h : pool.at? i = some entity) : i < pool.storage_.length :=
  (List.getElem?_eq_some_iff.mp (at?_eq_some.mp h)).1

@[simp] theorem at?_modify (pool : EntityPool K) (i j : ℕ) (f : Entity K → Entity K) :
    (pool.modify i f).at? j = if i = j then (pool.at? j).map f else pool.at? j := by
  unfold at? modify
  rw [List.getElem?_modify]
  split_ifs
  · cases pool.storage_[j]? with
    | none => rfl
    | some slot => rfl
  · rw [id_map']

theorem at?_map (pool : EntityPool K) (f : Entity K → Entity K) (i : ℕ) :
    ({ pool with storage_ := pool.storage_.map (Option.map f) } : EntityPool K).at? i =
      (pool.at? i).map f := by
  unfold at?
  rw [List.getElem?_map]
  rcases pool.storage_[i]? with _ | _ | _ <;> rfl

theorem at?_set (storage : List (Option (Entity K))) {i : ℕ} (h : i < storage.length)
    (slot : Option (Entity K)) (j : ℕ) :
    (storage.set i slot)[j]?.join = if j = i then slot else storage[j]?.join := by
  rw [List.getElem?_set]
  by_cases hij : i = j
  · subst hij
    simp [h]
  · rw [if_neg hij, if_neg (Ne.symm hij)]

theorem mem_storage {pool : EntityPool K} {entity : Entity K} :
    some entity ∈ pool.storage_ ↔ ∃ i, pool.at? i = some entity := by
  simp only [at?_eq_some, List.mem_iff_getElem?]

/-! ### The representation invariant -/

/-- The pool's bookkeeping agrees with its slots, and every identifier in use was
handed out. -/
structure WellFormed (pool : EntityPool K) : Prop where
  id_lt : ∀ {i entity}, pool.at? i = some entity → entity.id < pool.next_id_
  index : ∀ {id i}, pool.id_to_indices_.lookup id = some i ↔
    ∃ entity, pool.at? i = some entity ∧ entity.id = id
  free : ∀ {i}, i ∈ pool.free_indices_ ↔ i < pool.storage_.length ∧ pool.at? i = none
  free_nodup : pool.free_indices_.Nodup

theorem wellFormed_empty : WellFormed ({} : EntityPool K) where
  id_lt h := by cases h
  index := by
    intro id i
    simp [at?]
  free := by simp
  free_nodup := List.nodup_nil

/-- Slots of the same identifier are the same slot. -/
theorem WellFormed.slot_eq {pool : EntityPool K} (wf : pool.WellFormed) {i j : ℕ}
    {e f : Entity K} (hi : pool.at? i = some e) (hj : pool.at? j = some f)
    (hid : e.id = f.id) : i = j := by
  have hlookup := wf.index.mpr ⟨e, hi, hid⟩
  rw [wf.index.mpr ⟨f, hj, rfl⟩] at hlookup
  exact (Option.some.inj hlookup).symm

/-- No two slots carry the same identifier. -/
def UniqueIds (pool : EntityPool K) : Prop :=
  ∀ i j e f, pool.at? i = some e → pool.at? j = some f → e.id = f.id → i = j

theorem WellFormed.uniqueIds {pool : EntityPool K} (wf : pool.WellFormed) : pool.UniqueIds :=
  fun _ _ _ _ => wf.slot_eq

theorem uniqueIds_of_nodup {pool : EntityPool K}
    (h : (pool.storage_.map fun slot => slot.map Entity.id).Nodup) : pool.UniqueIds := by
  intro i j e f hi hj heq
  have hlt : i < (pool.storage_.map fun slot => slot.map Entity.id).length := by
    rw [List.length_map]
    exact lt_length_of_at? hi
  refine (List.getElem?_inj hlt h).mp ?_
  rw [List.getElem?_map, List.getElem?_map, at?_eq_some.mp hi, at?_eq_some.mp hj]
  exact congrArg (fun id => some (some id)) heq

/-- Looking up an identifier finds exactly the slot that carries it. -/
theorem WellFormed.findByEntityID_eq_some {pool : EntityPool K} (wf : pool.WellFormed)
    {id : EntityId} {i : ℕ} {entity : Entity K} :
    pool.findByEntityID id = some (i, entity) ↔ pool.at? i = some entity ∧ entity.id = id := by
  unfold findByEntityID
  rw [Option.bind_eq_some_iff]
  constructor
  · rintro ⟨j, hlookup, hmap⟩
    obtain ⟨e, he, heq⟩ := Option.map_eq_some_iff.mp hmap
    obtain ⟨rfl, rfl⟩ := Prod.mk.inj heq
    obtain ⟨f, hf, hid⟩ := wf.index.mp hlookup
    rw [he, Option.some.injEq] at hf
    exact ⟨he, hf ▸ hid⟩
  · rintro ⟨hat, hid⟩
    exact ⟨i, wf.index.mpr ⟨entity, hat, hid⟩, by rw [hat]; rfl⟩

/-- A pool in which a fresh entity was placed in an empty slot. -/
structure Placed [Scalar K] (pool : EntityPool K) (idx : ℕ) (pool' : EntityPool K) : Prop where
  empty : pool.at? idx = none
  at_ : ∀ j, pool'.at? j = if j = idx then some (Entity.fresh pool.next_id_) else pool.at? j
  next : pool'.next_id_ = pool.next_id_ + 1
  index : pool'.id_to_indices_ = pool.id_to_indices_.insert pool.next_id_ idx
  free : ∀ i, i ∈ pool'.free_indices_ ↔ i ∈ pool.free_indices_ ∧ i ≠ idx
  free_nodup : pool'.free_indices_.Nodup
  length : ∀ i, i < pool'.storage_.length ↔ i < pool.storage_.length ∨ i = idx

theorem Placed.wellFormed [Scalar K] {pool pool' : EntityPool K} {idx : ℕ}
    (h : Placed pool idx pool') (wf : pool.WellFormed) : pool'.WellFormed where
  id_lt {i e} hat := by
    rw [h.at_, h.next] at *
    split_ifs at hat
    · obtain rfl := Option.some.inj hat
      exact Nat.lt_succ_self _
    · exact (wf.id_lt hat).trans (Nat.lt_succ_self _)
  index {id i} := by
    rw [h.index]
    by_cases hid : id = pool.next_id_
    · -- No entity carried the next identifier before.
      subst hid
      rw [AList.lookup_insert, Option.some.injEq]
      constructor
      · rintro rfl
        exact ⟨Entity.fresh pool.next_id_, by rw [h.at_, if_pos rfl], rfl⟩
      · rintro ⟨e, hat, hid⟩
        rw [h.at_] at hat
        split_ifs at hat with hi
        · exact hi.symm
        · exact absurd hid (wf.id_lt hat).ne
    · rw [AList.lookup_insert_ne hid, wf.index]
      refine exists_congr fun e => and_congr_left fun he => ?_
      rw [h.at_]
      split_ifs with hi
      · subst hi
        rw [h.empty]
        refine iff_of_false nofun fun heq => ?_
        obtain rfl := Option.some.inj heq
        exact hid he.symm
      · rfl
  free {i} := by
    rw [h.free, wf.free, h.length, h.at_]
    split_ifs with hi
    · exact iff_of_false (fun hne => hne.2 hi) nofun
    · simp only [ne_eq, hi, not_false_eq_true, and_true, or_false]
  free_nodup := h.free_nodup

/-- `acquire` places a fresh entity in an empty slot. -/
theorem placed_acquire [Scalar K] {pool : EntityPool K} (wf : pool.WellFormed) :
    Placed pool pool.acquire.1 pool.acquire.2 := by
  unfold acquire
  cases hfree : pool.free_indices_ with
  | nil =>
    have hempty : pool.at? pool.storage_.length = none := at?_of_length_le le_rfl
    refine ⟨hempty, fun j => ?_, rfl, rfl, fun i => by simp [hfree], List.nodup_nil, fun i => ?_⟩
    · unfold at?
      dsimp only
      rw [List.getElem?_append]
      split_ifs with hlt heq heq
      · exact absurd (heq ▸ hlt) (lt_irrefl _)
      · rfl
      · subst heq
        simp
      · have hlt' : 0 < j - pool.storage_.length := by omega
        have hle : pool.storage_.length ≤ j := Nat.le_of_not_lt hlt
        rw [List.getElem?_eq_none hle, List.getElem?_eq_none hlt']
    · simp only [List.length_append, List.length_singleton]
      omega
  | cons idx free =>
    have hidx := wf.free.mp (hfree ▸ List.mem_cons_self : idx ∈ pool.free_indices_)
    have hnodup := wf.free_nodup
    rw [hfree, List.nodup_cons] at hnodup
    -- The slot comes off the stack of free slots, which is free of duplicates.
    refine ⟨hidx.2, fun j => ?_, rfl, rfl, fun i => ?_, hnodup.2, fun i => ?_⟩
    · exact at?_set _ hidx.1 _ j
    · rw [hfree, List.mem_cons]
      constructor
      · intro hmem
        refine ⟨Or.inr hmem, ?_⟩
        rintro rfl
        exact hnodup.1 hmem
      · rintro ⟨heq | hmem, hne⟩
        · exact absurd heq hne
        · exact hmem
    · simp only [List.length_set]
      constructor
      · exact Or.inl
      · rintro (hlt | rfl)
        · exact hlt
        · exact hidx.1

/-! ### Changing entities in place -/

/-- Every slot keeps its entity, changed within a relation, and the bookkeeping is
untouched. -/
structure Evolves (R : Entity K → Entity K → Prop) (pool pool' : EntityPool K) : Prop where
  slot : ∀ i, Option.Rel R (pool.at? i) (pool'.at? i)
  length : pool'.storage_.length = pool.storage_.length
  free : pool'.free_indices_ = pool.free_indices_
  index : pool'.id_to_indices_ = pool.id_to_indices_
  next : pool'.next_id_ = pool.next_id_

variable {R : Entity K → Entity K → Prop}

theorem Evolves.refl (hrefl : ∀ e, R e e) (pool : EntityPool K) : Evolves R pool pool where
  slot i := by
    cases pool.at? i with
    | none => exact .none
    | some e => exact .some (hrefl e)
  length := rfl
  free := rfl
  index := rfl
  next := rfl

theorem Evolves.trans (htrans : ∀ a b c, R a b → R b c → R a c)
    {pool pool' pool'' : EntityPool K} (h : Evolves R pool pool') (h' : Evolves R pool' pool'') :
    Evolves R pool pool'' where
  slot i := by
    have hslot := h.slot i
    have hslot' := h'.slot i
    revert hslot hslot'
    generalize pool.at? i = a, pool'.at? i = b, pool''.at? i = c
    rintro (hab | _) hbc
    · cases hbc with
      | some hbc => exact .some (htrans _ _ _ hab hbc)
    · cases hbc
      exact .none
  length := h'.length.trans h.length
  free := h'.free.trans h.free
  index := h'.index.trans h.index
  next := h'.next.trans h.next

theorem Evolves.some_of_some {pool pool' : EntityPool K} (h : Evolves R pool pool') {i : ℕ}
    {e : Entity K} (hat : pool.at? i = some e) : ∃ e', pool'.at? i = some e' ∧ R e e' := by
  have hslot := h.slot i
  rw [hat] at hslot
  cases hat' : pool'.at? i with
  | none => rw [hat'] at hslot; cases hslot
  | some e' =>
    rw [hat'] at hslot
    cases hslot with
    | some hR => exact ⟨e', rfl, hR⟩

theorem Evolves.some_of_some' {pool pool' : EntityPool K} (h : Evolves R pool pool') {i : ℕ}
    {e' : Entity K} (hat' : pool'.at? i = some e') : ∃ e, pool.at? i = some e ∧ R e e' := by
  have hslot := h.slot i
  rw [hat'] at hslot
  cases hat : pool.at? i with
  | none => rw [hat] at hslot; cases hslot
  | some e =>
    rw [hat] at hslot
    cases hslot with
    | some hR => exact ⟨e, rfl, hR⟩

theorem Evolves.none_iff {pool pool' : EntityPool K} (h : Evolves R pool pool') {i : ℕ} :
    pool'.at? i = none ↔ pool.at? i = none := by
  have hslot := h.slot i
  revert hslot
  generalize pool.at? i = a, pool'.at? i = b
  rintro (_ | _)
  · exact iff_of_false nofun nofun
  · rfl

/-- Entities that keep their identifiers keep the pool well formed. -/
theorem Evolves.wellFormed {pool pool' : EntityPool K} (h : Evolves R pool pool')
    (hid : ∀ {e e'}, R e e' → e'.id = e.id) (wf : pool.WellFormed) : pool'.WellFormed where
  id_lt {i e'} hat' := by
    obtain ⟨e, hat, hR⟩ := h.some_of_some' hat'
    rw [hid hR, h.next]
    exact wf.id_lt hat
  index {id i} := by
    rw [h.index, wf.index]
    constructor
    · rintro ⟨e, hat, rfl⟩
      obtain ⟨e', hat', hR⟩ := h.some_of_some hat
      exact ⟨e', hat', hid hR⟩
    · rintro ⟨e', hat', rfl⟩
      obtain ⟨e, hat, hR⟩ := h.some_of_some' hat'
      exact ⟨e, hat, (hid hR).symm⟩
  free {i} := by rw [h.free, wf.free, h.length, h.none_iff]
  free_nodup := h.free ▸ wf.free_nodup

theorem Evolves.uniqueIds {pool pool' : EntityPool K} (h : Evolves R pool pool')
    (hid : ∀ {e e'}, R e e' → e'.id = e.id) (unique : pool.UniqueIds) : pool'.UniqueIds := by
  intro i j e' f' hi hj heq
  obtain ⟨e, hat, hR⟩ := h.some_of_some' hi
  obtain ⟨f, hatf, hRf⟩ := h.some_of_some' hj
  exact unique i j e f hat hatf (by rw [← hid hR, ← hid hRf, heq])

/-- Writing one slot within the relation. -/
theorem evolves_modify (hrefl : ∀ e, R e e) (pool : EntityPool K) (i : ℕ)
    {f : Entity K → Entity K} (hf : ∀ e, pool.at? i = some e → R e (f e)) :
    Evolves R pool (pool.modify i f) where
  slot j := by
    rw [at?_modify]
    split_ifs with hij
    · subst hij
      cases hat : pool.at? i with
      | none => exact .none
      | some e => exact .some (hf e hat)
    · exact (Evolves.refl hrefl pool).slot j
  length := List.length_modify _ _ _
  free := rfl
  index := rfl
  next := rfl

/-- Writing every slot within the relation. -/
theorem evolves_map (pool : EntityPool K) {f : Entity K → Entity K} (hf : ∀ e, R e (f e)) :
    Evolves R pool { pool with storage_ := pool.storage_.map (Option.map f) } where
  slot i := by
    rw [at?_map]
    cases pool.at? i with
    | none => exact .none
    | some e => exact .some (hf e)
  length := List.length_map _
  free := rfl
  index := rfl
  next := rfl

/-- Passes over the pool under which entities go on. -/
theorem evolves_continues_refl (pool : EntityPool K) : Evolves Entity.Continues pool pool :=
  .refl Entity.Continues.refl pool

theorem Evolves.continues_trans {pool pool' pool'' : EntityPool K}
    (h : Evolves Entity.Continues pool pool') (h' : Evolves Entity.Continues pool' pool'') :
    Evolves Entity.Continues pool pool'' :=
  Evolves.trans (R := Entity.Continues) (fun _ _ _ => Entity.Continues.trans) h h'

theorem evolves_continues_modify (pool : EntityPool K) (i : ℕ) {f : Entity K → Entity K}
    (hf : ∀ e, pool.at? i = some e → e.Continues (f e)) :
    Evolves Entity.Continues pool (pool.modify i f) :=
  evolves_modify Entity.Continues.refl pool i hf

/-- Turning the entity of a slot. -/
theorem evolves_turn (pool : EntityPool K) (i : ℕ) (t : TransformComponent K) :
    Evolves Entity.Continues pool (pool.modify i fun e => { e with transform := some t }) :=
  evolves_continues_modify pool i fun e _ => e.continues_moved e.radius t

theorem WellFormed.turn {pool : EntityPool K} (wf : pool.WellFormed) (i : ℕ)
    (t : TransformComponent K) :
    (pool.modify i fun e => { e with transform := some t }).WellFormed :=
  (evolves_turn pool i t).wellFormed (fun h => h.id) wf

/-! ### Adding entities -/

/-- Every entity stays as it is; those that are new satisfy a predicate and carry new
identifiers. -/
structure Extends (P : Entity K → Prop) (pool pool' : EntityPool K) : Prop where
  wellFormed : pool'.WellFormed
  keeps : ∀ {i e}, pool.at? i = some e → pool'.at? i = some e
  added : ∀ {i e}, pool'.at? i = some e →
    pool.at? i = some e ∨ pool.at? i = none ∧ P e ∧ pool.next_id_ ≤ e.id
  next_le : pool.next_id_ ≤ pool'.next_id_

variable {P : Entity K → Prop}

theorem Extends.refl {pool : EntityPool K} (wf : pool.WellFormed) : Extends P pool pool :=
  ⟨wf, id, Or.inl, le_rfl⟩

theorem Extends.trans {pool pool' pool'' : EntityPool K} (h : Extends P pool pool')
    (h' : Extends P pool' pool'') : Extends P pool pool'' where
  wellFormed := h'.wellFormed
  keeps hat := h'.keeps (h.keeps hat)
  added hat := by
    rcases h'.added hat with hold | ⟨hnone, hP, hid⟩
    · exact h.added hold
    · -- A slot that was filled before would still hold its entity.
      refine Or.inr ⟨?_, hP, h.next_le.trans hid⟩
      by_contra hne
      obtain ⟨e, he⟩ := Option.ne_none_iff_exists'.mp hne
      rw [h.keeps he] at hnone
      cases hnone
  next_le := h.next_le.trans h'.next_le

/-- Acquiring an entity and filling it in. -/
theorem at?_acquire_modify [Scalar K] {pool : EntityPool K} (wf : pool.WellFormed)
    (f : Entity K → Entity K) (j : ℕ) :
    (pool.acquire.2.modify pool.acquire.1 f).at? j =
      if j = pool.acquire.1 then some (f (Entity.fresh pool.next_id_)) else pool.at? j := by
  have hplaced := placed_acquire wf
  rw [at?_modify]
  by_cases hj : j = pool.acquire.1
  · rw [if_pos hj.symm, if_pos hj, hplaced.at_, if_pos hj]
    rfl
  · rw [if_neg (Ne.symm hj), if_neg hj, hplaced.at_, if_neg hj]

/-- Looking up after an entity was changed in its slot. -/
theorem findByEntityID_modify {pool : EntityPool K} (wf : pool.WellFormed) {i : ℕ}
    {e : Entity K} (hat : pool.at? i = some e) (f : Entity K → Entity K) (id : EntityId) :
    (pool.modify i f).findByEntityID id =
      if id = e.id then some (i, f e) else pool.findByEntityID id := by
  have hindex : (pool.modify i f).id_to_indices_ = pool.id_to_indices_ := rfl
  unfold findByEntityID
  rw [hindex]
  cases hlookup : pool.id_to_indices_.lookup id with
  | none =>
    have hne : id ≠ e.id := by
      rintro rfl
      rw [wf.index.mpr ⟨e, hat, rfl⟩] at hlookup
      cases hlookup
    rw [if_neg hne]
    rfl
  | some j =>
    obtain ⟨e', hat', rfl⟩ := wf.index.mp hlookup
    rw [Option.bind_some, Option.bind_some, at?_modify, hat']
    split_ifs with hij hid hid
    · subst hij
      obtain rfl := Option.some.inj (hat.symm.trans hat')
      rfl
    · subst hij
      obtain rfl := Option.some.inj (hat.symm.trans hat')
      exact absurd rfl hid
    · exact absurd (wf.slot_eq hat hat' hid.symm) hij
    · rfl

/-- Looking up an older identifier after an entity was acquired. -/
theorem findByEntityID_acquire_modify [Scalar K] {pool : EntityPool K} (wf : pool.WellFormed)
    (f : Entity K → Entity K) {id : EntityId} (hid : id < pool.next_id_) :
    (pool.acquire.2.modify pool.acquire.1 f).findByEntityID id = pool.findByEntityID id := by
  have hplaced := placed_acquire wf
  have hindex : (pool.acquire.2.modify pool.acquire.1 f).id_to_indices_ =
      pool.id_to_indices_.insert pool.next_id_ pool.acquire.1 := hplaced.index
  unfold findByEntityID
  rw [hindex, AList.lookup_insert_ne hid.ne]
  cases hlookup : pool.id_to_indices_.lookup id with
  | none => rfl
  | some j =>
    obtain ⟨e, hat, -⟩ := wf.index.mp hlookup
    have hne : j ≠ pool.acquire.1 := by
      rintro rfl
      rw [hplaced.empty] at hat
      cases hat
    rw [Option.bind_some, Option.bind_some, at?_acquire_modify wf, if_neg hne]

theorem extends_acquire_modify [Scalar K] {pool : EntityPool K} (wf : pool.WellFormed)
    {f : Entity K → Entity K} (hid : ∀ e, (f e).id = e.id)
    (hP : P (f (Entity.fresh pool.next_id_))) :
    Extends P pool (pool.acquire.2.modify pool.acquire.1 f) := by
  have hplaced := placed_acquire wf
  have hevolves : Evolves (fun e e' => e'.id = e.id) pool.acquire.2
      (pool.acquire.2.modify pool.acquire.1 f) :=
    evolves_modify (R := fun e e' => e'.id = e.id) (fun _ => rfl) _ _ fun e _ => hid e
  refine ⟨hevolves.wellFormed (fun h => h) (hplaced.wellFormed wf), ?_, ?_, ?_⟩
  · intro i e hat
    rw [at?_acquire_modify wf]
    split_ifs with hi
    · rw [hi, hplaced.empty] at hat
      cases hat
    · exact hat
  · intro i e hat
    rw [at?_acquire_modify wf] at hat
    split_ifs at hat with hi
    · obtain rfl := Option.some.inj hat
      have hfresh : (f (Entity.fresh pool.next_id_)).id = pool.next_id_ := hid _
      exact Or.inr ⟨hi ▸ hplaced.empty, hP, hfresh.ge⟩
    · exact Or.inl hat
  · exact hplaced.next.ge.trans' (Nat.le_succ _)

/-! ### Recycling -/

/-- An entity that is not flagged stays; a flagged one leaves its slot. -/
def kept (slot : Option (Entity K)) : Option (Entity K) := slot.filter fun e => !e.isDestroyed

theorem kept_eq_some {slot : Option (Entity K)} {e : Entity K} :
    kept slot = some e ↔ slot = some e ∧ e.isDestroyed = false := by
  rw [kept, Option.filter_eq_some_iff, Bool.not_eq_true']

theorem kept_kept (slot : Option (Entity K)) : kept (kept slot) = kept slot := by
  ext e
  simp only [kept_eq_some, and_assoc, and_self]

/-- A pool from which the flagged entity of a slot was released. -/
theorem WellFormed.release {pool : EntityPool K} (wf : pool.WellFormed) {i : ℕ} {e : Entity K}
    (hat : pool.at? i = some e) : WellFormed
      { pool with
        storage_ := pool.storage_.set i none
        free_indices_ := i :: pool.free_indices_
        id_to_indices_ := pool.id_to_indices_.erase e.id } := by
  have hset := at?_set pool.storage_ (lt_length_of_at? hat) none
  constructor
  · intro j f hf
    rw [at?, hset] at hf
    split_ifs at hf
    exact wf.id_lt hf
  · intro id j
    simp only [at?, hset]
    -- The released identifier is found no more, the others as before.
    by_cases hid : id = e.id
    · subst hid
      rw [AList.lookup_erase]
      refine iff_of_false nofun ?_
      rintro ⟨f, hf, hfe⟩
      split_ifs at hf with hj
      exact hj (wf.slot_eq hf hat hfe)
    · rw [AList.lookup_erase_ne hid, wf.index]
      refine exists_congr fun f => and_congr_left fun hfid => ?_
      split_ifs with hj
      · subst hj
        rw [hat]
        refine iff_of_false (fun heq => ?_) nofun
        obtain rfl := Option.some.inj heq
        exact hid hfid.symm
      · rfl
  · intro j
    simp only [at?, hset, List.mem_cons, List.length_set]
    rw [wf.free]
    -- The slot joins the free ones.
    by_cases hj : j = i
    · subst hj
      simpa using lt_length_of_at? hat
    · simp only [hj, false_or, if_false]
      rfl
  · refine List.nodup_cons.mpr ⟨fun hmem => ?_, wf.free_nodup⟩
    rw [wf.free, hat] at hmem
    exact nomatch hmem.2

theorem recycleSlot_spec {pool : EntityPool K} (wf : pool.WellFormed) (i : ℕ) :
    (pool.recycleSlot i).WellFormed ∧ (pool.recycleSlot i).next_id_ = pool.next_id_ ∧
      ∀ j, (pool.recycleSlot i).at? j = if j = i then kept (pool.at? j) else pool.at? j := by
  have hsame (h : kept (pool.at? i) = pool.at? i) (j : ℕ) :
      pool.at? j = if j = i then kept (pool.at? j) else pool.at? j := by
    split_ifs with hj
    · exact hj ▸ h.symm
    · rfl
  unfold recycleSlot
  split
  · next e hslot =>
    have hat := at?_eq_some.mpr hslot
    split_ifs with hdestroyed
    · refine ⟨wf.release hat, rfl, fun j => ?_⟩
      rw [at?, at?_set pool.storage_ (lt_length_of_at? hat)]
      split_ifs with hj
      · rw [hj, hat, kept, Option.filter_some, hdestroyed]
        rfl
      · rfl
    · refine ⟨wf, rfl, hsame ?_⟩
      rw [hat, kept, Option.filter_some, Bool.eq_false_of_not_eq_true hdestroyed]
      rfl
  · next hslot =>
    refine ⟨wf, rfl, hsame ?_⟩
    cases hat : pool.at? i with
    | none => rfl
    | some e => exact absurd (at?_eq_some.mp hat) (hslot e)

/-- Recycling empties the slots of the flagged entities and keeps the others. -/
theorem recycleDestroyed_spec {pool : EntityPool K} (wf : pool.WellFormed) :
    pool.recycleDestroyed.WellFormed ∧ pool.recycleDestroyed.next_id_ = pool.next_id_ ∧
      ∀ i, pool.recycleDestroyed.at? i = kept (pool.at? i) := by
  have hfold (slots : List ℕ) : ∀ p : EntityPool K, p.WellFormed →
      (slots.foldl recycleSlot p).WellFormed ∧
        (slots.foldl recycleSlot p).next_id_ = p.next_id_ ∧
        ∀ j, (slots.foldl recycleSlot p).at? j =
          if j ∈ slots then kept (p.at? j) else p.at? j := by
    -- Slots that were visited are clean, the others are as they were.
    induction slots with
    | nil => exact fun p hp => ⟨hp, rfl, fun j => by simp⟩
    | cons i slots ih =>
      intro p hp
      obtain ⟨hwf, hnext, hat⟩ := recycleSlot_spec hp i
      obtain ⟨hwf', hnext', hat'⟩ := ih _ hwf
      refine ⟨hwf', hnext'.trans hnext, fun j => ?_⟩
      rw [List.foldl_cons, hat', hat]
      by_cases hj : j = i
      · simp [hj, kept_kept]
      · simp [hj]
  obtain ⟨hwf, hnext, hat⟩ := hfold (List.range pool.storage_.length) pool wf
  refine ⟨hwf, hnext, fun i => ?_⟩
  rw [recycleDestroyed, hat]
  split_ifs with hmem
  · rfl
  · -- Behind the last slot there is nothing to recycle.
    rw [List.mem_range, Nat.not_lt] at hmem
    rw [at?_of_length_le hmem]
    rfl

/-! ### Live ships -/

/-- An identifier of a live ship. -/
def HasLiveShip (pool : EntityPool K) (id : EntityId) : Prop :=
  ∃ i e, pool.at? i = some e ∧ e.id = id ∧ e.LiveShip

instance (pool : EntityPool K) (id : EntityId) : Decidable (pool.HasLiveShip id) :=
  decidable_of_iff (∃ e ∈ pool.storage_.reduceOption,
      e.id = id ∧ e.type = .Ship ∧ e.isDestroyed = false) <| by
    simp only [List.reduceOption_mem_iff, mem_storage]
    constructor
    · rintro ⟨e, ⟨i, hat⟩, hid, hlive⟩
      exact ⟨i, e, hat, hid, hlive⟩
    · rintro ⟨i, e, hat, hid, hlive⟩
      exact ⟨e, ⟨i, hat⟩, hid, hlive⟩

theorem Evolves.hasLiveShip {pool pool' : EntityPool K}
    (h : Evolves Entity.Continues pool pool') {id : EntityId} (hlive : pool'.HasLiveShip id) :
    pool.HasLiveShip id := by
  obtain ⟨i, e', hat', hid, hship⟩ := hlive
  obtain ⟨e, hat, hcontinues⟩ := h.some_of_some' hat'
  exact ⟨i, e, hat, hcontinues.id ▸ hid, hcontinues.liveShip hship⟩

theorem hasLiveShip_recycleDestroyed {pool : EntityPool K} (wf : pool.WellFormed)
    {id : EntityId} : pool.recycleDestroyed.HasLiveShip id ↔ pool.HasLiveShip id := by
  have hat := (recycleDestroyed_spec wf).2.2
  refine exists_congr fun i => exists_congr fun e => ?_
  rw [hat, kept_eq_some]
  constructor
  · rintro ⟨⟨hslot, -⟩, hid, hship⟩
    exact ⟨hslot, hid, hship⟩
  · rintro ⟨hslot, hid, hship⟩
    exact ⟨⟨hslot, hship.2⟩, hid, hship⟩

/-- New entities that are no ships bring no live ship. -/
theorem Extends.hasLiveShip_iff {pool pool' : EntityPool K} (h : Extends P pool pool')
    (hP : ∀ e, P e → e.type ≠ .Ship) {id : EntityId} :
    pool'.HasLiveShip id ↔ pool.HasLiveShip id := by
  constructor
  · rintro ⟨i, e, hat, hid, hship⟩
    rcases h.added hat with hold | ⟨-, hPe, -⟩
    · exact ⟨i, e, hold, hid, hship⟩
    · exact absurd hship.1 (hP e hPe)
  · rintro ⟨i, e, hat, hid, hship⟩
    exact ⟨i, e, h.keeps hat, hid, hship⟩

/-- Acquiring a ship brings one live ship. -/
theorem hasLiveShip_acquire_modify [Scalar K] {pool : EntityPool K} (wf : pool.WellFormed)
    {f : Entity K → Entity K} (hid : ∀ e, (f e).id = e.id)
    (hship : (f (Entity.fresh pool.next_id_)).LiveShip) {id : EntityId} :
    (pool.acquire.2.modify pool.acquire.1 f).HasLiveShip id ↔
      id = pool.next_id_ ∨ pool.HasLiveShip id := by
  have hat := at?_acquire_modify wf f
  constructor
  · rintro ⟨i, e, hslot, hide, hlive⟩
    rw [hat] at hslot
    split_ifs at hslot
    · obtain rfl := Option.some.inj hslot
      exact Or.inl (hide.symm.trans (hid _))
    · exact Or.inr ⟨i, e, hslot, hide, hlive⟩
  · rintro (rfl | ⟨i, e, hslot, hide, hlive⟩)
    · exact ⟨pool.acquire.1, _, by rw [hat, if_pos rfl], hid _, hship⟩
    · refine ⟨i, e, ?_, hide, hlive⟩
      rw [hat, if_neg]
      · exact hslot
      · rintro rfl
        rw [(placed_acquire wf).empty] at hslot
        cases hslot

end EntityPool

end SpaceShooter.Domain
