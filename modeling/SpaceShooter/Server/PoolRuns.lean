/-
# Runs of the entity pool

Callers acquire entities, write to the entities they hold pointers to, and have the
flagged ones recycled. A write may change everything but the identifier. Along every
run of these operations the free list and the index describe the slots, identifiers are
never handed out again, and the storage is as long as the pool was ever full.
-/

import Mathlib.Order.Bounds.Basic
import SpaceShooter.Library.Machine
import SpaceShooter.Server.EntityPool

namespace SpaceShooter.Domain.EntityPool

open Library

variable {K : Type}

/-- What a caller does to an entity through its pointer. -/
structure Write (K : Type) where
  apply : Entity K → Entity K
  keeps_id : ∀ e, (apply e).id = e.id

inductive Op (K : Type) where
  | acquire
  | write (i : ℕ) (change : Write K)
  | recycleDestroyed

/-- Pointers point to engaged slots, so the others are not written to. -/
def step [Scalar K] (pool : EntityPool K) : Op K → Option (EntityPool K)
  | .acquire => some pool.acquire.2
  | .write i change => if (pool.at? i).isSome then some (pool.modify i change.apply) else none
  | .recycleDestroyed => some pool.recycleDestroyed

def machine (K : Type) [Scalar K] : Machine (EntityPool K) (Op K) where
  init := {}
  step := step

/-- The identifier of the entity the next `acquire` hands out. -/
def issues [Scalar K] (pool : EntityPool K) : Option EntityId :=
  (pool.acquire.2.at? pool.acquire.1).map Entity.id

/-- The first slot whose entity carries an identifier. -/
def scan (pool : EntityPool K) (id : EntityId) : Option (ℕ × Entity K) :=
  (List.range pool.storage_.length).findSome? fun i =>
    (pool.at? i).bind fun entity => if entity.id = id then some (i, entity) else none

/-- The number of slots that hold an entity. -/
def engaged (pool : EntityPool K) : ℕ := pool.storage_.countP Option.isSome

/-! ### The bookkeeping describes the slots -/

/-- The free list names exactly the empty slots. -/
theorem WellFormed.mem_free_iff {pool : EntityPool K} (wf : pool.WellFormed) {i : ℕ} :
    i ∈ pool.free_indices_ ↔ pool.storage_[i]? = some none := by
  rw [wf.free]
  constructor
  · rintro ⟨hlt, hat⟩
    rw [at?, List.getElem?_eq_getElem hlt, Option.join_some] at hat
    rw [List.getElem?_eq_getElem hlt, hat]
  · intro hslot
    exact ⟨(List.getElem?_eq_some_iff.mp hslot).1, by rw [at?, hslot, Option.join_some]⟩

/-- Looking an identifier up finds what a scan of the slots finds. -/
theorem WellFormed.findByEntityID_eq_scan {pool : EntityPool K} (wf : pool.WellFormed)
    (id : EntityId) : pool.findByEntityID id = pool.scan id := by
  cases hscan : pool.scan id with
  | some found =>
    obtain ⟨i, -, hi⟩ := List.exists_of_findSome?_eq_some hscan
    obtain ⟨entity, hat, hentity⟩ := Option.bind_eq_some_iff.mp hi
    split_ifs at hentity with hid
    obtain rfl := Option.some.inj hentity
    exact wf.findByEntityID_eq_some.mpr ⟨hat, hid⟩
  | none =>
    by_contra hne
    obtain ⟨⟨i, entity⟩, hfound⟩ := Option.ne_none_iff_exists'.mp hne
    obtain ⟨hat, hid⟩ := wf.findByEntityID_eq_some.mp hfound
    -- The scan would have stopped at this slot.
    have hnone := List.findSome?_eq_none_iff.mp hscan i
      (List.mem_range.mpr (lt_length_of_at? hat))
    rw [hat, Option.bind_some, if_pos hid] at hnone
    cases hnone

theorem storage_eq_map (pool : EntityPool K) :
    pool.storage_ = (List.range pool.storage_.length).map pool.at? := by
  refine List.ext_getElem (by simp) fun i hi _ => ?_
  rw [List.getElem_map, List.getElem_range, at?, List.getElem?_eq_getElem hi, Option.join_some]

/-- The free list is as long as there are empty slots. -/
theorem WellFormed.length_free {pool : EntityPool K} (wf : pool.WellFormed) :
    pool.free_indices_.length = pool.storage_.countP Option.isNone := by
  have hperm : pool.free_indices_.Perm
      ((List.range pool.storage_.length).filter fun i => (pool.at? i).isNone) := by
    refine (List.perm_ext_iff_of_nodup wf.free_nodup (List.nodup_range.filter _)).mpr fun i => ?_
    rw [wf.free, List.mem_filter, List.mem_range, Option.isNone_iff_eq_none]
  have hcount : pool.storage_.countP Option.isNone =
      (List.range pool.storage_.length).countP fun i => (pool.at? i).isNone := by
    conv_lhs => rw [storage_eq_map pool]
    exact List.countP_map
  rw [hperm.length_eq, hcount, List.countP_eq_length_filter]

theorem engaged_add_countP_isNone (pool : EntityPool K) :
    pool.engaged + pool.storage_.countP Option.isNone = pool.storage_.length := by
  have hsplit : pool.storage_.length = _ := List.length_eq_countP_add_countP Option.isSome
  have hnot : (fun slot : Option (Entity K) => decide ¬slot.isSome = true) = Option.isNone := by
    funext slot
    cases slot with
    | none => rfl
    | some e => rfl
  rw [hnot] at hsplit
  exact hsplit.symm

theorem engaged_le_length (pool : EntityPool K) : pool.engaged ≤ pool.storage_.length :=
  List.countP_le_length

theorem WellFormed.activeCount_eq {pool : EntityPool K} (wf : pool.WellFormed) :
    pool.activeCount = pool.engaged := by
  have hsum := engaged_add_countP_isNone pool
  rw [activeCount, wf.length_free]
  omega

/-! ### What a step does -/

/-- What holds of a pool and any later one. -/
structure Precedes (pool pool' : EntityPool K) : Prop where
  wellFormed : pool'.WellFormed
  next_le : pool.next_id_ ≤ pool'.next_id_
  /-- Identifiers that left the pool stay away. -/
  retired : ∀ {id}, id < pool.next_id_ → pool.findByEntityID id = none →
    pool'.findByEntityID id = none
  length_le : pool.storage_.length ≤ pool'.storage_.length

theorem Precedes.refl {pool : EntityPool K} (wf : pool.WellFormed) : Precedes pool pool :=
  ⟨wf, le_rfl, fun _ h => h, le_rfl⟩

theorem Precedes.trans {pool pool' pool'' : EntityPool K} (h : Precedes pool pool')
    (h' : Precedes pool' pool'') : Precedes pool pool'' where
  wellFormed := h'.wellFormed
  next_le := h.next_le.trans h'.next_le
  retired hlt hnone := h'.retired (hlt.trans_le h.next_le) (h.retired hlt hnone)
  length_le := h.length_le.trans h'.length_le

/-- An identifier is absent when no slot carries it. -/
theorem WellFormed.findByEntityID_eq_none {pool : EntityPool K} (wf : pool.WellFormed)
    {id : EntityId} :
    pool.findByEntityID id = none ↔ ∀ i e, pool.at? i = some e → e.id ≠ id := by
  rw [Option.eq_none_iff_forall_ne_some]
  constructor
  · intro hnone i e hat hid
    exact hnone (i, e) (wf.findByEntityID_eq_some.mpr ⟨hat, hid⟩)
  · rintro hslots ⟨i, e⟩ hfound
    obtain ⟨hat, hid⟩ := wf.findByEntityID_eq_some.mp hfound
    exact hslots i e hat hid

theorem length_recycleDestroyed (pool : EntityPool K) :
    pool.recycleDestroyed.storage_.length = pool.storage_.length := by
  have hslot (p : EntityPool K) (i : ℕ) :
      (p.recycleSlot i).storage_.length = p.storage_.length := by
    unfold recycleSlot
    split
    · split_ifs
      · exact List.length_set
      · rfl
    · rfl
  have hfold (slots : List ℕ) : ∀ p : EntityPool K,
      (slots.foldl recycleSlot p).storage_.length = p.storage_.length := by
    induction slots with
    | nil => intro p; rfl
    | cons i slots ih => intro p; rw [List.foldl_cons, ih, hslot]
  exact hfold _ pool

/-- Recycling empties the slots of flagged entities where they stand. -/
theorem storage_recycleDestroyed {pool : EntityPool K} (wf : pool.WellFormed) :
    pool.recycleDestroyed.storage_ = pool.storage_.map kept := by
  obtain ⟨-, -, hat⟩ := recycleDestroyed_spec wf
  apply List.ext_getElem
  · rw [length_recycleDestroyed, List.length_map]
  · intro i hi hi'
    have hslot := hat i
    rw [List.length_map] at hi'
    rw [at?, at?, List.getElem?_eq_getElem hi, List.getElem?_eq_getElem hi'] at hslot
    rw [List.getElem_map]
    exact hslot

variable [Scalar K]

theorem length_acquire (pool : EntityPool K) :
    pool.acquire.2.storage_.length =
      if pool.free_indices_ = [] then pool.storage_.length + 1 else pool.storage_.length := by
  unfold acquire
  cases pool.free_indices_ with
  | nil => simp
  | cons idx free => simp

/-- `acquire` hands out the next identifier. -/
theorem issues_eq {pool : EntityPool K} (wf : pool.WellFormed) :
    pool.issues = some pool.next_id_ := by
  rw [issues, (placed_acquire wf).at_, if_pos rfl]
  rfl

theorem precedes_acquire {pool : EntityPool K} (wf : pool.WellFormed) :
    Precedes pool pool.acquire.2 := by
  have hplaced := placed_acquire wf
  have wf' := hplaced.wellFormed wf
  refine ⟨wf', hplaced.next.ge.trans' (Nat.le_succ _), ?_, ?_⟩
  · intro id hlt hnone
    rw [wf.findByEntityID_eq_none] at hnone
    rw [wf'.findByEntityID_eq_none]
    intro i e hat
    rw [hplaced.at_] at hat
    split_ifs at hat
    · -- The new entity carries the next identifier.
      obtain rfl := Option.some.inj hat
      exact hlt.ne'
    · exact hnone i e hat
  · rw [length_acquire]
    split_ifs
    · exact Nat.le_succ _
    · exact le_rfl

omit [Scalar K] in
theorem precedes_write {pool : EntityPool K} (wf : pool.WellFormed) (i : ℕ)
    (change : Write K) : Precedes pool (pool.modify i change.apply) := by
  have hevolves : Evolves (fun e e' => e'.id = e.id) pool (pool.modify i change.apply) :=
    evolves_modify (R := fun e e' => e'.id = e.id) (fun _ => rfl) pool i
      fun e _ => change.keeps_id e
  have wf' := hevolves.wellFormed (fun h => h) wf
  refine ⟨wf', hevolves.next.ge, ?_, hevolves.length.ge⟩
  intro id _ hnone
  rw [wf.findByEntityID_eq_none] at hnone
  rw [wf'.findByEntityID_eq_none]
  intro j e' hat'
  obtain ⟨e, hat, hid⟩ := hevolves.some_of_some' hat'
  exact hid ▸ hnone j e hat

omit [Scalar K] in
theorem precedes_recycleDestroyed {pool : EntityPool K} (wf : pool.WellFormed) :
    Precedes pool pool.recycleDestroyed := by
  obtain ⟨wf', hnext, hat⟩ := recycleDestroyed_spec wf
  refine ⟨wf', hnext.ge, ?_, (length_recycleDestroyed pool).ge⟩
  intro id _ hnone
  rw [wf.findByEntityID_eq_none] at hnone
  rw [wf'.findByEntityID_eq_none]
  intro i e hslot
  rw [hat, kept_eq_some] at hslot
  exact hnone i e hslot.1

theorem precedes_step {pool pool' : EntityPool K} (wf : pool.WellFormed) {op : Op K}
    (h : step pool op = some pool') : Precedes pool pool' := by
  cases op with
  | acquire =>
    obtain rfl := Option.some.inj h
    exact precedes_acquire wf
  | write i change =>
    rw [step, Option.ite_none_right_eq_some] at h
    obtain ⟨-, heq⟩ := h
    obtain rfl := Option.some.inj heq
    exact precedes_write wf i change
  | recycleDestroyed =>
    obtain rfl := Option.some.inj h
    exact precedes_recycleDestroyed wf

/-- Only `acquire` makes the storage longer, and then every slot is engaged. -/
theorem length_step {pool pool' : EntityPool K} (wf : pool.WellFormed) {op : Op K}
    (h : step pool op = some pool') :
    pool'.storage_.length = pool.storage_.length ∨ pool'.engaged = pool'.storage_.length := by
  cases op with
  | acquire =>
    obtain rfl := Option.some.inj h
    rw [length_acquire]
    split_ifs with hfree
    · right
      -- With nothing on the free list before, there is nothing on it after.
      have wf' := (placed_acquire wf).wellFormed wf
      have hempty : pool.acquire.2.free_indices_ = [] := by
        unfold acquire
        rw [hfree]
      have hnone := wf'.length_free
      rw [hempty, List.length_nil] at hnone
      have hsum := engaged_add_countP_isNone pool.acquire.2
      rw [← hnone, length_acquire, if_pos hfree] at hsum
      exact hsum
    · exact Or.inl rfl
  | write i change =>
    rw [step, Option.ite_none_right_eq_some] at h
    obtain ⟨-, heq⟩ := h
    obtain rfl := Option.some.inj heq
    exact Or.inl (List.length_modify _ _ _)
  | recycleDestroyed =>
    obtain rfl := Option.some.inj h
    exact Or.inl (length_recycleDestroyed pool)

/-! ### Runs -/

theorem wellFormed_of_run {ops : List (Op K)} {pool : EntityPool K}
    (h : (machine K).run ops = some pool) : pool.WellFormed :=
  Machine.run_induction (m := machine K) (motive := fun _ pool => pool.WellFormed)
    wellFormed_empty (fun _ _ _ _ _ wf hstep => (precedes_step wf hstep).wellFormed) h

theorem precedes_runFrom {ops : List (Op K)} {pool pool' : EntityPool K} (wf : pool.WellFormed)
    (h : (machine K).runFrom pool ops = some pool') : Precedes pool pool' :=
  Machine.runFrom_induction (m := machine K) (motive := Precedes pool)
    (fun _ _ _ _ hprecedes hstep => hprecedes.trans (precedes_step hprecedes.wellFormed hstep))
    (.refl wf) h

/-- The numbers of engaged slots a run has seen. -/
def engagedAlong (ops : List (Op K)) : Set ℕ :=
  { n | ∃ before after pool, ops = before ++ after ∧ (machine K).run before = some pool ∧
    n = pool.engaged }

/-- The storage is as long as there were ever engaged slots at once. -/
theorem isGreatest_engagedAlong {ops : List (Op K)} {pool : EntityPool K}
    (h : (machine K).run ops = some pool) :
    IsGreatest (engagedAlong ops) pool.storage_.length := by
  constructor
  · refine Machine.run_induction (m := machine K)
      (motive := fun ops pool => pool.storage_.length ∈ engagedAlong ops) ?_ ?_ h
    · exact ⟨[], [], {}, rfl, rfl, rfl⟩
    · intro ops s op t hs hmem hstep
      rcases length_step (wellFormed_of_run hs) hstep with hsame | hfull
      · obtain ⟨before, after, p, rfl, hp, hlength⟩ := hmem
        exact ⟨before, after ++ [op], p, List.append_assoc _ _ _, hp, hsame.trans hlength⟩
      · exact ⟨ops ++ [op], [], t, (List.append_nil _).symm,
          Machine.run_concat.mpr ⟨s, hs, hstep⟩, hfull.symm⟩
  · rintro n ⟨before, after, p, rfl, hp, rfl⟩
    obtain ⟨q, hq, hrest⟩ := Machine.runFrom_append.mp h
    obtain rfl := Option.some.inj (hp.symm.trans hq)
    exact (engaged_le_length p).trans (precedes_runFrom (wellFormed_of_run hp) hrest).length_le

/-- Two calls of `acquire` hand out different identifiers. -/
theorem issues_ne {before mid : List (Op K)} {s t : EntityPool K}
    (hs : (machine K).run before = some s)
    (ht : (machine K).run (before ++ .acquire :: mid) = some t) : s.issues ≠ t.issues := by
  have wf := wellFormed_of_run hs
  obtain ⟨u, hu, hrest⟩ := Machine.runFrom_append.mp ht
  obtain rfl := Option.some.inj (hs.symm.trans hu)
  obtain ⟨v, hv, hmid⟩ := Machine.runFrom_cons.mp hrest
  obtain rfl := Option.some.inj hv
  -- The counter moved on at the first call and does not come back.
  have hplaced := placed_acquire wf
  have hle := (precedes_runFrom (hplaced.wellFormed wf) hmid).next_le
  rw [hplaced.next] at hle
  rw [issues_eq wf, issues_eq (wellFormed_of_run ht), Ne, Option.some.injEq]
  exact (Nat.lt_of_succ_le hle).ne

/-- The identifier of an entity that was recycled is not found again. -/
theorem findByEntityID_of_recycled {before after : List (Op K)} {pool s : EntityPool K}
    (h : (machine K).run (before ++ .recycleDestroyed :: after) = some pool)
    (hs : (machine K).run before = some s) {i : ℕ} {e : Entity K} (hat : s.at? i = some e)
    (hdestroyed : e.isDestroyed = true) : pool.findByEntityID e.id = none := by
  have wf := wellFormed_of_run hs
  obtain ⟨u, hu, hrest⟩ := Machine.runFrom_append.mp h
  obtain rfl := Option.some.inj (hs.symm.trans hu)
  obtain ⟨v, hv, hafter⟩ := Machine.runFrom_cons.mp hrest
  obtain rfl := Option.some.inj hv
  obtain ⟨wf', hnext, hslots⟩ := recycleDestroyed_spec wf
  have hgone : s.recycleDestroyed.findByEntityID e.id = none := by
    rw [wf'.findByEntityID_eq_none]
    intro j f hf hid
    rw [hslots, kept_eq_some] at hf
    -- The slot of the identifier was the one that was emptied.
    obtain rfl := wf.slot_eq hf.1 hat hid
    obtain rfl := Option.some.inj (hf.1.symm.trans hat)
    exact Bool.false_ne_true (hf.2.symm.trans hdestroyed)
  exact (precedes_runFrom wf' hafter).retired (hnext ▸ wf.id_lt hat) hgone

/-- The free list, the index, the counter and the length of the storage along a run. -/
theorem representation_of_run {ops : List (Op K)} {pool : EntityPool K}
    (h : (machine K).run ops = some pool) :
    (pool.free_indices_.Nodup ∧ ∀ i, i ∈ pool.free_indices_ ↔ pool.storage_[i]? = some none) ∧
    ((∀ id i, pool.id_to_indices_.lookup id = some i ↔
        ∃ e, pool.storage_[i]? = some (some e) ∧ e.id = id) ∧
      ∀ id, pool.findByEntityID id = pool.scan id) ∧
    ((∀ before mid after s t, ops = before ++ .acquire :: (mid ++ .acquire :: after) →
        (machine K).run before = some s → (machine K).run (before ++ .acquire :: mid) = some t →
          ∃ id id', s.issues = some id ∧ t.issues = some id' ∧ id ≠ id') ∧
      ∀ before after s (i : ℕ) (e : Entity K),
        ops = before ++ .recycleDestroyed :: after →
        (machine K).run before = some s → s.storage_[i]? = some (some e) →
          e.isDestroyed = true → pool.findByEntityID e.id = none) ∧
    IsGreatest (engagedAlong ops) pool.storage_.length ∧ pool.activeCount = pool.engaged := by
  have wf := wellFormed_of_run h
  refine ⟨⟨wf.free_nodup, fun i => wf.mem_free_iff⟩, ⟨?_, wf.findByEntityID_eq_scan⟩, ⟨?_, ?_⟩,
    isGreatest_engagedAlong h, wf.activeCount_eq⟩
  · intro id i
    rw [wf.index]
    exact exists_congr fun e => and_congr_left' at?_eq_some
  · rintro before mid after s t rfl hs ht
    have hne := issues_ne hs ht
    rw [issues_eq (wellFormed_of_run hs), issues_eq (wellFormed_of_run ht)] at *
    exact ⟨s.next_id_, t.next_id_, rfl, rfl, fun heq => hne (congrArg some heq)⟩
  · rintro before after s i e rfl hs hslot hdestroyed
    exact findByEntityID_of_recycled h hs (at?_eq_some.mpr hslot) hdestroyed

attribute [local instance] RationalScalar.rational

/-- Flagging an entity. -/
def destroy : Write ℚ where
  apply e := { e with isDestroyed := true }
  keeps_id _ := rfl

/-- A slot that was filled again does not bring the old identifier back. -/
theorem representation_of_refilled : ∃ pool,
    (machine ℚ).run [.acquire, .write 0 destroy, .recycleDestroyed, .acquire] = some pool ∧
      pool.storage_.length = 1 ∧ pool.activeCount = pool.engaged ∧
      pool.findByEntityID 1 = none ∧ pool.findByEntityID 2 = pool.scan 2 := by
  obtain ⟨pool, h⟩ := Option.isSome_iff_exists.mp (show
    ((machine ℚ).run [.acquire, .write 0 destroy, .recycleDestroyed, .acquire]).isSome = true
      from rfl)
  have hlength : ((machine ℚ).run [.acquire, .write 0 destroy, .recycleDestroyed, .acquire]).map
      (fun pool => pool.storage_.length) = some 1 := rfl
  rw [h] at hlength
  obtain ⟨-, ⟨-, hfind⟩, ⟨-, hgone⟩, -, hactive⟩ := representation_of_run h
  refine ⟨pool, h, Option.some.inj hlength, hactive, ?_, hfind 2⟩
  exact hgone [.acquire, .write 0 destroy] [.acquire] _ 0 (destroy.apply (Entity.fresh 1))
    rfl rfl rfl rfl

end SpaceShooter.Domain.EntityPool
