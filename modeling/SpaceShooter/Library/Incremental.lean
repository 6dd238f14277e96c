/-
# Incremental decoders

A decoder looks at the front of its buffer and either waits for more input or
advances past at least one symbol, possibly emitting a value. When a decision to
advance can never be revised by input that arrives later, decoding commutes with
the segmentation of its input: the emitted values and the residue depend on the
concatenation of the chunks alone.

A dispatch hands each emitted value to a handler. One that refuses a value leaves the buffer in
front of it, so over any number of attempts every value is accepted once and in order.
-/

import Mathlib.Data.List.Basic
import Mathlib.Data.List.Flatten
import SpaceShooter.Library.Outcome

namespace SpaceShooter.Library.Incremental

/-- What a decoder does at the front of its buffer. -/
inductive Verdict (β : Type*)
  | wait
  | advance (count : ℕ) (emitted : Option β)

/-- A decoder whose advances make progress, stay inside the buffer and survive
every extension of the buffer. -/
structure Decoder (α β : Type*) where
  verdict : List α → Verdict β
  progress : ∀ {buffer count emitted},
    verdict buffer = .advance count emitted → 0 < count
  within : ∀ {buffer count emitted},
    verdict buffer = .advance count emitted → count ≤ buffer.length
  stable : ∀ {buffer count emitted} (later : List α),
    verdict buffer = .advance count emitted →
      verdict (buffer ++ later) = .advance count emitted

namespace Decoder

open Outcome

variable {α β : Type*} (d : Decoder α β)

theorem length_drop_lt {buffer : List α} {count : ℕ} {emitted : Option β}
    (h : d.verdict buffer = .advance count emitted) :
    (buffer.drop count).length < buffer.length := by
  have hpos := d.progress h
  have hle := d.within h
  rw [List.length_drop]
  omega

/-- Decode until the decoder waits: the emitted values and the residue. -/
def run (buffer : List α) : List β × List α :=
  match _h : d.verdict buffer with
  | .wait => ([], buffer)
  | .advance count emitted =>
    let rest := run (buffer.drop count)
    (emitted.toList ++ rest.1, rest.2)
termination_by buffer.length
decreasing_by exact d.length_drop_lt _h

variable {d}

theorem run_of_wait {buffer : List α} (h : d.verdict buffer = .wait) :
    d.run buffer = ([], buffer) := by
  rw [run]
  split
  · rfl
  · next heq => rw [h] at heq; cases heq

theorem run_of_advance {buffer : List α} {count : ℕ} {emitted : Option β}
    (h : d.verdict buffer = .advance count emitted) :
    d.run buffer =
      (emitted.toList ++ (d.run (buffer.drop count)).1, (d.run (buffer.drop count)).2) := by
  rw [run]
  split
  · next heq => rw [h] at heq; cases heq
  · next count' emitted' heq =>
    rw [h] at heq
    cases heq
    rfl

/-- Induction along a run: the waiting buffers, then one advance at a time. -/
theorem run_induction {motive : List α → Prop}
    (wait : ∀ buffer, d.verdict buffer = .wait → motive buffer)
    (advance : ∀ buffer count emitted, d.verdict buffer = .advance count emitted →
      motive (buffer.drop count) → motive buffer)
    (buffer : List α) : motive buffer := by
  induction hn : buffer.length using Nat.strongRecOn generalizing buffer with
  | _ n ih =>
    cases h : d.verdict buffer with
    | wait => exact wait buffer h
    | advance count emitted =>
      exact advance buffer count emitted h
        (ih _ (hn ▸ d.length_drop_lt h) (buffer.drop count) rfl)

/-- A run stops only where the decoder waits. -/
theorem verdict_run_residue (buffer : List α) :
    d.verdict (d.run buffer).2 = .wait := by
  induction buffer using run_induction (d := d) with
  | wait buffer h => rw [run_of_wait h]; exact h
  | advance buffer count emitted h ih => rw [run_of_advance h]; exact ih

/-- Running on more input is running on the first part, then on its residue
followed by the rest. -/
theorem run_append (buffer later : List α) :
    d.run (buffer ++ later) =
      ((d.run buffer).1 ++ (d.run ((d.run buffer).2 ++ later)).1,
        (d.run ((d.run buffer).2 ++ later)).2) := by
  induction buffer using run_induction (d := d) with
  | wait buffer h => simp [run_of_wait h]
  | advance buffer count emitted h ih =>
    have hle := d.within h
    rw [run_of_advance h, run_of_advance (d.stable later h),
      List.drop_append_of_le_length hle, ih]
    simp

/-! ### Handlers that may fail

A handler consumes the emitted values one by one. When it fails, the residue
still holds the item it failed on. -/

section Dispatch

variable {ε σ : Type}

variable (d) in
/-- Decode and hand every emitted value to a handler, counting the values it
accepted; a failing handler stops the run in front of the item it refused. -/
def dispatch (handler : β → EStateM ε σ Unit) (buffer : List α) (count : ℕ) (state : σ) :
    EStateM.Result ε σ ℕ × List α :=
  match _h : d.verdict buffer with
  | .wait => (.ok count state, buffer)
  | .advance size none => dispatch handler (buffer.drop size) count state
  | .advance size (some item) =>
    match handler item state with
    | .ok _ state' => dispatch handler (buffer.drop size) (count + 1) state'
    | .error e state' => (.error e state', buffer)
termination_by buffer.length
decreasing_by all_goals exact d.length_drop_lt _h

variable (handler : β → EStateM ε σ Unit)

theorem dispatch_of_wait {buffer : List α} (h : d.verdict buffer = .wait) (count : ℕ)
    (state : σ) : d.dispatch handler buffer count state = (.ok count state, buffer) := by
  rw [dispatch]
  split
  · rfl
  all_goals next heq => rw [h] at heq; cases heq

theorem dispatch_of_skip {buffer : List α} {size : ℕ}
    (h : d.verdict buffer = .advance size none) (count : ℕ) (state : σ) :
    d.dispatch handler buffer count state =
      d.dispatch handler (buffer.drop size) count state := by
  rw [dispatch]
  split
  · next heq => rw [h] at heq; cases heq
  · next heq => rw [h] at heq; cases heq; rfl
  · next heq => rw [h] at heq; cases heq

theorem dispatch_of_item {buffer : List α} {size : ℕ} {item : β}
    (h : d.verdict buffer = .advance size (some item)) (count : ℕ) (state : σ) :
    d.dispatch handler buffer count state =
      match handler item state with
      | .ok _ state' => d.dispatch handler (buffer.drop size) (count + 1) state'
      | .error e state' => (.error e state', buffer) := by
  rw [dispatch]
  split
  · next heq => rw [h] at heq; cases heq
  · next heq => rw [h] at heq; cases heq
  · next heq => rw [h] at heq; cases heq; rfl

/-- Symbols that are skipped one by one do not reach the handler. -/
theorem dispatch_append_of_skips {junk rest : List α}
    (skips : ∀ i < junk.length, d.verdict (junk.drop i ++ rest) = .advance 1 none) (count : ℕ)
    (state : σ) :
    d.dispatch handler (junk ++ rest) count state = d.dispatch handler rest count state := by
  induction junk with
  | nil => rfl
  | cons symbol junk ih =>
    have hfirst := skips 0 (Nat.succ_pos _)
    rw [List.drop_zero] at hfirst
    rw [dispatch_of_skip handler hfirst]
    exact ih fun i hi => skips (i + 1) (Nat.succ_lt_succ hi)

/-- With a handler that never fails, dispatching folds it over the run. -/
theorem dispatch_of_total {step : σ → β → σ}
    (total : ∀ item state, handler item state = .ok () (step state item))
    (buffer : List α) (count : ℕ) (state : σ) :
    d.dispatch handler buffer count state =
      (.ok (count + (d.run buffer).1.length) ((d.run buffer).1.foldl step state),
        (d.run buffer).2) := by
  induction buffer using run_induction (d := d) generalizing count state with
  | wait buffer h => simp [dispatch_of_wait handler h, run_of_wait h]
  | advance buffer size emitted h ih =>
    cases emitted with
    | none => simp [dispatch_of_skip handler h, run_of_advance h, ih]
    | some item =>
      rw [dispatch_of_item handler h, total, run_of_advance h]
      simp only [ih, Option.toList_some, List.singleton_append, List.length_cons,
        List.foldl_cons, Nat.add_assoc, Nat.add_comm 1]

/-- A dispatch does not stop where it could go on. -/
theorem verdict_dispatch_of_ok {buffer residue : List α} {count n : ℕ} {state state' : σ}
    (h : d.dispatch handler buffer count state = (.ok n state', residue)) :
    d.verdict residue = .wait := by
  induction buffer using run_induction (d := d) generalizing count state with
  | wait buffer hwait =>
    rw [dispatch_of_wait handler hwait] at h
    rw [← (Prod.mk.inj h).2]
    exact hwait
  | advance buffer size emitted hadvance ih =>
    cases emitted with
    | none =>
      rw [dispatch_of_skip handler hadvance] at h
      exact ih h
    | some item =>
      rw [dispatch_of_item handler hadvance] at h
      cases hitem : handler item state with
      | ok _ next =>
        rw [hitem] at h
        exact ih h
      | error e next =>
        rw [hitem] at h
        cases (Prod.mk.inj h).1

/-- What a dispatch leaves is the end of its buffer, whether or not the handler failed. -/
theorem dispatch_suffix (buffer : List α) (count : ℕ) (state : σ) :
    (d.dispatch handler buffer count state).2 <:+ buffer := by
  induction buffer using run_induction (d := d) generalizing count state with
  | wait buffer hwait => simp only [dispatch_of_wait handler hwait, List.suffix_rfl]
  | advance buffer size emitted hadvance ih =>
    cases emitted with
    | none =>
      rw [dispatch_of_skip handler hadvance]
      exact (ih count state).trans (List.drop_suffix size buffer)
    | some item =>
      rw [dispatch_of_item handler hadvance]
      cases handler item state with
      | ok _ next => exact (ih (count + 1) next).trans (List.drop_suffix size buffer)
      | error e next => exact List.suffix_rfl

/-- A handler that records every value it is handed, also the one it refuses, records
a prefix of the run, and a non-empty one unless the run is empty. -/
theorem dispatch_of_recorded {γ : Type} {handler : β → EStateM ε (List γ) Unit}
    (record : β → γ)
    (records : ∀ item state, resultState (handler item state) = state ++ [record item])
    (buffer : List α) (count : ℕ) (state : List γ) :
    ∃ items, items <+: (d.run buffer).1 ∧ (items = [] → (d.run buffer).1 = []) ∧
      resultState (d.dispatch handler buffer count state).1 = state ++ items.map record := by
  induction buffer using run_induction (d := d) generalizing count state with
  | wait buffer h =>
    refine ⟨[], List.nil_prefix, fun _ => by rw [run_of_wait h], ?_⟩
    simp [dispatch_of_wait handler h, resultState]
  | advance buffer size emitted h ih =>
    rw [run_of_advance h]
    cases emitted with
    | none => simpa [dispatch_of_skip handler h] using ih count state
    | some item =>
      have hrecord := records item state
      rw [dispatch_of_item handler h]
      cases hitem : handler item state with
      | ok _ state' =>
        rw [hitem] at hrecord
        obtain rfl : state' = state ++ [record item] := hrecord
        obtain ⟨items, hprefix, -, hstate⟩ := ih (count + 1) (state ++ [record item])
        refine ⟨item :: items, ?_, nofun, ?_⟩
        · simpa using hprefix
        · simpa using hstate
      | error e state' =>
        rw [hitem] at hrecord
        obtain rfl : state' = state ++ [record item] := hrecord
        -- The refused item is recorded, and nothing after it.
        exact ⟨[item], by simp, nofun, by simp [resultState]⟩

/-- A handler that accepts by the place of an item in its history gets through a buffer if it
accepts the places of all the items. -/
theorem dispatch_ok_iff (place : σ → ℕ) (accepts : ℕ → Prop)
    (hok : ∀ {item state state'}, handler item state = .ok () state' →
      accepts (place state) ∧ place state' = place state + 1)
    (herror : ∀ {item state e state'}, handler item state = .error e state' →
      ¬ accepts (place state))
    (buffer : List α) (count : ℕ) (state : σ) :
    (∃ n state', (d.dispatch handler buffer count state).1 = .ok n state') ↔
      ∀ i < (d.run buffer).1.length, accepts (place state + i) := by
  induction buffer using run_induction (d := d) generalizing count state with
  | wait buffer hwait =>
    rw [dispatch_of_wait handler hwait, run_of_wait hwait]
    exact iff_of_true ⟨count, state, rfl⟩ fun i hi => absurd hi (Nat.not_lt_zero i)
  | advance buffer size emitted hadvance ih =>
    rw [run_of_advance hadvance]
    cases emitted with
    | none =>
      rw [dispatch_of_skip handler hadvance]
      exact ih count state
    | some item =>
      rw [dispatch_of_item handler hadvance]
      dsimp only
      rw [Option.toList_some, List.singleton_append, List.length_cons]
      cases hitem : handler item state with
      | ok _ next =>
        obtain ⟨haccepts, hplace⟩ := hok hitem
        dsimp only
        rw [ih, hplace]
        constructor
        · intro hrest i hi
          cases i with
          | zero => exact haccepts
          | succ i =>
            have hlater := hrest i (Nat.lt_of_succ_lt_succ hi)
            rwa [Nat.add_right_comm] at hlater
        · intro hall i hi
          have hlater := hall (i + 1) (Nat.succ_lt_succ hi)
          rwa [← Nat.add_assoc, Nat.add_right_comm] at hlater
      | error e next =>
        refine iff_of_false (fun ⟨_, _, heq⟩ => nomatch heq) fun hall => ?_
        exact herror hitem (hall 0 (Nat.succ_pos _))

/-! ### Items and their places -/

variable (d) in
/-- The emitted values, each with the buffer that it was found in front of. -/
def items (buffer : List α) : List (List α × β) :=
  match _h : d.verdict buffer with
  | .wait => []
  | .advance count emitted => emitted.toList.map (buffer, ·) ++ items (buffer.drop count)
termination_by buffer.length
decreasing_by exact d.length_drop_lt _h

theorem items_of_wait {buffer : List α} (h : d.verdict buffer = .wait) : d.items buffer = [] := by
  rw [items]
  split
  · rfl
  · next heq => rw [h] at heq; cases heq

theorem items_of_advance {buffer : List α} {count : ℕ} {emitted : Option β}
    (h : d.verdict buffer = .advance count emitted) :
    d.items buffer = emitted.toList.map (buffer, ·) ++ d.items (buffer.drop count) := by
  rw [items]
  split
  · next heq => rw [h] at heq; cases heq
  · next heq =>
    rw [h] at heq
    cases heq
    rfl

theorem map_snd_items (buffer : List α) :
    (d.items buffer).map Prod.snd = (d.run buffer).1 := by
  induction buffer using run_induction (d := d) with
  | wait buffer h => rw [items_of_wait h, run_of_wait h, List.map_nil]
  | advance buffer count emitted h ih =>
    rw [items_of_advance h, run_of_advance h, List.map_append, ih]
    cases emitted <;> rfl

/-- An item stands where the decoder emits it. -/
theorem verdict_of_mem_items {buffer rest : List α} {item : β}
    (h : (rest, item) ∈ d.items buffer) :
    rest <:+ buffer ∧ ∃ size, d.verdict rest = .advance size (some item) := by
  induction buffer using run_induction (d := d) with
  | wait buffer hwait =>
    rw [items_of_wait hwait] at h
    cases h
  | advance buffer count emitted hadvance ih =>
    rw [items_of_advance hadvance, List.mem_append, List.mem_map] at h
    rcases h with ⟨emittedItem, hmem, heq⟩ | hlater
    · cases heq
      rw [Option.mem_toList.mp hmem] at hadvance
      exact ⟨List.suffix_rfl, count, hadvance⟩
    · obtain ⟨hsuffix, hverdict⟩ := ih hlater
      exact ⟨hsuffix.trans (List.drop_suffix count buffer), hverdict⟩

/-- A handler that accepts some items and refuses the next one stops the dispatch in front of
that one. -/
theorem dispatch_of_refused {buffer rest : List α} {item : β} {done later : List (List α × β)}
    (hitems : d.items buffer = done ++ (rest, item) :: later) {state accepted refused : σ} {e : ε}
    (hdone : forM (done.map Prod.snd) handler state = .ok () accepted)
    (hrefused : handler item accepted = .error e refused) (count : ℕ) :
    d.dispatch handler buffer count state = (.error e refused, rest) := by
  induction buffer using run_induction (d := d) generalizing done count state with
  | wait buffer hwait =>
    rw [items_of_wait hwait] at hitems
    exact absurd hitems.symm (List.append_ne_nil_of_right_ne_nil done (List.cons_ne_nil _ _))
  | advance buffer size emitted hadvance ih =>
    rw [items_of_advance hadvance] at hitems
    cases emitted with
    | none =>
      rw [dispatch_of_skip handler hadvance]
      exact ih hitems hdone count
    | some first =>
      rw [dispatch_of_item handler hadvance]
      cases done with
      | nil =>
        obtain ⟨hfirst, -⟩ := List.cons.inj hitems
        obtain ⟨rfl, rfl⟩ := Prod.mk.inj hfirst
        obtain rfl : state = accepted := (EStateM.Result.ok.inj hdone).2
        rw [hrefused]
      | cons head done =>
        -- The first item is accepted, and the induction goes on behind it.
        obtain ⟨hfirst, hrest⟩ := List.cons.inj hitems
        subst hfirst
        rw [List.map_cons, List.forM_cons, bind_eq_ok] at hdone
        obtain ⟨_, next, hok, hmore⟩ := hdone
        rw [hok]
        exact ih hrest hmore (count + 1)

end Dispatch

/-! ### Repeated attempts -/

section Attempts

variable {α : Type*} {β ε σ : Type} {d : Decoder α β} (handler : β → EStateM ε σ Unit)

/-- A handler that also notes the items it has accepted. -/
def noting (item : β) : EStateM ε (σ × List β) Unit :=
  fun state =>
    match handler item state.1 with
    | .ok _ next => .ok () (next, state.2 ++ [item])
    | .error e next => .error e (next, state.2)

variable {handler} {item : β} {state : σ × List β} {next : σ} {e : ε}

theorem noting_of_ok (h : handler item state.1 = .ok () next) :
    noting handler item state = .ok () (next, state.2 ++ [item]) := by
  rw [noting, h]

theorem noting_of_error (h : handler item state.1 = .error e next) :
    noting handler item state = .error e (next, state.2) := by
  rw [noting, h]

theorem forM_noting {items : List β} (h : forM items handler state.1 = .ok () next) :
    forM items (noting handler) state = .ok () (next, state.2 ++ items) := by
  induction items generalizing state with
  | nil =>
    obtain rfl : state.1 = next := (EStateM.Result.ok.inj h).2
    rw [List.append_nil]
    rfl
  | cons item items ih =>
    rw [List.forM_cons, bind_eq_ok] at h ⊢
    obtain ⟨_, accepted, hok, hrest⟩ := h
    refine ⟨(), _, noting_of_ok hok, ?_⟩
    rw [ih hrest, List.append_assoc, List.singleton_append]

/-- What an outcome is without the notes. -/
def forget {τ : Type} : EStateM.Result ε (σ × List β) τ → EStateM.Result ε σ τ
  | .ok value state => .ok value state.1
  | .error e state => .error e state.1

/-- Taking notes changes nothing else. -/
theorem dispatch_eq_forget (buffer : List α) (count : ℕ) (state : σ × List β) :
    d.dispatch handler buffer count state.1 =
      (forget (d.dispatch (noting handler) buffer count state).1,
        (d.dispatch (noting handler) buffer count state).2) := by
  induction buffer using run_induction (d := d) generalizing count state with
  | wait buffer hwait =>
    rw [dispatch_of_wait _ hwait, dispatch_of_wait _ hwait]
    rfl
  | advance buffer size emitted hadvance ih =>
    cases emitted with
    | none =>
      rw [dispatch_of_skip _ hadvance, dispatch_of_skip _ hadvance]
      exact ih count state
    | some item =>
      rw [dispatch_of_item _ hadvance, dispatch_of_item _ hadvance]
      cases hitem : handler item state.1 with
      | ok _ next =>
        rw [noting_of_ok hitem]
        exact ih (count + 1) (next, state.2 ++ [item])
      | error e next =>
        rw [noting_of_error hitem]
        rfl

/-- What is noted and what is left make up what there was. -/
theorem dispatch_noting (handler : β → EStateM ε σ Unit) (buffer : List α) (count : ℕ)
    (state : σ × List β) :
    ∃ accepted, (resultState (d.dispatch (noting handler) buffer count state).1).2 =
        state.2 ++ accepted ∧
      d.run buffer = (accepted ++ (d.run (d.dispatch (noting handler) buffer count state).2).1,
        (d.run (d.dispatch (noting handler) buffer count state).2).2) := by
  induction buffer using run_induction (d := d) generalizing count state with
  | wait buffer hwait =>
    rw [dispatch_of_wait _ hwait]
    exact ⟨[], (List.append_nil _).symm, rfl⟩
  | advance buffer size emitted hadvance ih =>
    cases emitted with
    | none =>
      rw [dispatch_of_skip _ hadvance, run_of_advance hadvance]
      exact ih count state
    | some item =>
      rw [dispatch_of_item _ hadvance]
      cases hitem : handler item state.1 with
      | ok _ next =>
        obtain ⟨accepted, hnoted, hrun⟩ := ih (count + 1) (next, state.2 ++ [item])
        rw [noting_of_ok hitem]
        refine ⟨item :: accepted, ?_, ?_⟩
        · rw [hnoted, List.append_assoc, List.singleton_append]
        · rw [run_of_advance hadvance, hrun]
          rfl
      | error e next =>
        rw [noting_of_error hitem]
        exact ⟨[], (List.append_nil _).symm, rfl⟩

/-- A handler, and the input that arrives before it is called. -/
abbrev Attempt (α : Type*) (β ε σ : Type) := (β → EStateM ε σ Unit) × List α

variable (d) in
/-- Dispatch what is left of the buffer and what has arrived, whether or not the attempt before
has failed. -/
def attempt (receiver : List α × σ × List β) (call : Attempt α β ε σ) : List α × σ × List β :=
  ((d.dispatch (noting call.1) (receiver.1 ++ call.2) 0 receiver.2).2,
    resultState (d.dispatch (noting call.1) (receiver.1 ++ call.2) 0 receiver.2).1)

/-- Over all attempts each item is accepted once, and in order. -/
theorem foldl_attempt (calls : List (Attempt α β ε σ)) (receiver : List α × σ × List β) :
    ∃ accepted, (calls.foldl d.attempt receiver).2.2 = receiver.2.2 ++ accepted ∧
      d.run (receiver.1 ++ (calls.map Prod.snd).flatten) =
        (accepted ++ (d.run (calls.foldl d.attempt receiver).1).1,
          (d.run (calls.foldl d.attempt receiver).1).2) := by
  induction calls generalizing receiver with
  | nil =>
    refine ⟨[], (List.append_nil _).symm, ?_⟩
    rw [List.map_nil, List.flatten_nil, List.append_nil]
    rfl
  | cons call calls ih =>
    obtain ⟨first, hfirst, hrun⟩ :=
      dispatch_noting (d := d) call.1 (receiver.1 ++ call.2) 0 receiver.2
    obtain ⟨rest, hrest, hlater⟩ := ih (d.attempt receiver call)
    refine ⟨first ++ rest, ?_, ?_⟩
    · rw [List.foldl_cons, hrest, ← List.append_assoc, ← hfirst]
      rfl
    · -- The residue of this attempt goes on with what arrives for the later ones.
      rw [run_append] at hlater
      obtain ⟨hitems, hresidue⟩ := Prod.mk.inj hlater
      rw [List.foldl_cons, List.map_cons, List.flatten_cons, ← List.append_assoc, run_append, hrun]
      refine Prod.ext ?_ hresidue
      change first ++ _ ++ _ = _
      rw [List.append_assoc, List.append_assoc]
      exact congrArg (first ++ ·) hitems

end Attempts

variable (d)

/-- One read of a receiver: append a chunk, decode, keep the residue. -/
def feed (state : List β × List α) (chunk : List α) : List β × List α :=
  (state.1 ++ (d.run (state.2 ++ chunk)).1, (d.run (state.2 ++ chunk)).2)

variable {d}

/-- Feeding chunks after a waiting residue amounts to one run on everything. -/
theorem foldl_feed (chunks : List (List α)) (emitted : List β) (residue : List α)
    (waiting : d.verdict residue = .wait) :
    chunks.foldl d.feed (emitted, residue) =
      (emitted ++ (d.run (residue ++ chunks.flatten)).1,
        (d.run (residue ++ chunks.flatten)).2) := by
  -- The residue waits before each chunk, so it carries over to the next run.
  induction chunks generalizing emitted residue with
  | nil => simp [run_of_wait waiting]
  | cons chunk chunks ih =>
    rw [List.foldl_cons, feed, ih _ _ (verdict_run_residue _), List.flatten_cons,
      ← List.append_assoc residue, run_append (residue ++ chunk)]
    simp

/-- A decoder that advances past each encoded item, whatever follows, recovers
the whole list of items. -/
theorem run_flatMap (encode : β → List α) (items : List β) (residue : List α)
    (decodes : ∀ item ∈ items, ∀ later,
      d.verdict (encode item ++ later) = .advance (encode item).length (some item)) :
    d.run (items.flatMap encode ++ residue) =
      (items ++ (d.run residue).1, (d.run residue).2) := by
  induction items with
  | nil => simp
  | cons item items ih =>
    have first := decodes item List.mem_cons_self (items.flatMap encode ++ residue)
    rw [List.flatMap_cons, List.append_assoc, run_of_advance first, List.drop_left,
      ih fun other member => decodes other (List.mem_cons_of_mem _ member)]
    simp

end Decoder

end SpaceShooter.Library.Incremental
