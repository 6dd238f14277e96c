/-
# Streams of items

What a decoder emits on a part of a stream are the first items of what it emits on the whole.
So a receiver that has seen the first bytes of an encoded list of items has emitted the first
items of that list, wherever the bytes were cut.
-/

import SpaceShooter.Library.Incremental

namespace SpaceShooter.Library.Incremental.Decoder

open Outcome

variable {α β : Type*} {d : Decoder α β}

theorem run_prefix {first whole : List α} (h : first <+: whole) :
    (d.run first).1 <+: (d.run whole).1 := by
  obtain ⟨later, rfl⟩ := h
  rw [run_append]
  exact List.prefix_append _ _

/-- One more chunk. -/
theorem run_flatten_concat (chunks : List (List α)) (chunk : List α) :
    d.run (chunks ++ [chunk]).flatten =
      ((d.run chunks.flatten).1 ++ (d.run ((d.run chunks.flatten).2 ++ chunk)).1,
        (d.run ((d.run chunks.flatten).2 ++ chunk)).2) := by
  rw [List.flatten_append, List.flatten_singleton, run_append]

/-- A part of the encodings of some items holds the first of these items. -/
theorem run_prefix_of_encoded {encode : β → List α} {items : List β} {part : List α}
    (waiting : d.verdict [] = .wait)
    (decodes : ∀ item ∈ items, ∀ later,
      d.verdict (encode item ++ later) = .advance (encode item).length (some item))
    (h : part <+: items.flatMap encode) : (d.run part).1 <+: items := by
  have whole := run_flatMap encode items [] decodes
  rw [List.append_nil, run_of_wait waiting, List.append_nil] at whole
  have first := run_prefix (d := d) h
  rw [whole] at first
  exact first

/-- A dispatch that gets to its end has recorded the whole run and leaves its residue. -/
theorem dispatch_of_ok {ε γ : Type} {handler : β → EStateM ε (List γ) Unit} (record : β → γ)
    (records : ∀ item state, resultState (handler item state) = state ++ [record item])
    {buffer residue : List α} {count n : ℕ} {state state' : List γ}
    (h : d.dispatch handler buffer count state = (.ok n state', residue)) :
    state' = state ++ (d.run buffer).1.map record ∧ residue = (d.run buffer).2 := by
  induction buffer using run_induction (d := d) generalizing count state with
  | wait buffer hwait =>
    rw [dispatch_of_wait handler hwait] at h
    obtain ⟨hok, rfl⟩ := Prod.mk.inj h
    cases hok
    rw [run_of_wait hwait]
    exact ⟨(List.append_nil _).symm, rfl⟩
  | advance buffer size emitted hadvance ih =>
    rw [run_of_advance hadvance]
    cases emitted with
    | none =>
      rw [dispatch_of_skip handler hadvance] at h
      exact ih h
    | some item =>
      rw [dispatch_of_item handler hadvance] at h
      have recorded := records item state
      cases hitem : handler item state with
      | error e next =>
        rw [hitem] at h
        cases (Prod.mk.inj h).1
      | ok _ next =>
        rw [hitem] at h recorded
        obtain ⟨hstate, hresidue⟩ := ih h
        have hnext : next = state ++ [record item] := recorded
        refine ⟨?_, hresidue⟩
        rw [hstate, hnext, Option.toList_some, List.map_append, List.append_assoc]
        rfl

end SpaceShooter.Library.Incremental.Decoder
