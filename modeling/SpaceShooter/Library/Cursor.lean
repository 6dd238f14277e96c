/-
# Cursors

Readers that walk a buffer by an offset, as imperative code does. A read outside of the
buffer is a fault of its own, and so is a difference of sizes that would wrap around. A
cursor reader that tracks a list reader finds the same values and raises the same
exceptions, stays inside its buffer and never faults.
-/

import SpaceShooter.Library.Reader

namespace SpaceShooter.Library

/-- A buffer and the offset of the next symbol. -/
structure Cursor (α : Type) where
  bytes : List α
  offset : ℕ

/-- What ends a read. -/
inductive Cursor.Fault (ε : Type)
  | thrown (e : ε)
  | outOfBounds

/-- A reader that moves a cursor. -/
abbrev CursorReader (α ε : Type) := StateT (Cursor α) (Except (Cursor.Fault ε))

namespace Cursor

variable {α ε β γ : Type}

/-- What is left to be read. -/
def rest (c : Cursor α) : List α := c.bytes.drop c.offset

/-- The offset is not past the end. -/
def Inside (c : Cursor α) : Prop := c.offset ≤ c.bytes.length

def raise (e : ε) : CursorReader α ε β := fun _ => .error (.thrown e)

/-- The symbol at the offset, which moves on. -/
def next : CursorReader α ε α := fun c =>
  match c.bytes[c.offset]? with
  | none => .error .outOfBounds
  | some symbol => .ok (symbol, { c with offset := c.offset + 1 })

/-- The size of the buffer less the offset. -/
def remaining : CursorReader α ε ℕ := fun c =>
  if c.bytes.length < c.offset then .error .outOfBounds
  else .ok (c.bytes.length - c.offset, c)

/-- The symbols from the offset on, which moves behind them. -/
def subspan (count : ℕ) : CursorReader α ε (List α) := fun c =>
  if c.bytes.length < c.offset + count then .error .outOfBounds
  else .ok (c.rest.take count, { c with offset := c.offset + count })

/-- Run a reader a number of times. -/
def readMany (r : CursorReader α ε β) : ℕ → CursorReader α ε (List β)
  | 0 => pure []
  | count + 1 => do
    let value ← r
    let values ← readMany r count
    pure (value :: values)

theorem length_rest (c : Cursor α) : c.rest.length = c.bytes.length - c.offset :=
  List.length_drop

/-- The cursor reader does on a buffer what the list reader does on what is left of it. -/
structure Tracks (r : CursorReader α ε β) (spec : Reader α ε β) : Prop where
  ok : ∀ ⦃c : Cursor α⦄ ⦃value : β⦄ ⦃left : List α⦄, c.Inside →
    spec c.rest = .ok (value, left) → ∃ c', r c = .ok (value, c') ∧ c'.Inside ∧ c'.rest = left
  error : ∀ ⦃c : Cursor α⦄ ⦃e : ε⦄, c.Inside → spec c.rest = .error e → r c = .error (.thrown e)

theorem tracks_pure (value : β) :
    Tracks (pure value : CursorReader α ε β) (pure value : Reader α ε β) := by
  refine ⟨fun c found left hinside h => ?_, fun _ _ _ h => by cases h⟩
  obtain ⟨rfl, rfl⟩ := Prod.mk.inj (Except.ok.inj h)
  exact ⟨c, rfl, hinside, rfl⟩

theorem tracks_raise (e : ε) :
    Tracks (raise e : CursorReader α ε β) (MonadExcept.throw e : Reader α ε β) := by
  refine ⟨fun _ _ _ _ h => (by cases h), fun c found _ h => ?_⟩
  obtain rfl : e = found := Except.error.inj h
  rfl

theorem Tracks.bind {r : CursorReader α ε β} {spec : Reader α ε β}
    {k : β → CursorReader α ε γ} {kspec : β → Reader α ε γ} (h : Tracks r spec)
    (hk : ∀ value, Tracks (k value) (kspec value)) : Tracks (r >>= k) (spec >>= kspec) := by
  refine ⟨fun c value left hinside hspec => ?_, fun c e hinside hspec => ?_⟩
  · obtain ⟨first, middle, hfirst, hsecond⟩ := Reader.bind_eq_ok hspec
    obtain ⟨c', hr, hinside', rfl⟩ := h.ok hinside hfirst
    obtain ⟨c'', hk', hinside'', hrest⟩ := (hk first).ok hinside' hsecond
    refine ⟨c'', ?_, hinside'', hrest⟩
    change (r c).bind _ = _
    rw [hr]
    exact hk'
  · change (r c).bind _ = _
    rw [Reader.bind_apply] at hspec
    cases hfirst : spec c.rest with
    | error e' =>
      rw [hfirst] at hspec
      obtain rfl : e' = e := Except.error.inj hspec
      rw [h.error hinside hfirst]
      rfl
    | ok found =>
      rw [hfirst] at hspec
      obtain ⟨c', hr, hinside', hrest⟩ := h.ok hinside hfirst
      rw [hr]
      refine (hk found.1).error hinside' ?_
      rw [hrest]
      exact hspec

theorem tracks_remaining :
    Tracks (remaining : CursorReader α ε ℕ) (Reader.remaining : Reader α ε ℕ) := by
  refine ⟨fun c value left hinside h => ?_, fun _ _ _ h => by cases h⟩
  obtain ⟨rfl, rfl⟩ := Prod.mk.inj (Except.ok.inj h)
  refine ⟨c, ?_, hinside, rfl⟩
  rw [length_rest]
  exact if_neg (Nat.not_lt.mpr hinside)

/-- A check that leads to one reader or the other. -/
theorem Tracks.ite {P : Prop} [Decidable P] {r r' : CursorReader α ε β}
    {spec spec' : Reader α ε β} (h : Tracks r spec) (h' : Tracks r' spec') :
    Tracks (if P then r else r') (if P then spec else spec') := by
  split_ifs
  · exact h
  · exact h'

/-- Reading a block whose size has been checked against what remains. -/
theorem tracks_block {count : ℕ} {truncated : ε} {r : CursorReader α ε (List α)}
    (hfits : ∀ c : Cursor α, c.offset + count ≤ c.bytes.length →
      r c = .ok (c.rest.take count, { c with offset := c.offset + count }))
    (hshort : ∀ c : Cursor α, c.Inside → c.bytes.length < c.offset + count →
      r c = .error (.thrown truncated)) :
    Tracks r (Reader.readBytes count truncated) := by
  have hlength (c : Cursor α) (hinside : c.Inside) :
      count > c.rest.length ↔ c.bytes.length < c.offset + count := by
    rw [length_rest]
    unfold Inside at hinside
    omega
  refine ⟨fun c value left hinside h => ?_, fun c e hinside h => ?_⟩
  · unfold Reader.readBytes at h
    split_ifs at h with hlt
    obtain ⟨rfl, rfl⟩ := Prod.mk.inj (Except.ok.inj h)
    have hle := Nat.le_of_not_lt (mt (hlength c hinside).mpr hlt)
    exact ⟨_, hfits c hle, hle, List.drop_drop.symm⟩
  · unfold Reader.readBytes at h
    split_ifs at h with hlt
    obtain rfl : truncated = e := Except.error.inj h
    exact hshort c hinside ((hlength c hinside).mp hlt)

theorem Tracks.readMany {r : CursorReader α ε β} {spec : Reader α ε β} (h : Tracks r spec)
    (count : ℕ) : Tracks (readMany r count) (Reader.readMany spec count) := by
  induction count with
  | zero => exact tracks_pure []
  | succ count ih => exact h.bind fun value => ih.bind fun values => tracks_pure (value :: values)

end Cursor

end SpaceShooter.Library
