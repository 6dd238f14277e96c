/-
# Readers of symbol lists

A reader takes symbols off the front of its input or fails. It reads an encoding as a
value when it takes exactly that encoding off, whatever follows. The law composes, so
a round trip of a format is put together from those of its fields. So does the converse,
that a reader which succeeds has found an encoding in front of its input.
-/

import Mathlib.Data.List.Basic

namespace SpaceShooter.Library

/-- A reader of symbols `α` that may fail with `ε`. -/
abbrev Reader (α ε : Type) := StateT (List α) (Except ε)

namespace Reader

variable {α ε β γ : Type}

/-- Take a number of symbols off the front. -/
def readBytes (count : ℕ) (truncated : ε) : Reader α ε (List α) := fun input =>
  if count > input.length then .error truncated
  else .ok (input.take count, input.drop count)

/-- The number of symbols left. -/
def remaining : Reader α ε ℕ := fun input => .ok (input.length, input)

/-- Run a reader a number of times. -/
def readMany (r : Reader α ε β) : ℕ → Reader α ε (List β)
  | 0 => pure []
  | count + 1 => do
    let value ← r
    let rest ← readMany r count
    pure (value :: rest)

/-- The reader takes the encoding off the front of any input and answers the value. -/
def Reads (r : Reader α ε β) (encoding : List α) (value : β) : Prop :=
  ∀ rest, r (encoding ++ rest) = .ok (value, rest)

theorem bind_apply (r : Reader α ε β) (k : β → Reader α ε γ) (input : List α) :
    (r >>= k) input = (r input).bind fun (value, rest) => k value rest := rfl

theorem reads_pure (value : β) : Reads (pure value : Reader α ε β) [] value :=
  fun _ => rfl

theorem Reads.bind {r : Reader α ε β} {k : β → Reader α ε γ} {first second : List α}
    {value : β} {result : γ} (h : Reads r first value) (hk : Reads (k value) second result) :
    Reads (r >>= k) (first ++ second) result := by
  intro rest
  rw [List.append_assoc, bind_apply, h]
  exact hk rest

/-- A last step that takes nothing off. -/
theorem Reads.then_nil {r : Reader α ε β} {k : β → Reader α ε γ} {encoding : List α}
    {value : β} {result : γ} (h : Reads r encoding value) (hk : Reads (k value) [] result) :
    Reads (r >>= k) encoding result := by
  have hbind := h.bind hk
  rwa [List.append_nil] at hbind

theorem reads_readBytes (encoding : List α) {count : ℕ} (hcount : encoding.length = count)
    (truncated : ε) : Reads (readBytes count truncated) encoding encoding := by
  subst hcount
  intro rest
  unfold readBytes
  rw [if_neg (by simp), List.take_left, List.drop_left]

/-- Reading as many records as were written. -/
theorem reads_readMany {δ : Type} {r : Reader α ε β} {encode : δ → List α} {value : δ → β}
    {items : List δ} (h : ∀ item ∈ items, Reads r (encode item) (value item)) :
    Reads (readMany r items.length) (items.flatMap encode) (items.map value) := by
  induction items with
  | nil => exact reads_pure []
  | cons item items ih =>
    have htail := ih fun other hmem => h other (List.mem_cons_of_mem item hmem)
    exact (h item List.mem_cons_self).bind (htail.then_nil (reads_pure _))

/-- A check of the number of symbols left passes when the encoding behind it is long
enough. -/
theorem Reads.bind_remaining {k : ℕ → Reader α ε β} {encoding : List α} {value : β}
    (h : ∀ left, encoding.length ≤ left → Reads (k left) encoding value) :
    Reads (remaining >>= k) encoding value := by
  intro rest
  exact h _ (by simp) rest

/-! ### What a reader has found -/

theorem bind_eq_ok {r : Reader α ε β} {k : β → Reader α ε γ} {input rest : List α}
    {result : γ} (h : (r >>= k) input = .ok (result, rest)) :
    ∃ value middle, r input = .ok (value, middle) ∧ k value middle = .ok (result, rest) := by
  rw [bind_apply] at h
  cases hr : r input with
  | error e =>
    rw [hr] at h
    cases h
  | ok found =>
    rw [hr] at h
    exact ⟨found.1, found.2, rfl, h⟩

theorem readBytes_eq_ok {count : ℕ} {truncated : ε} {input bytes rest : List α}
    (h : readBytes count truncated input = .ok (bytes, rest)) :
    input = bytes ++ rest ∧ bytes.length = count := by
  unfold readBytes at h
  split_ifs at h with hle
  obtain ⟨rfl, rfl⟩ := Prod.mk.inj (Except.ok.inj h)
  exact ⟨(List.take_append_drop count input).symm,
    List.length_take_of_le (Nat.le_of_not_lt hle)⟩

/-- As many records have been found as were to be read. -/
theorem readMany_eq_ok {δ : Type} {r : Reader α ε β} {encode : δ → List α} {value : δ → β}
    (h : ∀ {input rest found}, r input = .ok (found, rest) →
      ∃ item, input = encode item ++ rest ∧ found = value item)
    {count : ℕ} {input rest : List α} {found : List β}
    (hread : readMany r count input = .ok (found, rest)) :
    ∃ items : List δ, items.length = count ∧ input = items.flatMap encode ++ rest ∧
      found = items.map value := by
  induction count generalizing input found with
  | zero =>
    obtain ⟨rfl, rfl⟩ := Prod.mk.inj (Except.ok.inj hread)
    exact ⟨[], rfl, rfl, rfl⟩
  | succ count ih =>
    obtain ⟨first, middle, hfirst, hread⟩ := bind_eq_ok hread
    obtain ⟨others, last, hothers, hread⟩ := bind_eq_ok hread
    obtain ⟨rfl, rfl⟩ := Prod.mk.inj (Except.ok.inj hread)
    obtain ⟨item, rfl, rfl⟩ := h hfirst
    obtain ⟨items, hlength, rfl, rfl⟩ := ih hothers
    refine ⟨item :: items, by rw [List.length_cons, hlength], ?_, rfl⟩
    rw [List.flatMap_cons, List.append_assoc]

/-- A reader that reads two encodings in front of one input has read the same twice. -/
theorem Reads.unique {r : Reader α ε β} {first second rest rest' : List α} {value value' : β}
    (h : Reads r first value) (h' : Reads r second value')
    (heq : first ++ rest = second ++ rest') : value = value' ∧ rest = rest' := by
  have hread := h rest
  rw [heq, h' rest'] at hread
  obtain ⟨rfl, rfl⟩ := Prod.mk.inj (Except.ok.inj hread)
  exact ⟨rfl, rfl⟩

/-! ### What a reader may throw -/

/-- Everything the reader throws is of a kind. -/
def Throws (r : Reader α ε β) (P : ε → Prop) : Prop :=
  ∀ ⦃input e⦄, r input = .error e → P e

theorem throws_pure (value : β) (P : ε → Prop) : Throws (pure value : Reader α ε β) P :=
  fun _ _ h => by cases h

theorem throws_throw {e : ε} {P : ε → Prop} (h : P e) : Throws (throw e : Reader α ε β) P := by
  intro input found heq
  obtain rfl : e = found := Except.error.inj heq
  exact h

theorem throws_remaining (P : ε → Prop) : Throws (remaining : Reader α ε ℕ) P :=
  fun _ _ h => by cases h

theorem throws_readBytes (count : ℕ) {truncated : ε} {P : ε → Prop} (h : P truncated) :
    Throws (readBytes count truncated : Reader α ε (List α)) P := by
  intro input e heq
  unfold readBytes at heq
  split_ifs at heq
  obtain rfl : truncated = e := Except.error.inj heq
  exact h

theorem Throws.bind {r : Reader α ε β} {k : β → Reader α ε γ} {P : ε → Prop} (h : Throws r P)
    (hk : ∀ value, Throws (k value) P) : Throws (r >>= k) P := by
  intro input e heq
  rw [bind_apply] at heq
  cases hr : r input with
  | error e' =>
    rw [hr] at heq
    obtain rfl : e' = e := Except.error.inj heq
    exact h hr
  | ok found =>
    rw [hr] at heq
    exact hk found.1 heq

theorem Throws.ite {Q : Prop} [Decidable Q] {r r' : Reader α ε β} {P : ε → Prop}
    (h : Throws r P) (h' : Throws r' P) : Throws (if Q then r else r') P := by
  split_ifs
  · exact h
  · exact h'

theorem Throws.readMany {r : Reader α ε β} {P : ε → Prop} (h : Throws r P) (count : ℕ) :
    Throws (readMany r count) P := by
  induction count with
  | zero => exact throws_pure [] P
  | succ count ih => exact h.bind fun value => ih.bind fun values => throws_pure _ P

/-! ### Prefix codes -/

/-- Items can be told apart by their encodings, whatever follows. -/
def PrefixCode {δ : Type} (encode : δ → List α) : Prop :=
  ∀ ⦃item item' : δ⦄ ⦃rest rest' : List α⦄, encode item ++ rest = encode item' ++ rest' →
    item = item' ∧ rest = rest'

theorem PrefixCode.of_length {δ : Type} {encode : δ → List α} {length : ℕ}
    (hlength : ∀ item, (encode item).length = length) (hinj : Function.Injective encode) :
    PrefixCode encode := by
  intro item item' rest rest' heq
  obtain ⟨hencode, hrest⟩ := List.append_inj heq ((hlength item).trans (hlength item').symm)
  exact ⟨hinj hencode, hrest⟩

/-- Lists of one length are told apart by the encodings of their items. -/
theorem PrefixCode.flatMap {δ : Type} {encode : δ → List α} (h : PrefixCode encode)
    {items items' : List δ} {rest rest' : List α} (hlength : items.length = items'.length)
    (heq : items.flatMap encode ++ rest = items'.flatMap encode ++ rest') :
    items = items' ∧ rest = rest' := by
  induction items generalizing items' with
  | nil =>
    obtain rfl := List.length_eq_zero_iff.mp hlength.symm
    exact ⟨rfl, heq⟩
  | cons item items ih =>
    obtain ⟨item', others, rfl⟩ := List.exists_cons_of_length_eq_add_one hlength.symm
    rw [List.flatMap_cons, List.flatMap_cons, List.append_assoc, List.append_assoc] at heq
    obtain ⟨rfl, hothers⟩ := h heq
    obtain ⟨rfl, hrest⟩ := ih (Nat.succ.inj hlength) hothers
    exact ⟨rfl, hrest⟩

end Reader

end SpaceShooter.Library
