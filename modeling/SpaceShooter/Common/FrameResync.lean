/-
# Resynchronisation

The scanner skips a byte unless it stands in front of the magic and an admissible length, and
waits only there or where the header is not complete, so what it leaves is bounded.

No proper suffix of the magic is one of its prefixes, so a header that is refused for its length
hides no other one, except in its length field; and what follows there as a length is the
magic of the next header, which is too large itself.
-/

import Mathlib.Tactic.IntervalCases
import SpaceShooter.Common.FrameCodec

namespace SpaceShooter.Network.FrameCodec

open Library Library.Incremental

/-- The magic and an admissible length stand at an offset. -/
def Admissible (data : Bytes) (offset : ℕ) : Prop :=
  offset + kHeaderLength ≤ data.length ∧ load_big_u32 data offset = kMagic ∧
    (load_big_u32 data (offset + kMagicLength)).toNat ≤ kMaxMessageSize

instance (data : Bytes) (offset : ℕ) : Decidable (Admissible data offset) :=
  inferInstanceAs (Decidable (_ ∧ _ ∧ _))

/-- The header of a frame that claims some length. -/
def header (length_v : UInt32) : Bytes := BigEndian.toBytes kMagic ++ BigEndian.toBytes length_v

theorem length_header (length_v : UInt32) : (header length_v).length = kHeaderLength := rfl

/-! ### Skipped bytes -/

theorem verdict_of_not_admissible {rest : Bytes} (long : kHeaderLength ≤ rest.length)
    (h : ¬ Admissible rest 0) : verdict rest = .advance 1 none := by
  unfold verdict
  rw [if_neg long.not_gt]
  by_cases hmagic : load_big_u32 rest 0 = kMagic
  · have hlarge : (load_big_u32 rest kMagicLength).toNat > kMaxMessageSize := by
      by_contra hsmall
      exact h ⟨(Nat.zero_add _).trans_le long, hmagic, by rwa [Nat.zero_add, ← not_lt]⟩
    rw [if_neg (not_not.mpr hmagic), if_pos hlarge]
  · rw [if_pos hmagic]

theorem admissible_drop {data : Bytes} {offset inner : ℕ} :
    Admissible (data.drop offset) inner ↔ Admissible data (offset + inner) := by
  have hpos : 0 < kHeaderLength := by decide
  unfold Admissible
  rw [load_big_u32_drop, load_big_u32_drop, List.length_drop, Nat.add_assoc offset inner]
  refine and_congr_left fun _ => ?_
  omega

/-- Bytes without an admissible header are skipped, one by one. -/
theorem decode_append_of_not_admissible {ε σ : Type} (onFrame : PayloadView → EStateM ε σ Unit)
    {junk rest : Bytes} (long : kHeaderLength ≤ rest.length)
    (clean : ∀ i < junk.length, ¬ Admissible (junk ++ rest) i) (state : σ) :
    decode onFrame (junk ++ rest) state = decode onFrame rest state := by
  rw [decode_eq_dispatch, decode_eq_dispatch]
  refine Decoder.dispatch_append_of_skips onFrame (fun i hi => ?_) 0 state
  rw [← List.drop_append_of_le_length hi.le]
  refine verdict_of_not_admissible ?_ fun h => clean i hi (admissible_drop.mp h)
  rw [List.length_drop, List.length_append]
  omega

/-! ### Where the scanner waits -/

/-- Too few bytes for a header, or an admissible header in front of a frame that is not yet
complete. -/
def Pending (rest : Bytes) : Prop :=
  rest.length < kHeaderLength ∨
    Admissible rest 0 ∧
      rest.length < kHeaderLength + (load_big_u32 rest kMagicLength).toNat

theorem pending_of_verdict {rest : Bytes} (h : verdict rest = .wait) : Pending rest := by
  unfold verdict at h
  split_ifs at h with hshort hmagic hlarge hpartial
  · exact Or.inl hshort
  · refine Or.inr ⟨⟨?_, not_not.mp hmagic, ?_⟩, hpartial⟩
    · rw [Nat.zero_add]
      exact Nat.le_of_not_lt hshort
    · rw [Nat.zero_add]
      exact Nat.le_of_not_lt hlarge

theorem Pending.length_le {rest : Bytes} (h : Pending rest) :
    rest.length ≤ kMaxMessageSize + 7 := by
  have height : kHeaderLength = 8 := rfl
  rcases h with hshort | ⟨⟨-, -, hsmall⟩, hpartial⟩
  · omega
  · rw [Nat.zero_add] at hsmall
    omega

/-- A call that returns leaves the end of its buffer, where the scanner waits. -/
theorem pending_of_decode {ε σ : Type} {onFrame : PayloadView → EStateM ε σ Unit}
    {buffer rest : Bytes} {state state' : σ} {n : ℕ}
    (h : decode onFrame buffer state = (.ok n state', rest)) : rest <:+ buffer ∧ Pending rest := by
  rw [decode_eq_dispatch] at h
  refine ⟨?_, pending_of_verdict (Decoder.verdict_dispatch_of_ok onFrame h)⟩
  have hsuffix := Decoder.dispatch_suffix (d := decoder) onFrame buffer 0 state
  rwa [h] at hsuffix

/-- Another call finds nothing there. -/
theorem decode_residue {ε σ ε' σ' : Type} {onFrame : PayloadView → EStateM ε σ Unit}
    {buffer rest : Bytes} {state state' : σ} {n : ℕ}
    (h : decode onFrame buffer state = (.ok n state', rest))
    (onFrame' : PayloadView → EStateM ε' σ' Unit) (later : σ') :
    decode onFrame' rest later = (.ok 0 later, rest) := by
  rw [decode_eq_dispatch] at h
  rw [decode_eq_dispatch]
  exact Decoder.dispatch_of_wait onFrame' (Decoder.verdict_dispatch_of_ok onFrame h) 0 later

/-! ### Headers of oversized frames -/

theorem toBytes_kMagic : BigEndian.toBytes kMagic = [0xDE, 0xAD, 0xBE, 0xEF] := by decide

theorem bytes_of_load_eq_magic {data : Bytes} {offset : ℕ} (within : offset + 4 ≤ data.length)
    (h : load_big_u32 data offset = kMagic) :
    (data.drop offset).take 4 = [0xDE, 0xAD, 0xBE, 0xEF] := by
  rw [← toBytes_load_big_u32 within, h]
  exact toBytes_kMagic

/-- A word that is written in front is read back. -/
theorem load_big_u32_toBytes (word : UInt32) (rest : Bytes) :
    load_big_u32 (BigEndian.toBytes word ++ rest) 0 = word := by
  have hfour : (BigEndian.toBytes word).length = 4 := BigEndian.length_toBytes word
  unfold load_big_u32
  rw [List.drop_zero, List.take_left' hfour, BigEndian.ofBytes_toBytes]

theorem load_big_u32_append_right (front rest : Bytes) :
    load_big_u32 (front ++ rest) front.length = load_big_u32 rest 0 := by
  have hdrop := load_big_u32_drop (front ++ rest) front.length 0
  rwa [List.drop_left, Nat.add_zero, eq_comm] at hdrop

/-- Where the magic stands in a header with another one behind it: at its start, or in its
length field. -/
theorem offset_of_magic (length_v : UInt32) (rest : Bytes) {i : ℕ} (hi : i < kHeaderLength)
    (h : load_big_u32 (header length_v ++ (BigEndian.toBytes kMagic ++ rest)) i = kMagic) :
    i = 0 ∨ i = 4 := by
  have hi' : i < 8 := hi
  obtain ⟨a, b, c, d, hlength⟩ : ∃ a b c d, BigEndian.toBytes length_v = [a, b, c, d] :=
    ⟨_, _, _, _, rfl⟩
  have hdata : header length_v ++ (BigEndian.toBytes kMagic ++ rest) =
      0xDE :: 0xAD :: 0xBE :: 0xEF :: a :: b :: c :: d :: 0xDE :: 0xAD :: 0xBE :: 0xEF :: rest := by
    rw [header, hlength, toBytes_kMagic]
    rfl
  rw [hdata] at h
  have hbytes := bytes_of_load_eq_magic (by simp only [List.length_cons]; omega) h
  interval_cases i
  · exact Or.inl rfl
  · cases hbytes
  · cases hbytes
  · cases hbytes
  · exact Or.inr rfl
  -- From here on the magic of the second header is cut into.
  · cases hbytes
  · cases hbytes
  · cases hbytes

/-- In a header of an oversized frame, with another header behind it, nothing is admissible:
the magic overlaps itself nowhere, and as a length it is oversized. -/
theorem not_admissible_header {length_v : UInt32} (large : kMaxMessageSize < length_v.toNat)
    (rest : Bytes) {i : ℕ} (hi : i < kHeaderLength) :
    ¬ Admissible (header length_v ++ (BigEndian.toBytes kMagic ++ rest)) i := by
  rintro ⟨-, hmagic, hsmall⟩
  have hmagicIsLarge : kMaxMessageSize < kMagic.toNat := by decide
  rcases offset_of_magic length_v rest hi hmagic with rfl | rfl
  · -- Its own length is too large.
    have hlength : load_big_u32 (header length_v ++ (BigEndian.toBytes kMagic ++ rest))
        kMagicLength = length_v := by
      have hright := load_big_u32_append_right (BigEndian.toBytes kMagic)
        (BigEndian.toBytes length_v ++ (BigEndian.toBytes kMagic ++ rest))
      rw [load_big_u32_toBytes] at hright
      rw [header, List.append_assoc]
      exact hright
    rw [Nat.zero_add, hlength] at hsmall
    exact large.not_ge hsmall
  · -- The length is read from the magic behind.
    have hnext : load_big_u32 (header length_v ++ (BigEndian.toBytes kMagic ++ rest))
        (4 + kMagicLength) = kMagic := by
      have hright := load_big_u32_append_right (header length_v) (BigEndian.toBytes kMagic ++ rest)
      rwa [load_big_u32_toBytes] at hright
    rw [hnext] at hsmall
    exact hmagicIsLarge.not_ge hsmall

/-- Any number of such headers, in front of a header that may be admissible. -/
theorem not_admissible_headers {lengths : List UInt32}
    (large : ∀ length_v ∈ lengths, kMaxMessageSize < length_v.toNat) (rest : Bytes) :
    ∀ i < (lengths.flatMap header).length,
      ¬ Admissible (lengths.flatMap header ++ (BigEndian.toBytes kMagic ++ rest)) i := by
  induction lengths with
  | nil => exact fun i hi => absurd hi (Nat.not_lt_zero i)
  | cons length_v lengths ih =>
    obtain ⟨hfirst, hrest⟩ := List.forall_mem_cons.mp large
    -- Behind the first header the magic comes next in any case.
    have hnext : ∃ rest', lengths.flatMap header ++ (BigEndian.toBytes kMagic ++ rest) =
        BigEndian.toBytes kMagic ++ rest' := by
      cases lengths with
      | nil => exact ⟨rest, rfl⟩
      | cons length_v' lengths =>
        refine ⟨BigEndian.toBytes length_v' ++ (lengths.flatMap header ++
          (BigEndian.toBytes kMagic ++ rest)), ?_⟩
        rw [List.flatMap_cons, header, List.append_assoc, List.append_assoc]
    intro i hi h
    -- An offset in the first header, or one in the rest.
    rw [List.flatMap_cons, List.append_assoc] at h
    rw [List.flatMap_cons, List.length_append, length_header] at hi
    rcases Nat.lt_or_ge i kHeaderLength with hinside | hbehind
    · obtain ⟨rest', hrest'⟩ := hnext
      rw [hrest'] at h
      exact not_admissible_header hfirst rest' hinside h
    · obtain ⟨j, rfl⟩ := Nat.exists_eq_add_of_le hbehind
      rw [← length_header length_v, ← admissible_drop, List.drop_left] at h
      exact ih hrest j (Nat.lt_of_add_lt_add_left hi) h

/-! ### Frames behind junk -/

/-- `decode` discards the bytes in front of a frame without calling the handler, and hands it the
frame's payload first. A handler that throws then leaves the frame; after one that returns, the
scan goes on behind the frame. -/
def ResyncsTo (frame payload junk later : Bytes) : Prop :=
  ∀ {ε σ : Type} (onFrame : PayloadView → EStateM ε σ Unit) (state : σ),
    decode onFrame (junk ++ (frame ++ later)) state = decode onFrame (frame ++ later) state ∧
      (∀ e state', onFrame payload state = .error e state' →
        decode onFrame (junk ++ (frame ++ later)) state = (.error e state', frame ++ later)) ∧
      ∀ state', onFrame payload state = .ok () state' →
        decode onFrame (junk ++ (frame ++ later)) state =
          decoder.dispatch onFrame later 1 state'

theorem resyncsTo_of_not_admissible {payload : Bytes} (fits : payload.length ≤ kMaxMessageSize)
    {junk later : Bytes}
    (clean : ∀ i < junk.length, ¬ Admissible (junk ++ (wire payload ++ later)) i) :
    ResyncsTo (wire payload) payload junk later := by
  intro ε σ onFrame state
  have long : kHeaderLength ≤ (wire payload ++ later).length := by
    rw [List.length_append, length_wire]
    omega
  have hverdict : decoder.verdict (wire payload ++ later) =
      .advance (wire payload).length (some payload) := verdict_wire fits later
  have hitem := Decoder.dispatch_of_item onFrame hverdict 0 state
  rw [List.drop_left] at hitem
  rw [decode_append_of_not_admissible onFrame long clean, decode_eq_dispatch, hitem]
  refine ⟨rfl, fun e state' herror => ?_, fun state' hok => ?_⟩
  · rw [herror]
  · rw [hok]

/-- A frame is found behind all junk that carries no admissible header; and headers of oversized
frames, whatever their lengths, are such junk. -/
theorem decode_resyncs {payload : Bytes} (fits : payload.length ≤ kMaxMessageSize) :
    ∃ frame, encode payload = .ok frame ∧ ∀ later : Bytes,
      (∀ junk : Bytes, (∀ i < junk.length, ¬ Admissible (junk ++ (frame.buffers ++ later)) i) →
        ResyncsTo frame.buffers payload junk later) ∧
      ∀ lengths : List UInt32, (∀ length_v ∈ lengths, kMaxMessageSize < length_v.toNat) →
        (∀ i < (lengths.flatMap header).length,
          ¬ Admissible (lengths.flatMap header ++ (frame.buffers ++ later)) i) ∧
        ResyncsTo frame.buffers payload (lengths.flatMap header) later := by
  obtain ⟨frame, hframe, hbuffers⟩ := encode_of_fits fits
  refine ⟨frame, hframe, fun later => ?_⟩
  rw [hbuffers]
  refine ⟨fun junk clean => resyncsTo_of_not_admissible fits clean, fun lengths large => ?_⟩
  have clean := not_admissible_headers large
    (BigEndian.toBytes (UInt32.ofNat payload.length) ++ payload ++ later)
  have hwire : BigEndian.toBytes kMagic ++
      (BigEndian.toBytes (UInt32.ofNat payload.length) ++ payload ++ later) =
        wire payload ++ later := by
    rw [wire, List.append_assoc (BigEndian.toBytes kMagic)]
  rw [hwire] at clean
  exact ⟨clean, resyncsTo_of_not_admissible fits clean⟩

/-- Two bad headers, the length of the first of which spells the magic, and junk that ends with
a part of the magic. -/
theorem decode_resyncs_two :
    ∃ frame, encode [9, 9] = .ok frame ∧
      ResyncsTo frame.buffers [9, 9] ([kMagic, 0xFFFFFFFF].flatMap header) [] ∧
      ResyncsTo frame.buffers [9, 9] [0, 0xDE, 0xAD, 0xBE] [] := by
  have fits : ([9, 9] : Bytes).length ≤ kMaxMessageSize := by decide
  obtain ⟨frame, hframe, hresyncs⟩ := decode_resyncs fits
  obtain ⟨frame', hframe', hbuffers⟩ := encode_of_fits fits
  obtain rfl := Except.ok.inj (hframe.symm.trans hframe')
  have large : ∀ length_v ∈ [kMagic, 0xFFFFFFFF], kMaxMessageSize < length_v.toNat :=
    List.forall_mem_cons.mpr ⟨by decide, List.forall_mem_singleton.mpr (by decide)⟩
  refine ⟨frame, hframe, ((hresyncs []).2 [kMagic, 0xFFFFFFFF] large).2, (hresyncs []).1 _ ?_⟩
  rw [hbuffers]
  decide +kernel

end SpaceShooter.Network.FrameCodec
