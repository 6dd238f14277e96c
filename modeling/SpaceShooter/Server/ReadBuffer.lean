/-
# The read buffer

A session reads blocks of a bounded size and decodes after each of them. As decoding leaves
less than one frame, and an exception of a subscriber ends the reading, no peer makes the
buffer of a session grow beyond a frame and a block.
-/

import SpaceShooter.Common.FrameResync
import SpaceShooter.Server.Session

namespace SpaceShooter.Server.Session

open Library Network FrameCodec

variable {K : Type} {s s' : Session K}

def READ_BLOCK_SIZE : ℕ := 4096

/-- Decoding leaves less than a frame, or no further read is started. -/
theorem onReadCompletion_buffer (s : Session K) (refuses : ℕ → Bool) (chunk : Bytes) :
    (s.onReadCompletion refuses (.bytes chunk)).read_buffer_.length ≤ kMaxMessageSize + 7 ∨
      (s.onReadCompletion refuses (.bytes chunk)).read_buffer_.length ≤
          (s.read_buffer_ ++ chunk).length ∧
        (s.onReadCompletion refuses (.bytes chunk)).reads = s.reads := by
  unfold onReadCompletion
  dsimp only
  split
  · next n published rest heq =>
    refine Or.inl ?_
    have hbound := (pending_of_decode heq).2.length_le
    unfold doRead
    split_ifs
    · exact hbound
    · exact hbound
  · next e published rest heq =>
    -- The rest may hold frames, but the handler ends without another read.
    have hsuffix := Incremental.Decoder.dispatch_suffix (d := decoder)
      (publishMessage s.id_ refuses) (s.read_buffer_ ++ chunk) 0 s.published
    rw [← decode_eq_dispatch, heq] at hsuffix
    exact Or.inr ⟨hsuffix.length_le, rfl⟩

/-! ### Runs -/

/-- What the runtime holds for a peer. While a read is under way the buffer is a residue of
`decode`; it may be larger only when no read follows. -/
structure Bounded (s : Session K) : Prop where
  reads_le : s.reads ≤ 1
  chunk_le : ∀ chunk ∈ s.undecoded, chunk.length ≤ READ_BLOCK_SIZE
  buffer_le : s.read_buffer_.length ≤ kMaxMessageSize + 7 + READ_BLOCK_SIZE
  reading : s.reads ≠ 0 → s.read_buffer_.length ≤ kMaxMessageSize + 7

/-- What is read fits behind what is held. -/
theorem Bounded.append_le (bounded : Bounded s) {chunk : Bytes} (h : chunk ∈ s.undecoded) :
    (s.read_buffer_ ++ chunk).length ≤ kMaxMessageSize + 7 + READ_BLOCK_SIZE := by
  have hreads : s.reads ≠ 0 := by
    intro hzero
    rw [undecoded_eq_nil hzero] at h
    exact List.not_mem_nil h
  have hbuffer := bounded.reading hreads
  have hchunk := bounded.chunk_le chunk h
  rw [List.length_append]
  omega

theorem Bounded.of_eq (bounded : Bounded s) (hreads : s'.reads ≤ s.reads)
    (hbuffer : s'.read_buffer_ = s.read_buffer_) (hundecoded : s'.undecoded = s.undecoded) :
    Bounded s' := by
  refine ⟨hreads.trans bounded.reads_le, ?_, ?_, fun hne => ?_⟩
  · rw [hundecoded]
    exact bounded.chunk_le
  · rw [hbuffer]
    exact bounded.buffer_le
  · rw [hbuffer]
    exact bounded.reading (by omega)

theorem Bounded.onReadCompletion {refuses : ℕ → Bool} {chunk : Bytes} {rest : List Handler}
    (bounded : Bounded s) (hstrand : s.strand = .readCompletion (.bytes chunk) :: rest) :
    Bounded ({ s with strand := rest }.onReadCompletion refuses (.bytes chunk)) := by
  obtain ⟨hidle, -, hundecoded⟩ := reads_of_completion bounded.reads_le hstrand
  have happend := bounded.append_le (hundecoded ▸ List.mem_singleton_self chunk)
  set popped : Session K := { s with strand := rest }
  obtain ⟨-, -, -, -, -, hlater, hreads⟩ := onReadCompletion_bytes popped refuses chunk
  -- Nothing is under way but what the handler itself starts.
  rw [undecoded_eq_nil hidle] at hlater
  rw [hidle] at hreads
  refine ⟨hreads, fun chunk' hmem => ?_, ?_, fun hne => ?_⟩
  · rw [hlater] at hmem
    exact absurd hmem List.not_mem_nil
  · rcases onReadCompletion_buffer popped refuses chunk with hresidue | ⟨hle, -⟩
    · exact hresidue.trans (Nat.le_add_right _ _)
    · exact hle.trans happend
  · rcases onReadCompletion_buffer popped refuses chunk with hresidue | ⟨-, hsame⟩
    · exact hresidue
    · exact absurd (hsame.trans hidle) hne

theorem Bounded.step {label : Label} (bounded : Bounded s)
    (block : ∀ chunk, label = .readFinishes (.bytes chunk) → chunk.length ≤ READ_BLOCK_SIZE)
    (h : step s label = some s') : Bounded s' := by
  obtain ⟨-, hreads, -⟩ := step_effect bounded.reads_le h
  cases steps_of_step h with
  | idle _ _ _ hidles => exact bounded.of_eq hreads hidles.read_buffer_ hidles.undecoded
  | finish chunk hreading =>
    refine ⟨hreads.trans bounded.reads_le, fun chunk' hmem => ?_, bounded.buffer_le, fun _ => ?_⟩
    · rw [undecoded_finish, List.mem_append, List.mem_singleton] at hmem
      rcases hmem with hold | rfl
      · exact bounded.chunk_le chunk' hold
      · exact block chunk' rfl
    · refine bounded.reading ?_
      rw [Session.reads]
      omega
  | handle _ _ _ _ _ _ _ hidles =>
    exact bounded.of_eq hreads hidles.read_buffer_ hidles.undecoded
  | deliver refuses chunk rest hstrand => exact bounded.onReadCompletion hstrand
  | close refuses rest hstrand =>
    have hkeeps := keeps_onClose { s with strand := rest }
    exact bounded.of_eq hreads hkeeps.read_buffer_
      (hkeeps.undecoded.trans (undecoded_cons hstrand).symm)

theorem bounded_of_run {id : SessionId} {labels : List Label}
    (blocks : ∀ chunk, .readFinishes (.bytes chunk) ∈ labels → chunk.length ≤ READ_BLOCK_SIZE)
    (run : (machine K id).run labels = some s) : Bounded s := by
  refine Machine.runFrom_induction (fun u label hlabel v bounded hstep => ?_) ?_ run
  · exact bounded.step (fun chunk heq => blocks chunk (heq ▸ hlabel)) hstep
  · exact ⟨Nat.le_refl 1, nofun, Nat.zero_le _, fun _ => Nat.zero_le _⟩

/-- What a call that returns leaves is the end of its buffer, waits for more of one frame, and is
left alone by another call; so a session holds less than one frame and one block, also when a
block is in the buffer and not decoded yet. -/
theorem residue_bounded :
    (∀ {ε σ : Type} (onFrame : PayloadView → EStateM ε σ Unit) (buffer rest : Bytes)
        (state state' : σ) (n : ℕ), decode onFrame buffer state = (.ok n state', rest) →
      rest <:+ buffer ∧ Pending rest ∧ rest.length ≤ kMaxMessageSize + 7 ∧
        ∀ {ε' σ' : Type} (onFrame' : PayloadView → EStateM ε' σ' Unit) (later : σ'),
          decode onFrame' rest later = (.ok 0 later, rest)) ∧
      ∀ {K : Type} {id : SessionId} {labels : List Label} {s : Session K},
        (∀ chunk, .readFinishes (.bytes chunk) ∈ labels → chunk.length ≤ READ_BLOCK_SIZE) →
        (machine K id).run labels = some s →
        s.read_buffer_.length ≤ kMaxMessageSize + 7 + READ_BLOCK_SIZE ∧
          ∀ chunk ∈ s.undecoded,
            (s.read_buffer_ ++ chunk).length ≤ kMaxMessageSize + 7 + READ_BLOCK_SIZE := by
  refine ⟨fun onFrame buffer rest state state' n h => ?_, fun blocks run => ?_⟩
  · obtain ⟨hsuffix, hpending⟩ := pending_of_decode h
    exact ⟨hsuffix, hpending, hpending.length_le, decode_residue h⟩
  · have bounded := bounded_of_run blocks run
    exact ⟨bounded.buffer_le, fun _ => bounded.append_le⟩

/-- Junk, and a header that is cut off. -/
def cutHeader : Bytes := [0, 0xDE, 0xAD, 0xBE, 0xEF, 0, 0, 0]

/-- A session that reads them, and the same again, which is not decoded yet. -/
def readsCutHeader : List Label :=
  [.start, .runHandler fun _ => false, .readFinishes (.bytes cutHeader), .readPosted,
    .runHandler fun _ => false, .readFinishes (.bytes cutHeader)]

/-- The session skips the junk and keeps the seven bytes of the header. -/
theorem residue_bounded_cutHeader :
    decode (ε := Empty) (fun _ => pure ()) cutHeader () = (.ok 0 (), cutHeader.drop 1) ∧
      Pending (cutHeader.drop 1) ∧
      ∃ s, (machine Unit 7).run readsCutHeader = some s ∧ s.read_buffer_ = cutHeader.drop 1 ∧
        (s.read_buffer_ ++ cutHeader).length ≤ kMaxMessageSize + 7 + READ_BLOCK_SIZE := by
  have hdecode : decode (ε := Empty) (fun _ => pure ()) cutHeader () =
      (.ok 0 (), cutHeader.drop 1) := rfl
  obtain ⟨-, hpending, -, -⟩ := residue_bounded.1 _ _ _ _ _ _ hdecode
  have hrun : ((machine Unit 7).run readsCutHeader).map
      (fun s => (s.read_buffer_, s.undecoded)) = some (cutHeader.drop 1, [cutHeader]) := by
    decide
  obtain ⟨s, hs, heq⟩ := Option.map_eq_some_iff.mp hrun
  obtain ⟨hbuffer, hundecoded⟩ := Prod.mk.inj heq
  have blocks : ∀ chunk, .readFinishes (.bytes chunk) ∈ readsCutHeader →
      chunk.length ≤ READ_BLOCK_SIZE := by
    intro chunk hmem
    simp only [readsCutHeader, List.mem_cons, reduceCtorEq, Label.readFinishes.injEq,
      ReadResult.bytes.injEq, List.not_mem_nil, or_false, false_or, or_self] at hmem
    subst hmem
    decide
  refine ⟨hdecode, hpending, s, hs, hbuffer, (residue_bounded.2 blocks hs).2 cutHeader ?_⟩
  rw [hundecoded]
  exact List.mem_cons_self

end SpaceShooter.Server.Session
