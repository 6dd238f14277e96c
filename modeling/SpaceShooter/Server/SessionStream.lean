/-
# What a session makes of its bytes

The messages that a session publishes are the frames of the bytes it has read, whatever the
reads cut them into and whatever else goes on around the session. A subscriber that throws ends
the stream behind the frame it threw at.
-/

import SpaceShooter.Library.Components
import SpaceShooter.Library.Streams
import SpaceShooter.Server.Rearming

namespace SpaceShooter.Server

open Library Network Incremental

/-- The payload of a message. -/
def NetworkEvent.message? {K : Type} : NetworkEvent K → Option Bytes
  | .NetworkMessageEvent _ payload => some payload
  | _ => none

namespace Session

variable {K : Type} {id : SessionId} {s s' : Session K}

/-- The payloads that were published. -/
def messages (s : Session K) : List Bytes := s.published.filterMap NetworkEvent.message?

/-- The bytes a read brings. -/
def Label.chunk? : Label → Option Bytes
  | .readFinishes result => result.chunk?
  | _ => none

/-- A step out of which no subscriber throws, on an open or a closed session. -/
def Undisturbed (s : Session K) : Label → Prop
  | .runHandler refuses => ∀ handler ∈ s.strand.head?, s.Accepts refuses handler
  | _ => True

theorem messages_append (id : SessionId) (published : List (NetworkEvent K))
    (payloads : List PayloadView) :
    (published ++ payloads.map (NetworkEvent.NetworkMessageEvent id)).filterMap
        NetworkEvent.message? =
      published.filterMap NetworkEvent.message? ++ payloads := by
  rw [List.filterMap_append, List.filterMap_map]
  have own : payloads.filterMap
      (NetworkEvent.message? ∘ NetworkEvent.NetworkMessageEvent (K := K) id) = payloads :=
    List.filterMap_some
  rw [own]

/-- All frames of a chunk are published if no subscriber throws, and the first of them in any
case; then the session reads no more. -/
theorem stream_onReadCompletion (s : Session K) (refuses : ℕ → Bool) (chunk : Bytes) :
    (s.onReadCompletion refuses (.bytes chunk)).messages =
          s.messages ++ (FrameCodec.decoder.run (s.read_buffer_ ++ chunk)).1 ∧
        (s.onReadCompletion refuses (.bytes chunk)).read_buffer_ =
          (FrameCodec.decoder.run (s.read_buffer_ ++ chunk)).2 ∨
      ¬ s.Accepts refuses (.readCompletion (.bytes chunk)) ∧
        (s.onReadCompletion refuses (.bytes chunk)).reads = s.reads ∧
        ∃ payloads, payloads <+: (FrameCodec.decoder.run (s.read_buffer_ ++ chunk)).1 ∧
          (s.onReadCompletion refuses (.bytes chunk)).messages = s.messages ++ payloads := by
  have records (item : PayloadView) (state : List (NetworkEvent K)) :
      Outcome.resultState (publishMessage s.id_ refuses item state) =
        state ++ [.NetworkMessageEvent s.id_ item] := by
    unfold publishMessage
    split_ifs
    · rfl
    · rfl
  have accepts := publishMessage_ok_iff s refuses (s.read_buffer_ ++ chunk)
  obtain ⟨payloads, first, -, published⟩ :=
    Decoder.dispatch_of_recorded (d := FrameCodec.decoder) _ records (s.read_buffer_ ++ chunk) 0
      s.published
  rw [← FrameCodec.decode_eq_dispatch] at published
  unfold onReadCompletion
  dsimp only
  split
  · next n published' rest heq =>
    left
    rw [FrameCodec.decode_eq_dispatch] at heq
    obtain ⟨rfl, rfl⟩ := Decoder.dispatch_of_ok _ records heq
    unfold doRead
    split_ifs
    · exact ⟨messages_append _ _ _, rfl⟩
    · exact ⟨messages_append _ _ _, rfl⟩
  · next e published' rest heq =>
    right
    rw [heq] at published accepts
    obtain rfl : published' = _ := published
    refine ⟨fun all => ?_, rfl, payloads, first, messages_append _ _ _⟩
    obtain ⟨_, _, hok⟩ := accepts.mpr (all chunk rfl)
    cases hok

/-- The chunks read so far are those that were handled and the one that may wait. The frames of
what was handled have been published; or a subscriber has thrown at one of them, the first ones
up to that have been, and the session reads no more. -/
def Streams (undisturbed : Prop) (received : List Bytes) (s : Session K) : Prop :=
  ∃ handled, received = handled ++ s.undecoded ∧
    (s.messages = (FrameCodec.decoder.run handled.flatten).1 ∧
        s.read_buffer_ = (FrameCodec.decoder.run handled.flatten).2 ∨
      ¬ undisturbed ∧ s.reads = 0 ∧ s.messages <+: (FrameCodec.decoder.run handled.flatten).1)

variable {undisturbed undisturbed' : Prop} {received : List Bytes}

/-- Steps that neither read nor publish messages. -/
theorem Streams.idle (h : Streams undisturbed received s) (still : undisturbed' → undisturbed)
    (messages : s'.messages = s.messages) (buffer : s'.read_buffer_ = s.read_buffer_)
    (undecoded : s'.undecoded = s.undecoded) (reads : s'.reads ≤ s.reads) :
    Streams undisturbed' received s' := by
  obtain ⟨handled, hreceived, hstream⟩ := h
  refine ⟨handled, undecoded ▸ hreceived, ?_⟩
  rcases hstream with ⟨all, residue⟩ | ⟨thrown, none_left, first⟩
  · exact .inl ⟨messages.trans all, buffer.trans residue⟩
  · exact .inr ⟨mt still thrown, by omega, messages ▸ first⟩

theorem Streams.step (h : Streams undisturbed received s) (wired : Wired id s)
    (still : undisturbed' → undisturbed) {label : Label}
    (calm : undisturbed' → s.Undisturbed label) (hstep : step s label = some s') :
    Streams undisturbed' (received ++ label.chunk?.toList) s' := by
  have silent (hlabel : label.chunk? = none) : received ++ label.chunk?.toList = received := by
    rw [hlabel, Option.toList_none, List.append_nil]
  cases steps_of_step hstep with
  | idle _ _ other idles =>
    have unread : Streams undisturbed' received s' :=
      h.idle still (congrArg (List.filterMap NetworkEvent.message?) idles.published)
        idles.read_buffer_ idles.undecoded idles.reads
    cases label with
    | readFinishes result =>
      cases result with
      | error error => exact (List.append_nil received).symm ▸ unread
      | bytes chunk =>
        -- Bytes that were read wait to be decoded.
        have more := idles.undecoded
        cases transition_of_step hstep with
        | readFinishes =>
          rw [undecoded_finish] at more
          exact absurd more (by simp)
    | runHandler refuses => exact absurd rfl (other refuses)
    | _ => exact (List.append_nil received).symm ▸ unread
  | finish chunk reading =>
    obtain ⟨handled, hreceived, hstream⟩ := h
    refine ⟨handled, ?_, ?_⟩
    · rw [undecoded_finish, hreceived, List.append_assoc]
      rfl
    · refine hstream.imp_right fun ⟨_, none_left, _⟩ => ?_
      simp only [reads] at none_left
      omega
  | handle refuses handler rest _ _ _ _ idles =>
    rw [silent rfl]
    exact h.idle still (congrArg (List.filterMap NetworkEvent.message?) idles.published)
      idles.read_buffer_ idles.undecoded idles.reads
  | deliver refuses chunk rest hstrand =>
    rw [silent rfl]
    obtain ⟨idle, one, waiting⟩ := reads_of_completion wired.reads_le hstrand
    obtain ⟨handled, hreceived, hstream⟩ := h
    obtain ⟨before, residue⟩ := hstream.resolve_right fun ⟨_, none_left, _⟩ => by omega
    have run := Decoder.run_flatten_concat (d := FrameCodec.decoder) handled chunk
    rw [← before, ← residue] at run
    obtain ⟨-, -, -, -, -, decoded, -⟩ :=
      onReadCompletion_bytes { s with strand := rest } refuses chunk
    refine ⟨handled ++ [chunk], ?_, ?_⟩
    · rw [decoded, undecoded_eq_nil idle, List.append_nil, hreceived, waiting]
    · rw [run]
      rcases stream_onReadCompletion { s with strand := rest } refuses chunk with
        ⟨all, rest'⟩ | ⟨throws, none_left, payloads, first, some_of⟩
      · exact .inl ⟨all, rest'⟩
      · right
        refine ⟨fun undisturbed' => throws ?_, none_left.trans idle, ?_⟩
        · exact calm undisturbed' _ (by rw [hstrand]; rfl)
        · rw [some_of]
          exact (List.prefix_append_right_inj _).mpr first
  | close refuses rest hstrand =>
    rw [silent rfl]
    have keeps := keeps_onClose { s with strand := rest }
    refine h.idle still ?_ keeps.read_buffer_
      (keeps.undecoded.trans (undecoded_cons hstrand).symm) ?_
    · rw [messages, keeps.published]
      change (s.published ++ _).filterMap _ = _
      rw [List.filterMap_append]
      exact List.append_nil _
    · rw [reads_cons hstrand]
      exact keeps.reads.le.trans (Nat.le_add_right _ _)

theorem streams_of_run {labels : List Label} (run : (machine K id).run labels = some s) :
    Streams ((machine K id).Meets Undisturbed labels) (Machine.words Label.chunk? labels) s := by
  refine Machine.run_induction
    (motive := fun labels s => Streams ((machine K id).Meets Undisturbed labels)
      (Machine.words Label.chunk? labels) s) ?_ ?_ run
  · refine ⟨[], rfl, .inl ?_⟩
    rw [List.flatten_nil, Decoder.run_of_wait FrameCodec.decoder_verdict_nil]
    exact ⟨rfl, rfl⟩
  · intro labels s label s' hrun h hstep
    rw [Machine.words_append, Machine.words_singleton]
    exact h.step (wired_of_run hrun) (fun meets => meets.of_append)
      (fun meets => meets.last hrun) hstep

/-- While a read waits for the peer everything that was read has been decoded and published. -/
theorem decoded_of_run {labels : List Label} (run : (machine K id).run labels = some s)
    (waits : s.reading ≠ 0) :
    (s.messages, s.read_buffer_) =
      FrameCodec.decoder.run (Machine.words Label.chunk? labels).flatten := by
  obtain ⟨handled, received, stream⟩ := streams_of_run run
  have one := (wired_of_run run).reads_le
  -- It is the only one, so no result of another is on its way.
  have behind : s.undecoded = [] := by
    have rest : ({ s with reading := s.reading - 1 } : Session K).reads = 0 := by
      simp only [reads] at one ⊢
      omega
    exact undecoded_eq_nil (s := { s with reading := s.reading - 1 }) rest
  rcases stream with ⟨all, residue⟩ | ⟨-, none_left, -⟩
  · rw [received, behind, List.append_nil, all, residue]
  · simp only [reads] at none_left
    omega

/-- What has been published comes first of what the bytes decode to. -/
theorem first_of_run {labels : List Label} (run : (machine K id).run labels = some s) :
    s.messages <+: (FrameCodec.decoder.run (Machine.words Label.chunk? labels).flatten).1 := by
  obtain ⟨handled, received, stream⟩ := streams_of_run run
  have first : s.messages <+: (FrameCodec.decoder.run handled.flatten).1 := by
    rcases stream with ⟨all, -⟩ | ⟨-, -, first⟩
    · exact all ▸ List.prefix_refl _
    · exact first
  refine first.trans (Decoder.run_prefix ?_)
  rw [received, List.flatten_append]
  exact List.prefix_append _ _

/-- In every run the messages of a session are the first frames of the bytes that its reads have
brought, in their order and however the reads cut them; of the reads at most the last one still
waits to be decoded; and if no subscriber has thrown, all frames of the others have been
published and the buffer holds what is left behind them. -/
theorem messages_of_run {labels : List Label} (run : (machine K id).run labels = some s) :
    s.messages <+: (FrameCodec.decoder.run (Machine.words Label.chunk? labels).flatten).1 ∧
      ∃ handled, Machine.words Label.chunk? labels = handled ++ s.undecoded ∧
        s.undecoded.length ≤ 1 ∧
        ((machine K id).Meets Undisturbed labels →
          (s.messages, s.read_buffer_) = FrameCodec.decoder.run handled.flatten) := by
  obtain ⟨handled, received, stream⟩ := streams_of_run run
  have few : s.undecoded.length ≤ s.reads := by
    rw [undecoded, List.length_append, reads]
    have finished : (s.finished.filterMap ReadResult.chunk?).length ≤ s.finished.length :=
      List.length_filterMap_le _ _
    have posted : (s.strand.filterMap Handler.chunk?).length ≤ s.strand.countP Handler.isRead := by
      induction s.strand with
      | nil => exact Nat.le_refl 0
      | cons handler strand ih =>
        rw [List.filterMap_cons, List.countP_cons]
        cases handler with
        | readCompletion result =>
          cases result with
          | error error => exact ih.trans (Nat.le_add_right _ _)
          | bytes chunk => exact Nat.succ_le_succ ih
        | _ => exact ih.trans (Nat.le_add_right _ _)
    omega
  refine ⟨first_of_run run, handled, received, few.trans (wired_of_run run).reads_le,
    fun meets => ?_⟩
  obtain ⟨all, residue⟩ := stream.resolve_right fun disturbed => disturbed.1 meets
  rw [all, residue]

/-- A command that two reads cut in the middle of its header. -/
def cutJoin : List Label :=
  [.start, .runHandler fun _ => false,
    .readFinishes (.bytes ((FrameCodec.wire (bytesOf "JOIN")).take 5)), .readPosted,
    .runHandler fun _ => false,
    .readFinishes (.bytes ((FrameCodec.wire (bytesOf "JOIN")).drop 5)), .readPosted,
    .runHandler fun _ => false]

theorem messages_cutJoin : ∃ s, (machine Unit 7).run cutJoin = some s ∧
    s.messages = [bytesOf "JOIN"] ∧ s.read_buffer_ = [] ∧
    s.messages <+: (FrameCodec.decoder.run (FrameCodec.wire (bytesOf "JOIN"))).1 := by
  have reached : ((machine Unit 7).run cutJoin).map (fun s =>
      decide (s.messages = [bytesOf "JOIN"] ∧ s.read_buffer_ = [])) = some true := by
    decide
  obtain ⟨s, run, fields⟩ := Option.map_eq_some_iff.mp reached
  obtain ⟨messages, buffer⟩ := of_decide_eq_true fields
  exact ⟨s, run, messages, buffer, (messages_of_run run).1⟩

end Session

end SpaceShooter.Server
