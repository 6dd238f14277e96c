/-
# The frames of a client's payloads

Every frame in the queue of a client was made by a call of `send` from its payload. Frames may be
dropped on their way to the queue but do not overtake each other, so what the socket of a
connection is given are payloads of such calls, in the order of the calls.
-/

import SpaceShooter.Client.MessageOrder
import SpaceShooter.Library.Components

namespace SpaceShooter.Client.TcpClient

open Library Network

/-- The payload of a call of `send`. -/
def Label.sent? : Label → Option Bytes
  | .send data => some data
  | _ => none

/-- The frames that were accepted, and those on their way to the queue. -/
def lineup (c : TcpClient) : List QueuedFrame := c.accepted.map Prod.snd ++ c.posted

/-- The payloads accepted for a connection. -/
def acceptedOn (c : TcpClient) (generation : ℕ) : List Bytes :=
  (framesOf generation c.accepted).map fun frame => frame.frame.payload

/-- The bytes that the socket of a connection was given. -/
def writtenOn (c : TcpClient) (generation : ℕ) : Bytes :=
  (framesOf generation c.written).flatMap fun frame => frame.frame.buffers

variable {c c' : TcpClient} {sent : List Bytes}

/-! ### Steps -/

/-- A step that submits no frame brings none into the line. -/
theorem Writer.Step.sublist {w w' : Writer} (h : Writer.Step w w') (hsends : w'.sends = w.sends) :
    (w'.accepted.map Prod.snd ++ w'.posted).Sublist (w.accepted.map Prod.snd ++ w.posted) := by
  cases h with
  | submit frame => exact absurd hsends (Nat.succ_ne_self w.sends)
  | drop hposted =>
    rw [hposted]
    exact (List.Sublist.refl _).append (List.sublist_cons_self _ _)
  | accept _ _ _ hposted =>
    rw [hposted, List.map_append, List.append_assoc]
    exact List.Sublist.refl _
  | _ => exact List.Sublist.refl _

theorem Writer.Step.written_grows {w w' : Writer} (h : Writer.Step w w') :
    w.written <+: w'.written := by
  cases h with
  | hand => exact List.prefix_append _ _
  | _ => exact List.prefix_refl _

theorem sends_step {label : Label} (h : c.step label = some c') (hlabel : label.sent? = none) :
    c'.sends = c.sends := by
  cases transition_of_step h with
  | send => cases hlabel
  | refuse => cases hlabel
  | connect => rfl
  | disconnect => rw [requestDisconnect, tell_eq]
  | postDisconnect =>
    rw [postDisconnect, tell_eq]
    rfl
  | complete => rfl
  | runHandler handler strand => exact (logs_handle _ handler).2
  | resume task => exact (logs_perform c task).2

/-- Frames are those of the payloads that were sent, in the order of the calls. -/
structure Faithful (sent : List Bytes) (c : TcpClient) : Prop where
  framed : ∀ frame ∈ c.lineup, frame.frame.buffers = FrameCodec.wire frame.frame.payload
  in_order : (c.lineup.map fun frame => frame.frame.payload).Sublist sent

theorem Faithful.step (h : Faithful sent c) (hexclusive : c.is_connecting_ = true →
    c.is_connected_ = false) {label : Label} (hstep : c.step label = some c') :
    Faithful (sent ++ label.sent?.toList) c' := by
  cases hlabel : label.sent? with
  | none =>
    have hsub : c'.lineup.Sublist c.lineup :=
      (simulates hexclusive hstep).sublist (sends_step hstep hlabel)
    refine ⟨fun frame hframe => h.framed frame (hsub.subset hframe), ?_⟩
    rw [Option.toList_none, List.append_nil]
    exact (hsub.map _).trans h.in_order
  | some payload =>
    cases transition_of_step hstep with
    | send data frame fits framed =>
      obtain rfl := Option.some.inj hlabel
      obtain ⟨made, hmade, hbuffers⟩ := FrameCodec.encode_of_fits (Nat.le_of_not_lt fits)
      obtain rfl := Except.ok.inj (framed.symm.trans hmade)
      have hpayload : frame.payload = data := by
        rw [FrameCodec.encode, dif_neg fits] at framed
        rw [← Except.ok.inj framed]
      have hlineup : ({ c with sends := c.sends + 1 }.post (.send ⟨c.sends, frame⟩)).lineup =
          c.lineup ++ [⟨c.sends, frame⟩] := by
        change c.accepted.map Prod.snd ++ (c.strand ++ [_]).filterMap Handler.frame? = _
        rw [List.filterMap_append, lineup, List.append_assoc]
        rfl
      refine ⟨fun queued hqueued => ?_, ?_⟩
      · rw [hlineup, List.mem_append, List.mem_singleton] at hqueued
        rcases hqueued with hqueued | rfl
        · exact h.framed queued hqueued
        · rw [hbuffers, hpayload]
      · rw [hlineup, List.map_append]
        simpa [hpayload] using h.in_order
    | refuse data unfit =>
      exact ⟨h.framed, h.in_order.trans (List.sublist_append_left _ _)⟩
    | _ => cases hlabel

/-! ### Runs -/

theorem faithful_of_run {message_cb disconnect_cb : Bool} {labels : List Label}
    (hrun : (machine message_cb disconnect_cb).run labels = some c) :
    Faithful (Machine.words Label.sent? labels) c := by
  refine Machine.run_induction (m := machine message_cb disconnect_cb)
    (motive := fun labels c => Faithful (Machine.words Label.sent? labels) c)
    ⟨fun _ h => (by cases h), List.nil_sublist _⟩ ?_ hrun
  intro labels c label c' hc h hstep
  rw [Machine.words_append, Machine.words_singleton]
  exact h.step (Attempting.of_run hc).exclusive hstep

/-- What the socket of a connection was given are the frames of the first payloads that were
accepted for it, and of all of them once none waits in the queue. -/
theorem writtenOn_of_run {message_cb disconnect_cb : Bool} {labels : List Label}
    (hrun : (machine message_cb disconnect_cb).run labels = some c) (generation : ℕ) :
    ∃ handed, c.writtenOn generation = handed.flatMap FrameCodec.wire ∧
      handed <+: c.acceptedOn generation ∧
      (∀ payload ∈ handed, payload.length ≤ FrameCodec.kMaxMessageSize) ∧
      (c.is_connected_ = true → c.active_connect_generation_ = generation →
        c.write_queue_ = [] → handed = c.acceptedOn generation) := by
  have horderly := (orderly_of_run hrun).1
  have hfirst := horderly.in_order generation
  refine ⟨(framesOf generation c.written).map fun frame => frame.frame.payload, ?_, hfirst.map _,
    ?_, ?_⟩
  · rw [writtenOn, List.flatMap_map]
    refine List.flatMap_congr fun frame hframe => ?_
    have hlineup : frame ∈ c.lineup := List.mem_append_left _
      (List.mem_map_of_mem (f := Prod.snd) (mem_framesOf.mp (hfirst.subset hframe)))
    exact (faithful_of_run hrun).framed frame hlineup
  · intro payload hpayload
    obtain ⟨frame, -, rfl⟩ := List.mem_map.mp hpayload
    exact frame.frame.payload_fits
  · rintro hup rfl hqueue
    obtain ⟨-, head, waiting, -, hhead, haccepted⟩ := horderly.up hup
    have hwaiting : waiting = [] := (List.append_eq_nil_iff.mp (hhead.symm.trans hqueue)).2
    rw [hwaiting, List.append_nil] at haccepted
    exact congrArg (List.map _) haccepted.symm

/-- The payloads accepted for a connection are some of those sent, in the order of the calls. -/
theorem acceptedOn_sublist {message_cb disconnect_cb : Bool} {labels : List Label}
    (hrun : (machine message_cb disconnect_cb).run labels = some c) (generation : ℕ) :
    (c.acceptedOn generation).Sublist (Machine.words Label.sent? labels) := by
  refine List.Sublist.trans ?_ (faithful_of_run hrun).in_order
  refine List.Sublist.map _ (List.Sublist.trans ?_ (List.sublist_append_left _ _))
  exact (List.filter_sublist (p := fun entry : ℕ × QueuedFrame => entry.1 = generation)).map _

end SpaceShooter.Client.TcpClient
