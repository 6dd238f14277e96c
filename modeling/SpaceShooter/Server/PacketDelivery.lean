/-
# Packets on their way to the sessions

A packet is sent to the sessions that are registered when its subscriber runs: to one of them
or to all. Each thread gets through the sessions of one packet before it publishes the next, so
a session finds the packets of a thread in the order in which the thread published them; what
the session writes to its socket is what it was sent, from the first payload on.
-/

import Mathlib.Data.List.Nodup
import SpaceShooter.Server.SessionRegistry
import SpaceShooter.Server.SessionWriter

namespace SpaceShooter.Server

open Library Network Relation

/-! ### From `send` to the socket -/

namespace Session

variable {K : Type} {s s' : Session K}

/-- The payloads whose handlers wait on the strand. -/
def queued (s : Session K) : List Bytes := s.strand.filterMap Handler.payload?

theorem Keeps.queued (h : Keeps s s') : s'.queued = s.queued := by
  obtain ⟨n, hn⟩ := h.strand
  have none_sent : (List.replicate n Handler.close).filterMap Handler.payload? = [] := by
    simp [Handler.payload?]
  rw [Session.queued, hn, List.filterMap_append, none_sent, List.append_nil]
  rfl

theorem queued_post (s : Session K) (handler : Handler) :
    (s.post handler).queued = s.queued ++ handler.payload?.toList := by
  rw [queued, post, List.filterMap_append, List.filterMap_cons]
  cases handler.payload? with
  | none => rfl
  | some data => rfl

theorem queued_doRead (s : Session K) : s.doRead.queued = s.queued := by
  unfold doRead
  split_ifs
  · rfl
  · rfl

theorem queued_handle (s : Session K) (refuses : ℕ → Bool) (handler : Handler) :
    (s.handle refuses handler).queued = s.queued := by
  cases handler with
  | doRead => exact queued_doRead s
  | send data => exact (keeps_of_updates (updates_onSend s data)).queued
  | close => exact (keeps_onClose s).queued
  | readCompletion result =>
    cases result with
    | error error => exact (keeps_of_updates (updates_close s)).queued
    | bytes chunk =>
      change (s.onReadCompletion refuses (.bytes chunk)).queued = s.queued
      unfold onReadCompletion
      dsimp only
      split
      · exact queued_doRead _
      · rfl
  | writeCompletion error =>
    exact (keeps_of_updates (updates_onWriteCompletion s error)).queued

/-- Outside of handlers the strand gets what is sent. -/
theorem queued_of_step {label : Label} (h : step s label = some s')
    (other : ∀ refuses, label ≠ .runHandler refuses) :
    s'.queued = s.queued ++ label.sent?.toList := by
  cases transition_of_step h with
  | start =>
    unfold start
    split_ifs
    · exact (List.append_nil _).symm
    · exact queued_post _ _
  | send data => exact queued_post s _
  | close =>
    rw [(keeps_of_updates (updates_close s)).queued]
    exact (List.append_nil _).symm
  | removeSession =>
    rw [(keeps_of_updates (updates_removeSession s)).queued]
    exact (List.append_nil _).symm
  | readFinishes => exact (List.append_nil _).symm
  | readPosted result finished => exact queued_post { s with finished := finished } _
  | writeFinishes error => exact queued_post { s with writing := s.writing - 1 } _
  | runHandler refuses => exact absurd rfl (other refuses)

theorem Calm.written_grows (h : Calm s s') : s.written <+: s'.written :=
  h.written ▸ List.prefix_refl s.written

theorem written_doWrite (s : Session K) : s.written <+: s.doWrite.written := by
  rcases SessionWriter.doWrite_cases ({ session := s } : SessionWriter K) with
    ⟨-, -, heq⟩ | ⟨payload, queue, -, -, ⟨-, -, heq⟩ | ⟨-, -, heq⟩⟩
  · exact heq ▸ List.prefix_refl _
  · exact heq ▸ List.prefix_append _ _
  · rw [heq]
    exact (calm_close { s with write_queue_ := queue, is_writing_ := false }).written_grows

/-- What was handed to the socket stays there. -/
theorem written_of_step {label : Label} (h : step s label = some s') :
    s.written <+: s'.written := by
  by_cases other : ∀ refuses, label ≠ .runHandler refuses
  · exact (calm_step h other).written_grows
  · push Not at other
    obtain ⟨refuses, rfl⟩ := other
    obtain ⟨handler, rest, -, rfl⟩ := exists_of_runHandler h
    have before : s.written = ({ s with strand := rest } : Session K).written := rfl
    rw [before]
    cases handler with
    | doRead => exact (calm_doRead _).written_grows
    | close => exact (calm_onClose _).written_grows
    | readCompletion result => exact (calm_onReadCompletion _ refuses result).written_grows
    | writeCompletion error =>
      cases error with
      | none => exact written_doWrite _
      | some error =>
        exact (calm_close ({ s with strand := rest, is_writing_ := false })).written_grows
    | send data =>
      change _ <+: (onSend { s with strand := rest } data).written
      unfold onSend
      dsimp only
      split_ifs
      · exact List.prefix_refl _
      · exact written_doWrite { s with
          strand := rest, write_queue_ := s.write_queue_ ++ [data], is_writing_ := true }
      · exact List.prefix_refl _

/-- The writer has accepted the first payloads that were sent to the session, and while the
session is open all that do not wait on the strand. -/
def Forwards (sent : List Bytes) (s : Session K) : Prop :=
  ∃ w : SessionWriter K, w.session = s ∧ w.running = none ∧ w.Intact ∧ w.accepted <+: sent ∧
    (s.closed_ = false → w.accepted ++ s.queued = sent)

theorem Forwards.step {sent : List Bytes} (h : Forwards sent s) {label : Label}
    (hstep : step s label = some s') : Forwards (sent ++ label.sent?.toList) s' := by
  obtain ⟨w, rfl, idle, intact, accepted, all⟩ := h
  have open_before (hopen : s'.closed_ = false) : w.session.closed_ = false := by
    by_contra closed
    rw [closed_of_step hstep (Bool.eq_true_of_not_eq_false closed)] at hopen
    cases hopen
  by_cases other : ∀ refuses, label ≠ .runHandler refuses
  · have calm := calm_step hstep fun refuses heq => other refuses heq
    refine ⟨{ w with session := s' }, rfl, idle, intact.calm calm,
      accepted.trans (List.prefix_append _ _), fun hopen => ?_⟩
    rw [queued_of_step hstep other, ← List.append_assoc, all (open_before hopen)]
  · push Not at other
    obtain ⟨refuses, rfl⟩ := other
    obtain ⟨handler, rest, hstrand, hs'⟩ := exists_of_runHandler hstep
    obtain ⟨labels, w', hrun, hsession, idle', haccepted⟩ :=
      SessionWriter.exists_handler w.session.id_ idle hstep
    have intact' : w'.Intact := by
      refine Machine.runFrom_induction (motive := SessionWriter.Intact) ?_ intact hrun
      exact fun u label _ v hu hv => hu.step hv
    have popped : w.session.queued =
        handler.payload?.toList ++ ({ w.session with strand := rest } : Session K).queued := by
      rw [queued, hstrand, List.filterMap_cons]
      cases handler.payload? with
      | none => rfl
      | some data => rfl
    rw [hstrand, List.head?_cons, Option.bind_some] at haccepted
    rw [show Label.sent? (.runHandler refuses) = none from rfl, Option.toList_none,
      List.append_nil]
    have later : s'.queued = ({ w.session with strand := rest } : Session K).queued := by
      rw [hs', queued_handle]
    refine ⟨w', hsession, idle', intact', ?_, fun hopen => ?_⟩
    · rw [haccepted]
      split_ifs with closed
      · rw [List.append_nil]
        exact accepted
      · rw [← all (Bool.eq_false_of_not_eq_true closed), popped]
        exact (List.prefix_append_right_inj _).mpr (List.prefix_append _ _)
    · have before := open_before hopen
      rw [haccepted, before, later, List.append_assoc]
      exact popped ▸ all before

theorem forwards_of_run {id : SessionId} {labels : List Label}
    (run : (machine K id).run labels = some s) :
    Forwards (Machine.words Label.sent? labels) s := by
  refine Machine.run_induction
    (motive := fun labels s => Forwards (Machine.words Label.sent? labels) s) ?_ ?_ run
  · exact ⟨{ session := { id_ := id } }, rfl, rfl, SessionWriter.intact_init id,
      List.nil_prefix, fun _ => rfl⟩
  · intro labels s label s' _ h hstep
    rw [Machine.words_append, Machine.words_singleton]
    exact h.step hstep

/-- What is on the wire are the frames of the first payloads sent, and of all of them when the
session is open and neither its strand nor its socket is busy with one. -/
theorem Forwards.written {sent : List Bytes} (h : Forwards sent s) :
    ∃ handed, s.written = handed.map FrameCodec.wire ∧ handed <+: sent ∧
      (∀ payload ∈ handed, payload.length ≤ FrameCodec.kMaxMessageSize) ∧
      (s.closed_ = false → s.queued = [] → s.outstanding = 0 → handed = sent) := by
  obtain ⟨w, rfl, idle, intact, accepted, all⟩ := h
  obtain ⟨handed, dropped, haccepted, hwritten, hfits, hdropped⟩ := intact.ledger
  refine ⟨handed, hwritten, ?_, hfits, fun hopen queued outstanding => ?_⟩
  · refine List.IsPrefix.trans ?_ accepted
    rw [haccepted, List.append_assoc]
    exact List.prefix_append _ _
  · have none_dropped : dropped = [] := by
      by_contra hne
      rcases hdropped hne with closed | closing
      · rw [closed] at hopen
        cases hopen
      · rw [idle] at closing
        cases closing
    have none_waiting : w.session.write_queue_ = [] := by
      by_contra hne
      rcases intact.served hopen hne with one | busy
      · rw [outstanding] at one
        cases one
      · rw [idle] at busy
        cases busy
    have complete := all hopen
    rw [haccepted, none_dropped, none_waiting, queued] at complete
    simpa using complete

end Session

/-! ### From a packet to `send` -/

namespace TcpServer

variable {T K : Type} [DecidableEq T] {s t : TcpServer T K} {id : SessionId}

/-- What a thread has sent to a session. -/
def sentBy (s : TcpServer T K) (thread : T) (id : SessionId) : List Bytes :=
  (s.posts.filter fun post => post.thread = thread ∧ post.session_id = id).map (·.payload)

/-- What a thread has still to send to a session. -/
def unsent (s : TcpServer T K) (thread : T) (id : SessionId) : List Bytes :=
  ((s.sending thread).filter fun call => call.1 = id).map (·.2)

/-- The packets of a thread that a session is to receive. -/
def addressed (s : TcpServer T K) (thread : T) (id : SessionId) : List Bytes :=
  (s.packets.filter fun packet =>
    packet.thread = thread ∧ id ∈ receivers packet.registered packet.session_id).map (·.payload)

omit [DecidableEq T] in
theorem nodup_receivers {registered : List SessionId} (h : registered.Nodup)
    (session_id : SessionId) : (receivers registered session_id).Nodup := by
  unfold receivers
  split_ifs
  · exact h
  · exact List.nodup_singleton session_id
  · exact List.nodup_nil

/-- Going through the receivers a session comes up once. -/
theorem filter_calls {order : List SessionId} (h : order.Nodup) (id : SessionId)
    (payload : Bytes) :
    ((order.map fun receiver => (receiver, payload)).filter fun call => call.1 = id).map (·.2) =
      if id ∈ order then [payload] else [] := by
  rw [List.filter_map, List.map_map]
  have own : order.filter ((fun call : SessionId × Bytes => decide (call.1 = id)) ∘
      fun receiver => (receiver, payload)) = if id ∈ order then [id] else [] := by
    change order.filter (fun receiver => decide (receiver = id)) = _
    rw [List.filter_eq]
    split_ifs with hmem
    · rw [List.count_eq_one_of_mem h hmem, List.replicate_one]
    · rw [List.count_eq_zero_of_not_mem hmem, List.replicate_zero]
  rw [own]
  split_ifs
  · rfl
  · rfl

theorem addressed_append (packet : Packet T) (thread : T) (id : SessionId)
    (u : TcpServer T K) (hu : u.packets = s.packets ++ [packet]) :
    u.addressed thread id = s.addressed thread id ++
      if packet.thread = thread ∧ id ∈ receivers packet.registered packet.session_id
      then [packet.payload] else [] := by
  rw [addressed, addressed, hu, List.filter_append, List.map_append, List.filter_singleton]
  split_ifs with own
  · rw [decide_eq_true own]
    rfl
  · rw [decide_eq_false own]
    rfl

theorem sentBy_append (post : Post T) (thread : T) (id : SessionId) (u : TcpServer T K)
    (hu : u.posts = s.posts ++ [post]) :
    u.sentBy thread id = s.sentBy thread id ++
      if post.thread = thread ∧ post.session_id = id then [post.payload] else [] := by
  rw [sentBy, sentBy, hu, List.filter_append, List.map_append, List.filter_singleton]
  split_ifs with own
  · rw [decide_eq_true own]
    rfl
  · rw [decide_eq_false own]
    rfl

/-- What a thread has sent and what it has still to send are its packets, in their order. -/
theorem sentBy_append_unsent_of_step (thread : T) (id : SessionId)
    (h : s.sentBy thread id ++ s.unsent thread id = s.addressed thread id) {label : Label T}
    (hstep : s.step label = some t) :
    t.sentBy thread id ++ t.unsent thread id = t.addressed thread id := by
  cases transition_of_step hstep with
  | sendPacketEvent publisher session_id payload order idle perm =>
    have nodup : order.Nodup :=
      perm.nodup_iff.mpr (nodup_receivers (nodup_registry s) session_id)
    rw [addressed_append ⟨publisher, session_id, payload, s.registry⟩ thread id _ rfl, ← h,
      List.append_assoc]
    change s.sentBy thread id ++ _ = _
    rw [List.append_cancel_left_eq, unsent, unsent]
    dsimp only
    rw [Function.update_apply]
    split_ifs with same both both
    · subst same
      rw [idle, filter_calls nodup, if_pos (perm.mem_iff.mpr both.2)]
      rfl
    · subst same
      rw [idle, filter_calls nodup, if_neg fun hmem => both ⟨rfl, perm.mem_iff.mp hmem⟩]
      rfl
    · exact absurd both.1.symm same
    · exact (List.append_nil _).symm
  | send publisher receiver payload rest session session' first =>
    change _ = s.addressed thread id
    rw [sentBy_append ⟨publisher, receiver, payload⟩ thread id _ rfl, ← h, List.append_assoc,
      List.append_cancel_left_eq, unsent, unsent]
    dsimp only
    rw [Function.update_apply]
    by_cases same : thread = publisher
    · subst same
      rw [if_pos rfl, first, List.filter_cons]
      by_cases own : receiver = id
      · rw [if_pos ⟨rfl, own⟩, if_pos (decide_eq_true own)]
        rfl
      · rw [if_neg fun both => own both.2, if_neg (by simpa using own)]
        rfl
    · rw [if_neg same, if_neg fun both => same both.1.symm]
      rfl
  | acceptCompletion result finished first =>
    cases result with
    | error error =>
      cases error with
      | operation_aborted => exact h
      | failed =>
        rw [onAccept, rearm_eq]
        exact h
    | connected remote_address => exact h
  | done refuses handler others =>
    rw [rearm_eq]
    exact h
  | start => exact h
  | stop => exact h
  | acceptFinishes => exact h
  | addSession => exact h
  | keepSession => exact h
  | startSession => exact h
  | publish => exact h
  | session => exact h

/-- A thread with calls ahead of it can make the next one. -/
theorem send_enabled (h : s.Known) {thread : T} (busy : s.sending thread ≠ []) :
    (s.step (.send thread)).isSome := by
  obtain ⟨⟨receiver, payload⟩, rest, first⟩ := List.exists_cons_of_ne_nil busy
  obtain ⟨session, known⟩ := Option.isSome_iff_exists.mp
    (h.pending thread (receiver, payload) (first ▸ List.mem_cons_self))
  rw [step, first]
  dsimp only at known ⊢
  rw [known]
  rfl

/-- In every run, for each session: the packets that a thread published for it, as the only
receiver or as one of all that were registered, are what the thread has sent to it and has still
to send, in the order of publication and each once; the bytes handed to its socket are the
frames of the first payloads that were sent to it; and they are those of all of them when the
session is open and neither its strand nor its socket is busy with one. No thread is stuck
between two receivers. -/
theorem delivered_of_run {labels : List (Label T)} (run : (machine T K).run labels = some s)
    {session : Session K} (known : s.sessions id = some session) :
    (∀ thread, s.sentBy thread id ++ s.unsent thread id = s.addressed thread id ∧
      (s.sending thread ≠ [] → (s.step (.send thread)).isSome)) ∧
    ∃ handed, session.written = handed.map FrameCodec.wire ∧ handed <+: s.told id ∧
      (session.closed_ = false → session.queued = [] → session.outstanding = 0 →
        handed = s.told id) := by
  refine ⟨fun thread => ⟨?_, send_enabled (known_of_run run)⟩, ?_⟩
  · refine Machine.run_induction
      (motive := fun _ s => s.sentBy thread id ++ s.unsent thread id = s.addressed thread id)
      rfl ?_ run
    exact fun _ s label t _ h hstep => sentBy_append_unsent_of_step thread id h hstep
  · obtain ⟨own, hown, words⟩ := ran_of_run run known
    obtain ⟨handed, written, first, -, all⟩ := (Session.forwards_of_run hown).written
    exact ⟨handed, written, words ▸ first, words ▸ all⟩

/-- A packet for all sessions, when there is one. -/
def oneBroadcast : List (Label Unit) :=
  oneAccepted ++ [.sendPacketEvent () kBroadcastSessionId (bytesOf "TICK") [1], .send (),
    .session 1 (.runHandler fun _ => false), .session 1 (.runHandler fun _ => false),
    .session 1 (.writeFinishes none), .session 1 (.runHandler fun _ => false)]

theorem delivered_oneBroadcast : ∃ (s : TcpServer Unit Unit) (session : Session Unit),
    (machine Unit Unit).run oneBroadcast = some s ∧ s.sessions 1 = some session ∧
      s.sentBy () 1 = [bytesOf "TICK"] ∧
      session.written = [FrameCodec.wire (bytesOf "TICK")] := by
  have reached : ((machine Unit Unit).run oneBroadcast).bind (fun s =>
      (s.sessions 1).map fun session => decide (s.addressed () 1 = [bytesOf "TICK"] ∧
        s.unsent () 1 = [] ∧ s.told 1 = [bytesOf "TICK"] ∧ session.closed_ = false ∧
        session.queued = [] ∧ session.outstanding = 0)) = some true := by
    decide
  obtain ⟨s, run, fields⟩ := Option.bind_eq_some_iff.mp reached
  obtain ⟨session, known, fields⟩ := Option.map_eq_some_iff.mp fields
  obtain ⟨addressed, unsent, told, hopen, queued, outstanding⟩ := of_decide_eq_true fields
  obtain ⟨threads, handed, written, -, all⟩ := delivered_of_run run known
  refine ⟨s, session, run, known, ?_, ?_⟩
  · have sent := (threads ()).1
    rw [unsent, addressed, List.append_nil] at sent
    exact sent
  · rw [written, all hopen queued outstanding, told]
    rfl

end TcpServer

end SpaceShooter.Server
