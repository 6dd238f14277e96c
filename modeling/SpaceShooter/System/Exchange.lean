/-
# Messages across a connection

What a session publishes are the first payloads that its client's connection accepted, and what
the client hands to its owner are the first that the server sent to the session; when nothing is
left on the way, it is all of them. Other clients and sessions make no difference.
-/

import SpaceShooter.System.Connections

namespace SpaceShooter

open Library Network Client Server Incremental

namespace System

variable {T K : Type} [DecidableEq T] {wiring : SessionId ≃. Endpoint}
variable {s t : System T K} {id : SessionId} {e : Endpoint}

/-! ### What a step does -/

/-- The label of a step, with the guard that let it through. -/
inductive Transition (wiring : SessionId ≃. Endpoint) (s : System T K) :
    Label T → System T K → Prop
  | server (label : TcpServer.Label T) (server : TcpServer T K)
    (carried : ∀ entry ∈ label.chunk?, Carried (s.upstream wiring entry.1)
      (ofGeneration entry.1 (s.received ++ label.chunk?.toList)))
    (answers : s.server.step label = some server) :
    Transition wiring s (.server label)
      { s with server := server, received := s.received ++ label.chunk?.toList }
  | client (k : ℕ) (label : TcpClient.Label) (client : TcpReader)
    (carried : ∀ entry ∈ (s.clients k).client.brings label,
      Carried (s.downstream wiring ⟨k, entry.1⟩)
        (ofGeneration entry.1 ((s.clients k).received ++ (s.clients k).client.brings label)))
    (answers : (s.clients k).step label = some client) :
    Transition wiring s (.client k label) (s.put k client)

theorem transition_of_step {label : Label T} (h : s.step wiring label = some t) :
    Transition wiring s label t := by
  cases label with
  | server label =>
    obtain ⟨carried, h⟩ := Option.ite_none_right_eq_some.mp h
    obtain ⟨server, answers, rfl⟩ := Option.map_eq_some_iff.mp h
    exact .server label server carried answers
  | client k label =>
    obtain ⟨carried, h⟩ := Option.ite_none_right_eq_some.mp h
    obtain ⟨client, answers, rfl⟩ := Option.map_eq_some_iff.mp h
    exact .client k label client carried answers

/-! ### The invariant -/

/-- The payload of a call of `send` of one client. -/
def Label.sent? (k : ℕ) : Label T → Option Bytes
  | .server _ => none
  | .client j label => if j = k then label.sent? else none

/-- More may have been written since. -/
theorem Carried.mono {sent sent' : Option Bytes} {received : List Bytes}
    (carried : Carried sent received) (h : ∀ later ∈ sent', ∃ bytes ∈ sent, bytes <+: later) :
    Carried sent' received := by
  intro later hlater
  obtain ⟨bytes, hbytes, more⟩ := h later hlater
  exact (carried bytes hbytes).trans more

/-- The parts of the system have made runs of their own, and each end of a connection has read a
first part of what was written at the other. -/
structure Joined (wiring : SessionId ≃. Endpoint) (s : System T K) : Prop where
  server : (TcpServer.machine T K).Reachable s.server
  clients : ∀ k, (TcpReader.machine true true).Reachable (s.clients k)
  known : ∀ entry ∈ s.received, (s.server.sessions entry.1).isSome
  sessions : ∀ id session, s.server.sessions id = some session →
    Machine.Ran (Session.machine K id) Session.Label.chunk? session (ofGeneration id s.received)
  up : ∀ id, Carried (s.upstream wiring id) (ofGeneration id s.received)
  down : ∀ e : Endpoint, Carried (s.downstream wiring e)
    (ofGeneration e.generation (s.clients e.client).received)

theorem joined_init : (machine T K wiring).init.Joined wiring where
  server := ⟨[], rfl⟩
  clients _ := ⟨[], rfl⟩
  known _ h := by cases h
  sessions _ _ h := by cases h
  up _ _ _ := List.nil_prefix
  down _ _ _ := List.nil_prefix

theorem Joined.server_step (h : s.Joined wiring) {label : TcpServer.Label T}
    {server : TcpServer T K}
    (carried : ∀ entry ∈ label.chunk?, Carried (s.upstream wiring entry.1)
      (ofGeneration entry.1 (s.received ++ label.chunk?.toList)))
    (answers : s.server.step label = some server) :
    Joined wiring
      { s with server := server, received := s.received ++ label.chunk?.toList } := by
  obtain ⟨before, hbefore⟩ := h.server
  have known := TcpServer.known_of_run hbefore
  have heard (id : SessionId) : ofGeneration id (s.received ++ label.chunk?.toList) =
      ofGeneration id s.received ++
        ((s.server.offers id label).bind Session.Label.chunk?).toList := by
    rw [Reading.ofGeneration_append, TcpServer.chunk_of_step answers id]
  refine ⟨⟨before ++ [label], Machine.run_concat.mpr ⟨s.server, hbefore, answers⟩⟩, h.clients,
    ?_, ?_, ?_, ?_⟩
  · intro entry hentry
    rcases List.mem_append.mp hentry with old | new
    · exact TcpServer.isSome_of_step answers (h.known entry old)
    · refine TcpServer.isSome_of_step answers ?_
      cases label with
      | session id label =>
        cases TcpServer.transition_of_step answers with
        | session _ _ session session' runtime there =>
          obtain ⟨chunk, -, rfl⟩ := Option.map_eq_some_iff.mp (Option.mem_toList.mp new)
          exact Option.isSome_iff_exists.mpr ⟨session, there⟩
      | _ => cases new
  · intro id session' known'
    obtain ⟨accepts, waits⟩ := TcpServer.follows_of_step known answers known'
    refine Machine.Ran.moves (fun b hb => h.sessions id b hb)
      (Machine.moves_of_offer (s.server.offers id label) accepts (fun silent => ?_) (heard id))
    refine (waits silent).imp_right fun ⟨absent, fresh⟩ => ⟨absent, fresh, ?_⟩
    refine Reading.ofGeneration_eq_nil fun entry hentry own => ?_
    have there := h.known entry hentry
    rw [own, absent] at there
    cases there
  · intro id
    cases hchunk : label.chunk? with
    | none =>
      rw [Option.toList_none, List.append_nil]
      exact h.up id
    | some entry =>
      by_cases own : entry.1 = id
      · rw [← own, ← hchunk]
        exact carried entry hchunk
      · rw [Option.toList_some, Reading.ofGeneration_append,
          Reading.ofGeneration_of_ne own entry.2, List.append_nil]
        exact h.up id
  · refine fun e => (h.down e).mono fun later hlater => ?_
    obtain ⟨id, hid, rfl⟩ := Option.map_eq_some_iff.mp hlater
    exact ⟨s.server.writtenTo id, Option.map_eq_some_iff.mpr ⟨id, hid, rfl⟩,
      TcpServer.writtenTo_of_step known answers id⟩

theorem Joined.client_step (h : s.Joined wiring) {k : ℕ} {label : TcpClient.Label}
    {client : TcpReader}
    (carried : ∀ entry ∈ (s.clients k).client.brings label,
      Carried (s.downstream wiring ⟨k, entry.1⟩)
        (ofGeneration entry.1 ((s.clients k).received ++ (s.clients k).client.brings label)))
    (answers : (s.clients k).step label = some client) :
    (s.put k client).Joined wiring := by
  obtain ⟨before, hbefore⟩ := h.clients k
  obtain ⟨hclient, hreceived, -⟩ := TcpReader.step_eq_some answers
  have hexclusive := (TcpClient.Attempting.of_run (TcpReader.run_client hbefore)).exclusive
  refine ⟨h.server, ?_, h.known, h.sessions, ?_, ?_⟩
  · intro j
    by_cases own : j = k
    · subst own
      rw [put_self]
      exact ⟨before ++ [label], Machine.run_concat.mpr ⟨s.clients j, hbefore, answers⟩⟩
    · rw [put_of_ne s own]
      exact h.clients j
  · refine fun id => (h.up id).mono fun later hlater => ?_
    obtain ⟨e, he, rfl⟩ := Option.map_eq_some_iff.mp hlater
    refine ⟨(s.clients e.client).client.writtenOn e.generation,
      Option.map_eq_some_iff.mpr ⟨e, he, rfl⟩, ?_⟩
    by_cases own : e.client = k
    · rw [own, put_self]
      exact TcpClient.writtenOn_of_step hexclusive hclient e.generation
    · exact put_of_ne s own client ▸ List.prefix_refl _
  · intro e
    by_cases own : e.client = k
    · obtain ⟨j, generation⟩ := e
      obtain rfl : j = k := own
      rw [put_self, hreceived]
      rcases (s.clients j).client.brings_cases label with nothing | ⟨entry, one⟩
      · rw [nothing, List.append_nil]
        exact h.down ⟨j, generation⟩
      · by_cases same : entry.1 = generation
        · rw [← same]
          exact carried entry (one ▸ List.mem_singleton_self entry)
        · rw [one, Reading.ofGeneration_append, Reading.ofGeneration_of_ne same entry.2,
            List.append_nil]
          exact h.down ⟨j, generation⟩
    · rw [put_of_ne s own]
      exact h.down e

theorem joined_of_run {labels : List (Label T)} (run : (machine T K wiring).run labels = some s) :
    s.Joined wiring := by
  refine Machine.run_induction (m := machine T K wiring) (motive := fun _ s => s.Joined wiring)
    joined_init ?_ run
  intro labels s label t _ h hstep
  cases transition_of_step hstep with
  | server label server carried answers => exact h.server_step carried answers
  | client k label client carried answers => exact h.client_step carried answers

/-- A client makes a run of its own, in which it is sent what the labels say. -/
theorem sent_of_run {labels : List (Label T)} (run : (machine T K wiring).run labels = some s)
    (k : ℕ) :
    Machine.Ran (TcpReader.machine true true) TcpClient.Label.sent? (s.clients k)
      (Machine.words (Label.sent? k) labels) := by
  refine Machine.run_induction (m := machine T K wiring)
    (motive := fun labels s => Machine.Ran (TcpReader.machine true true) TcpClient.Label.sent?
      (s.clients k) (Machine.words (Label.sent? k) labels)) ⟨[], rfl, rfl⟩ ?_ run
  intro labels s label t _ h hstep
  rw [Machine.words_append, Machine.words_singleton]
  cases transition_of_step hstep with
  | server label =>
    rw [Label.sent?, Option.toList_none, List.append_nil]
    exact h
  | client j label client carried answers =>
    have ran : ∀ b ∈ some (s.clients k), Machine.Ran (TcpReader.machine true true)
        TcpClient.Label.sent? b (Machine.words (Label.sent? k) labels) := by
      rintro b ⟨⟩
      exact h
    refine Machine.Ran.moves ran ?_
    by_cases own : j = k
    · subst own
      rw [put_self, Label.sent?, if_pos rfl]
      exact .step _ _ label client answers
    · rw [put_of_ne s (Ne.symm own), Label.sent?, if_neg own, Option.toList_none, List.append_nil]
      exact .stay _ _

/-! ### Both ways -/

/-- The decoder takes encoded payloads apart again. -/
theorem run_wire {payloads : List Bytes}
    (fits : ∀ payload ∈ payloads, payload.length ≤ FrameCodec.kMaxMessageSize) :
    FrameCodec.decoder.run (payloads.flatMap FrameCodec.wire) = (payloads, []) := by
  have whole := Decoder.run_flatMap (d := FrameCodec.decoder) FrameCodec.wire payloads []
    fun payload member later => FrameCodec.verdict_wire (fits payload member) later
  rw [List.append_nil, Decoder.run_of_wait FrameCodec.decoder_verdict_nil, List.append_nil] at whole
  exact whole

theorem run_prefix_of_wire {payloads : List Bytes} {received : Bytes}
    (fits : ∀ payload ∈ payloads, payload.length ≤ FrameCodec.kMaxMessageSize)
    (h : received <+: payloads.flatMap FrameCodec.wire) :
    (FrameCodec.decoder.run received).1 <+: payloads := by
  refine Decoder.run_prefix_of_encoded FrameCodec.decoder_verdict_nil ?_ h
  exact fun payload member later => FrameCodec.verdict_wire (fits payload member) later

/-- Nothing is on its way from the client to the session: the queue of the connection is empty,
its bytes have been read, and the session waits for more. -/
structure UpstreamIdle (s : System T K) (id : SessionId) (e : Endpoint) (session : Session K) :
    Prop where
  connected : (s.clients e.client).client.is_connected_ = true
  current : (s.clients e.client).client.active_connect_generation_ = e.generation
  write_queue_ : (s.clients e.client).client.write_queue_ = []
  arrived : (ofGeneration id s.received).flatten =
    (s.clients e.client).client.writtenOn e.generation
  waits : session.reading ≠ 0

/-- Nothing is on its way from the session to the client: the session has no payload left and is
open, its bytes have been read, and the client waits for more. -/
structure DownstreamIdle (s : System T K) (e : Endpoint) (session : Session K) : Prop where
  isOpen : session.closed_ = false
  queued : session.queued = []
  outstanding : session.outstanding = 0
  arrived : (ofGeneration e.generation (s.clients e.client).received).flatten =
    session.written.flatten
  connected : (s.clients e.client).client.is_connected_ = true
  current : (s.clients e.client).client.active_connect_generation_ = e.generation
  wanted : (s.clients e.client).client.disconnect_requested_ = false
  idle : (s.clients e.client).client.running = none
  waits : .read e.generation ∈ (s.clients e.client).client.operations

theorem Joined.upstream (h : s.Joined wiring) (wired : wiring id = some e)
    {session : Session K} (known : s.server.sessions id = some session) :
    session.messages <+: (s.clients e.client).client.acceptedOn e.generation ∧
      (s.UpstreamIdle id e session →
        session.messages = (s.clients e.client).client.acceptedOn e.generation) := by
  obtain ⟨calls, hcalls⟩ := h.clients e.client
  obtain ⟨own, hown, words⟩ := h.sessions id session known
  obtain ⟨handed, written, first, fits, all⟩ :=
    TcpClient.writtenOn_of_run (TcpReader.run_client hcalls) e.generation
  constructor
  · have arrived : (ofGeneration id s.received).flatten <+: handed.flatMap FrameCodec.wire := by
      refine h.up id _ ?_
      rw [System.upstream, wired, ← written]
      rfl
    have published := Session.first_of_run hown
    rw [words] at published
    exact published.trans ((run_prefix_of_wire fits arrived).trans first)
  · intro quiet
    have decoded := Session.decoded_of_run hown quiet.waits
    rw [words, quiet.arrived, written, run_wire fits] at decoded
    exact (Prod.mk.inj decoded).1.trans (all quiet.connected quiet.current quiet.write_queue_)

theorem Joined.downstream (h : s.Joined wiring) (wired : wiring id = some e)
    {session : Session K} (known : s.server.sessions id = some session) :
    ofGeneration e.generation (s.clients e.client).handed <+: s.server.told id ∧
      (s.DownstreamIdle e session →
        ofGeneration e.generation (s.clients e.client).handed = s.server.told id) := by
  obtain ⟨calls, hcalls⟩ := h.clients e.client
  obtain ⟨before, hbefore⟩ := h.server
  obtain ⟨own, hown, words⟩ := TcpServer.ran_of_run hbefore known
  obtain ⟨handed, written, first, fits, all⟩ := (Session.forwards_of_run hown).written
  rw [words] at first all
  have frames : session.written.flatten = handed.flatMap FrameCodec.wire := by
    rw [written, List.flatMap_def]
  obtain ⟨steady, -⟩ := TcpReader.steady_of_run hcalls
  constructor
  · have arrived : (ofGeneration e.generation (s.clients e.client).received).flatten <+:
        handed.flatMap FrameCodec.wire := by
      refine h.down e _ ?_
      rw [System.downstream, (PEquiv.eq_some_iff wiring).mpr wired, ← frames, Option.map_some,
        TcpServer.writtenTo, known]
      rfl
    exact ((steady.first e.generation).trans (run_prefix_of_wire fits arrived)).trans first
  · intro quiet
    have whole := (TcpReader.served_of_run hcalls quiet.connected quiet.wanted quiet.idle).2
    rw [quiet.current] at whole
    have decoded := whole quiet.waits (TcpReader.message_cb_of_run hcalls)
    rw [quiet.arrived, frames, run_wire fits] at decoded
    exact (Prod.mk.inj decoded).1.trans (all quiet.isOpen quiet.queued quiet.outstanding)

/-- In every run, for every connection between a session and a client: the messages that the
session publishes are the first payloads that the client accepted for the connection, each
unchanged, in order and once, and these are among the payloads of its calls of `send`, in the
order of the calls; the payloads that the client hands to its owner are the first that the server
sent to the session; and they are all of them when nothing is on its way. -/
theorem exchanged_of_run {labels : List (Label T)} (run : (machine T K wiring).run labels = some s)
    (wired : wiring id = some e) {session : Session K}
    (known : s.server.sessions id = some session) :
    (session.messages <+: (s.clients e.client).client.acceptedOn e.generation ∧
      (s.UpstreamIdle id e session →
        session.messages = (s.clients e.client).client.acceptedOn e.generation)) ∧
    ((s.clients e.client).client.acceptedOn e.generation).Sublist
      (Machine.words (Label.sent? e.client) labels) ∧
    ofGeneration e.generation (s.clients e.client).handed <+: s.server.told id ∧
      (s.DownstreamIdle e session →
        ofGeneration e.generation (s.clients e.client).handed = s.server.told id) := by
  refine ⟨(joined_of_run run).upstream wired known, ?_,
    (joined_of_run run).downstream wired known⟩
  obtain ⟨calls, hcalls, words⟩ := sent_of_run run e.client
  exact words ▸ TcpClient.acceptedOn_sublist (TcpReader.run_client hcalls) e.generation

/-- The first session belongs to the first connection of the first client. -/
def onePair : SessionId ≃. Endpoint := PEquiv.single 1 ⟨0, 0⟩

/-- A client connects and sends a command, which two reads cut; the server answers. -/
def joinAndTick : List (Label Unit) :=
  TcpServer.oneAccepted.map .server ++ [.server (.session 1 (.runHandler fun _ => false))] ++
  [.connect true, .runHandler, .complete 0 (some []), .runHandler, .complete 0 (some []),
    .runHandler, .resume, .send (bytesOf "JOIN"), .runHandler, .resume].map (.client 0) ++
  [.session 1 (.readFinishes (.bytes ((FrameCodec.wire (bytesOf "JOIN")).take 5))),
    .session 1 .readPosted, .session 1 (.runHandler fun _ => false),
    .session 1 (.readFinishes (.bytes ((FrameCodec.wire (bytesOf "JOIN")).drop 5))),
    .session 1 .readPosted, .session 1 (.runHandler fun _ => false),
    .sendPacketEvent () 1 (bytesOf "TICK") [1], .send (),
    .session 1 (.runHandler fun _ => false), .session 1 (.writeFinishes none),
    .session 1 (.runHandler fun _ => false)].map .server ++
  [.complete 1 (some []), .complete 0 (some (FrameCodec.wire (bytesOf "TICK"))), .runHandler,
    .runHandler, .resume, .resume, .resume, .resume, .resume].map (.client 0)

theorem exchanged_joinAndTick : ∃ (s : System Unit Unit) (session : Session Unit),
    (machine Unit Unit onePair).run joinAndTick = some s ∧ s.server.sessions 1 = some session ∧
      session.messages = [bytesOf "JOIN"] ∧
      ofGeneration 0 (s.clients 0).handed = [bytesOf "TICK"] := by
  have reached : ((machine Unit Unit onePair).run joinAndTick).bind (fun s =>
      (s.server.sessions 1).map fun session => decide
        (((s.clients 0).client.is_connected_ = true ∧
          (s.clients 0).client.active_connect_generation_ = 0 ∧
          (s.clients 0).client.write_queue_ = [] ∧
          (ofGeneration 1 s.received).flatten = (s.clients 0).client.writtenOn 0 ∧
          session.reading ≠ 0) ∧
        (session.closed_ = false ∧ session.queued = [] ∧ session.outstanding = 0 ∧
          (ofGeneration 0 (s.clients 0).received).flatten = session.written.flatten ∧
          (s.clients 0).client.disconnect_requested_ = false ∧
          (s.clients 0).client.running = none ∧
          .read 0 ∈ (s.clients 0).client.operations) ∧
        (s.clients 0).client.acceptedOn 0 = [bytesOf "JOIN"] ∧
          s.server.told 1 = [bytesOf "TICK"])) = some true := by
    decide +kernel
  obtain ⟨s, run, fields⟩ := Option.bind_eq_some_iff.mp reached
  obtain ⟨session, known, fields⟩ := Option.map_eq_some_iff.mp fields
  obtain ⟨⟨up, current, queue, sent, waits⟩,
    ⟨hopen, queued, outstanding, arrived, wanted, idle, reads⟩, accepted, told⟩ :=
    of_decide_eq_true fields
  have wired : onePair 1 = some ⟨0, 0⟩ := PEquiv.single_apply 1 (⟨0, 0⟩ : Endpoint)
  obtain ⟨⟨-, upstream⟩, -, -, downstream⟩ := exchanged_of_run run wired known
  refine ⟨s, session, run, known, ?_, ?_⟩
  · exact (upstream ⟨up, current, queue, sent, waits⟩).trans accepted
  · exact (downstream ⟨hopen, queued, outstanding, arrived, up, current, wanted, idle,
      reads⟩).trans told

end System

end SpaceShooter
