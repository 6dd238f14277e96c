/-
# Messages arrive in order

Every step of the client is a step of its reader, so what holds of the reader holds in every
run: one read at a time on a connection, whose payloads go to the owner as the frames of the
bytes that its reads have brought, from the first one on.
-/

import SpaceShooter.Client.ConnectCallbacks
import SpaceShooter.Client.FrameOrder
import SpaceShooter.Client.TcpReader

namespace SpaceShooter.Client

open Library Network Incremental

/-- A client and the log of its reads: the chunks that ended one, and the payloads handed to
`message_cb_`, each with the generation of its connection. -/
structure TcpReader where
  client : TcpClient
  received : List (ℕ × Bytes) := []
  handed : List (ℕ × PayloadView) := []

namespace TcpClient

/-- The generation of a read. -/
def Operation.read? : Operation → Option ℕ
  | .read generation => some generation
  | _ => none

/-- The completion of a read. -/
def Handler.read? : Handler → Option (ℕ × Option Bytes)
  | .completion (.read generation) result => some (generation, result)
  | _ => none

/-- What a handler has still to do for the reader. -/
def choreOf : Option Task → Chore
  | some .doRead => .read []
  | some (.dispatch payloads) => .read payloads
  | some (.dispatched payloads) => .read payloads
  | some .finishRead => .read []
  | some (.disconnect _) => .fail
  | _ => .other

/-- The part of a client that matters to its reads, with a log of them. -/
def reading (c : TcpClient) (received : List (ℕ × Bytes)) (handed : List (ℕ × PayloadView)) :
    Reading where
  is_connected_ := c.is_connected_
  disconnect_requested_ := c.disconnect_requested_
  disconnect_generation_ := c.disconnect_generation_
  active_connect_generation_ := c.active_connect_generation_
  message_cb_ := c.message_cb_
  read_buffer_ := c.read_buffer_
  chore := choreOf c.running
  waiting := c.operations.filterMap Operation.read?
  arrived := c.strand.filterMap Handler.read?
  received := received
  handed := handed

/-- The reads of a connection: those that wait for the peer, and the completions on the strand. -/
def readsOf (c : TcpClient) (generation : ℕ) : ℕ :=
  (c.operations.filterMap Operation.read?).count generation +
    ((c.strand.filterMap Handler.read?).map Prod.fst).count generation

/-- The chunk that ends a read. -/
def brings (c : TcpClient) : Label → List (ℕ × Bytes)
  | .complete i (some chunk) =>
    match c.operations[i]? with
    | some (.read generation) => [(generation, chunk)]
    | _ => []
  | _ => []

/-- The payload that is handed to `message_cb_`. -/
def hands (c : TcpClient) : Label → List (ℕ × PayloadView)
  | .resume =>
    match c.running with
    | some (.dispatch (payload :: _)) =>
      if !c.disconnect_requested_ && c.message_cb_ then
        [(c.active_connect_generation_, payload)]
      else []
    | _ => []
  | _ => []

/-! ### Every step is a step of the reader -/

variable {c c' : TcpClient} {handler : Handler} {strand : List Handler}
variable {received : List (ℕ × Bytes)} {handed : List (ℕ × PayloadView)}

theorem waiting_launch (c : TcpClient) {operation : Operation} (h : operation.read? = none) :
    (c.launch operation).operations.filterMap Operation.read? =
      c.operations.filterMap Operation.read? := by
  rw [launch, List.filterMap_append, List.filterMap_cons_none h, List.filterMap_nil,
    List.append_nil]

theorem arrived_post (c : TcpClient) (h : handler.read? = none) :
    (c.post handler).strand.filterMap Handler.read? = c.strand.filterMap Handler.read? := by
  rw [post, List.filterMap_append, List.filterMap_cons_none h, List.filterMap_nil,
    List.append_nil]

/-- A handler that has nothing to do with reads leaves the strand. -/
theorem reading_pop (hstrand : c.strand = handler :: strand) (h : handler.read? = none) :
    { c with strand := strand }.reading received handed = c.reading received handed := by
  rw [reading, reading, hstrand, List.filterMap_cons_none h]

/-- A client that moves to where a step of its reader leads. -/
theorem reads_of {r : Reading} (hstep : Reading.Step (c.reading received handed) r)
    {received' : List (ℕ × Bytes)} {handed' : List (ℕ × PayloadView)}
    (hwaiting : (c'.operations.filterMap Operation.read? : Multiset ℕ) = r.waiting)
    (harrived : c'.strand.filterMap Handler.read? = r.arrived)
    (hsame : { c'.reading received' handed' with waiting := r.waiting, arrived := r.arrived } = r) :
    Reading.Step (c.reading received handed) (c'.reading received' handed') := by
  have heq : c'.reading received' handed' = r := by
    rw [← hsame, ← hwaiting, ← harrived]
    rfl
  rw [heq]
  exact hstep

theorem quiet_same (c : TcpClient) :
    Reading.Step (c.reading received handed) (c.reading received handed) :=
  .quiet (fun h => h) (.inl rfl)

theorem reads_onConnect (c : TcpClient) (hrunning : c.running = none) (call : ℕ)
    (on_connect : Bool) :
    Reading.Step (c.reading received handed)
      ({ c.onConnect call on_connect with running := none }.reading received handed) := by
  by_cases hbusy : (c.is_connected_ || c.is_connecting_) = true
  · rw [onConnect, if_pos hbusy, invokeConnectCallback_eq]
    refine reads_of c.quiet_same rfl rfl ?_
    rw [reading, reading, hrunning]
  · obtain ⟨hdown, -⟩ := Bool.or_eq_false_iff.mp (Bool.not_eq_true _ ▸ hbusy)
    rw [onConnect, if_neg hbusy]
    refine reads_of (.connect hdown) (congrArg _ (waiting_launch c rfl)) rfl ?_
    rw [reading, reading, hrunning]
    rfl

theorem reads_onResolved (c : TcpClient) (hrunning : c.running = none) (generation call : ℕ)
    (result : Option Bytes) :
    Reading.Step (c.reading received handed)
      ({ c.onResolved generation call result with running := none }.reading received handed) := by
  rcases c.onResolved_cases generation call result with
    ⟨-, heq⟩ | ⟨-, ⟨ended, -, heq⟩ | heq⟩ <;> rw [heq]
  · refine reads_of c.quiet_same rfl rfl ?_
    rw [reading, reading, hrunning]
  · refine reads_of c.quiet_same rfl rfl ?_
    rw [reading, reading, hrunning]
  · refine reads_of c.quiet_same (congrArg _ (waiting_launch c rfl)) rfl ?_
    rw [reading, reading, hrunning]
    rfl

theorem reads_onConnected (c : TcpClient) (hrunning : c.running = none)
    (hexclusive : c.is_connecting_ = true → c.is_connected_ = false) (generation : ℕ)
    (result : Option Bytes) :
    Reading.Step (c.reading received handed) ({ (c.onConnected generation result).1 with
      running := (c.onConnected generation result).2 }.reading received handed) := by
  rcases c.onConnected_cases generation result with
    ⟨-, heq⟩ | ⟨⟨hvalid, hconnecting⟩, ⟨⟨ended, -, heq⟩, htask⟩ | ⟨-, heq⟩⟩
  · rw [heq]
    refine reads_of c.quiet_same rfl rfl ?_
    rw [reading, reading, hrunning]
  · rw [heq, htask]
    refine reads_of c.quiet_same rfl rfl ?_
    rw [reading, reading, hrunning, hexclusive hconnecting]
  · obtain ⟨hactive, hgeneration⟩ : generation = c.active_connect_generation_ ∧
        generation = c.disconnect_generation_ := by
      simpa [isValidGeneration] using hvalid
    rw [heq]
    exact reads_of (.establish (hexclusive hconnecting) (hactive.symm.trans hgeneration)) rfl rfl
      rfl

theorem reads_onDisconnect (c : TcpClient) (hrunning : c.running = none) (failed : Option ℕ) :
    Reading.Step (c.reading received handed)
      ({ c.onDisconnect failed with running := none }.reading received handed) := by
  have hfree : (c.reading received handed).chore = .other := by
    rw [reading, hrunning]
    rfl
  rcases c.onDisconnect_cases failed with ⟨hdown, -, heq⟩ | heq <;> rw [heq]
  · refine reads_of (.skip hdown) rfl rfl ?_
    rw [reading, reading, hrunning]
  · refine reads_of (.disconnect hfree) rfl rfl ?_
    rw [reading, reading, hrunning]

/-- A free handler stays free, or one of a write is about to raise the flag. -/
theorem reads_task (c : TcpClient) (hrunning : c.running = none) {task : Option Task}
    (htask : (choreOf task).isRead = false) {queue : List QueuedFrame} {writing : Bool}
    {accepted : List (ℕ × QueuedFrame)} :
    Reading.Step (c.reading received handed) ({ c with
      write_queue_ := queue, is_writing_ := writing, accepted := accepted,
      running := task }.reading received handed) := by
  have hfree : (c.reading received handed).chore = .other := by
    rw [reading, hrunning]
    rfl
  refine reads_of (.quiet (fun h => h) (.inr ⟨?_, htask, fun h => ?_⟩)) rfl rfl rfl
  · rw [hfree]
    rfl
  · rw [hfree] at h
    cases h

theorem reads_onSend (c : TcpClient) (hrunning : c.running = none) (frame : QueuedFrame) :
    Reading.Step (c.reading received handed) ({ (c.onSend frame).1 with
      running := (c.onSend frame).2 }.reading received handed) := by
  by_cases hdropped : (!c.is_connected_ || c.disconnect_requested_) = true
  · rw [show c.onSend frame = (c, none) from if_pos hdropped]
    exact c.reads_task hrunning rfl
  · have htask : (choreOf (if !c.is_writing_ then some .doWrite else none)).isRead = false := by
      split_ifs <;> rfl
    rw [show c.onSend frame = ({ c with
        write_queue_ := c.write_queue_ ++ [frame]
        accepted := c.accepted ++ [(c.active_connect_generation_, frame)] },
          if !c.is_writing_ then some .doWrite else none) from if_neg hdropped]
    exact c.reads_task hrunning htask

/-- The completion of a write changes the queue, and leaves nothing to do for the reader. -/
theorem onWritten_cases (c : TcpClient) (generation : ℕ) (frame : QueuedFrame)
    (result : Option Bytes) : ∃ queue writing task,
      c.onWritten generation frame result =
        ({ c with write_queue_ := queue, is_writing_ := writing }, task) ∧
      (choreOf task).isRead = false := by
  by_cases hcurrent : c.writer.Current generation
  · cases result with
    | none =>
      obtain ⟨hactive, hgeneration, hup⟩ := hcurrent
      change generation = c.active_connect_generation_ at hactive
      change generation = c.disconnect_generation_ at hgeneration
      change c.is_connected_ = true at hup
      exact ⟨_, _, _, if_neg (by simp [← hactive, ← hgeneration, hup]), rfl⟩
    | some bytes =>
      refine ⟨_, _, _, onWritten_success c frame bytes hcurrent rfl, ?_⟩
      split_ifs <;> rfl
  · refine ⟨c.write_queue_, c.is_writing_, none, if_pos ?_, rfl⟩
    by_contra hvalid
    obtain ⟨⟨hactive, hgeneration⟩, hup⟩ : (generation = c.active_connect_generation_ ∧
        generation = c.disconnect_generation_) ∧ c.is_connected_ = true := by
      simpa using hvalid
    exact hcurrent ⟨hactive, hgeneration, hup⟩

theorem reads_onWritten (c : TcpClient) (hrunning : c.running = none) (generation : ℕ)
    (frame : QueuedFrame) (result : Option Bytes) :
    Reading.Step (c.reading received handed) ({ (c.onWritten generation frame result).1 with
      running := (c.onWritten generation frame result).2 }.reading received handed) := by
  obtain ⟨queue, writing, task, heq, htask⟩ := c.onWritten_cases generation frame result
  rw [heq]
  exact c.reads_task hrunning htask

/-- The completion of a read is ignored, asks for a disconnect, or brings payloads. -/
theorem reads_onRead (c : TcpClient) (hrunning : c.running = none) {generation : ℕ}
    {result : Option Bytes} (hstrand : c.strand = .completion (.read generation) result :: strand) :
    Reading.Step (c.reading received handed)
      ({ ({ c with strand := strand }.onRead generation result).1 with
        running := ({ c with strand := strand }.onRead generation result).2 }.reading
          received handed) := by
  have hfree : (c.reading received handed).chore = .other := by
    rw [reading, hrunning]
    rfl
  have harrived : (c.reading received handed).arrived =
      (generation, result) :: strand.filterMap Handler.read? := by
    change c.strand.filterMap Handler.read? = _
    rw [hstrand]
    rfl
  by_cases hignored :
      (!c.isValidGeneration generation || !c.is_connected_ || c.disconnect_requested_) = true
  · have heq : onRead { c with strand := strand } generation result =
        ({ c with strand := strand }, none) := if_pos hignored
    rw [heq]
    refine reads_of (.ignore harrived ?_) rfl rfl ?_
    · rcases Bool.or_eq_true_iff.mp hignored with hlate | hraised
      · refine .inl fun hcurrent => ?_
        obtain ⟨hactive, hgeneration, hup⟩ := hcurrent
        change generation = c.active_connect_generation_ at hactive
        change generation = c.disconnect_generation_ at hgeneration
        change c.is_connected_ = true at hup
        simp [isValidGeneration, ← hactive, ← hgeneration, hup] at hlate
      · exact .inr hraised
    · rw [reading, reading, hrunning]
  · obtain ⟨⟨⟨hactive, hgeneration⟩, hup⟩, hflag⟩ : ((generation = c.active_connect_generation_ ∧
        generation = c.disconnect_generation_) ∧ c.is_connected_ = true) ∧
          c.disconnect_requested_ = false := by
      simpa [isValidGeneration] using hignored
    have hcurrent : (c.reading received handed).Current generation := ⟨hactive, hgeneration, hup⟩
    cases result with
    | none =>
      have heq : onRead { c with strand := strand } generation none =
          ({ c with strand := strand }, some (.disconnect generation)) := if_neg hignored
      rw [heq]
      exact reads_of (.fail harrived hfree hcurrent) rfl rfl rfl
    | some chunk =>
      have hreceive : FrameCodec.receive ([], c.read_buffer_) chunk =
          FrameCodec.decoder.run (c.read_buffer_ ++ chunk) := by
        rw [FrameCodec.receive_eq_feed, Decoder.feed]
        rfl
      have heq : onRead { c with strand := strand } generation (some chunk) =
          ({ c with
            strand := strand
            read_buffer_ := (FrameCodec.decoder.run (c.read_buffer_ ++ chunk)).2 },
              some (.dispatch (FrameCodec.decoder.run (c.read_buffer_ ++ chunk)).1)) := by
        rw [← hreceive]
        exact if_neg hignored
      rw [heq]
      exact reads_of (.decode harrived hfree hcurrent hflag) rfl rfl rfl

theorem reads_handle (hexclusive : c.is_connecting_ = true → c.is_connected_ = false)
    (hrunning : c.running = none) (hstrand : c.strand = handler :: strand) :
    Reading.Step (c.reading received handed) ({ ({ c with strand := strand }.handle handler).1 with
      running := ({ c with strand := strand }.handle handler).2 }.reading received handed) := by
  cases handler with
  | connect call on_connect =>
    rw [← reading_pop hstrand rfl]
    exact reads_onConnect { c with strand := strand } hrunning call on_connect
  | send frame =>
    rw [← reading_pop hstrand rfl]
    exact reads_onSend { c with strand := strand } hrunning frame
  | disconnect failed =>
    rw [← reading_pop hstrand rfl]
    exact reads_onDisconnect { c with strand := strand } hrunning failed
  | completion operation result =>
    cases operation with
    | resolve generation call =>
      rw [← reading_pop hstrand rfl]
      exact reads_onResolved { c with strand := strand } hrunning generation call result
    | connect generation call =>
      rw [← reading_pop hstrand rfl]
      exact reads_onConnected { c with strand := strand } hrunning hexclusive generation result
    | read generation => exact reads_onRead c hrunning hstrand
    | write generation frame =>
      rw [← reading_pop hstrand rfl]
      exact reads_onWritten { c with strand := strand } hrunning generation frame result

theorem reads_doWrite (hrunning : c.running = some .doWrite) :
    Reading.Step (c.reading received handed)
      ({ c.doWrite with running := none }.reading received handed) := by
  by_cases hgone : (!c.is_connected_ || c.disconnect_requested_) = true
  · rw [doWrite, if_pos hgone]
    refine reads_of c.quiet_same rfl rfl ?_
    rw [reading, reading, hrunning]
    rfl
  · cases hqueue : c.write_queue_ with
    | nil =>
      have heq : c.doWrite = { c with is_writing_ := false } := by
        rw [doWrite, if_neg hgone, hqueue]
      rw [heq]
      refine reads_of c.quiet_same rfl rfl ?_
      rw [reading, reading, hrunning]
      rfl
    | cons frame queue =>
      have heq : c.doWrite = { c with
          is_writing_ := true
          written := c.written ++ [(c.active_connect_generation_, frame)] }.launch
            (.write c.active_connect_generation_ frame) := by
        rw [doWrite, if_neg hgone, hqueue]
      rw [heq]
      refine reads_of c.quiet_same (congrArg _ (waiting_launch _ rfl)) rfl ?_
      rw [reading, reading, hrunning]
      rfl

theorem reads_doRead (hrunning : c.running = some .doRead) :
    Reading.Step (c.reading received handed)
      ({ c.doRead with running := none }.reading received handed) := by
  have hchore : (c.reading received handed).chore = .read [] := by
    rw [reading, hrunning]
    rfl
  by_cases hstopped : (!c.is_connected_ || c.disconnect_requested_) = true
  · rw [doRead, if_pos hstopped]
    refine reads_of (.rest hchore ?_) rfl rfl rfl
    rcases Bool.or_eq_true_iff.mp hstopped with hdown | hflag
    · exact .inl (Bool.not_eq_true' _ ▸ hdown)
    · exact .inr hflag
  · obtain ⟨hup, hflag⟩ : c.is_connected_ = true ∧ c.disconnect_requested_ = false := by
      simpa using hstopped
    rw [doRead, if_neg hstopped]
    refine reads_of (.launch hchore hup hflag) ?_ rfl rfl
    change (↑((c.operations ++ [_]).filterMap Operation.read?) : Multiset ℕ) =
      _ ::ₘ ↑(c.operations.filterMap Operation.read?)
    rw [List.filterMap_append, Multiset.cons_coe, Multiset.coe_eq_coe]
    exact List.perm_append_comm

theorem reads_dispatch {payloads : List PayloadView}
    (hrunning : c.running = some (.dispatch payloads)) :
    Reading.Step (c.reading received handed)
      ({ (c.perform (.dispatch payloads)).1 with
        running := (c.perform (.dispatch payloads)).2 }.reading received
          (handed ++ c.hands .resume)) := by
  have hchore : (c.reading received handed).chore = .read payloads := by
    rw [reading, hrunning]
    rfl
  cases payloads with
  | nil =>
    have hnothing : c.hands .resume = [] := by rw [hands, hrunning]
    rw [hnothing, List.append_nil]
    refine reads_of c.quiet_same rfl rfl ?_
    rw [reading, reading, hrunning]
    rfl
  | cons payload payloads =>
    by_cases hraised : c.disconnect_requested_ = true
    · have hnothing : c.hands .resume = [] := by
        rw [hands, hrunning]
        simp [hraised]
      rw [hnothing, List.append_nil, perform, if_pos hraised]
      exact reads_of (.drop hchore hraised) rfl rfl rfl
    · have hflag := Bool.eq_false_of_not_eq_true hraised
      by_cases hcb : c.message_cb_ = true
      · have hone : c.hands .resume = [(c.active_connect_generation_, payload)] := by
          rw [hands, hrunning]
          simp [hflag, hcb]
        rw [hone, perform, if_neg hraised, if_pos hcb]
        exact reads_of (.hand hchore hflag hcb) rfl rfl rfl
      · have hnothing : c.hands .resume = [] := by
          rw [hands, hrunning]
          simp [hcb]
        rw [hnothing, List.append_nil, perform, if_neg hraised, if_neg hcb]
        exact reads_of (.pass hchore (Bool.eq_false_of_not_eq_true hcb)) rfl rfl rfl

theorem reads_dispatched {payloads : List PayloadView}
    (hrunning : c.running = some (.dispatched payloads)) :
    Reading.Step (c.reading received handed)
      ({ (c.perform (.dispatched payloads)).1 with
        running := (c.perform (.dispatched payloads)).2 }.reading received handed) := by
  have hchore : (c.reading received handed).chore = .read payloads := by
    rw [reading, hrunning]
    rfl
  by_cases hraised : c.disconnect_requested_ = true
  · rw [perform, if_pos hraised]
    exact reads_of (.drop hchore hraised) rfl rfl rfl
  · rw [perform, if_neg hraised]
    refine reads_of c.quiet_same rfl rfl ?_
    rw [reading, reading, hrunning]
    rfl

theorem reads_finishRead (hrunning : c.running = some .finishRead) :
    Reading.Step (c.reading received handed) ({ (c.perform .finishRead).1 with
      running := (c.perform .finishRead).2 }.reading received handed) := by
  have hchore : (c.reading received handed).chore = .read [] := by
    rw [reading, hrunning]
    rfl
  by_cases hstopped : (!c.is_connected_ || c.disconnect_requested_) = true
  · rw [perform, if_pos hstopped]
    refine reads_of (.rest hchore ?_) rfl rfl rfl
    rcases Bool.or_eq_true_iff.mp hstopped with hdown | hflag
    · exact .inl (Bool.not_eq_true' _ ▸ hdown)
    · exact .inr hflag
  · rw [perform, if_neg hstopped]
    refine reads_of c.quiet_same rfl rfl ?_
    rw [reading, reading, hrunning]
    rfl

theorem hands_eq_nil {task : Task} (hrunning : c.running = some task)
    (htask : ∀ payloads, task ≠ .dispatch payloads) : c.hands .resume = [] := by
  rw [hands, hrunning]
  cases task with
  | dispatch payloads => exact absurd rfl (htask payloads)
  | _ => rfl

theorem reads_perform {task : Task} (hrunning : c.running = some task) :
    Reading.Step (c.reading received handed) ({ (c.perform task).1 with
      running := (c.perform task).2 }.reading received (handed ++ c.hands .resume)) := by
  by_cases hdispatch : ∃ payloads, task = .dispatch payloads
  · obtain ⟨payloads, rfl⟩ := hdispatch
    exact reads_dispatch hrunning
  · rw [hands_eq_nil hrunning fun payloads h => hdispatch ⟨payloads, h⟩, List.append_nil]
    cases task with
    | disconnect failed =>
      have hfail : (c.reading received handed).chore = .fail := by
        rw [reading, hrunning]
        rfl
      rw [perform, requestDisconnect, tell_eq]
      refine reads_of (.quiet (fun _ => rfl) (.inr ⟨?_, rfl, fun _ => rfl⟩)) rfl rfl rfl
      rw [hfail]
      rfl
    | postDisconnect failed =>
      rw [perform, postDisconnect, tell_eq]
      refine reads_of c.quiet_same rfl (arrived_post c rfl) ?_
      rw [reading, reading, hrunning]
      rfl
    | doRead => exact reads_doRead hrunning
    | doWrite => exact reads_doWrite hrunning
    | dispatch payloads => exact absurd ⟨payloads, rfl⟩ hdispatch
    | dispatched payloads => exact reads_dispatched hrunning
    | finishRead => exact reads_finishRead hrunning

/-- A read ends; its completion handler is still to run. -/
theorem reads_complete {i : ℕ} {operation : Operation} {result : Option Bytes}
    (hi : c.operations[i]? = some operation) :
    Reading.Step (c.reading received handed)
      (({ c with operations := c.operations.eraseIdx i }.complete operation result).reading
        (received ++ c.brings (.complete i result)) handed) := by
  obtain ⟨hlt, heq⟩ := List.getElem?_eq_some_iff.mp hi
  have hoperations := (List.getElem_cons_eraseIdx_perm hlt).filterMap Operation.read?
  rw [heq] at hoperations
  cases hread : operation.read? with
  | none =>
    have hcompletion : Handler.read? (.completion operation result) = none := by
      cases operation with
      | read generation => cases hread
      | _ => rfl
    have hnothing : c.brings (.complete i result) = [] := by
      cases result with
      | none => rfl
      | some chunk =>
        rw [brings, hi]
        cases operation with
        | read generation => cases hread
        | _ => rfl
    rw [List.filterMap_cons_none hread] at hoperations
    rw [hnothing, List.append_nil]
    exact reads_of c.quiet_same (Multiset.coe_eq_coe.mpr hoperations)
      (arrived_post _ hcompletion) rfl
  | some generation =>
    obtain rfl : operation = .read generation := by
      cases operation with
      | read other => exact congrArg _ (Option.some.inj hread)
      | _ => cases hread
    have hchunk : c.brings (.complete i result) = result.toList.map (generation, ·) := by
      cases result with
      | none => rfl
      | some chunk =>
        rw [brings, hi]
        rfl
    rw [List.filterMap_cons_some hread] at hoperations
    rw [hchunk]
    have hwaiting : (c.reading received handed).waiting = generation ::ₘ
        ((c.operations.eraseIdx i).filterMap Operation.read? : Multiset ℕ) :=
      Multiset.coe_eq_coe.mpr hoperations.symm
    refine reads_of (.arrive result hwaiting) rfl ?_ rfl
    exact List.filterMap_append

theorem reads_unlogged {label : Label} (hbrings : c.brings label = [])
    (hhands : c.hands label = [])
    (h : Reading.Step (c.reading received handed) (c'.reading received handed)) :
    Reading.Step (c.reading received handed)
      (c'.reading (received ++ c.brings label) (handed ++ c.hands label)) := by
  rw [hbrings, hhands, List.append_nil, List.append_nil]
  exact h

/-- The reader of a client that takes a step takes one. -/
theorem reads_step (hexclusive : c.is_connecting_ = true → c.is_connected_ = false)
    {label : Label} (h : c.step label = some c') :
    Reading.Step (c.reading received handed)
      (c'.reading (received ++ c.brings label) (handed ++ c.hands label)) := by
  cases transition_of_step h with
  | connect on_connect =>
    exact reads_unlogged rfl rfl (reads_of c.quiet_same rfl (arrived_post c rfl) rfl)
  | send data frame =>
    exact reads_unlogged rfl rfl (reads_of c.quiet_same rfl (arrived_post c rfl) rfl)
  | refuse data => exact reads_unlogged rfl rfl c.quiet_same
  | disconnect =>
    rw [requestDisconnect, tell_eq]
    exact reads_unlogged rfl rfl (reads_of (.quiet (fun _ => rfl) (.inl rfl)) rfl rfl rfl)
  | postDisconnect =>
    rw [postDisconnect, tell_eq]
    exact reads_unlogged rfl rfl (reads_of c.quiet_same rfl (arrived_post c rfl) rfl)
  | complete i operation result hi =>
    rw [show c.hands (.complete i result) = [] from rfl, List.append_nil]
    exact reads_complete hi
  | runHandler handler strand hrunning hstrand =>
    exact reads_unlogged rfl rfl (reads_handle hexclusive hrunning hstrand)
  | resume task hrunning =>
    rw [show c.brings .resume = [] from rfl, List.append_nil]
    exact reads_perform hrunning

/-! ### The owner's messages -/

/-- A handler hands no payload over before its first pause, and submits no frame. -/
theorem logs_handle (c : TcpClient) (handler : Handler) :
    (c.handle handler).1.messages = c.messages ∧ (c.handle handler).1.sends = c.sends := by
  cases handler with
  | connect call on_connect =>
    by_cases hbusy : (c.is_connected_ || c.is_connecting_) = true
    · rw [handle, onConnect, if_pos hbusy, invokeConnectCallback_eq]
      exact ⟨rfl, rfl⟩
    · rw [handle, onConnect, if_neg hbusy]
      exact ⟨rfl, rfl⟩
  | send frame =>
    rw [handle, onSend]
    split_ifs <;> exact ⟨rfl, rfl⟩
  | disconnect failed =>
    rcases c.onDisconnect_cases failed with ⟨-, -, heq⟩ | heq <;> rw [handle, heq] <;>
      exact ⟨rfl, rfl⟩
  | completion operation result =>
    cases operation with
    | resolve generation call =>
      rcases c.onResolved_cases generation call result with
        ⟨-, heq⟩ | ⟨-, ⟨ended, -, heq⟩ | heq⟩ <;> rw [handle, heq] <;> exact ⟨rfl, rfl⟩
    | connect generation call =>
      rcases c.onConnected_cases generation result with
        ⟨-, heq⟩ | ⟨-, ⟨⟨ended, -, heq⟩, -⟩ | ⟨-, heq⟩⟩ <;> rw [handle, heq] <;> exact ⟨rfl, rfl⟩
    | read generation =>
      rw [handle, onRead.eq_def]
      split_ifs
      · exact ⟨rfl, rfl⟩
      · cases result <;> exact ⟨rfl, rfl⟩
    | write generation frame =>
      obtain ⟨queue, writing, task, heq, -⟩ := c.onWritten_cases generation frame result
      rw [handle, heq]
      exact ⟨rfl, rfl⟩

/-- Nor does what is left of a handler, except for a payload that it dispatches. -/
theorem logs_perform (c : TcpClient) (task : Task) :
    ((∀ payloads, task ≠ .dispatch payloads) → (c.perform task).1.messages = c.messages) ∧
      (c.perform task).1.sends = c.sends := by
  cases task with
  | disconnect failed =>
    rw [perform, requestDisconnect, tell_eq]
    exact ⟨fun _ => rfl, rfl⟩
  | postDisconnect failed =>
    rw [perform, postDisconnect, tell_eq]
    exact ⟨fun _ => rfl, rfl⟩
  | doRead =>
    rw [perform, doRead]
    split_ifs <;> exact ⟨fun _ => rfl, rfl⟩
  | doWrite =>
    rw [perform, doWrite]
    split_ifs
    · exact ⟨fun _ => rfl, rfl⟩
    · cases c.write_queue_ <;> exact ⟨fun _ => rfl, rfl⟩
  | dispatch payloads =>
    refine ⟨fun htask => absurd rfl (htask payloads), ?_⟩
    cases payloads with
    | nil => rfl
    | cons payload payloads =>
      rw [perform]
      split_ifs <;> rfl
  | dispatched payloads =>
    rw [perform]
    split_ifs <;> exact ⟨fun _ => rfl, rfl⟩
  | finishRead =>
    rw [perform]
    split_ifs <;> exact ⟨fun _ => rfl, rfl⟩

theorem messages_dispatch {payloads : List PayloadView}
    (hrunning : c.running = some (.dispatch payloads)) :
    (c.perform (.dispatch payloads)).1.messages =
      c.messages ++ (c.hands .resume).map Prod.snd := by
  rw [hands, hrunning]
  cases payloads with
  | nil => exact (List.append_nil _).symm
  | cons payload payloads =>
    rw [perform]
    cases c.disconnect_requested_ <;> cases c.message_cb_ <;> simp

theorem messages_step {label : Label} (h : c.step label = some c') :
    c'.messages = c.messages ++ (c.hands label).map Prod.snd := by
  cases transition_of_step h with
  | connect | send | refuse | complete => exact (List.append_nil _).symm
  | disconnect =>
    rw [requestDisconnect, tell_eq]
    exact (List.append_nil _).symm
  | postDisconnect =>
    rw [postDisconnect, tell_eq]
    exact (List.append_nil _).symm
  | runHandler handler strand =>
    exact (logs_handle _ handler).1.trans (List.append_nil _).symm
  | resume task hrunning =>
    by_cases hdispatch : ∃ payloads, task = .dispatch payloads
    · obtain ⟨payloads, rfl⟩ := hdispatch
      exact messages_dispatch hrunning
    · have hother (payloads : List PayloadView) : task ≠ .dispatch payloads :=
        fun h => hdispatch ⟨payloads, h⟩
      rw [hands_eq_nil hrunning hother]
      exact ((c.logs_perform task).1 hother).trans (List.append_nil _).symm

end TcpClient

/-! ### Runs -/

namespace TcpReader

def reading (r : TcpReader) : Reading :=
  r.client.reading r.received r.handed

def step (r : TcpReader) (label : TcpClient.Label) : Option TcpReader :=
  (r.client.step label).map fun client =>
    { client := client
      received := r.received ++ r.client.brings label
      handed := r.handed ++ r.client.hands label }

def machine (message_cb disconnect_cb : Bool) : Machine TcpReader TcpClient.Label where
  init := { client := (TcpClient.machine message_cb disconnect_cb).init }
  step := step

variable {message_cb disconnect_cb : Bool} {labels : List TcpClient.Label} {r : TcpReader}

theorem step_eq_some {r r' : TcpReader} {label : TcpClient.Label} (h : r.step label = some r') :
    r.client.step label = some r'.client ∧ r'.received = r.received ++ r.client.brings label ∧
      r'.handed = r.handed ++ r.client.hands label := by
  obtain ⟨client, hclient, rfl⟩ := Option.map_eq_some_iff.mp h
  exact ⟨hclient, rfl, rfl⟩

/-- The logs follow the client and do not hold it up. -/
theorem run_client (hrun : (machine message_cb disconnect_cb).run labels = some r) :
    (TcpClient.machine message_cb disconnect_cb).run labels = some r.client := by
  refine Machine.run_induction (m := machine message_cb disconnect_cb)
    (motive := fun labels r =>
      (TcpClient.machine message_cb disconnect_cb).run labels = some r.client) rfl ?_ hrun
  intro labels r label r' _ hclient hstep
  exact Machine.run_concat.mpr ⟨r.client, hclient, (step_eq_some hstep).1⟩

theorem exists_run {c : TcpClient}
    (hrun : (TcpClient.machine message_cb disconnect_cb).run labels = some c) :
    ∃ r, (machine message_cb disconnect_cb).run labels = some r ∧ r.client = c := by
  refine Machine.run_induction (m := TcpClient.machine message_cb disconnect_cb)
    (motive := fun labels c =>
      ∃ r, (machine message_cb disconnect_cb).run labels = some r ∧ r.client = c)
    ⟨_, rfl, rfl⟩ ?_ hrun
  rintro labels - label c' - ⟨r, hr, rfl⟩ hstep
  exact ⟨_, Machine.run_concat.mpr ⟨r, hr, congrArg (Option.map _) hstep⟩, rfl⟩

theorem steady_of_run (hrun : (machine message_cb disconnect_cb).run labels = some r) :
    r.reading.Steady ∧ r.handed.map Prod.snd = r.client.messages := by
  refine Machine.run_induction (m := machine message_cb disconnect_cb)
    (motive := fun _ r => r.reading.Steady ∧ r.handed.map Prod.snd = r.client.messages)
    ⟨?_, rfl⟩ ?_ hrun
  · refine ⟨fun h => (by cases h), fun _ => ⟨rfl, rfl⟩, fun _ => Nat.zero_le _,
      fun generation h => absurd rfl h, fun _ h => (by cases h), fun _ h => (by cases h),
      fun generation => List.nil_prefix, fun h => (by cases h)⟩
  · rintro labels r label r' hr ⟨hsteady, hmessages⟩ hstep
    obtain ⟨hclient, hreceived, hhanded⟩ := step_eq_some hstep
    have hexclusive := (TcpClient.Attempting.of_run (run_client hr)).exclusive
    refine ⟨?_, ?_⟩
    · rw [reading, hreceived, hhanded]
      exact hsteady.step (TcpClient.reads_step hexclusive hclient)
    · rw [hhanded, List.map_append, hmessages, TcpClient.messages_step hclient]

theorem reads_eq (r : TcpReader) (generation : ℕ) :
    r.reading.reads generation = r.client.readsOf generation +
      if r.reading.chore.isRead = true ∧ generation = r.client.active_connect_generation_ then 1
      else 0 := by
  have hwaiting : r.reading.waiting.count generation =
      (r.client.operations.filterMap TcpClient.Operation.read?).count generation :=
    Multiset.coe_count _ _
  rw [Reading.reads, hwaiting]
  rfl

/-- The callback for messages is never set again. -/
theorem message_cb_of_run (hrun : (machine message_cb disconnect_cb).run labels = some r) :
    r.client.message_cb_ = message_cb := by
  refine Machine.run_induction (m := machine message_cb disconnect_cb)
    (motive := fun _ r => r.client.message_cb_ = message_cb) rfl ?_ hrun
  intro labels r label r' hr hmessage hstep
  obtain ⟨hclient, hreceived, hhanded⟩ := step_eq_some hstep
  have hexclusive := (TcpClient.Attempting.of_run (run_client hr)).exclusive
  have hreads : Reading.Step r.reading r'.reading := by
    rw [reading, reading, hreceived, hhanded]
    exact TcpClient.reads_step hexclusive hclient
  exact hreads.message_cb.trans hmessage

theorem readsOf_le (r : TcpReader) (generation : ℕ) :
    r.client.readsOf generation ≤ r.reading.reads generation := by
  rw [reads_eq]
  exact Nat.le_add_right _ _

/-- While the connection is wanted and no handler is suspended there is one read, and what came
before it has been handed over. -/
theorem served_of_run (hrun : (machine message_cb disconnect_cb).run labels = some r)
    (hup : r.client.is_connected_ = true) (hflag : r.client.disconnect_requested_ = false)
    (hidle : r.client.running = none) :
    r.client.readsOf r.client.active_connect_generation_ = 1 ∧
      (.read r.client.active_connect_generation_ ∈ r.client.operations →
        r.client.message_cb_ = true →
          (ofGeneration r.client.active_connect_generation_ r.handed, r.client.read_buffer_) =
            FrameCodec.decoder.run
              (ofGeneration r.client.active_connect_generation_ r.received).flatten) := by
  obtain ⟨hsteady, -⟩ := steady_of_run hrun
  have hchore : r.reading.chore = .other := by
    rw [reading, TcpClient.reading, hidle]
    rfl
  have hall (generation : ℕ) : r.reading.reads generation = r.client.readsOf generation := by
    rw [reads_eq, hchore]
    rfl
  have hserves := hsteady.serves hup hflag
  have hone : r.client.readsOf r.client.active_connect_generation_ = 1 := by
    refine (hall _).symm.trans (hserves.armed fun hfail => ?_)
    rw [hchore] at hfail
    cases hfail
  refine ⟨hone, fun hwaiting hcb => ?_⟩
  obtain ⟨handled, hreceived, hdecoded⟩ := hserves.whole hcb
  -- The one read waits, so no chunk is behind.
  have hbehind : ofGeneration r.client.active_connect_generation_ r.reading.undecoded = [] := by
    apply Reading.undecoded_eq_nil
    have hread : r.client.active_connect_generation_ ∈
        r.client.operations.filterMap TcpClient.Operation.read? :=
      List.mem_filterMap.mpr ⟨_, hwaiting, rfl⟩
    have hcount := List.count_pos_iff.mpr hread
    rw [TcpClient.readsOf] at hone
    exact (by omega : ((r.client.strand.filterMap TcpClient.Handler.read?).map Prod.fst).count
      r.client.active_connect_generation_ = 0)
  rw [hchore] at hdecoded
  have hwhole : ofGeneration r.client.active_connect_generation_ r.received = handled :=
    hreceived.trans ((congrArg (handled ++ ·) hbehind).trans (List.append_nil _))
  have hdecoded : (ofGeneration r.client.active_connect_generation_ r.handed ++ [],
      r.client.read_buffer_) = FrameCodec.decoder.run handled.flatten := hdecoded
  rw [hwhole, ← hdecoded, List.append_nil]

/-- In every run, on every connection: there is at most one read at a time, and the payloads
handed to the owner are the first that the bytes its reads brought decode to, in their order.
While the client is connected, nobody has asked for a disconnect and no handler is suspended,
there is exactly one read; if it waits for the peer and the owner has set a callback, all that
the bytes decode to has been handed over, and the buffer holds the rest. -/
theorem handed_of_run (hrun : (machine message_cb disconnect_cb).run labels = some r) :
    r.handed.map Prod.snd = r.client.messages ∧
    (∀ generation, r.client.readsOf generation ≤ 1 ∧
      ofGeneration generation r.handed <+:
        (FrameCodec.decoder.run (ofGeneration generation r.received).flatten).1) ∧
    (r.client.is_connected_ = true → r.client.disconnect_requested_ = false →
      r.client.running = none →
        r.client.readsOf r.client.active_connect_generation_ = 1 ∧
        (.read r.client.active_connect_generation_ ∈ r.client.operations →
          r.client.message_cb_ = true →
            (ofGeneration r.client.active_connect_generation_ r.handed, r.client.read_buffer_) =
              FrameCodec.decoder.run
                (ofGeneration r.client.active_connect_generation_ r.received).flatten)) := by
  obtain ⟨hsteady, hmessages⟩ := steady_of_run hrun
  refine ⟨hmessages, fun generation => ⟨?_, hsteady.first generation⟩, served_of_run hrun⟩
  exact (readsOf_le r generation).trans (hsteady.single generation)

/-- A frame comes in two pieces, and half of another just before the owner disconnects; the next
connection starts with an empty buffer. -/
def readAcross : List TcpClient.Label :=
  let frame (payload : Bytes) : Bytes :=
    [0xDE, 0xAD, 0xBE, 0xEF, 0, 0, 0, UInt8.ofNat payload.length] ++ payload
  [.connect true, .runHandler, .complete 0 (some []), .runHandler, .complete 0 (some []),
    .runHandler, .resume, .complete 0 (some ((frame [1]).take 5)), .runHandler, .resume, .resume,
    .resume, .complete 0 (some ((frame [1]).drop 5 ++ (frame [2]).take 3)), .runHandler, .resume,
    .resume, .resume, .resume, .resume, .disconnect, .postDisconnect, .runHandler,
    .complete 0 none, .runHandler, .connect true, .runHandler, .complete 0 (some []), .runHandler,
    .complete 0 (some []), .runHandler, .resume, .complete 0 (some (frame [3])), .runHandler,
    .resume, .resume, .resume, .resume, .resume]

theorem handed_readAcross : ∃ r, (machine true true).run readAcross = some r ∧
    r.handed = [(0, [1]), (1, [3])] ∧
    r.client.readsOf r.client.active_connect_generation_ = 1 ∧
    (ofGeneration r.client.active_connect_generation_ r.handed, r.client.read_buffer_) =
      FrameCodec.decoder.run
        (ofGeneration r.client.active_connect_generation_ r.received).flatten := by
  have hend : ∃ r ∈ (machine true true).run readAcross, r.handed = [(0, [1]), (1, [3])] ∧
      (r.client.is_connected_ = true ∧ r.client.disconnect_requested_ = false ∧
        r.client.running = none) ∧
      .read r.client.active_connect_generation_ ∈ r.client.operations ∧
      r.client.message_cb_ = true := by
    decide +kernel
  obtain ⟨r, hrun, hhanded, ⟨hup, hflag, hidle⟩, hwaiting, hcb⟩ := hend
  obtain ⟨-, -, hserved⟩ := handed_of_run hrun
  obtain ⟨hone, hwhole⟩ := hserved hup hflag hidle
  exact ⟨r, hrun, hhanded, hone, hwhole hwaiting hcb⟩

end TcpReader

end SpaceShooter.Client
