/-
# Frames stay on their connection, in order

Every step of the client is a step of its writer, so what holds of the writer holds in every
run: one write at a time on a connection, whose socket receives a beginning of what was
accepted for it, and no stall while the connection is wanted.
-/

import SpaceShooter.Client.TcpWriter

namespace SpaceShooter.Client.TcpClient

open Library Network

/-! ### Transfers on their way -/

variable {c c' : TcpClient} {handler : Handler} {strand : List Handler}

theorem outstanding_post (c : TcpClient) (h : handler.write? = none) :
    (c.post handler).outstanding = c.outstanding := by
  rw [outstanding, post, List.filterMap_append, List.filterMap_cons_none h, List.filterMap_nil,
    List.append_nil]
  rfl

theorem posted_post (c : TcpClient) (h : handler.frame? = none) :
    (c.post handler).posted = c.posted := by
  rw [posted, post, List.filterMap_append, List.filterMap_cons_none h, List.filterMap_nil,
    List.append_nil]
  rfl

theorem outstanding_launch (c : TcpClient) {operation : Operation} (h : operation.write? = none) :
    (c.launch operation).outstanding = c.outstanding := by
  rw [outstanding, launch, List.filterMap_append, List.filterMap_cons_none h, List.filterMap_nil,
    List.append_nil]
  rfl

/-- A handler that has nothing to do with frames leaves the strand. -/
theorem writer_pop (hstrand : c.strand = handler :: strand) (hwrite : handler.write? = none)
    (hframe : handler.frame? = none) : { c with strand := strand }.writer = c.writer := by
  have houtstanding : { c with strand := strand }.outstanding = c.outstanding := by
    rw [outstanding, outstanding, hstrand, List.filterMap_cons_none hwrite]
  have hposted : { c with strand := strand }.posted = c.posted := by
    rw [posted, posted, hstrand, List.filterMap_cons_none hframe]
  rw [writer, writer, houtstanding, hposted]

/-- An operation ends; its completion handler is still to run. -/
theorem outstanding_complete {i : ℕ} {operation : Operation}
    (hi : c.operations[i]? = some operation) (result : Option Bytes) :
    ({ c with operations := c.operations.eraseIdx i }.complete operation result).outstanding =
      c.outstanding := by
  obtain ⟨hlt, heq⟩ := List.getElem?_eq_some_iff.mp hi
  have hoperations := (List.getElem_cons_eraseIdx_perm hlt).filterMap Operation.write?
  rw [heq] at hoperations
  refine Multiset.coe_eq_coe.mpr ?_
  change ((c.operations.eraseIdx i).filterMap Operation.write? ++
    (c.strand ++ [Handler.completion operation result]).filterMap Handler.write?).Perm _
  rw [List.filterMap_append]
  cases h : operation.write? with
  | none =>
    have hcompletion : Handler.write? (.completion operation result) = none := h
    rw [List.filterMap_cons_none h] at hoperations
    rw [List.filterMap_cons_none hcompletion, List.filterMap_nil, List.append_nil]
    exact hoperations.append_right _
  | some write =>
    have hcompletion : Handler.write? (.completion operation result) = some write := h
    rw [List.filterMap_cons_some h] at hoperations
    rw [List.filterMap_cons_some hcompletion, List.filterMap_nil, ← List.append_assoc]
    exact List.perm_append_comm.trans (hoperations.append_right _)

/-! ### Every step is a step of the writer -/

/-- A client that moves to where a step of its writer leads. -/
theorem step_of {w : Writer} (hstep : Writer.Step c.writer w)
    (houtstanding : c'.outstanding = w.outstanding) (hposted : c'.posted = w.posted)
    (hsame : { c'.writer with outstanding := w.outstanding, posted := w.posted } = w) :
    Writer.Step c.writer c'.writer := by
  have heq : c'.writer = w := by
    rw [← hsame, ← houtstanding, ← hposted]
    rfl
  rw [heq]
  exact hstep

theorem step_onConnect (c : TcpClient) (hrunning : c.running = none) (call : ℕ)
    (on_connect : Bool) :
    Writer.Step c.writer { c.onConnect call on_connect with running := none }.writer := by
  by_cases hbusy : (c.is_connected_ || c.is_connecting_) = true
  · rw [onConnect, if_pos hbusy, invokeConnectCallback_eq]
    refine step_of (.quiet (fun h => h) (.inl rfl)) rfl rfl ?_
    rw [writer, writer, hrunning]
  · obtain ⟨hdown, -⟩ := Bool.or_eq_false_iff.mp (Bool.not_eq_true _ ▸ hbusy)
    rw [onConnect, if_neg hbusy]
    refine step_of (.connect hdown) (outstanding_launch c rfl) rfl ?_
    rw [writer, writer, hrunning]
    rfl

theorem step_onResolved (c : TcpClient) (hrunning : c.running = none) (generation call : ℕ)
    (result : Option Bytes) :
    Writer.Step c.writer { c.onResolved generation call result with running := none }.writer := by
  have hquiet : Writer.Step c.writer c.writer := .quiet (fun h => h) (.inl rfl)
  rcases c.onResolved_cases generation call result with
    ⟨-, heq⟩ | ⟨-, ⟨ended, -, heq⟩ | heq⟩ <;> rw [heq]
  · refine step_of hquiet rfl rfl ?_
    rw [writer, writer, hrunning]
  · refine step_of hquiet rfl rfl ?_
    rw [writer, writer, hrunning]
  · refine step_of hquiet (outstanding_launch c rfl) rfl ?_
    rw [writer, writer, hrunning]
    rfl

theorem step_onConnected (c : TcpClient) (hrunning : c.running = none)
    (hexclusive : c.is_connecting_ = true → c.is_connected_ = false) (generation : ℕ)
    (result : Option Bytes) :
    Writer.Step c.writer { (c.onConnected generation result).1 with
      running := (c.onConnected generation result).2 }.writer := by
  have hquiet : Writer.Step c.writer c.writer := .quiet (fun h => h) (.inl rfl)
  rcases c.onConnected_cases generation result with
    ⟨-, heq⟩ | ⟨⟨hvalid, hconnecting⟩, ⟨⟨ended, -, heq⟩, htask⟩ | ⟨-, heq⟩⟩
  · rw [heq]
    refine step_of hquiet rfl rfl ?_
    rw [writer, writer, hrunning]
  · rw [heq, htask]
    refine step_of hquiet rfl rfl ?_
    rw [writer, writer, hrunning, hexclusive hconnecting]
  · obtain ⟨hactive, hgeneration⟩ : generation = c.active_connect_generation_ ∧
        generation = c.disconnect_generation_ := by
      simpa [isValidGeneration] using hvalid
    rw [heq]
    refine step_of (.establish (hexclusive hconnecting) (hactive.symm.trans hgeneration)) rfl rfl ?_
    rw [writer, writer, hrunning]
    rfl

theorem step_onDisconnect (c : TcpClient) (hrunning : c.running = none) (failed : Option ℕ) :
    Writer.Step c.writer { c.onDisconnect failed with running := none }.writer := by
  have hfree : c.writer.duty = .free := by rw [writer, hrunning]; rfl
  rcases c.onDisconnect_cases failed with ⟨hdown, -, heq⟩ | heq <;> rw [heq]
  · refine step_of (.skip hdown) rfl rfl ?_
    rw [writer, writer, hrunning]
  · refine step_of (.disconnect hfree) rfl rfl ?_
    rw [writer, writer, hrunning]

/-- A free writer stays free, or a handler of another kind is about to raise the flag. -/
theorem step_task (c : TcpClient) (hrunning : c.running = none) {task : Option Task}
    (htask : Duty.of task ≠ .write) {buffer : Bytes} {messages : List PayloadView} :
    Writer.Step c.writer { c with
      read_buffer_ := buffer, messages := messages, running := task }.writer := by
  have hfree : c.writer.duty = .free := by rw [writer, hrunning]; rfl
  refine step_of (.quiet (fun h => h) (.inr ⟨?_, htask, fun h => ?_⟩)) rfl rfl rfl
  · rw [hfree]
    exact fun h => by cases h
  · cases hfree.symm.trans h

theorem step_onRead (c : TcpClient) (hrunning : c.running = none) (generation : ℕ)
    (result : Option Bytes) :
    Writer.Step c.writer { (c.onRead generation result).1 with
      running := (c.onRead generation result).2 }.writer := by
  by_cases hignored :
      (!c.isValidGeneration generation || !c.is_connected_ || c.disconnect_requested_) = true
  · rw [show c.onRead generation result = (c, none) from if_pos hignored]
    exact c.step_task hrunning fun h => by cases h
  · cases result with
    | none =>
      rw [show c.onRead generation none = (c, some (.disconnect generation)) from
        if_neg hignored]
      exact c.step_task hrunning fun h => by cases h
    | some chunk =>
      rw [show c.onRead generation (some chunk) = _ from if_neg hignored]
      exact c.step_task hrunning fun h => by cases h

theorem step_onSend (c : TcpClient) (hrunning : c.running = none) {frame : QueuedFrame}
    (hstrand : c.strand = .send frame :: strand) :
    Writer.Step c.writer { ({ c with strand := strand }.onSend frame).1 with
      running := ({ c with strand := strand }.onSend frame).2 }.writer := by
  have hfree : c.writer.duty = .free := by rw [writer, hrunning]; rfl
  have hposted : c.posted = frame :: strand.filterMap Handler.frame? := by
    rw [posted, hstrand]
    exact List.filterMap_cons_some rfl
  have houtstanding : { c with strand := strand }.outstanding = c.outstanding := by
    rw [outstanding, outstanding, hstrand]
    rfl
  by_cases hdropped : (!c.is_connected_ || c.disconnect_requested_) = true
  · have heq : onSend { c with strand := strand } frame = ({ c with strand := strand }, none) :=
      if_pos hdropped
    rw [heq]
    refine step_of (.drop hposted) houtstanding rfl ?_
    rw [writer, writer, hrunning]
  · obtain ⟨hup, hflag⟩ : c.is_connected_ = true ∧ c.disconnect_requested_ = false := by
      simpa using hdropped
    have heq : onSend { c with strand := strand } frame = _ := if_neg hdropped
    rw [heq]
    refine step_of (.accept hfree hup hflag hposted) houtstanding rfl ?_
    rw [writer, writer]
    cases c.is_writing_ <;> rfl

/-- The end of a write of the connection that is up. -/
theorem onWritten_success (c : TcpClient) {generation : ℕ} (frame : QueuedFrame) (bytes : Bytes)
    (hcurrent : c.writer.Current generation) {queue : List QueuedFrame}
    (hqueue : queue =
      if c.write_queue_.head? = some frame then c.write_queue_.tail else c.write_queue_) :
    c.onWritten generation frame (some bytes) = ({ c with
      write_queue_ := queue
      is_writing_ := if queue.isEmpty then false else c.is_writing_ },
        if queue.isEmpty then none else some .doWrite) := by
  obtain ⟨hactive, hgeneration, hup⟩ := hcurrent
  change generation = c.active_connect_generation_ at hactive
  change generation = c.disconnect_generation_ at hgeneration
  change c.is_connected_ = true at hup
  have hcurrent : ¬ (generation ≠ c.active_connect_generation_ ||
      generation ≠ c.disconnect_generation_ || !c.is_connected_) = true := by
    simp [← hactive, ← hgeneration, hup]
  have hpop : (if c.write_queue_.head? = some frame then { c with
      write_queue_ := c.write_queue_.tail } else c) = { c with write_queue_ := queue } := by
    rw [hqueue]
    split_ifs <;> rfl
  refine (if_neg hcurrent).trans ?_
  dsimp only
  rw [hpop, hup]
  cases queue <;> rfl

theorem step_onWritten (c : TcpClient) (hrunning : c.running = none) {generation : ℕ}
    {frame : QueuedFrame} {result : Option Bytes}
    (hstrand : c.strand = .completion (.write generation frame) result :: strand) :
    Writer.Step c.writer { ({ c with strand := strand }.onWritten generation frame result).1 with
      running := ({ c with strand := strand }.onWritten generation frame result).2 }.writer := by
  have hfree : c.writer.duty = .free := by rw [writer, hrunning]; rfl
  have houtstanding : c.writer.outstanding =
      (generation, frame) ::ₘ { c with strand := strand }.outstanding := by
    change c.outstanding = _
    rw [outstanding, outstanding, hstrand, Multiset.cons_coe, Multiset.coe_eq_coe]
    exact List.perm_middle
  have hposted : { c with strand := strand }.posted = c.posted := by
    rw [posted, posted, hstrand]
    rfl
  -- The handler ignores exactly the writes of a connection that is over.
  by_cases hignored : (generation ≠ c.active_connect_generation_ ||
      generation ≠ c.disconnect_generation_ || !c.is_connected_) = true
  · have heq : onWritten { c with strand := strand } generation frame result =
        ({ c with strand := strand }, none) := if_pos hignored
    rw [heq]
    have hlate : ¬ c.writer.Current generation := by
      rintro ⟨hactive, hgeneration, hup⟩
      change generation = c.active_connect_generation_ at hactive
      change generation = c.disconnect_generation_ at hgeneration
      change c.is_connected_ = true at hup
      simp [← hactive, ← hgeneration, hup] at hignored
    refine step_of (.late houtstanding hlate) rfl hposted ?_
    rw [writer, writer, hrunning]
  · have hcurrent : c.writer.Current generation := by
      obtain ⟨⟨hactive, hgeneration⟩, hup⟩ : (generation = c.active_connect_generation_ ∧
          generation = c.disconnect_generation_) ∧ c.is_connected_ = true := by
        simpa using hignored
      exact ⟨hactive, hgeneration, hup⟩
    cases result with
    | none =>
      have heq : onWritten { c with strand := strand } generation frame none =
          ({ c with strand := strand }, some (.disconnect generation)) := if_neg hignored
      rw [heq]
      exact step_of (.fail houtstanding hfree hcurrent) rfl hposted rfl
    | some bytes =>
      rw [onWritten_success { c with strand := strand } frame bytes hcurrent rfl]
      refine step_of (.finish houtstanding hfree hcurrent rfl) rfl hposted ?_
      rw [writer, writer]
      dsimp only
      split_ifs <;> rfl

theorem step_handle (hexclusive : c.is_connecting_ = true → c.is_connected_ = false)
    (hrunning : c.running = none) (hstrand : c.strand = handler :: strand) :
    Writer.Step c.writer { ({ c with strand := strand }.handle handler).1 with
      running := ({ c with strand := strand }.handle handler).2 }.writer := by
  cases handler with
  | connect call on_connect =>
    rw [← writer_pop hstrand rfl rfl]
    exact step_onConnect { c with strand := strand } hrunning call on_connect
  | send frame => exact step_onSend c hrunning hstrand
  | disconnect failed =>
    rw [← writer_pop hstrand rfl rfl]
    exact step_onDisconnect { c with strand := strand } hrunning failed
  | completion operation result =>
    cases operation with
    | resolve generation call =>
      rw [← writer_pop hstrand rfl rfl]
      exact step_onResolved { c with strand := strand } hrunning generation call result
    | connect generation call =>
      rw [← writer_pop hstrand rfl rfl]
      exact step_onConnected { c with strand := strand } hrunning hexclusive generation result
    | read generation =>
      rw [← writer_pop hstrand rfl rfl]
      exact step_onRead { c with strand := strand } hrunning generation result
    | write generation frame => exact step_onWritten c hrunning hstrand

/-- The tasks of other handlers. -/
theorem step_idle (hduty : Duty.of c.running = .free) {task : Option Task}
    (htask : Duty.of task = .free) {messages : List PayloadView} :
    Writer.Step c.writer { c with messages := messages, running := task }.writer := by
  refine step_of (.quiet (fun h => h) (.inl rfl)) rfl rfl ?_
  rw [writer, writer, hduty, htask]

theorem step_doWrite (hrunning : c.running = some .doWrite) :
    Writer.Step c.writer { c.doWrite with running := none }.writer := by
  have hduty : c.writer.duty = .write := by rw [writer, hrunning]; rfl
  by_cases hgone : (!c.is_connected_ || c.disconnect_requested_) = true
  · have hnothing : c.is_connected_ = false ∨ c.disconnect_requested_ = true ∨
        c.write_queue_ = [] := by
      rcases Bool.or_eq_true_iff.mp hgone with hdown | hflag
      · exact .inl (Bool.not_eq_true' _ ▸ hdown)
      · exact .inr (.inl hflag)
    rw [doWrite, if_pos hgone]
    exact step_of (.rest hduty hnothing) rfl rfl rfl
  · obtain ⟨hup, -⟩ : c.is_connected_ = true ∧ c.disconnect_requested_ = false := by
      simpa using hgone
    cases hqueue : c.write_queue_ with
    | nil =>
      have heq : c.doWrite = { c with is_writing_ := false } := by
        rw [doWrite, if_neg hgone, hqueue]
      rw [heq]
      exact step_of (.rest hduty (.inr (.inr hqueue))) rfl rfl rfl
    | cons frame queue =>
      have heq : c.doWrite = { c with
          is_writing_ := true
          written := c.written ++ [(c.active_connect_generation_, frame)] }.launch
            (.write c.active_connect_generation_ frame) := by
        rw [doWrite, if_neg hgone, hqueue]
      rw [heq]
      refine step_of (.hand hduty hup hqueue) ?_ rfl rfl
      change (↑((c.operations ++ [_]).filterMap Operation.write? ++
        c.strand.filterMap Handler.write?) : Multiset (ℕ × QueuedFrame)) = _ ::ₘ c.outstanding
      rw [List.filterMap_append, outstanding, Multiset.cons_coe, Multiset.coe_eq_coe,
        List.append_assoc]
      exact List.perm_middle

theorem step_perform {task : Task} (hrunning : c.running = some task) :
    Writer.Step c.writer { (c.perform task).1 with running := (c.perform task).2 }.writer := by
  cases task with
  | disconnect failed =>
    -- The request raises the flag, and the duty ends.
    have hwrites : c.writer.duty ≠ .write := by
      rw [writer, hrunning]
      exact fun h => by cases h
    have hfree : Duty.free ≠ .write := fun h => by cases h
    rw [perform, requestDisconnect, tell_eq]
    exact step_of (.quiet (fun _ => rfl) (.inr ⟨hwrites, hfree, fun _ => rfl⟩)) rfl rfl rfl
  | postDisconnect failed =>
    rw [perform, postDisconnect, tell_eq]
    refine step_of (.quiet (fun h => h) (.inl rfl)) (outstanding_post c rfl) (posted_post c rfl) ?_
    rw [writer, writer, hrunning]
    rfl
  | doRead =>
    have hduty : Duty.of c.running = .free := by rw [hrunning]; rfl
    rw [perform, doRead]
    split_ifs
    · exact step_idle hduty rfl
    · refine step_of (.quiet (fun h => h) (.inl rfl)) (outstanding_launch c rfl) rfl ?_
      rw [writer, writer, hrunning]
      rfl
  | doWrite => exact step_doWrite hrunning
  | dispatch payloads =>
    have hduty : Duty.of c.running = .free := by rw [hrunning]; rfl
    cases payloads with
    | nil => exact step_idle hduty rfl
    | cons payload payloads =>
      rw [perform]
      split_ifs <;> exact step_idle hduty rfl
  | dispatched payloads =>
    have hduty : Duty.of c.running = .free := by rw [hrunning]; rfl
    rw [perform]
    split_ifs <;> exact step_idle hduty rfl
  | finishRead =>
    have hduty : Duty.of c.running = .free := by rw [hrunning]; rfl
    rw [perform]
    split_ifs <;> exact step_idle hduty rfl

/-- The writer of a client that takes a step takes one. -/
theorem simulates (hexclusive : c.is_connecting_ = true → c.is_connected_ = false) {label : Label}
    (h : c.step label = some c') : Writer.Step c.writer c'.writer := by
  have hquiet : Writer.Step c.writer c.writer := .quiet (fun h => h) (.inl rfl)
  -- A send submits a frame; the other calls leave the writer alone.
  cases transition_of_step h with
  | connect on_connect => exact step_of hquiet (outstanding_post c rfl) (posted_post c rfl) rfl
  | send data frame =>
    refine step_of (.submit frame) (outstanding_post c rfl) ?_ rfl
    change (c.strand ++ [_]).filterMap Handler.frame? = c.posted ++ _
    rw [List.filterMap_append]
    rfl
  | refuse data => exact hquiet
  | disconnect =>
    rw [requestDisconnect, tell_eq]
    exact step_of (.quiet (fun _ => rfl) (.inl rfl)) rfl rfl rfl
  | postDisconnect =>
    rw [postDisconnect, tell_eq]
    exact step_of hquiet (outstanding_post c rfl) (posted_post c rfl) rfl
  | complete i operation result hi =>
    exact step_of hquiet (outstanding_complete hi result) (posted_post c rfl) rfl
  | runHandler handler strand hrunning hstrand => exact step_handle hexclusive hrunning hstrand
  | resume task hrunning => exact step_perform hrunning

/-! ### Runs -/

variable {message_cb disconnect_cb : Bool}

theorem orderly_init : (machine message_cb disconnect_cb).init.writer.Orderly :=
  ⟨fun h => (by cases h), fun _ => ⟨rfl, rfl, fun h => (by cases h)⟩, fun _ h => (by cases h),
    fun _ h => (by cases h), Multiset.nodup_zero, fun _ => List.nil_prefix⟩

theorem distinct_init : (machine message_cb disconnect_cb).init.writer.Distinct :=
  ⟨fun _ h => (by cases h), List.nodup_nil⟩

theorem orderly_of_run {labels : List Label}
    (hrun : (machine message_cb disconnect_cb).run labels = some c) :
    c.writer.Orderly ∧ c.writer.Distinct := by
  refine Machine.run_induction (m := machine message_cb disconnect_cb)
    (motive := fun _ c => c.writer.Orderly ∧ c.writer.Distinct)
    ⟨orderly_init, distinct_init⟩ ?_ hrun
  rintro labels c label c' hc ⟨horderly, hdistinct⟩ hstep
  have hsimulates := simulates (Attempting.of_run hc).exclusive hstep
  exact ⟨horderly.step hsimulates, hdistinct.step hsimulates⟩

/-- In every run, on every connection: at most one write is outstanding; the socket receives the
frames accepted while the connection was up, in that order, from the first one on and none of
them twice; no frame accepted on one connection is handed to the socket of another; and while
the client is connected, nobody has asked for a disconnect and the queue is not empty, a write
is outstanding, unless the handler that is running is about to start it or to ask for a
disconnect itself. -/
theorem writes_of_run {labels : List Label}
    (hrun : (machine message_cb disconnect_cb).run labels = some c) :
    (c.outstanding.map Prod.fst).Nodup ∧
    (∀ generation, framesOf generation c.written <+: framesOf generation c.accepted ∧
      (framesOf generation c.written).Nodup) ∧
    (∀ generation other frame, (generation, frame) ∈ c.accepted → (other, frame) ∈ c.written →
      other = generation) ∧
    (c.is_connected_ = true → c.disconnect_requested_ = false → c.write_queue_ ≠ [] →
      (∃ frame, (c.active_connect_generation_, frame) ∈ c.outstanding) ∨
        c.running = some .doWrite ∨ ∃ generation, c.running = some (.disconnect generation)) := by
  obtain ⟨horderly, hdistinct⟩ := orderly_of_run hrun
  refine ⟨horderly.single, fun generation => ⟨horderly.in_order generation,
    horderly.nodup_written hdistinct generation⟩, fun generation other frame haccepted hwritten =>
    horderly.generation_eq hdistinct haccepted hwritten, fun hup hflag hqueue => ?_⟩
  -- The duty of the writer is the task that is suspended.
  have hwrite (h : c.writer.duty = .write) : c.running = some .doWrite := by
    cases hrunning : c.running with
    | none => rw [writer, hrunning] at h; cases h
    | some task => rw [writer, hrunning] at h; cases task <;> first | rfl | cases h
  have hfail (h : c.writer.duty = .fail) :
      ∃ generation, c.running = some (.disconnect generation) := by
    cases hrunning : c.running with
    | none => rw [writer, hrunning] at h; cases h
    | some task => rw [writer, hrunning] at h; cases task <;> first | exact ⟨_, rfl⟩ | cases h
  obtain ⟨-, head, -, hserves, -⟩ := horderly.up hup
  cases head with
  | waiting =>
    rcases hserves.2.2 hqueue with hduty | hraised
    · exact .inr (.inl (hwrite hduty))
    · cases hflag.symm.trans hraised
  | writing frame => exact .inl ⟨frame, hserves.1⟩
  | failed frame =>
    rcases hserves.2.2.2 with hduty | hraised
    · exact .inr (.inr (hfail hduty))
    · cases hflag.symm.trans hraised

/-- The first of two frames is on its way when the owner disconnects; its completion comes while
the next connection writes. -/
def writeAcross : List Label :=
  [.connect true, .runHandler, .complete 0 (some []), .runHandler, .complete 0 (some []),
    .runHandler, .resume, .send [1], .runHandler, .resume, .send [2], .runHandler,
    .disconnect, .postDisconnect, .runHandler, .complete 0 none, .runHandler,
    .connect true, .runHandler, .complete 1 (some []), .runHandler, .complete 1 (some []),
    .runHandler, .resume, .send [3], .runHandler, .resume, .send [4], .runHandler,
    .complete 0 (some []), .runHandler]

theorem writes_writeAcross : ∃ c, (machine true true).run writeAcross = some c ∧
    c.accepted.map (fun entry => (entry.1, entry.2.serial)) = [(0, 0), (0, 1), (1, 2), (1, 3)] ∧
    c.written.map (fun entry => (entry.1, entry.2.serial)) = [(0, 0), (1, 2)] ∧
    (c.outstanding.map Prod.fst).Nodup ∧
    (∃ frame, (c.active_connect_generation_, frame) ∈ c.outstanding) := by
  have hend : ∃ c ∈ (machine true true).run writeAcross, (c.running = none ∧
      c.is_connected_ = true ∧ c.disconnect_requested_ = false ∧ c.write_queue_ ≠ []) ∧
      c.accepted.map (fun entry => (entry.1, entry.2.serial)) = [(0, 0), (0, 1), (1, 2), (1, 3)] ∧
      c.written.map (fun entry => (entry.1, entry.2.serial)) = [(0, 0), (1, 2)] := by
    decide +kernel
  obtain ⟨c, hrun, ⟨hrunning, hup, hflag, hqueue⟩, haccepted, hwritten⟩ := hend
  obtain ⟨hsingle, -, -, hserved⟩ := writes_of_run hrun
  refine ⟨c, hrun, haccepted, hwritten, hsingle, ?_⟩
  rcases hserved hup hflag hqueue with hflight | htask | ⟨generation, htask⟩
  · exact hflight
  · cases hrunning.symm.trans htask
  · cases hrunning.symm.trans htask

end SpaceShooter.Client.TcpClient
