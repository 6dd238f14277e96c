/-
# Moves of the TCP client

What a step of the client does to attempts and connections, said once: a step is a move, which
touches what the callbacks and the generations depend on, followed by what transfers, flags
and unfinished handlers do besides.
-/

import Mathlib.Data.List.Basic
import SpaceShooter.Client.TcpClient

namespace SpaceShooter.Client.TcpClient

open Library Network

/-! ### Steps -/

/-- The label of a step, with the guard that let it through. -/
inductive Transition (c : TcpClient) : Label → TcpClient → Prop
  | connect (on_connect : Bool) :
    Transition c (.connect on_connect)
      ({ c with calls := c.calls ++ [Call.mk on_connect c.told] }.post
        (.connect c.calls.length on_connect))
  | send (data : Bytes) (frame : FrameCodec.Frame)
    (fits : ¬ FrameCodec.kMaxMessageSize < data.length)
    (framed : FrameCodec.encode data = .ok frame) :
    Transition c (.send data) ({ c with sends := c.sends + 1 }.post (.send ⟨c.sends, frame⟩))
  /-- A payload that cannot be framed. -/
  | refuse (data : Bytes)
    (unfit : FrameCodec.kMaxMessageSize < data.length ∨ ∃ e, FrameCodec.encode data = .error e) :
    Transition c (.send data) c
  | disconnect :
    Transition c .disconnect { c.requestDisconnect none with disconnecting := c.disconnecting + 1 }
  | postDisconnect (called : c.disconnecting ≠ 0) :
    Transition c .postDisconnect
      ({ c with disconnecting := c.disconnecting - 1 }.postDisconnect none)
  | complete (i : ℕ) (operation : Operation) (result : Option Bytes)
    (pending : c.operations[i]? = some operation) :
    Transition c (.complete i result)
      ({ c with operations := c.operations.eraseIdx i }.complete operation result)
  | runHandler (handler : Handler) (strand : List Handler) (idle : c.running = none)
    (first : c.strand = handler :: strand) :
    Transition c .runHandler
      { ({ c with strand := strand }.handle handler).1 with
        running := ({ c with strand := strand }.handle handler).2 }
  | resume (task : Task) (suspended : c.running = some task) :
    Transition c .resume { (c.perform task).1 with running := (c.perform task).2 }

theorem transition_of_step {c c' : TcpClient} {label : Label} (h : c.step label = some c') :
    Transition c label c' := by
  cases label with
  | connect on_connect => exact Option.some.inj h ▸ .connect on_connect
  | send data =>
    rw [step] at h
    split_ifs at h with hlarge
    · exact Option.some.inj h ▸ .refuse data (.inl hlarge)
    · split at h
      · next frame hframe => exact Option.some.inj h ▸ .send data frame hlarge hframe
      · next e herror => exact Option.some.inj h ▸ .refuse data (.inr ⟨e, herror⟩)
  | disconnect => exact Option.some.inj h ▸ .disconnect
  | postDisconnect =>
    rw [step] at h
    split_ifs at h with hcalled
    exact Option.some.inj h ▸ .postDisconnect hcalled
  | complete i result =>
    rw [step] at h
    cases hi : c.operations[i]? with
    | none =>
      rw [hi] at h
      cases h
    | some operation =>
      rw [hi] at h
      exact Option.some.inj h ▸ .complete i operation result hi
  | runHandler =>
    rw [step] at h
    split at h
    · next handler strand hrunning hstrand =>
      exact Option.some.inj h ▸ .runHandler handler strand hrunning hstrand
    · cases h
  | resume =>
    rw [step] at h
    cases hrunning : c.running with
    | none =>
      rw [hrunning] at h
      cases h
    | some task =>
      rw [hrunning] at h
      exact Option.some.inj h ▸ .resume task hrunning

/-! ### Moves -/

/-- The generation and the call of an operation that works for an attempt. -/
def Operation.attempt? : Operation → Option (ℕ × ℕ)
  | .resolve generation call => some (generation, call)
  | .connect generation call => some (generation, call)
  | _ => none

def Handler.attempt? : Handler → Option (ℕ × ℕ)
  | .completion operation _ => operation.attempt?
  | _ => none

/-- A handler of a transfer on an established connection. -/
def Handler.isTransfer : Handler → Bool
  | .send _ => true
  | .completion (.read _) _ => true
  | .completion (.write _ _) _ => true
  | _ => false

/-- What invoking a callback adds to the history. -/
def invocation (callback : Option ℕ) (status : Bool) : List Event :=
  match callback with
  | none => []
  | some call => [.on_connect call status]

/-- The stored callback of a call. -/
def storedCallback (call : ℕ) (on_connect : Bool) : Option ℕ :=
  if on_connect then some call else none

/-- What a step does to attempts and connections, apart from transfers. -/
inductive Move (c : TcpClient) (label : Label) : TcpClient → Prop
  | stay : Move c label c
  | transfer {handler : Handler} {strand : List Handler} (hrunning : c.running = none)
    (hstrand : c.strand = handler :: strand) (htransfer : handler.isTransfer = true) :
    Move c label { c with strand := strand }
  | postSend (frame : QueuedFrame) : Move c label { c with strand := c.strand ++ [.send frame] }
  | postDisconnect (failed : Option ℕ)
    (hfailed : ∀ generation, failed = some generation →
      label = .resume ∧ c.running = some (.postDisconnect generation)) :
    Move c label { c with strand := c.strand ++ [.disconnect failed] }
  | call (on_connect : Bool) :
    Move c label { c with
      calls := c.calls ++ [Call.mk on_connect c.told]
      strand := c.strand ++ [.connect c.calls.length on_connect] }
  | complete {i : ℕ} {operation : Operation} (hi : c.operations[i]? = some operation)
    (result : Option Bytes) :
    Move c label ({ c with operations := c.operations.eraseIdx i }.complete operation result)
  /-- A connect while there is an attempt or a connection. -/
  | reject {call : ℕ} {on_connect : Bool} {strand : List Handler} (hrunning : c.running = none)
    (hstrand : c.strand = .connect call on_connect :: strand)
    (hbusy : c.is_connected_ = true ∨ c.is_connecting_ = true) :
    Move c label { c with
      strand := strand, events := c.events ++ invocation (storedCallback call on_connect) false }
  | accept {call : ℕ} {on_connect : Bool} {strand : List Handler} (hrunning : c.running = none)
    (hstrand : c.strand = .connect call on_connect :: strand)
    (hconnected : c.is_connected_ = false) (hconnecting : c.is_connecting_ = false) :
    Move c label { c with
      strand := strand
      disconnect_requested_ := false
      is_connecting_ := true
      active_connect_generation_ := c.disconnect_generation_
      pending_connect_callback_ := storedCallback call on_connect
      current := call
      operations := c.operations ++ [.resolve c.disconnect_generation_ call] }
  /-- A completion that comes too late. -/
  | ignore {operation : Operation} {attempt : ℕ × ℕ} {result : Option Bytes}
    {strand : List Handler} (hrunning : c.running = none)
    (hstrand : c.strand = .completion operation result :: strand)
    (hattempt : operation.attempt? = some attempt)
    (hinvalid : ¬ (c.isValidGeneration attempt.1 = true ∧ c.is_connecting_ = true)) :
    Move c label { c with strand := strand }
  | launch {generation call : ℕ} {result : Option Bytes} {strand : List Handler}
    (hrunning : c.running = none)
    (hstrand : c.strand = .completion (.resolve generation call) result :: strand)
    (hvalid : c.isValidGeneration generation = true) (hconnecting : c.is_connecting_ = true) :
    Move c label { c with
      strand := strand, operations := c.operations ++ [.connect generation call] }
  | fail {operation : Operation} {attempt : ℕ × ℕ} {result : Option Bytes}
    {strand : List Handler} (hrunning : c.running = none)
    (hstrand : c.strand = .completion operation result :: strand)
    (hattempt : operation.attempt? = some attempt)
    (hvalid : c.isValidGeneration attempt.1 = true) (hconnecting : c.is_connecting_ = true)
    {connected : Bool} (hconnected : connected = true → c.is_connected_ = true)
    {ended : List (Option ℕ × ℕ)}
    (hended : ended = [] ∨ c.disconnect_requested_ = true ∧ ended = [(c.requestedBy, c.current)]) :
    Move c label { c with
      strand := strand
      is_connecting_ := false
      is_connected_ := connected
      pending_connect_callback_ := none
      ended := c.ended ++ ended
      events := c.events ++ invocation c.pending_connect_callback_ false }
  | establish {generation call : ℕ} {bytes : Bytes} {strand : List Handler}
    (hrunning : c.running = none)
    (hstrand : c.strand = .completion (.connect generation call) (some bytes) :: strand)
    (hvalid : c.isValidGeneration generation = true) (hconnecting : c.is_connecting_ = true) :
    Move c label { c with
      strand := strand
      is_connecting_ := false
      is_connected_ := true
      pending_connect_callback_ := none
      events := c.events ++ invocation c.pending_connect_callback_ true }
  /-- A disconnect that finds nothing to do. -/
  | skip {failed : Option ℕ} {strand : List Handler} (hrunning : c.running = none)
    (hstrand : c.strand = .disconnect failed :: strand)
    (hconnected : c.is_connected_ = false) (hconnecting : c.is_connecting_ = false) :
    Move c label { c with
      strand := strand, disconnect_generation_ := c.disconnect_generation_ + 1 }
  | disconnect {failed : Option ℕ} {strand : List Handler} (hrunning : c.running = none)
    (hstrand : c.strand = .disconnect failed :: strand) :
    Move c label { c with
      strand := strand
      disconnect_generation_ := c.disconnect_generation_ + 1
      is_connecting_ := false
      is_connected_ := false
      pending_connect_callback_ := none
      ended := c.ended ++
        if c.is_connected_ || c.is_connecting_ then [(failed, c.current)] else []
      events := c.events ++
        ((if c.is_connecting_ then invocation c.pending_connect_callback_ false else []) ++
          if c.is_connected_ && c.disconnect_cb_ then [.disconnect_cb] else []) }

/-- A task that asks for a disconnect on behalf of a connection. -/
def Task.failed? : Option Task → Option ℕ
  | some (.disconnect generation) => some generation
  | some (.postDisconnect generation) => some generation
  | _ => none

/-- The rest of a step: transfers, flags, and what is left of the handler. -/
structure Keeps (c c' : TcpClient) : Prop where
  is_connected_ : c'.is_connected_ = c.is_connected_
  disconnect_generation_ : c'.disconnect_generation_ = c.disconnect_generation_
  is_connecting_ : c'.is_connecting_ = c.is_connecting_
  active_connect_generation_ : c'.active_connect_generation_ = c.active_connect_generation_
  pending_connect_callback_ : c'.pending_connect_callback_ = c.pending_connect_callback_
  disconnect_cb_ : c'.disconnect_cb_ = c.disconnect_cb_
  strand : c'.strand = c.strand
  calls : c'.calls = c.calls
  events : c'.events = c.events
  current : c'.current = c.current
  opened : c'.opened = c.opened
  ended : c'.ended = c.ended
  attempts : c'.operations.filterMap Operation.attempt? =
    c.operations.filterMap Operation.attempt?
  flag : c'.disconnect_requested_ = c.disconnect_requested_ ∧ c'.requestedBy = c.requestedBy ∨
    c'.requestedBy = none ∨ ∃ generation, Task.failed? c.running = some generation
  told : c'.told = c.told ∨
    c.is_connected_ = true ∧ c'.told = c.told ++ [c.active_connect_generation_]
  /-- A handler asks for a disconnect on behalf of the connection that it belongs to. -/
  failing : ∀ generation, Task.failed? c'.running = some generation →
    Task.failed? c.running = some generation ∨
      c.is_connected_ = true ∧ generation = c.active_connect_generation_ ∧
        generation = c.disconnect_generation_

theorem keeps_of (s : TcpClient) {writing : Bool} {buffer : Bytes}
    {queue : List QueuedFrame} {task : Option Task} {operations : List Operation}
    {disconnecting sends : ℕ} {messages : List PayloadView}
    {accepted written : List (ℕ × QueuedFrame)}
    (hoperations : operations.filterMap Operation.attempt? =
      s.operations.filterMap Operation.attempt?)
    (htask : ∀ generation, Task.failed? task = some generation →
      Task.failed? s.running = some generation ∨
        s.is_connected_ = true ∧ generation = s.active_connect_generation_ ∧
          generation = s.disconnect_generation_) :
    Keeps s { s with
      read_buffer_ := buffer
      write_queue_ := queue
      is_writing_ := writing
      running := task
      operations := operations
      disconnecting := disconnecting
      sends := sends
      messages := messages
      accepted := accepted
      written := written } :=
  ⟨rfl, rfl, rfl, rfl, rfl, rfl, rfl, rfl, rfl, rfl, rfl, rfl, hoperations, .inl ⟨rfl, rfl⟩,
    .inl rfl, htask⟩

theorem Keeps.refl (c : TcpClient) : Keeps c c := keeps_of c rfl fun _ h => .inl h

theorem attempts_launch (c : TcpClient) {operation : Operation} (h : operation.attempt? = none) :
    (c.launch operation).operations.filterMap Operation.attempt? =
      c.operations.filterMap Operation.attempt? := by
  rw [launch, List.filterMap_append, List.filterMap_cons_none h, List.filterMap_nil,
    List.append_nil]

theorem invokeConnectCallback_eq (c : TcpClient) (callback : Option ℕ) (status : Bool) :
    c.invokeConnectCallback callback status =
      { c with events := c.events ++ invocation callback status } := by
  cases callback with
  | none =>
    rw [invocation, List.append_nil]
    rfl
  | some call => rfl

/-! ### Every step is a move -/

variable {c : TcpClient} {label : Label} {handler : Handler} {strand : List Handler}

theorem move_onConnect {call : ℕ} {on_connect : Bool} (hrunning : c.running = none)
    (hstrand : c.strand = .connect call on_connect :: strand) :
    ∃ s, Move c label s ∧
      Keeps s { { c with strand := strand }.onConnect call on_connect with running := none } := by
  by_cases hbusy : (c.is_connected_ || c.is_connecting_) = true
  · refine ⟨_, .reject hrunning hstrand (Bool.or_eq_true_iff.mp hbusy), ?_⟩
    rw [onConnect, if_pos hbusy, invokeConnectCallback_eq]
    exact keeps_of _ rfl fun _ h => by cases h
  · obtain ⟨hconnected, hconnecting⟩ := Bool.or_eq_false_iff.mp (Bool.not_eq_true _ ▸ hbusy)
    refine ⟨_, .accept hrunning hstrand hconnected hconnecting, ?_⟩
    rw [onConnect, if_neg hbusy]
    exact keeps_of _ rfl fun _ h => by cases h

theorem late_iff (c : TcpClient) (generation : ℕ) :
    (!c.isValidGeneration generation || !c.is_connecting_) = true ↔
      ¬ (c.isValidGeneration generation = true ∧ c.is_connecting_ = true) := by
  cases c.isValidGeneration generation <;> cases c.is_connecting_ <;> decide

/-- An attempt is given up; the history hears of it where the flag is the reason. -/
def GivesUp (c c' : TcpClient) (connected : Bool) : Prop :=
  ∃ ended : List (Option ℕ × ℕ),
    (ended = [] ∨ c.disconnect_requested_ = true ∧ ended = [(c.requestedBy, c.current)]) ∧
    c' = { c with
      is_connecting_ := false
      is_connected_ := connected
      pending_connect_callback_ := none
      ended := c.ended ++ ended
      events := c.events ++ invocation c.pending_connect_callback_ false }

theorem givesUp_requested {connected : Bool} (hrequested : c.disconnect_requested_ = true) :
    c.GivesUp ({ c.endRequested with
      is_connecting_ := false, is_connected_ := connected }.invokePendingCallback false)
      connected := by
  refine ⟨_, .inr ⟨hrequested, rfl⟩, ?_⟩
  rw [invokePendingCallback, invokeConnectCallback_eq]
  rfl

theorem givesUp_failed {connected : Bool} :
    c.GivesUp ({ c with
      is_connecting_ := false, is_connected_ := connected }.invokePendingCallback false)
      connected := by
  refine ⟨[], .inl rfl, ?_⟩
  rw [invokePendingCallback, invokeConnectCallback_eq, List.append_nil]

theorem onResolved_cases (c : TcpClient) (generation call : ℕ) (result : Option Bytes) :
    ¬ (c.isValidGeneration generation = true ∧ c.is_connecting_ = true) ∧
        c.onResolved generation call result = c ∨
      (c.isValidGeneration generation = true ∧ c.is_connecting_ = true) ∧
        (c.GivesUp (c.onResolved generation call result) c.is_connected_ ∨
          c.onResolved generation call result = c.launch (.connect generation call)) := by
  by_cases hvalid : c.isValidGeneration generation = true ∧ c.is_connecting_ = true
  · have hif := fun h => (c.late_iff generation).mp h hvalid
    refine .inr ⟨hvalid, ?_⟩
    rw [onResolved, if_neg hif]
    split_ifs with hrequested
    · exact .inl (givesUp_requested hrequested)
    · exact .inl givesUp_failed
    · exact .inr rfl
  · exact .inl ⟨hvalid, if_pos ((c.late_iff generation).mpr hvalid)⟩

theorem move_onResolved {generation call : ℕ} {result : Option Bytes}
    (hrunning : c.running = none)
    (hstrand : c.strand = .completion (.resolve generation call) result :: strand) :
    ∃ s, Move c label s ∧
      Keeps s { { c with strand := strand }.onResolved generation call result with
        running := none } := by
  rcases { c with strand := strand }.onResolved_cases generation call result with
    ⟨hinvalid, heq⟩ | ⟨⟨hvalid, hconnecting⟩, ⟨ended, hended, heq⟩ | heq⟩ <;> rw [heq]
  · exact ⟨_, .ignore hrunning hstrand rfl hinvalid, keeps_of _ rfl fun _ h => by cases h⟩
  · exact ⟨_, .fail hrunning hstrand rfl hvalid hconnecting (fun h => h) hended,
      keeps_of _ rfl fun _ h => by cases h⟩
  · exact ⟨_, .launch hrunning hstrand hvalid hconnecting,
      keeps_of _ rfl fun _ h => by cases h⟩

theorem onConnected_cases (c : TcpClient) (generation : ℕ) (result : Option Bytes) :
    ¬ (c.isValidGeneration generation = true ∧ c.is_connecting_ = true) ∧
        c.onConnected generation result = (c, none) ∨
      (c.isValidGeneration generation = true ∧ c.is_connecting_ = true) ∧
        (c.GivesUp (c.onConnected generation result).1 false ∧
            (c.onConnected generation result).2 = none ∨
          result.isSome = true ∧ c.onConnected generation result = ({ c with
            is_connecting_ := false
            is_connected_ := true
            pending_connect_callback_ := none
            events := c.events ++ invocation c.pending_connect_callback_ true },
              some .doRead)) := by
  by_cases hvalid : c.isValidGeneration generation = true ∧ c.is_connecting_ = true
  · have hif := fun h => (c.late_iff generation).mp h hvalid
    refine .inr ⟨hvalid, ?_⟩
    rw [onConnected, if_neg hif]
    split_ifs with hrequested hresult
    · exact .inl ⟨givesUp_requested hrequested, rfl⟩
    · exact .inl ⟨givesUp_failed, rfl⟩
    · refine .inr ⟨by cases result <;> simp_all, congrArg (·, some Task.doRead) ?_⟩
      rw [invokePendingCallback, invokeConnectCallback_eq]
  · exact .inl ⟨hvalid, if_pos ((c.late_iff generation).mpr hvalid)⟩

theorem move_onConnected {generation call : ℕ} {result : Option Bytes}
    (hrunning : c.running = none)
    (hstrand : c.strand = .completion (.connect generation call) result :: strand) :
    ∃ s, Move c label s ∧
      Keeps s { ({ c with strand := strand }.onConnected generation result).1 with
        running := ({ c with strand := strand }.onConnected generation result).2 } := by
  rcases { c with strand := strand }.onConnected_cases generation result with
    ⟨hinvalid, heq⟩ | ⟨⟨hvalid, hconnecting⟩, ⟨⟨ended, hended, heq⟩, htask⟩ | ⟨hsome, heq⟩⟩
  · rw [heq]
    exact ⟨_, .ignore hrunning hstrand rfl hinvalid, keeps_of _ rfl fun _ h => by cases h⟩
  · rw [heq, htask]
    exact ⟨_, .fail hrunning hstrand rfl hvalid hconnecting (fun h => by cases h) hended,
      keeps_of _ rfl fun _ h => by cases h⟩
  · rw [heq]
    obtain ⟨bytes, rfl⟩ := Option.isSome_iff_exists.mp hsome
    exact ⟨_, .establish hrunning hstrand hvalid hconnecting,
      keeps_of _ rfl fun _ h => by cases h⟩

theorem onDisconnect_cases (c : TcpClient) (failed : Option ℕ) :
    (c.is_connected_ = false ∧ c.is_connecting_ = false ∧ c.onDisconnect failed = { c with
        disconnect_generation_ := c.disconnect_generation_ + 1 }) ∨
      c.onDisconnect failed = { c with
        disconnect_generation_ := c.disconnect_generation_ + 1
        is_connecting_ := false
        is_connected_ := false
        pending_connect_callback_ := none
        read_buffer_ := []
        write_queue_ := []
        is_writing_ := false
        ended := c.ended ++
          if c.is_connected_ || c.is_connecting_ then [(failed, c.current)] else []
        events := c.events ++
          ((if c.is_connecting_ then invocation c.pending_connect_callback_ false else []) ++
            if c.is_connected_ && c.disconnect_cb_ then [.disconnect_cb] else []) } := by
  by_cases hnothing : (!c.is_connected_ && !c.is_connecting_ && !!c.write_queue_.isEmpty &&
      !c.disconnect_requested_) = true
  · obtain ⟨⟨⟨hconnected, hconnecting⟩, -⟩, -⟩ : ((c.is_connected_ = false ∧
        c.is_connecting_ = false) ∧ _) ∧ _ := by simpa using hnothing
    refine .inl ⟨hconnected, hconnecting, (if_pos hnothing).trans ?_⟩
    simp [hconnected, hconnecting]
  · refine .inr ((if_neg hnothing).trans ?_)
    simp only [invokeConnectCallback_eq]
    cases c.is_connected_ <;> cases c.is_connecting_ <;> cases c.disconnect_cb_ <;> simp

theorem move_onDisconnect {failed : Option ℕ} (hrunning : c.running = none)
    (hstrand : c.strand = .disconnect failed :: strand) :
    ∃ s, Move c label s ∧
      Keeps s { { c with strand := strand }.onDisconnect failed with running := none } := by
  rcases { c with strand := strand }.onDisconnect_cases failed with
    ⟨hconnected, hconnecting, heq⟩ | heq <;> rw [heq]
  · exact ⟨_, .skip hrunning hstrand hconnected hconnecting, keeps_of _ rfl fun _ h => by cases h⟩
  · exact ⟨_, .disconnect hrunning hstrand, keeps_of _ rfl fun _ h => by cases h⟩

/-- A completion that is not ignored belongs to the current connection. -/
theorem keeps_failing (c : TcpClient) {generation : ℕ} (hconnected : c.is_connected_ = true)
    (hactive : generation = c.active_connect_generation_)
    (hgeneration : generation = c.disconnect_generation_) :
    Keeps c { c with running := some (.disconnect generation) } := by
  refine keeps_of _ rfl fun g h => .inr ?_
  obtain rfl := Option.some.inj h
  exact ⟨hconnected, hactive, hgeneration⟩

theorem keeps_onRead (c : TcpClient) (generation : ℕ) (result : Option Bytes) :
    Keeps c { (c.onRead generation result).1 with running := (c.onRead generation result).2 } := by
  by_cases hignored :
      (!c.isValidGeneration generation || !c.is_connected_ || c.disconnect_requested_) = true
  · rw [show c.onRead generation result = (c, none) from if_pos hignored]
    exact keeps_of _ rfl fun _ h => by cases h
  · cases result with
    | none =>
      rw [show c.onRead generation none = (c, some (.disconnect generation)) from
        if_neg hignored]
      obtain ⟨⟨⟨hactive, hgeneration⟩, hconnected⟩, -⟩ :
          ((generation = c.active_connect_generation_ ∧ generation = c.disconnect_generation_) ∧
            c.is_connected_ = true) ∧ c.disconnect_requested_ = false := by
        simpa [isValidGeneration] using hignored
      exact keeps_failing c hconnected hactive hgeneration
    | some chunk =>
      rw [show c.onRead generation (some chunk) = _ from if_neg hignored]
      exact keeps_of _ rfl fun _ h => by cases h

theorem keeps_onSend (c : TcpClient) (frame : QueuedFrame) :
    Keeps c { (c.onSend frame).1 with running := (c.onSend frame).2 } := by
  by_cases hdropped : (!c.is_connected_ || c.disconnect_requested_) = true
  · rw [show c.onSend frame = (c, none) from if_pos hdropped]
    exact keeps_of _ rfl fun _ h => by cases h
  · rw [show c.onSend frame = _ from if_neg hdropped]
    cases hwriting : c.is_writing_ with
    | false => exact keeps_of _ rfl fun _ h => by cases h
    | true => exact keeps_of _ rfl fun _ h => by cases h

theorem keeps_onWritten (c : TcpClient) (generation : ℕ) (frame : QueuedFrame)
    (result : Option Bytes) :
    Keeps c { (c.onWritten generation frame result).1 with
      running := (c.onWritten generation frame result).2 } := by
  by_cases hignored : (generation ≠ c.active_connect_generation_ ||
      generation ≠ c.disconnect_generation_ || !c.is_connected_) = true
  · rw [show c.onWritten generation frame result = (c, none) from if_pos hignored]
    exact keeps_of _ rfl fun _ h => by cases h
  · cases result with
    | none =>
      rw [show c.onWritten generation frame none = (c, some (.disconnect generation)) from
        if_neg hignored]
      obtain ⟨⟨hactive, hgeneration⟩, hconnected⟩ :
          (generation = c.active_connect_generation_ ∧ generation = c.disconnect_generation_) ∧
            c.is_connected_ = true := by
        simpa using hignored
      exact keeps_failing c hconnected hactive hgeneration
    | some bytes =>
      rw [show c.onWritten generation frame (some bytes) = _ from if_neg hignored]
      dsimp only
      split_ifs <;> exact keeps_of _ rfl fun _ h => by cases h

theorem move_transfer (hrunning : c.running = none) (hstrand : c.strand = handler :: strand)
    (htransfer : handler.isTransfer = true) :
    ∃ s, Move c label s ∧
      Keeps s { ({ c with strand := strand }.handle handler).1 with
        running := ({ c with strand := strand }.handle handler).2 } := by
  refine ⟨_, .transfer hrunning hstrand htransfer, ?_⟩
  cases handler with
  | connect call on_connect => cases htransfer
  | send frame => exact keeps_onSend _ frame
  | disconnect failed => cases htransfer
  | completion operation result =>
    cases operation with
    | resolve generation call => cases htransfer
    | connect generation call => cases htransfer
    | read generation => exact keeps_onRead _ generation result
    | write generation frame => exact keeps_onWritten _ generation frame result

theorem move_handle (hrunning : c.running = none) (hstrand : c.strand = handler :: strand) :
    ∃ s, Move c label s ∧
      Keeps s { ({ c with strand := strand }.handle handler).1 with
        running := ({ c with strand := strand }.handle handler).2 } := by
  cases handler with
  | connect call on_connect => exact move_onConnect hrunning hstrand
  | send frame => exact move_transfer hrunning hstrand rfl
  | disconnect failed => exact move_onDisconnect hrunning hstrand
  | completion operation result =>
    cases operation with
    | resolve generation call => exact move_onResolved hrunning hstrand
    | connect generation call => exact move_onConnected hrunning hstrand
    | read generation => exact move_transfer hrunning hstrand rfl
    | write generation frame => exact move_transfer hrunning hstrand rfl

theorem tell_eq (c : TcpClient) :
    c.tell = { c with
      told := if c.is_connected_ then c.told ++ [c.active_connect_generation_] else c.told } := by
  unfold tell
  split_ifs <;> rfl

/-- A connection is told to disconnect. -/
theorem keeps_tell (s : TcpClient) {requested : Bool} {requestedBy : Option ℕ}
    {task : Option Task} {disconnecting : ℕ}
    (hflag : requested = s.disconnect_requested_ ∧ requestedBy = s.requestedBy ∨
      requestedBy = none ∨ ∃ generation, Task.failed? s.running = some generation)
    (htask : ∀ generation, Task.failed? task = some generation →
      Task.failed? s.running = some generation) :
    Keeps s { s with
      told := if s.is_connected_ then s.told ++ [s.active_connect_generation_] else s.told
      disconnect_requested_ := requested
      requestedBy := requestedBy
      running := task
      disconnecting := disconnecting } := by
  refine ⟨rfl, rfl, rfl, rfl, rfl, rfl, rfl, rfl, rfl, rfl, rfl, rfl, rfl, hflag, ?_,
    fun generation h => .inl (htask generation h)⟩
  by_cases hconnected : s.is_connected_ = true
  · exact .inr ⟨hconnected, if_pos hconnected⟩
  · exact .inl (if_neg hconnected)

theorem move_perform {task : Task} (hrunning : c.running = some task) :
    ∃ s, Move c .resume s ∧ Keeps s { (c.perform task).1 with running := (c.perform task).2 } := by
  -- Only the disconnect of a failed connection is a move of its own.
  cases task with
  | disconnect failed =>
    refine ⟨_, .stay, ?_⟩
    rw [perform, requestDisconnect, tell_eq]
    exact keeps_tell c (.inr (.inr ⟨failed, by rw [hrunning]; rfl⟩)) fun generation h =>
      hrunning ▸ h
  | postDisconnect failed =>
    refine ⟨_, .postDisconnect (some failed) ?_, ?_⟩
    · intro generation h
      exact ⟨rfl, by rw [hrunning, Option.some.inj h]⟩
    · rw [perform, postDisconnect, tell_eq]
      exact keeps_tell { c with strand := c.strand ++ [.disconnect (some failed)] }
        (.inl ⟨rfl, rfl⟩) fun _ h => by cases h
  | doRead =>
    refine ⟨_, .stay, ?_⟩
    rw [perform, doRead]
    split_ifs
    · exact keeps_of _ rfl fun _ h => by cases h
    · exact keeps_of _ (c.attempts_launch rfl) fun _ h => by cases h
  | doWrite =>
    refine ⟨_, .stay, ?_⟩
    rw [perform, doWrite]
    split_ifs
    · exact keeps_of _ rfl fun _ h => by cases h
    · cases c.write_queue_ with
      | nil => exact keeps_of _ rfl fun _ h => by cases h
      | cons frame queue => exact keeps_of _ (c.attempts_launch rfl) fun _ h => by cases h
  | dispatch payloads =>
    refine ⟨_, .stay, ?_⟩
    cases payloads with
    | nil => exact keeps_of _ rfl fun _ h => by cases h
    | cons payload payloads =>
      rw [perform]
      split_ifs <;> exact keeps_of _ rfl fun _ h => by cases h
  | dispatched payloads =>
    refine ⟨_, .stay, ?_⟩
    rw [perform]
    split_ifs <;> exact keeps_of _ rfl fun _ h => by cases h
  | finishRead =>
    refine ⟨_, .stay, ?_⟩
    rw [perform]
    split_ifs <;> exact keeps_of _ rfl fun _ h => by cases h

theorem move_of_step {label : Label} {c' : TcpClient} (h : c.step label = some c') :
    ∃ s, Move c label s ∧ Keeps s c' := by
  -- What a handler or a suspended task does is said by lemmas of its own.
  cases transition_of_step h with
  | connect on_connect => exact ⟨_, .call on_connect, Keeps.refl _⟩
  | send data frame => exact ⟨_, .postSend ⟨c.sends, frame⟩, keeps_of _ rfl fun _ h => .inl h⟩
  | refuse data => exact ⟨_, .stay, Keeps.refl _⟩
  | disconnect =>
    refine ⟨_, .stay, ?_⟩
    rw [requestDisconnect, tell_eq]
    exact keeps_tell c (.inr (.inl rfl)) fun _ h => h
  | postDisconnect =>
    refine ⟨_, .postDisconnect none (fun _ h => by cases h), ?_⟩
    rw [postDisconnect, tell_eq]
    exact keeps_tell { c with strand := c.strand ++ [.disconnect none] } (.inl ⟨rfl, rfl⟩)
      fun _ h => h
  | complete i operation result hi => exact ⟨_, .complete hi result, Keeps.refl _⟩
  | runHandler handler strand hrunning hstrand => exact move_handle hrunning hstrand
  | resume task hrunning => exact move_perform hrunning

/-! ### What moves leave on the strand -/

/-- What is so of a handler that a move has posted. -/
def Posted (c s : TcpClient) : Handler → Prop
  | .connect call on_connect =>
    call = c.calls.length ∧ s.calls = c.calls ++ [Call.mk on_connect c.told]
  | .completion (.connect _ call) (some _) => call ∈ s.opened
  | _ => True

theorem posted_completion (c s : TcpClient) (operation : Operation) (result : Option Bytes) :
    Posted c (s.complete operation result) (.completion operation result) := by
  cases operation with
  | connect generation call =>
    cases result with
    | none => exact trivial
    | some bytes => exact List.mem_append_right _ List.mem_cons_self
  | _ => exact trivial

/-- The handlers on the strand were there before or have just been posted. -/
theorem Move.mem_strand {s : TcpClient} (hmove : Move c label s) (hmem : handler ∈ s.strand) :
    handler ∈ c.strand ∨ Posted c s handler := by
  have hpop {first : Handler} {strand : List Handler} (hstrand : c.strand = first :: strand)
      (hmem : handler ∈ strand) : handler ∈ c.strand ∨ Posted c s handler :=
    .inl (hstrand ▸ List.mem_cons_of_mem first hmem)
  have hpost (last : Handler) (hposted : Posted c s last) (hmem : handler ∈ c.strand ++ [last]) :
      handler ∈ c.strand ∨ Posted c s handler :=
    (List.mem_append.mp hmem).imp_right fun hmem => by
      rw [List.mem_singleton.mp hmem]
      exact hposted
  cases hmove with
  | stay => exact .inl hmem
  | transfer hrunning hstrand htransfer => exact hpop hstrand hmem
  | postSend frame => exact hpost (.send frame) trivial hmem
  | postDisconnect failed hfailed => exact hpost (.disconnect failed) trivial hmem
  | call on_connect => exact hpost (.connect c.calls.length on_connect) ⟨rfl, rfl⟩ hmem
  | @complete i operation hi result =>
    exact hpost (.completion operation result) (posted_completion c _ operation result) hmem
  | reject hrunning hstrand hbusy => exact hpop hstrand hmem
  | accept hrunning hstrand hconnected hconnecting => exact hpop hstrand hmem
  | ignore hrunning hstrand hattempt hinvalid => exact hpop hstrand hmem
  | launch hrunning hstrand hvalid hconnecting => exact hpop hstrand hmem
  | fail hrunning hstrand hattempt hvalid hconnecting hconnected hended =>
    exact hpop hstrand hmem
  | establish hrunning hstrand hvalid hconnecting => exact hpop hstrand hmem
  | skip hrunning hstrand hconnected hconnecting => exact hpop hstrand hmem
  | disconnect hrunning hstrand => exact hpop hstrand hmem

/-- The callback for disconnects is set once and for all, and no call is forgotten. -/
theorem Move.callbacks {s : TcpClient} (hmove : Move c label s) :
    s.disconnect_cb_ = c.disconnect_cb_ ∧ c.calls ⊆ s.calls := by
  cases hmove with
  | call on_connect => exact ⟨rfl, List.subset_append_left _ _⟩
  | _ => exact ⟨rfl, List.Subset.refl _⟩

theorem Move.calls_le {s : TcpClient} (hmove : Move c label s) :
    c.calls.length ≤ s.calls.length := by
  cases hmove with
  | call on_connect =>
    dsimp only
    rw [List.length_append]
    exact Nat.le_add_right _ _
  | _ => exact Nat.le_refl _

theorem opened_complete (c : TcpClient) (operation : Operation) (result : Option Bytes) :
    c.opened ⊆ (c.complete operation result).opened := by
  unfold complete
  dsimp only [post]
  split
  · exact List.subset_append_left _ _
  · exact List.Subset.refl _

/-- No socket is forgotten. -/
theorem Move.opened {s : TcpClient} (hmove : Move c label s) : c.opened ⊆ s.opened := by
  cases hmove with
  | @complete i operation hi result =>
    exact opened_complete { c with operations := c.operations.eraseIdx i } operation result
  | _ => exact List.Subset.refl _

end SpaceShooter.Client.TcpClient
