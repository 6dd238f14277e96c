/-
# The TCP client

The client's connection to the server. Calls to connect and to send, disconnects and the
completions of asynchronous operations are handled one at a time on a strand, in the order
they were posted; only `disconnect` does something in the calling thread: it raises a flag
before it posts its handler.

Generations count the disconnects; 64 bits are taken not to overflow. Completions carry the
generation of their connection and are ignored once it is over, but the disconnect that a
failed completion posts carries none. An operation may end with any result, cancelled or not,
so the socket and the resolver themselves are left out. No exception is thrown.
-/

import SpaceShooter.Common.FrameCodec
import SpaceShooter.Library.Machine

namespace SpaceShooter.Client

open Library Network

namespace TcpClient

/-- A frame in the write queue; the serial number stands for the pointer to it. -/
structure QueuedFrame where
  serial : ℕ
  frame : FrameCodec.Frame
  deriving DecidableEq

/-- An asynchronous operation, with the generation its handler captured. The call of `connect`
it works for is known to the history only. -/
inductive Operation
  | resolve (generation : ℕ) (call : ℕ)
  | connect (generation : ℕ) (call : ℕ)
  | read (generation : ℕ)
  | write (generation : ℕ) (frame : QueuedFrame)
  deriving DecidableEq

/-- A handler on the strand. An operation completes with an error or with the bytes it has
read. Which connection's failure asked for a disconnect is known to the history only. -/
inductive Handler
  | connect (call : ℕ) (on_connect : Bool)
  | send (frame : QueuedFrame)
  | disconnect (failed : Option ℕ)
  | completion (operation : Operation) (result : Option Bytes)
  deriving DecidableEq

/-- What a handler has still to do. Other threads may raise the flag in between. -/
inductive Task
  | disconnect (failed : ℕ)
  | postDisconnect (failed : ℕ)
  | doRead
  | doWrite
  | dispatch (payloads : List PayloadView)
  | dispatched (payloads : List PayloadView)
  | finishRead
  deriving DecidableEq

/-- An invocation of a callback of the client's owner. -/
inductive Event
  | on_connect (call : ℕ) (status : Bool)
  | disconnect_cb
  deriving DecidableEq, Repr

/-- A call of `connect`. -/
structure Call where
  /-- It was given a callback. -/
  on_connect : Bool
  /-- The connections that had been told to disconnect by then. -/
  told : List ℕ
  deriving DecidableEq, Repr

end TcpClient

/-- A client and what the runtime holds for it. -/
structure TcpClient where
  is_connected_ : Bool := false
  disconnect_requested_ : Bool := false
  disconnect_generation_ : ℕ := 0
  is_connecting_ : Bool := false
  active_connect_generation_ : ℕ := 0
  /-- The call of `connect` whose callback is stored. -/
  pending_connect_callback_ : Option ℕ := none
  read_buffer_ : Bytes := []
  write_queue_ : List TcpClient.QueuedFrame := []
  is_writing_ : Bool := false
  /-- Whether the owner has set the callback. -/
  message_cb_ : Bool
  disconnect_cb_ : Bool
  strand : List TcpClient.Handler := []
  /-- What is left of the handler that the strand runs. -/
  running : Option TcpClient.Task := none
  operations : List TcpClient.Operation := []
  /-- Threads in `disconnect` that have raised the flag and not posted the handler. -/
  disconnecting : ℕ := 0
  /-- The frames encoded so far. -/
  sends : ℕ := 0
  /-- History: the calls of `connect`; a call goes by its position. -/
  calls : List TcpClient.Call := []
  /-- History: the callbacks invoked. -/
  events : List TcpClient.Event := []
  /-- History: the call of the current attempt or connection. -/
  current : ℕ := 0
  /-- History: the calls whose socket has been connected. -/
  opened : List ℕ := []
  /-- History: the generations of the connections that were told to disconnect. -/
  told : List ℕ := []
  /-- History: the connection whose failure was the last to raise the flag; none after a call of
  `disconnect`. -/
  requestedBy : Option ℕ := none
  /-- History: the calls whose attempt or connection a disconnect has ended, each with the
  connection whose failure asked for the disconnect. -/
  ended : List (Option ℕ × ℕ) := []
  /-- History: the payloads handed to `message_cb_`. -/
  messages : List PayloadView := []
  /-- History: the frames accepted for a connection, and those handed to its socket. -/
  accepted : List (ℕ × TcpClient.QueuedFrame) := []
  written : List (ℕ × TcpClient.QueuedFrame) := []
  deriving DecidableEq

namespace TcpClient

/-- What can happen next: a call from any thread, the two steps of a call of `disconnect`, the
end of an operation, the strand taking up its first handler or going on with one. -/
inductive Label
  | connect (on_connect : Bool)
  | send (data : Bytes)
  | disconnect
  | postDisconnect
  | complete (i : ℕ) (result : Option Bytes)
  | runHandler
  | resume
  deriving DecidableEq

def post (c : TcpClient) (handler : Handler) : TcpClient :=
  { c with strand := c.strand ++ [handler] }

def launch (c : TcpClient) (operation : Operation) : TcpClient :=
  { c with operations := c.operations ++ [operation] }

/-! ### Callbacks and generations -/

def isValidGeneration (c : TcpClient) (generation : ℕ) : Bool :=
  generation = c.active_connect_generation_ && generation = c.disconnect_generation_

/-- Invoke the callback of a call of `connect`; an empty one is skipped. -/
def invokeConnectCallback (c : TcpClient) (callback : Option ℕ) (status : Bool) : TcpClient :=
  match callback with
  | none => c
  | some call => { c with events := c.events ++ [.on_connect call status] }

/-- Invoke the stored callback, which is moved out of its place. -/
def invokePendingCallback (c : TcpClient) (status : Bool) : TcpClient :=
  { c with pending_connect_callback_ := none }.invokeConnectCallback
    c.pending_connect_callback_ status

def failConnect (c : TcpClient) : TcpClient :=
  { c with is_connecting_ := false, is_connected_ := false }.invokePendingCallback false

/-! ### Connecting -/

/-- The handler `connect` posts. -/
def onConnect (c : TcpClient) (call : ℕ) (on_connect : Bool) : TcpClient :=
  let generation := c.disconnect_generation_
  let connect_cb := if on_connect then some call else none
  if c.is_connected_ || c.is_connecting_ then
    c.invokeConnectCallback connect_cb false
  else
    { c with
      disconnect_requested_ := false
      is_connecting_ := true
      active_connect_generation_ := generation
      pending_connect_callback_ := connect_cb
      current := call }.launch (.resolve generation call)

/-- History: the attempt ends because the flag was raised. -/
def endRequested (c : TcpClient) : TcpClient :=
  { c with ended := c.ended ++ [(c.requestedBy, c.current)] }

def onResolved (c : TcpClient) (generation call : ℕ) (result : Option Bytes) : TcpClient :=
  if !c.isValidGeneration generation || !c.is_connecting_ then c
  else if c.disconnect_requested_ then
    { c.endRequested with is_connecting_ := false }.invokePendingCallback false
  else if result.isNone then
    { c with is_connecting_ := false }.invokePendingCallback false
  else
    c.launch (.connect generation call)

def onConnected (c : TcpClient) (generation : ℕ) (result : Option Bytes) :
    TcpClient × Option Task :=
  if !c.isValidGeneration generation || !c.is_connecting_ then (c, none)
  else if c.disconnect_requested_ then (c.endRequested.failConnect, none)
  else
    let c := { c with is_connecting_ := false }
    if result.isNone then
      ({ c with is_connected_ := false }.invokePendingCallback false, none)
    else
      ({ c with is_connected_ := true }.invokePendingCallback true, some .doRead)

/-! ### Disconnecting -/

/-- The connection, if there is one, is told to disconnect. -/
def tell (c : TcpClient) : TcpClient :=
  if c.is_connected_ then { c with told := c.told ++ [c.active_connect_generation_] } else c

/-- `disconnect` up to the flag. -/
def requestDisconnect (c : TcpClient) (failed : Option ℕ) : TcpClient :=
  { c.tell with disconnect_requested_ := true, requestedBy := failed }

/-- The rest of `disconnect`. -/
def postDisconnect (c : TcpClient) (failed : Option ℕ) : TcpClient :=
  c.tell.post (.disconnect failed)

/-- The handler `disconnect` posts. -/
def onDisconnect (c : TcpClient) (failed : Option ℕ) : TcpClient :=
  let was_connected := c.is_connected_
  let was_connecting := c.is_connecting_
  let has_pending_writes := !c.write_queue_.isEmpty
  let c := { c with
    disconnect_generation_ := c.disconnect_generation_ + 1
    is_connected_ := false
    ended :=
      if was_connected || was_connecting then c.ended ++ [(failed, c.current)] else c.ended }
  -- The generation has changed even where there is nothing to disconnect.
  if !was_connected && !was_connecting && !has_pending_writes && !c.disconnect_requested_ then c
  else
    let connect_callback := c.pending_connect_callback_
    let c := { c with
      is_connecting_ := false
      read_buffer_ := []
      write_queue_ := []
      is_writing_ := false
      pending_connect_callback_ := none }
    let c := if was_connecting then c.invokeConnectCallback connect_callback false else c
    if was_connected && c.disconnect_cb_ then { c with events := c.events ++ [.disconnect_cb] }
    else c

/-! ### Reading and writing -/

def doRead (c : TcpClient) : TcpClient :=
  if !c.is_connected_ || c.disconnect_requested_ then c
  else c.launch (.read c.active_connect_generation_)

def onRead (c : TcpClient) (generation : ℕ) (result : Option Bytes) : TcpClient × Option Task :=
  if !c.isValidGeneration generation || !c.is_connected_ || c.disconnect_requested_ then
    (c, none)
  else
    match result with
    | none => (c, some (.disconnect generation))
    | some chunk =>
      let (payloads, rest) := FrameCodec.receive ([], c.read_buffer_) chunk
      ({ c with read_buffer_ := rest }, some (.dispatch payloads))

def doWrite (c : TcpClient) : TcpClient :=
  if !c.is_connected_ || c.disconnect_requested_ then { c with is_writing_ := false }
  else
    match c.write_queue_ with
    | [] => { c with is_writing_ := false }
    | frame :: _ =>
      let generation := c.active_connect_generation_
      { c with
        is_writing_ := true
        written := c.written ++ [(generation, frame)] }.launch (.write generation frame)

/-- The handler `send` posts. -/
def onSend (c : TcpClient) (frame : QueuedFrame) : TcpClient × Option Task :=
  if !c.is_connected_ || c.disconnect_requested_ then (c, none)
  else
    let c := { c with
      write_queue_ := c.write_queue_ ++ [frame]
      accepted := c.accepted ++ [(c.active_connect_generation_, frame)] }
    (c, if !c.is_writing_ then some .doWrite else none)

/-- Unlike the handler of a read it does not look at the flag. -/
def onWritten (c : TcpClient) (generation : ℕ) (frame : QueuedFrame) (result : Option Bytes) :
    TcpClient × Option Task :=
  if generation ≠ c.active_connect_generation_ || generation ≠ c.disconnect_generation_ ||
      !c.is_connected_ then
    (c, none)
  else
    match result with
    | none => (c, some (.disconnect generation))
    | some _ =>
      let c :=
        if c.write_queue_.head? = some frame then { c with write_queue_ := c.write_queue_.tail }
        else c
      if !c.write_queue_.isEmpty && c.is_connected_ then (c, some .doWrite)
      else ({ c with is_writing_ := false }, none)

/-! ### Steps -/

/-- A handler up to the first point where other threads matter again. -/
def handle (c : TcpClient) : Handler → TcpClient × Option Task
  | .connect call on_connect => (c.onConnect call on_connect, none)
  | .send frame => c.onSend frame
  | .disconnect failed => (c.onDisconnect failed, none)
  | .completion (.resolve generation call) result => (c.onResolved generation call result, none)
  | .completion (.connect generation _) result => c.onConnected generation result
  | .completion (.read generation) result => c.onRead generation result
  | .completion (.write generation frame) result => c.onWritten generation frame result

/-- One step of what is left of a handler. -/
def perform (c : TcpClient) : Task → TcpClient × Option Task
  | .disconnect failed => (c.requestDisconnect (some failed), some (.postDisconnect failed))
  | .postDisconnect failed => (c.postDisconnect (some failed), none)
  | .doRead => (c.doRead, none)
  | .doWrite => (c.doWrite, none)
  | .dispatch [] => (c, some .finishRead)
  | .dispatch (payload :: payloads) =>
    -- Once the flag is seen the payloads that are left are dropped.
    if c.disconnect_requested_ then (c, some .finishRead)
    else if c.message_cb_ then
      ({ c with messages := c.messages ++ [payload] }, some (.dispatched payloads))
    else (c, some (.dispatch payloads))
  | .dispatched payloads =>
    if c.disconnect_requested_ then (c, some .finishRead) else (c, some (.dispatch payloads))
  | .finishRead =>
    if !c.is_connected_ || c.disconnect_requested_ then (c, none) else (c, some .doRead)

/-- An operation ends; the history hears of a socket that has been connected. -/
def complete (c : TcpClient) (operation : Operation) (result : Option Bytes) : TcpClient :=
  { c with
    opened :=
      match operation, result with
      | .connect _ call, some _ => c.opened ++ [call]
      | _, _ => c.opened }.post (.completion operation result)

def step (c : TcpClient) : Label → Option TcpClient
  | .connect on_connect =>
    some ({ c with calls := c.calls ++ [Call.mk on_connect c.told] }.post
      (.connect c.calls.length on_connect))
  | .send data =>
    if FrameCodec.kMaxMessageSize < data.length then some c
    else
      match FrameCodec.encode data with
      | .ok frame => some ({ c with sends := c.sends + 1 }.post (.send ⟨c.sends, frame⟩))
      | .error _ => some c
  | .disconnect => some { c.requestDisconnect none with disconnecting := c.disconnecting + 1 }
  | .postDisconnect =>
    if c.disconnecting = 0 then none
    else some ({ c with disconnecting := c.disconnecting - 1 }.postDisconnect none)
  | .complete i result =>
    match c.operations[i]? with
    | none => none
    | some operation =>
      some ({ c with operations := c.operations.eraseIdx i }.complete operation result)
  | .runHandler =>
    match c.running, c.strand with
    | none, handler :: strand =>
      let (c', task) := { c with strand := strand }.handle handler
      some { c' with running := task }
    | _, _ => none
  | .resume =>
    match c.running with
    | none => none
    | some task =>
      let (c', task) := c.perform task
      some { c' with running := task }

/-- The client of an owner who has set some of the callbacks. -/
def machine (message_cb disconnect_cb : Bool) : Machine TcpClient Label where
  init := { message_cb_ := message_cb, disconnect_cb_ := disconnect_cb }
  step := step

end TcpClient

end SpaceShooter.Client
