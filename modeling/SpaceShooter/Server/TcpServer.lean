/-
# The server and its sessions

The acceptor, the handlers of accepted connections, the sessions that they create and the
registry through which packets reach them. Each accept handler starts the next accept as its
last statement, so there is one chain of them. A broadcast copies the registered sessions
under the mutex of the registry and sends to one after the other without it.
-/

import Mathlib.Data.List.Perm.Basic
import SpaceShooter.Library.Components
import SpaceShooter.Server.Acceptance
import SpaceShooter.Server.Rearming

namespace SpaceShooter.Server

open Library Network

/-- How an `async_accept` ends. -/
inductive AcceptResult
  | error (error : IoError)
  | connected (remote_address : Bytes)
  deriving DecidableEq, Repr

/-- Closing the acceptor aborts the accept that waits on it, and nothing else does. -/
def AcceptResult.possible (acceptorOpen : Bool) : AcceptResult → Bool
  | error .operation_aborted => !acceptorOpen
  | error .failed => true
  | connected _ => acceptorOpen

/-- The handler of an accepted connection and the statement it comes to next. -/
structure Accepting where
  session_id : SessionId
  remote_address : Bytes
  stage : Acceptance.Stage := .addSession
  deriving DecidableEq, Repr

/-- A `SendPacketEvent`, with the sessions that the registry had when its subscriber ran. -/
structure Packet (T : Type) where
  thread : T
  session_id : SessionId
  payload : Bytes
  registered : List SessionId
  deriving DecidableEq, Repr

/-- A call of `Session::send`. -/
structure Post (T : Type) where
  thread : T
  session_id : SessionId
  payload : Bytes
  deriving DecidableEq, Repr

/-- The server: its acceptor, and the sessions that have ever been in the registry. -/
structure TcpServer (T K : Type) where
  started : Bool := false
  acceptorOpen : Bool := true
  /-- Accepts that wait for a connection. -/
  accepting : ℕ := 0
  /-- Results of accepts whose completion handlers have not run. -/
  finished : List AcceptResult := []
  /-- Accept handlers on their way. -/
  running : List Accepting := []
  next_session_id_ : ℕ := 1
  sessions : SessionId → Option (Session K) := fun _ => none
  /-- What the threads that publish packets have still to send. -/
  sending : T → List (SessionId × Bytes) := fun _ => []
  /-- History: the connections published on the bus. -/
  connections : List (SessionId × Bytes) := []
  /-- History: the packets published on the bus. -/
  packets : List (Packet T) := []
  /-- History: the calls of `Session::send`. -/
  posts : List (Post T) := []

/-- What can happen next: a call of the owner, progress of the acceptor, of an accept handler,
of a session or of a thread that publishes packets. `refuses` tells whether a subscriber
answers the publication of a connection with an exception. -/
inductive TcpServer.Label (T : Type)
  | start
  | stop
  | acceptFinishes (result : AcceptResult)
  | acceptCompletion
  | accept (refuses : Bool)
  | session (id : SessionId) (label : Session.Label)
  | sendPacketEvent (thread : T) (session_id : SessionId) (payload : Bytes)
      (order : List SessionId)
  | send (thread : T)

/-- The labels of a session that the runtime decides on. -/
def Session.Label.isRuntime : Session.Label → Bool
  | .readFinishes _ => true
  | .readPosted => true
  | .writeFinishes _ => true
  | .runHandler _ => true
  | _ => false

/-- The payload of a call of `send`. -/
def Session.Label.sent? : Session.Label → Option Bytes
  | .send data => some data
  | _ => none

namespace TcpServer

def kBroadcastSessionId : SessionId := 0

variable {T K : Type} [DecidableEq T]

def doAccept (s : TcpServer T K) : TcpServer T K := { s with accepting := s.accepting + 1 }

/-- The end of an accept handler. -/
def rearm (s : TcpServer T K) : TcpServer T K := if s.acceptorOpen then s.doAccept else s

def put (s : TcpServer T K) (id : SessionId) (session : Session K) : TcpServer T K :=
  { s with sessions := Function.update s.sessions id (some session) }

def isRegistered (s : TcpServer T K) (id : SessionId) : Bool :=
  (s.sessions id).any fun session => session.registered

/-- The keys of `sessions_`; the order in which the map goes through them is not specified. -/
def registry (s : TcpServer T K) : List SessionId :=
  (List.range s.next_session_id_).filter s.isRegistered

/-- Whom the subscriber of the registry sends a packet to. -/
def receivers (registered : List SessionId) (session_id : SessionId) : List SessionId :=
  if session_id = kBroadcastSessionId then registered
  else if session_id ∈ registered then [session_id] else []

/-- The completion handler of an accept up to the creation of the session. -/
def onAccept (s : TcpServer T K) : AcceptResult → TcpServer T K
  | .error .operation_aborted => s
  | .error .failed => s.rearm
  | .connected remote_address =>
    { s with
      next_session_id_ := s.next_session_id_ + 1
      running := s.running ++ [{ session_id := s.next_session_id_, remote_address }] }

/-- The next statement of an accept handler. -/
def accept (s : TcpServer T K) (handler : Accepting) (others : List Accepting) (refuses : Bool) :
    Option (TcpServer T K) :=
  let id := handler.session_id
  match handler.stage with
  | .addSession =>
    -- `emplace` keeps an entry that is there.
    if s.isRegistered id then some { s with running := { handler with stage := .start } :: others }
    else
      some ({ s with running := { handler with stage := .start } :: others }.put id
        (Session.machine K id).init)
  | .start =>
    ((s.sessions id).bind (·.step .start)).map fun session =>
      { s with running := { handler with stage := .publish } :: others }.put id session
  | .publish =>
    let s := { s with connections := s.connections ++ [(id, handler.remote_address)] }
    -- The exception leaves the handler.
    if refuses then some { s with running := others }
    else some { s with running := { handler with stage := .done } :: others }
  | .done => some ({ s with running := others }.rearm)

def step (s : TcpServer T K) : Label T → Option (TcpServer T K)
  | .start => if s.started then none else some ({ s with started := true }.doAccept)
  | .stop => some { s with acceptorOpen := false }
  | .acceptFinishes result =>
    if s.accepting = 0 ∨ ¬ result.possible s.acceptorOpen then none
    else some { s with accepting := s.accepting - 1, finished := s.finished ++ [result] }
  | .acceptCompletion =>
    match s.finished with
    | [] => none
    | result :: finished => some ({ s with finished := finished }.onAccept result)
  | .accept refuses =>
    match s.running with
    | [] => none
    | handler :: others => s.accept handler others refuses
  | .session id label =>
    if label.isRuntime then ((s.sessions id).bind (·.step label)).map (s.put id) else none
  -- The calls for one packet are over before the thread publishes the next one.
  | .sendPacketEvent thread session_id payload order =>
    if s.sending thread = [] ∧ order.Perm (receivers s.registry session_id) then
      some { s with
        packets := s.packets ++ [⟨thread, session_id, payload, s.registry⟩]
        sending := Function.update s.sending thread (order.map fun id => (id, payload)) }
    else none
  | .send thread =>
    match s.sending thread with
    | [] => none
    | (id, payload) :: rest =>
      ((s.sessions id).bind (·.step (.send payload))).map fun session =>
        { s.put id session with
          sending := Function.update s.sending thread rest
          posts := s.posts ++ [⟨thread, id, payload⟩] }

def machine (T K : Type) [DecidableEq T] : Machine (TcpServer T K) (Label T) where
  init := {}
  step := step

/-- The accepts that wait, have finished, or are handled. -/
def chain (s : TcpServer T K) : ℕ := s.accepting + s.finished.length + s.running.length

/-- The payloads that were sent to a session. -/
def told (s : TcpServer T K) (id : SessionId) : List Bytes :=
  (s.posts.filter fun post => post.session_id = id).map (·.payload)

/-! ### What a step does -/

/-- The label of a step, with the guard that let it through. -/
inductive Transition (s : TcpServer T K) : Label T → TcpServer T K → Prop
  | start (fresh : s.started = false) : Transition s .start { s with started := true }.doAccept
  | stop : Transition s .stop { s with acceptorOpen := false }
  | acceptFinishes (result : AcceptResult) (accepting : s.accepting ≠ 0)
      (possible : result.possible s.acceptorOpen = true) :
      Transition s (.acceptFinishes result)
        { s with accepting := s.accepting - 1, finished := s.finished ++ [result] }
  | acceptCompletion (result : AcceptResult) (finished : List AcceptResult)
      (first : s.finished = result :: finished) :
      Transition s .acceptCompletion ({ s with finished := finished }.onAccept result)
  | addSession (refuses : Bool) (handler : Accepting) (others : List Accepting)
      (first : s.running = handler :: others) (stage : handler.stage = .addSession)
      (fresh : s.isRegistered handler.session_id = false) :
      Transition s (.accept refuses)
        ({ s with running := { handler with stage := .start } :: others }.put handler.session_id
          (Session.machine K handler.session_id).init)
  | keepSession (refuses : Bool) (handler : Accepting) (others : List Accepting)
      (first : s.running = handler :: others) (stage : handler.stage = .addSession)
      (taken : s.isRegistered handler.session_id = true) :
      Transition s (.accept refuses)
        { s with running := { handler with stage := .start } :: others }
  | startSession (refuses : Bool) (handler : Accepting) (others : List Accepting)
      (session session' : Session K) (first : s.running = handler :: others)
      (stage : handler.stage = .start) (known : s.sessions handler.session_id = some session)
      (answers : session.step .start = some session') :
      Transition s (.accept refuses)
        ({ s with running := { handler with stage := .publish } :: others }.put
          handler.session_id session')
  | publish (refuses : Bool) (handler : Accepting) (others : List Accepting)
      (first : s.running = handler :: others) (stage : handler.stage = .publish) :
      Transition s (.accept refuses)
        { s with
          connections := s.connections ++ [(handler.session_id, handler.remote_address)]
          running := if refuses then others else { handler with stage := .done } :: others }
  | done (refuses : Bool) (handler : Accepting) (others : List Accepting)
      (first : s.running = handler :: others) (stage : handler.stage = .done) :
      Transition s (.accept refuses) { s with running := others }.rearm
  | session (id : SessionId) (label : Session.Label) (session session' : Session K)
      (runtime : label.isRuntime = true) (known : s.sessions id = some session)
      (answers : session.step label = some session') :
      Transition s (.session id label) (s.put id session')
  | sendPacketEvent (thread : T) (session_id : SessionId) (payload : Bytes)
      (order : List SessionId) (idle : s.sending thread = [])
      (perm : order.Perm (receivers s.registry session_id)) :
      Transition s (.sendPacketEvent thread session_id payload order)
        { s with
          packets := s.packets ++ [⟨thread, session_id, payload, s.registry⟩]
          sending := Function.update s.sending thread (order.map fun id => (id, payload)) }
  | send (thread : T) (id : SessionId) (payload : Bytes) (rest : List (SessionId × Bytes))
      (session session' : Session K) (first : s.sending thread = (id, payload) :: rest)
      (known : s.sessions id = some session)
      (answers : session.step (.send payload) = some session') :
      Transition s (.send thread)
        { s.put id session' with
          sending := Function.update s.sending thread rest
          posts := s.posts ++ [⟨thread, id, payload⟩] }

theorem transition_of_accept {s t : TcpServer T K} {handler : Accepting}
    {others : List Accepting} {refuses : Bool} (first : s.running = handler :: others)
    (h : s.accept handler others refuses = some t) : Transition s (.accept refuses) t := by
  unfold accept at h
  dsimp only at h
  split at h
  · next stage =>
    split_ifs at h with taken
    · exact Option.some.inj h ▸ .keepSession refuses handler others first stage taken
    · exact Option.some.inj h ▸
        .addSession refuses handler others first stage (Bool.eq_false_of_not_eq_true taken)
  · next stage =>
    obtain ⟨session', answers, rfl⟩ := Option.map_eq_some_iff.mp h
    obtain ⟨session, known, answers⟩ := Option.bind_eq_some_iff.mp answers
    exact .startSession refuses handler others session session' first stage known answers
  · next stage =>
    have published := Transition.publish refuses handler others first stage
    split_ifs at h with hrefuses
    · rw [if_pos hrefuses] at published
      exact Option.some.inj h ▸ published
    · rw [if_neg hrefuses] at published
      exact Option.some.inj h ▸ published
  · next stage => exact Option.some.inj h ▸ .done refuses handler others first stage

theorem transition_of_step {s t : TcpServer T K} {label : Label T} (h : s.step label = some t) :
    Transition s label t := by
  cases label with
  | start =>
    simp only [step] at h
    split_ifs at h with started
    exact Option.some.inj h ▸ .start (Bool.eq_false_of_not_eq_true started)
  | stop => exact Option.some.inj h ▸ .stop
  | acceptFinishes result =>
    simp only [step] at h
    split_ifs at h with refused
    rw [not_or, not_not] at refused
    exact Option.some.inj h ▸ .acceptFinishes result refused.1 refused.2
  | acceptCompletion =>
    simp only [step] at h
    split at h
    · cases h
    · next result finished first =>
      exact Option.some.inj h ▸ .acceptCompletion result finished first
  | accept refuses =>
    simp only [step] at h
    split at h
    · cases h
    · next handler others first => exact transition_of_accept first h
  | session id label =>
    simp only [step] at h
    split_ifs at h with runtime
    obtain ⟨session', answers, rfl⟩ := Option.map_eq_some_iff.mp h
    obtain ⟨session, known, answers⟩ := Option.bind_eq_some_iff.mp answers
    exact .session id label session session' runtime known answers
  | sendPacketEvent thread session_id payload order =>
    simp only [step] at h
    split_ifs at h with guard
    exact Option.some.inj h ▸ .sendPacketEvent thread session_id payload order guard.1 guard.2
  | send thread =>
    simp only [step] at h
    split at h
    · cases h
    · next id payload rest first =>
      obtain ⟨session', answers, rfl⟩ := Option.map_eq_some_iff.mp h
      obtain ⟨session, known, answers⟩ := Option.bind_eq_some_iff.mp answers
      exact .send thread id payload rest session session' first known answers

end TcpServer

end SpaceShooter.Server
