/-
# Disconnections

Closing a session takes several steps on several threads: the call that wins the flag posts
the handler, the handler publishes the disconnect, and the subscribers of the event remove
the session from the registry, which closes it again, and queue the quit of its player.
However these steps interleave, one handler is posted and one disconnect is published, and
when its publication returns the registry has let go of the session and the world has one
quit of it.
-/

import SpaceShooter.Server.Session
import SpaceShooter.Server.WorldTick

namespace SpaceShooter.Server

open Library Network

/-- The next step of a call that is under way: of `Session::close` before it swaps the flag
and before it posts the handler, of `SessionRegistry::removeSession` before its locked section,
and of the world's subscriber. -/
inductive Connection.Call
  | close
  | postClose
  | removeSession
  | onClientDisconnected
  deriving DecidableEq, Repr

/-- A session, the calls that concern it, and the world that hears of it. -/
structure Connection (K : Type) where
  session : Session K
  world : World K
  /-- What is left of the handler that the strand runs. -/
  running : List Connection.Call := []
  /-- The calls under way on other threads. -/
  calls : List Connection.Call := []
  /-- History: the actions the world has queued. -/
  enqueued : List (ActionEvent K) := []

/-- What can happen next: progress of the session apart from its calls, a new call on some
thread, a step of a call, the strand taking up its first handler or going on with one, and
what the world does on its own. -/
inductive Connection.Label (K : Type)
  | session (label : Session.Label)
  | close
  | removeSession
  | advance (i : ℕ)
  | runHandler (refuses : ℕ → Bool)
  | advanceRunning
  | world (op : World.Op K)

/-- The labels of a session that this module takes apart into steps. -/
def Session.Label.isCall : Session.Label → Bool
  | .close => true
  | .removeSession => true
  | .runHandler _ => true
  | _ => false

namespace Connection

variable {K : Type}

/-! ### Handlers -/

/-- `Session::doWrite` up to the call of `close` in its handler of exceptions. -/
def doWrite (s : Session K) : Session K × List Call :=
  if s.closed_ then
    ({ s with is_writing_ := false }, [])
  else
    match s.write_queue_ with
    | [] => ({ s with is_writing_ := false }, [])
    | payload :: queue =>
      match FrameCodec.encode payload with
      | .ok frame =>
        ({ s with
          write_queue_ := queue
          writing := s.writing + 1
          written := s.written ++ [frame.buffers] }, [])
      | .error _ => ({ s with write_queue_ := queue, is_writing_ := false }, [.close])

def onSend (s : Session K) (data : Bytes) : Session K × List Call :=
  if s.closed_ then (s, [])
  else
    let s := { s with write_queue_ := s.write_queue_ ++ [data] }
    if !s.is_writing_ then doWrite { s with is_writing_ := true } else (s, [])

/-- The subscribers of a disconnect in the order they were connected to the bus. -/
def subscribers (registryFirst : Bool) : List Call :=
  if registryFirst then [.removeSession, .onClientDisconnected]
  else [.onClientDisconnected, .removeSession]

/-- A handler of the strand up to its first call. -/
def handle (registryFirst : Bool) (s : Session K) (refuses : ℕ → Bool) :
    Session.Handler → Session K × List Call
  | .doRead => (s.doRead, [])
  | .send data => onSend s data
  | .close =>
    ({ s with socketOpen := false }.publish (.ClientDisconnectedEvent s.id_),
      subscribers registryFirst)
  | .readCompletion (.error _) => (s, [.close])
  | .readCompletion (.bytes chunk) => (s.onReadCompletion refuses (.bytes chunk), [])
  | .writeCompletion (some _) => ({ s with is_writing_ := false }, [.close])
  | .writeCompletion none => doWrite s

/-- The disconnects a session has published. -/
def disconnects (s : Session K) : ℕ := s.published.countP (NetworkEvent.isDisconnectOf s.id_)

/-! ### What a handler does -/

/-- A handler that leaves alone what closing is about. -/
structure Agrees (s s' : Session K) : Prop where
  id_ : s'.id_ = s.id_
  closed_ : s'.closed_ = s.closed_
  registered : s'.registered = s.registered
  strand : s'.strand.count .close = s.strand.count .close
  disconnects : disconnects s' = disconnects s

theorem Agrees.refl (s : Session K) : Agrees s s := ⟨rfl, rfl, rfl, rfl, rfl⟩

theorem Agrees.trans {s s' s'' : Session K} (h : Agrees s s') (h' : Agrees s' s'') :
    Agrees s s'' :=
  ⟨h'.id_.trans h.id_, h'.closed_.trans h.closed_, h'.registered.trans h.registered,
    h'.strand.trans h.strand, h'.disconnects.trans h.disconnects⟩

/-- The writer's own fields play no part. -/
theorem agrees_writer (s : Session K) (queue : List Bytes) (is_writing : Bool) (writing : ℕ)
    (written : List Bytes) :
    Agrees s { s with
      write_queue_ := queue, is_writing_ := is_writing, writing := writing, written := written } :=
  ⟨rfl, rfl, rfl, rfl, rfl⟩

theorem agrees_post (s : Session K) (handler : Session.Handler) (h : handler ≠ .close) :
    Agrees s (s.post handler) := by
  refine ⟨rfl, rfl, rfl, ?_, rfl⟩
  rw [Session.post, List.count_append, List.count_singleton, beq_eq_false_iff_ne.mpr h]
  rfl

theorem agrees_doRead (s : Session K) : Agrees s s.doRead := by
  unfold Session.doRead
  split_ifs
  · exact Agrees.refl s
  · exact ⟨rfl, rfl, rfl, rfl, rfl⟩

/-- A write goes on, or asks once for the session to be closed. -/
theorem doWrite_spec (s : Session K) :
    Agrees s (doWrite s).1 ∧ ∃ n, (doWrite s).2 = List.replicate n .close := by
  unfold doWrite
  split_ifs
  · exact ⟨agrees_writer s _ _ _ _, 0, rfl⟩
  · split
    · exact ⟨agrees_writer s _ _ _ _, 0, rfl⟩
    · split
      · exact ⟨agrees_writer s _ _ _ _, 0, rfl⟩
      · exact ⟨agrees_writer s _ _ _ _, 1, rfl⟩

theorem onSend_spec (s : Session K) (data : Bytes) :
    Agrees s (onSend s data).1 ∧ ∃ n, (onSend s data).2 = List.replicate n .close := by
  unfold onSend
  split_ifs with hclosed
  · exact ⟨Agrees.refl s, 0, rfl⟩
  · dsimp only
    split_ifs
    · obtain ⟨hagrees, hcalls⟩ := doWrite_spec { s with
        write_queue_ := s.write_queue_ ++ [data], is_writing_ := true }
      exact ⟨⟨hagrees.id_, hagrees.closed_, hagrees.registered, hagrees.strand,
        hagrees.disconnects⟩, hcalls⟩
    · exact ⟨agrees_writer s _ _ _ _, 0, rfl⟩

/-- The frames a read delivers are messages. -/
theorem agrees_onReadCompletion (s : Session K) (refuses : ℕ → Bool) (chunk : Bytes) :
    Agrees s (s.onReadCompletion refuses (.bytes chunk)) := by
  obtain ⟨payloads, -, hpublished, hid, -⟩ := s.onReadCompletion_bytes refuses chunk
  have hdisconnects : disconnects (s.onReadCompletion refuses (.bytes chunk)) = disconnects s := by
    have hmessages : (payloads.map (NetworkEvent.NetworkMessageEvent s.id_ (K := K))).countP
        (NetworkEvent.isDisconnectOf s.id_) = 0 := by
      rw [List.countP_map]
      exact List.countP_eq_zero.mpr fun _ _ h => by cases h
    rw [disconnects, hid, hpublished, List.countP_append, hmessages]
    rfl
  unfold Session.onReadCompletion at hid hdisconnects ⊢
  dsimp only at hid hdisconnects ⊢
  split
  · next published rest heq =>
    rw [heq] at hid hdisconnects
    have hread := agrees_doRead { s with published := published, read_buffer_ := rest }
    exact ⟨hid, hread.closed_, hread.registered, hread.strand, hdisconnects⟩
  · next published rest heq =>
    rw [heq] at hid hdisconnects
    exact ⟨hid, rfl, rfl, rfl, hdisconnects⟩

/-- Every handler but the one `close` posts leaves closing alone, and may ask for it. -/
theorem handle_spec (registryFirst : Bool) (s : Session K) (refuses : ℕ → Bool)
    {handler : Session.Handler} (h : handler ≠ .close) :
    Agrees s (handle registryFirst s refuses handler).1 ∧
      ∃ n, (handle registryFirst s refuses handler).2 = List.replicate n .close := by
  cases handler with
  | doRead => exact ⟨agrees_doRead s, 0, rfl⟩
  | send data => exact onSend_spec s data
  | close => exact absurd rfl h
  | readCompletion result =>
    cases result with
    | error _ => exact ⟨Agrees.refl s, 1, rfl⟩
    | bytes chunk => exact ⟨agrees_onReadCompletion s refuses chunk, 0, rfl⟩
  | writeCompletion error =>
    cases error with
    | some _ => exact ⟨agrees_writer s _ _ _ _, 1, rfl⟩
    | none => exact doWrite_spec s

/-- So does what happens outside of handlers and calls. -/
theorem agrees_step {s s' : Session K} {label : Session.Label} (hcall : label.isCall = false)
    (hstep : s.step label = some s') : Agrees s s' := by
  cases Session.transition_of_step hstep with
  | start =>
    unfold Session.start
    split_ifs
    · exact ⟨rfl, rfl, rfl, rfl, rfl⟩
    · have hpost := agrees_post { s with started := true } .doRead (fun h => by cases h)
      exact ⟨hpost.id_, hpost.closed_, hpost.registered, hpost.strand, hpost.disconnects⟩
  | send data => exact agrees_post s (.send data) (fun h => by cases h)
  | close => cases hcall
  | removeSession => cases hcall
  | readFinishes result => exact ⟨rfl, rfl, rfl, rfl, rfl⟩
  | readPosted result finished =>
    have hpost := agrees_post { s with finished := finished } (.readCompletion result)
      (fun h => by cases h)
    exact ⟨hpost.id_, hpost.closed_, hpost.registered, hpost.strand, hpost.disconnects⟩
  | writeFinishes error =>
    have hpost := agrees_post { s with writing := s.writing - 1 } (.writeCompletion error)
      (fun h => by cases h)
    exact ⟨hpost.id_, hpost.closed_, hpost.registered, hpost.strand, hpost.disconnects⟩
  | runHandler => cases hcall

variable [Scalar K]

/-! ### Steps -/

/-- The world hears of an event. -/
def deliver (c : Connection K) (event : NetworkEvent K) : Connection K :=
  let world := World.onEvent event c.world
  { c with
    world := world
    enqueued := c.enqueued ++ world.action_queue_.drop c.world.action_queue_.length }

/-- One step of a call, and what is left of the call. -/
def advance (c : Connection K) : Call → Connection K × List Call
  -- `closed_.exchange(true)`: whoever finds the flag set returns.
  | .close =>
    if c.session.closed_ then (c, [])
    else ({ c with session := { c.session with closed_ := true } }, [.postClose])
  | .postClose => ({ c with session := c.session.post .close }, [])
  -- The entry is looked up and erased under the lock, the session is closed outside of it.
  | .removeSession =>
    if c.session.registered then
      ({ c with session := { c.session with registered := false } }, [.close])
    else (c, [])
  | .onClientDisconnected => (c.deliver (.ClientDisconnectedEvent c.session.id_), [])

variable (ext : Externals K) (tick_interval : ℕ) (registryFirst : Bool)

def step (c : Connection K) : Label K → Option (Connection K)
  | .session label =>
    if label.isCall then none
    else (c.session.step label).map fun session => { c with session := session }
  | .close => some { c with calls := c.calls ++ [.close] }
  | .removeSession => some { c with calls := c.calls ++ [.removeSession] }
  | .advance i =>
    match c.calls[i]? with
    | none => none
    | some call =>
      let (c', rest) := c.advance call
      some { c' with calls := c.calls.eraseIdx i ++ rest }
  | .runHandler refuses =>
    match c.running, c.session.strand with
    | [], handler :: strand =>
      let (session, rest) :=
        handle registryFirst { c.session with strand := strand } refuses handler
      some { c with session := session, running := rest }
    | _, _ => none
  | .advanceRunning =>
    match c.running with
    | [] => none
    | call :: running =>
      let (c', rest) := c.advance call
      some { c' with running := rest ++ running }
  | .world op =>
    match op with
    -- Identifiers are unique, so nobody else announces the disconnect of this session.
    | .event event =>
      if event.isDisconnectOf c.session.id_ then none else some (c.deliver event)
    | op => some { c with world := World.step ext tick_interval c.world op }

def machine (id : SessionId) (world : World K) : Machine (Connection K) (Label K) where
  init := { session := { id_ := id }, world := world }
  step := step ext tick_interval registryFirst

/-! ### Announcements -/

/-- The action that ends the game of a session. -/
def isQuitOf (s : SessionId) (action : ActionEvent K) : Bool :=
  decide (action.type = .PlayerQuit ∧ action.session_id = s)

/-- The quits of the session that the world has queued. -/
def quits (c : Connection K) : ℕ := c.enqueued.countP (isQuitOf c.session.id_)

/-- The calls under way on any thread. -/
def pending (c : Connection K) : List Call := c.running ++ c.calls

/-- The flag is set and the handler that was posted for it has run. -/
def Closed (c : Connection K) : Prop :=
  c.session.closed_ = true ∧ .postClose ∉ c.pending ∧ .close ∉ c.session.strand

/-- A call of `close` is under way or has set the flag. -/
def Requested (c : Connection K) : Prop := c.session.closed_ = true ∨ .close ∈ c.pending

/-- No subscriber of the disconnect is still to hear of it. -/
def Heard (c : Connection K) : Prop :=
  .removeSession ∉ c.running ∧ .onClientDisconnected ∉ c.running

instance (c : Connection K) : Decidable c.Closed := inferInstanceAs (Decidable (_ ∧ _ ∧ _))

instance (c : Connection K) : Decidable c.Heard := inferInstanceAs (Decidable (_ ∧ _))

/-- The one call that swaps the flag is accounted for at each stage: it is about to post the
handler, the handler waits on the strand, or the disconnect is published. -/
structure Announced (id : SessionId) (c : Connection K) : Prop where
  id_ : c.session.id_ = id
  once : c.pending.count .postClose + c.session.strand.count .close + disconnects c.session =
    if c.session.closed_ then 1 else 0
  quits : c.quits + c.pending.count .onClientDisconnected = disconnects c.session
  calls : .onClientDisconnected ∉ c.calls
  registered : c.session.registered = true → 0 < disconnects c.session →
    .removeSession ∈ c.running

/-! ### Steps keep it -/

variable {id : SessionId} {c : Connection K}

omit [Scalar K] in
/-- Progress that leaves closing alone, and may ask for the session to be closed. -/
theorem Announced.agrees (h : Announced id c) {session : Session K}
    (hagrees : Agrees c.session session) (n : ℕ) :
    Announced id { c with
      session := session, running := c.running ++ List.replicate n Call.close } := by
  have hcount (call : Call) (hcall : call ≠ .close) :
      (c.running ++ List.replicate n Call.close ++ c.calls).count call = c.pending.count call := by
    rw [pending, List.count_append, List.count_append, List.count_append,
      List.count_eq_zero.mpr fun hmem => hcall (List.eq_of_mem_replicate hmem)]
    rfl
  refine ⟨hagrees.id_.trans h.id_, ?_, ?_, h.calls, ?_⟩
  · change (c.running ++ List.replicate n Call.close ++ c.calls).count Call.postClose +
      session.strand.count Session.Handler.close + disconnects session =
        if session.closed_ then 1 else 0
    rw [hcount .postClose (fun h => by cases h), hagrees.strand, hagrees.disconnects,
      hagrees.closed_]
    exact h.once
  · change c.enqueued.countP (isQuitOf session.id_) +
      (c.running ++ List.replicate n Call.close ++ c.calls).count Call.onClientDisconnected =
        disconnects session
    rw [hcount .onClientDisconnected (fun h => by cases h), hagrees.id_, hagrees.disconnects]
    exact h.quits
  · intro hregistered hpos
    rw [hagrees.registered] at hregistered
    rw [hagrees.disconnects] at hpos
    exact List.mem_append_left _ (h.registered hregistered hpos)

/-- An event the world hears of queues a quit of the session if it announces its end. -/
theorem quits_deliver (c : Connection K) (event : NetworkEvent K) :
    (c.deliver event).quits =
      c.quits + if event.isDisconnectOf c.session.id_ then 1 else 0 := by
  have hqueued : ∃ actions : List (ActionEvent K),
      (World.onEvent event c.world).action_queue_ = c.world.action_queue_ ++ actions ∧
        actions.countP (isQuitOf c.session.id_) =
          if event.isDisconnectOf c.session.id_ then 1 else 0 := by
    cases event with
    | ClientDisconnectedEvent s =>
      refine ⟨[_], rfl, ?_⟩
      rw [List.countP_singleton]
      simp [isQuitOf, NetworkEvent.isDisconnectOf]
    | PlayerJoinEvent => exact ⟨[_], rfl, rfl⟩
    | ShotMessageEvent => exact ⟨[_], rfl, rfl⟩
    | PlayerMoveEvent => exact ⟨[_], rfl, rfl⟩
    | _ => exact ⟨[], (List.append_nil _).symm, rfl⟩
  obtain ⟨actions, hqueue, hcount⟩ := hqueued
  rw [quits, deliver, hqueue, List.drop_left, List.countP_append, hcount]
  rfl

/-- An upper bound on the steps that are left of a call. -/
def Call.weight : Call → ℕ
  | .close => 2
  | .postClose => 1
  | .removeSession => 3
  | .onClientDisconnected => 1

/-- A call that nothing interrupts. -/
def Call.atomic (s : Session K) : Call → Session K
  | .close => s.close
  | .postClose => s.post .close
  | .removeSession => s.removeSession
  | .onClientDisconnected => s

/-- What a step of a call does: it hands the swap of the flag on, or a quit, and little is
left of the call. -/
structure Advances (c : Connection K) (call : Call) (c' : Connection K) (rest : List Call) :
    Prop where
  id_ : c'.session.id_ = c.session.id_
  once : rest.count .postClose + c'.session.strand.count .close +
      (if c.session.closed_ then 1 else 0) =
    [call].count .postClose + c.session.strand.count .close +
      if c'.session.closed_ then 1 else 0
  disconnects : disconnects c'.session = disconnects c.session
  quits : c'.quits + rest.count .onClientDisconnected =
    c.quits + [call].count .onClientDisconnected
  registered : c'.session.registered = true →
    c.session.registered = true ∧ call ≠ .removeSession
  closed_ : c.session.closed_ = true ∨ call = .close → c'.session.closed_ = true
  running : c'.running = c.running
  calls : c'.calls = c.calls
  left : rest = [] ∨ rest = [.postClose] ∨ rest = [.close]
  weight : (rest.map Call.weight).sum < call.weight
  atomic : rest.foldl Call.atomic c'.session = call.atomic c.session

theorem advances (c : Connection K) (call : Call) :
    Advances c call (c.advance call).1 (c.advance call).2 := by
  cases call with
  | close =>
    by_cases hclosed : c.session.closed_ = true
    · have hstep : c.advance .close = (c, []) := if_pos hclosed
      rw [hstep]
      exact ⟨rfl, rfl, rfl, rfl, fun h => ⟨h, fun h => by cases h⟩, fun _ => hclosed, rfl, rfl,
        .inl rfl, Nat.zero_lt_two, (if_pos hclosed).symm⟩
    · have hstep : c.advance .close =
          ({ c with session := { c.session with closed_ := true } }, [.postClose]) :=
        if_neg hclosed
      rw [hstep]
      refine ⟨rfl, ?_, rfl, rfl, fun h => ⟨h, fun h => by cases h⟩, fun _ => rfl, rfl, rfl,
        .inr (.inl rfl), Nat.one_lt_two, (if_neg hclosed).symm⟩
      have hnone : [Call.close].count .postClose = 0 := rfl
      -- The flag is up now, and the handler still has to be posted.
      simp only [if_neg hclosed, hnone, List.count_singleton_self, if_true]
      omega
  | postClose =>
    refine ⟨rfl, ?_, rfl, rfl, fun h => ⟨h, fun h => by cases h⟩,
      fun h => h.resolve_right (fun h => by cases h), rfl, rfl, .inl rfl, Nat.one_pos, rfl⟩
    change 0 + (c.session.strand ++ [Session.Handler.close]).count .close +
      (if c.session.closed_ then 1 else 0) =
        1 + c.session.strand.count .close + if c.session.closed_ then 1 else 0
    rw [List.count_append, List.count_singleton_self]
    omega
  | removeSession =>
    by_cases hregistered : c.session.registered = true
    · have hstep : c.advance .removeSession =
          ({ c with session := { c.session with registered := false } }, [.close]) :=
        if_pos hregistered
      rw [hstep]
      exact ⟨rfl, rfl, rfl, rfl, fun h => (by cases h),
        fun h => h.resolve_right (fun h => by cases h), rfl, rfl, .inr (.inr rfl),
        Nat.lt_succ_self 2, (if_pos hregistered).symm⟩
    · have hstep : c.advance .removeSession = (c, []) := if_neg hregistered
      rw [hstep]
      exact ⟨rfl, rfl, rfl, rfl, fun h => absurd h hregistered,
        fun h => h.resolve_right (fun h => by cases h), rfl, rfl, .inl rfl, Nat.succ_pos 2,
        (if_neg hregistered).symm⟩
  | onClientDisconnected =>
    refine ⟨rfl, rfl, rfl, ?_, fun h => ⟨h, fun h => by cases h⟩,
      fun h => h.resolve_right (fun h => by cases h), rfl, rfl, .inl rfl, Nat.one_pos, rfl⟩
    change (c.deliver _).quits = _
    rw [quits_deliver]
    simp [NetworkEvent.isDisconnectOf]

/-- One step of a call, from whichever thread: what is left of it replaces it. -/
theorem Announced.advance (h : Announced id c) {call : Call} {others running calls : List Call}
    (htaken : c.pending.Perm (call :: others))
    (hleft : (running ++ calls).Perm ((c.advance call).2 ++ others))
    (hcalls : .onClientDisconnected ∉ calls)
    (hrunning : .removeSession ∈ c.running → call = .removeSession ∨ .removeSession ∈ running) :
    Announced id { (c.advance call).1 with running := running, calls := calls } := by
  have hstep := advances c call
  have hbefore (x : Call) : c.pending.count x = [call].count x + others.count x := by
    rw [htaken.count_eq, ← List.singleton_append, List.count_append]
  have hafter (x : Call) :
      (running ++ calls).count x = (c.advance call).2.count x + others.count x := by
    rw [hleft.count_eq, List.count_append]
  refine ⟨hstep.id_.trans h.id_, ?_, ?_, hcalls, fun hregistered hpos => ?_⟩
  · have honce := h.once
    have hmoved := hstep.once
    rw [hbefore] at honce
    change (running ++ calls).count .postClose + _ + disconnects (c.advance call).1.session = _
    rw [hafter, hstep.disconnects]
    dsimp only
    omega
  · have hquits := h.quits
    have hmoved := hstep.quits
    rw [hbefore] at hquits
    change (c.advance call).1.quits + (running ++ calls).count .onClientDisconnected =
      disconnects (c.advance call).1.session
    rw [hafter, hstep.disconnects]
    omega
  · obtain ⟨hbefore, hne⟩ := hstep.registered hregistered
    have hpos : 0 < disconnects c.session := hstep.disconnects ▸ hpos
    exact (hrunning (h.registered hbefore hpos)).resolve_left hne

variable {ext : Externals K} {tick_interval : ℕ} {registryFirst : Bool} {world : World K}

theorem announced_init : Announced id (machine ext tick_interval registryFirst id world).init :=
  ⟨rfl, rfl, rfl, List.not_mem_nil, fun _ h => absurd h (Nat.lt_irrefl 0)⟩

omit [Scalar K] in
/-- The handler that publishes the disconnect. -/
theorem Announced.onClose (h : Announced id c) {strand : List Session.Handler}
    (hrunning : c.running = []) (hstrand : c.session.strand = .close :: strand)
    {session : Session K}
    (hsession : session = { c.session with strand := strand, socketOpen := false }.publish
      (.ClientDisconnectedEvent c.session.id_)) :
    Announced id { c with session := session, running := subscribers registryFirst } := by
  have hpending (call : Call) : c.pending.count call = c.calls.count call := by
    rw [pending, hrunning, List.nil_append]
  have hdisconnects : disconnects session = disconnects c.session + 1 := by
    rw [hsession, disconnects, Session.publish, List.countP_append]
    simp [disconnects, NetworkEvent.isDisconnectOf]
  have hclosed : session.closed_ = c.session.closed_ := hsession ▸ rfl
  have hid : session.id_ = c.session.id_ := hsession ▸ rfl
  have hrest : session.strand = strand := hsession ▸ rfl
  -- The subscribers that are to be called hold one quit and one removal.
  have hpost : (subscribers registryFirst).count .postClose = 0 := by
    cases registryFirst <;> rfl
  have hquit : (subscribers registryFirst).count .onClientDisconnected = 1 := by
    cases registryFirst <;> rfl
  have hremove : Call.removeSession ∈ subscribers registryFirst := by
    cases registryFirst <;> decide
  refine ⟨hid.trans h.id_, ?_, ?_, h.calls, fun _ _ => hremove⟩
  · have honce := h.once
    rw [hpending, hstrand, List.count_cons_self] at honce
    change (subscribers registryFirst ++ c.calls).count .postClose + session.strand.count .close +
      disconnects session = if session.closed_ then 1 else 0
    rw [List.count_append, hpost, hrest, hdisconnects, hclosed]
    omega
  · have hquits := h.quits
    rw [hpending] at hquits
    change c.enqueued.countP (isQuitOf session.id_) +
      (subscribers registryFirst ++ c.calls).count .onClientDisconnected = disconnects session
    rw [List.count_append, hquit, hdisconnects, hid]
    rw [Connection.quits] at hquits
    omega

omit [Scalar K] in
/-- A call from some thread sets out. -/
theorem Announced.call (h : Announced id c) {call : Call}
    (hcall : call = .close ∨ call = .removeSession) :
    Announced id { c with calls := c.calls ++ [call] } := by
  have hcount (x : Call) (hx : call ≠ x) :
      (c.running ++ (c.calls ++ [call])).count x = c.pending.count x := by
    rw [← List.append_assoc, List.count_append, List.count_singleton, beq_eq_false_iff_ne.mpr hx]
    rfl
  refine ⟨h.id_, ?_, ?_, ?_, h.registered⟩
  · change (c.running ++ (c.calls ++ [call])).count .postClose + _ + _ = _
    rw [hcount .postClose (by rcases hcall with rfl | rfl <;> decide)]
    exact h.once
  · change c.quits + (c.running ++ (c.calls ++ [call])).count .onClientDisconnected = _
    rw [hcount .onClientDisconnected (by rcases hcall with rfl | rfl <;> decide)]
    exact h.quits
  · intro hmem
    rcases List.mem_append.mp hmem with hmem | hmem
    · exact h.calls hmem
    · rw [List.mem_singleton] at hmem
      rcases hcall with rfl | rfl <;> cases hmem

/-- What a step does. -/
inductive Effect (registryFirst : Bool) (c : Connection K) : Connection K → Prop
  | progress {session : Session K} (hagrees : Agrees c.session session) (n : ℕ) :
    Effect registryFirst c { c with
      session := session, running := c.running ++ List.replicate n .close }
  | onClose {strand : List Session.Handler} {session : Session K} (hrunning : c.running = [])
    (hstrand : c.session.strand = .close :: strand)
    (hsession : session = { c.session with strand := strand, socketOpen := false }.publish
      (.ClientDisconnectedEvent c.session.id_)) :
    Effect registryFirst c { c with session := session, running := subscribers registryFirst }
  | call {call : Call} (hcall : call = .close ∨ call = .removeSession) :
    Effect registryFirst c { c with calls := c.calls ++ [call] }
  | advance {call : Call} {others running calls : List Call}
    (htaken : c.pending.Perm (call :: others))
    (hleft : (running ++ calls).Perm ((c.advance call).2 ++ others))
    (hcalls : .onClientDisconnected ∈ calls → .onClientDisconnected ∈ c.calls)
    (hrunning : .removeSession ∈ c.running →
      call = .removeSession ∨ .removeSession ∈ running) :
    Effect registryFirst c { (c.advance call).1 with running := running, calls := calls }
  | world {world : World K} {enqueued : List (ActionEvent K)}
    (hquits : enqueued.countP (isQuitOf c.session.id_) = c.quits) :
    Effect registryFirst c { c with world := world, enqueued := enqueued }

/-- The strand takes up its first handler. -/
theorem effect_runHandler {handler : Session.Handler} {strand : List Session.Handler}
    (hrunning : c.running = []) (hstrand : c.session.strand = handler :: strand)
    (refuses : ℕ → Bool) :
    Effect registryFirst c { c with
      session := (handle registryFirst { c.session with strand := strand } refuses handler).1
      running :=
        (handle registryFirst { c.session with strand := strand } refuses handler).2 } := by
  by_cases hclose : handler = .close
  · subst hclose
    exact .onClose hrunning hstrand rfl
  · obtain ⟨hagrees, n, hrest⟩ :=
      handle_spec registryFirst { c.session with strand := strand } refuses hclose
    have hpopped : Agrees c.session { c.session with strand := strand } := by
      refine ⟨rfl, rfl, rfl, ?_, rfl⟩
      rw [hstrand, List.count_cons_of_ne hclose]
    have heffect : Effect registryFirst c _ := .progress (hpopped.trans hagrees) n
    rw [hrunning, List.nil_append] at heffect
    rw [hrest]
    exact heffect

theorem effect_of_step {label : Label K} {c' : Connection K}
    (hstep : c.step ext tick_interval registryFirst label = some c') :
    Effect registryFirst c c' := by
  cases label with
  | session label =>
    rw [step] at hstep
    split_ifs at hstep with hcall
    obtain ⟨session, hsession, rfl⟩ := Option.map_eq_some_iff.mp hstep
    have heffect : Effect registryFirst c _ :=
      .progress (agrees_step (Bool.eq_false_iff.mpr hcall) hsession) 0
    rwa [List.replicate_zero, List.append_nil] at heffect
  | close =>
    obtain rfl := Option.some.inj hstep
    exact .call (.inl rfl)
  | removeSession =>
    obtain rfl := Option.some.inj hstep
    exact .call (.inr rfl)
  | advance i =>
    rw [step] at hstep
    cases hget : c.calls[i]? with
    | none =>
      rw [hget] at hstep
      cases hstep
    | some call =>
      rw [hget] at hstep
      obtain rfl := Option.some.inj hstep
      obtain ⟨hi, rfl⟩ := List.getElem?_eq_some_iff.mp hget
      have hadvances := advances c c.calls[i]
      -- The call is taken from its place, and what is left of it goes to the end.
      have htaken : c.pending.Perm (c.calls[i] :: (c.running ++ c.calls.eraseIdx i)) :=
        (List.Perm.append_left _ (List.getElem_cons_eraseIdx_perm hi).symm).trans
          List.perm_middle
      have hleft : (c.running ++ (c.calls.eraseIdx i ++ (c.advance c.calls[i]).2)).Perm
          ((c.advance c.calls[i]).2 ++ (c.running ++ c.calls.eraseIdx i)) := by
        rw [← List.append_assoc]
        exact List.perm_append_comm
      have heffect : Effect registryFirst c _ := .advance htaken hleft (fun hmem => by
        rcases List.mem_append.mp hmem with hmem | hmem
        · exact List.mem_of_mem_eraseIdx hmem
        · rcases hadvances.left with hrest | hrest | hrest <;> rw [hrest] at hmem
          · cases hmem
          · cases List.mem_singleton.mp hmem
          · cases List.mem_singleton.mp hmem) .inr
      rwa [← hadvances.running] at heffect
  | runHandler refuses =>
    rw [step] at hstep
    split at hstep
    · next handler strand hrunning hstrand =>
      obtain rfl := Option.some.inj hstep
      exact effect_runHandler hrunning hstrand refuses
    · cases hstep
  | advanceRunning =>
    rw [step] at hstep
    cases hrunning : c.running with
    | nil =>
      rw [hrunning] at hstep
      cases hstep
    | cons call running =>
      rw [hrunning] at hstep
      obtain rfl := Option.some.inj hstep
      -- The call at work goes on.
      have htaken : c.pending.Perm (call :: (running ++ c.calls)) := by
        rw [pending, hrunning]
        rfl
      have hleft : ((c.advance call).2 ++ running ++ c.calls).Perm
          ((c.advance call).2 ++ (running ++ c.calls)) := by
        rw [List.append_assoc]
      have heffect : Effect registryFirst c _ := .advance htaken hleft (fun h => h) fun hmem => by
        rw [hrunning, List.mem_cons] at hmem
        exact hmem.imp Eq.symm (List.mem_append_right _)
      rwa [← (advances c call).calls] at heffect
  | world op =>
    cases op with
    | event event =>
      rw [step] at hstep
      split_ifs at hstep with hevent
      obtain rfl := Option.some.inj hstep
      have hquits := c.quits_deliver event
      rw [if_neg hevent] at hquits
      exact .world hquits
    | tick choice current_tick =>
      obtain rfl := Option.some.inj hstep
      exact .world rfl
    | discardActions =>
      obtain rfl := Option.some.inj hstep
      exact .world rfl

theorem Announced.step (h : Announced id c) {label : Label K} {c' : Connection K}
    (hstep : c.step ext tick_interval registryFirst label = some c') : Announced id c' := by
  cases effect_of_step hstep with
  | progress hagrees n => exact h.agrees hagrees n
  | onClose hrunning hstrand hsession => exact h.onClose hrunning hstrand hsession
  | call hcall => exact h.call hcall
  | advance htaken hleft hcalls hrunning =>
    exact h.advance htaken hleft (fun hmem => h.calls (hcalls hmem)) hrunning
  | world hquits =>
    exact ⟨h.id_, h.once, (congrArg (· + _) hquits).trans h.quits, h.calls, h.registered⟩

theorem Announced.of_run {labels : List (Label K)}
    (h : (machine ext tick_interval registryFirst id world).run labels = some c) :
    Announced id c :=
  Machine.invariant announced_init (fun _ _ _ hs hstep => hs.step hstep) ⟨labels, h⟩

/-- A request is not lost: the flag stays set, and a call of `close` stays under way until it
has set it. -/
theorem Requested.step (h : c.Requested) {label : Label K} {c' : Connection K}
    (hstep : c.step ext tick_interval registryFirst label = some c') : c'.Requested := by
  cases effect_of_step hstep with
  | progress hagrees n =>
    refine h.imp hagrees.closed_.trans fun hmem => ?_
    rcases List.mem_append.mp hmem with hmem | hmem
    · exact List.mem_append_left _ (List.mem_append_left _ hmem)
    · exact List.mem_append_right _ hmem
  | onClose hrunning hstrand hsession =>
    refine h.imp (fun hclosed => hsession ▸ hclosed) fun hmem => ?_
    rw [pending, hrunning] at hmem
    exact List.mem_append_right _ hmem
  | call hcall =>
    refine h.imp_right fun hmem => ?_
    rw [pending, ← List.append_assoc]
    exact List.mem_append_left _ hmem
  | advance htaken hleft hcalls hrunning =>
    rename_i call others running calls
    rcases h with hclosed | hmem
    · exact .inl ((advances c call).closed_ (.inl hclosed))
    · rcases List.mem_cons.mp (htaken.mem_iff.mp hmem) with heq | hother
      · exact .inl ((advances c call).closed_ (.inr heq.symm))
      · exact .inr (hleft.mem_iff.mpr (List.mem_append_right _ hother))
  | world hquits => exact h

theorem requested_of_runFrom {labels : List (Label K)} {c' : Connection K} (h : c.Requested)
    (hrun : (machine ext tick_interval registryFirst id world).runFrom c labels = some c') :
    c'.Requested :=
  Machine.runFrom_induction (motive := Requested)
    (fun _ _ _ _ hrequested hstep => hrequested.step hstep) h hrun

/-! ### Handlers and calls finish -/

/-- A handler under way finishes on its own, with what its calls do when nothing interrupts
them. -/
theorem exists_runFrom_running (c : Connection K) :
    ∃ n c', (machine ext tick_interval registryFirst id world).runFrom c
        (List.replicate n .advanceRunning) = some c' ∧
      c'.running = [] ∧ c'.calls = c.calls ∧
        c'.session = c.running.foldl Call.atomic c.session := by
  -- Every step takes from the weight of what is left.
  induction hweight : (c.running.map Call.weight).sum using Nat.strong_induction_on
    generalizing c with
  | _ weight ih =>
    cases hrunning : c.running with
    | nil => exact ⟨0, c, rfl, hrunning, rfl, rfl⟩
    | cons call running =>
      have hadvances := advances c call
      have hlt := hadvances.weight
      rw [hrunning, List.map_cons, List.sum_cons] at hweight
      have hless : (((c.advance call).2 ++ running).map Call.weight).sum < weight := by
        rw [List.map_append, List.sum_append]
        omega
      obtain ⟨n, c', hrun, hdone, hcalls, hsession⟩ :=
        ih _ hless { (c.advance call).1 with running := (c.advance call).2 ++ running } rfl
      refine ⟨n + 1, c', ?_, hdone, hcalls.trans hadvances.calls, ?_⟩
      · rw [List.replicate_succ, Machine.runFrom_cons]
        refine ⟨_, ?_, hrun⟩
        change c.step ext tick_interval registryFirst .advanceRunning = _
        rw [step, hrunning]
      · rw [hsession, List.foldl_append, hadvances.atomic]
        rfl

/-- So does a call on another thread. -/
theorem exists_runFrom_call (c : Connection K) {call : Call} (hcalls : c.calls = [call]) :
    ∃ n c', (machine ext tick_interval registryFirst id world).runFrom c
        (List.replicate n (.advance 0)) = some c' ∧
      c'.running = c.running ∧ c'.calls = [] ∧ c'.session = call.atomic c.session := by
  induction hweight : call.weight using Nat.strong_induction_on generalizing c call with
  | _ weight ih =>
    have hadvances := advances c call
    have hstep : c.step ext tick_interval registryFirst (.advance 0) =
        some { (c.advance call).1 with calls := (c.advance call).2 } := by
      rw [step, hcalls]
      rfl
    have hless := hadvances.weight
    have hatomic := hadvances.atomic
    have hfinish (rest : Call) (hrest : (c.advance call).2 = [rest]) :
        ∃ n c', (machine ext tick_interval registryFirst id world).runFrom c
          (List.replicate n (.advance 0)) = some c' ∧
        c'.running = c.running ∧ c'.calls = [] ∧ c'.session = call.atomic c.session := by
      rw [hrest] at hless hatomic
      obtain ⟨n, c', hrun, hrunning, hdone, hsession⟩ :=
        ih rest.weight (hweight ▸ hless) { (c.advance call).1 with calls := (c.advance call).2 }
          hrest rfl
      exact ⟨n + 1, c', Machine.runFrom_cons.mpr ⟨_, hstep, hrun⟩,
        hrunning.trans hadvances.running, hdone, hsession.trans hatomic⟩
    rcases hadvances.left with hrest | hrest | hrest
    · rw [hrest] at hatomic hstep
      exact ⟨1, _, Machine.runFrom_cons.mpr ⟨_, hstep, rfl⟩, hadvances.running, rfl, hatomic⟩
    · exact hfinish _ hrest
    · exact hfinish _ hrest

omit [Scalar K] in
theorem doWrite_atomic (s : Session K) :
    (doWrite s).2.foldl Call.atomic (doWrite s).1 = s.doWrite := by
  by_cases hclosed : s.closed_ = true
  · rw [doWrite, Session.doWrite, if_pos hclosed, if_pos hclosed]
    rfl
  · rw [doWrite, Session.doWrite, if_neg hclosed, if_neg hclosed]
    cases s.write_queue_ with
    | nil => rfl
    | cons payload queue =>
      dsimp only
      cases FrameCodec.encode payload <;> rfl

omit [Scalar K] in
theorem onSend_atomic (s : Session K) (data : Bytes) :
    (onSend s data).2.foldl Call.atomic (onSend s data).1 = s.onSend data := by
  by_cases hclosed : s.closed_ = true
  · rw [onSend, Session.onSend, if_pos hclosed, if_pos hclosed]
    rfl
  · rw [onSend, Session.onSend, if_neg hclosed, if_neg hclosed]
    by_cases hwriting : s.is_writing_ = true
    · simp only [hwriting]
      rfl
    · rw [Bool.not_eq_true] at hwriting
      simp only [hwriting]
      exact doWrite_atomic _

omit [Scalar K] in
/-- The steps of a handler amount to the handler of the session. -/
theorem handle_atomic (s : Session K) (refuses : ℕ → Bool) (handler : Session.Handler) :
    (handle registryFirst s refuses handler).2.foldl Call.atomic
      (handle registryFirst s refuses handler).1 = s.handle refuses handler := by
  cases handler with
  | doRead => rfl
  | send data => exact onSend_atomic s data
  | close => cases registryFirst <;> rfl
  | readCompletion result => cases result <;> rfl
  | writeCompletion error =>
    cases error with
    | some _ => rfl
    | none => exact doWrite_atomic s

/-- Every step of the session is a run of the connection in which nothing interrupts it. -/
theorem exists_runFrom_of_step (hrunning : c.running = []) (hcalls : c.calls = [])
    {label : Session.Label} {session : Session K} (h : c.session.step label = some session) :
    ∃ labels c', (machine ext tick_interval registryFirst id world).runFrom c labels = some c' ∧
      c'.running = [] ∧ c'.calls = [] ∧ c'.session = session := by
  -- A call that is started runs to its end.
  have hcall (call : Call) (label : Label K)
      (hstep : c.step ext tick_interval registryFirst label =
        some { c with calls := c.calls ++ [call] }) :
      ∃ labels c', (machine ext tick_interval registryFirst id world).runFrom c labels = some c' ∧
        c'.running = [] ∧ c'.calls = [] ∧ c'.session = call.atomic c.session := by
    obtain ⟨n, c', hrun, hkept, hdone, hsession⟩ :=
      exists_runFrom_call { c with calls := c.calls ++ [call] } (by rw [hcalls]; rfl)
    exact ⟨label :: _, c', Machine.runFrom_cons.mpr ⟨_, hstep, hrun⟩, hkept.trans hrunning, hdone,
      hsession⟩
  by_cases hlabel : label.isCall = true
  · cases label with
    | close =>
      obtain rfl := Option.some.inj h
      exact hcall .close .close rfl
    | removeSession =>
      obtain rfl := Option.some.inj h
      exact hcall .removeSession .removeSession rfl
    | runHandler refuses =>
      obtain ⟨handler, strand, hstrand, rfl⟩ := Session.exists_of_runHandler h
      have hstep : c.step ext tick_interval registryFirst (.runHandler refuses) = some { c with
          session := (handle registryFirst { c.session with strand := strand } refuses handler).1
          running :=
            (handle registryFirst { c.session with strand := strand } refuses handler).2 } := by
        rw [step, hrunning, hstrand]
      obtain ⟨n, c', hrun, hdone, hkept, hsession⟩ := exists_runFrom_running { c with
        session := (handle registryFirst { c.session with strand := strand } refuses handler).1
        running := (handle registryFirst { c.session with strand := strand } refuses handler).2 }
      exact ⟨.runHandler refuses :: _, c', Machine.runFrom_cons.mpr ⟨_, hstep, hrun⟩, hdone,
        hkept.trans hcalls, hsession.trans (handle_atomic _ refuses handler)⟩
    | _ => cases hlabel
  · have hstep : c.step ext tick_interval registryFirst (.session label) =
        some { c with session := session } := by
      rw [step, if_neg hlabel, h]
      rfl
    exact ⟨[.session label], _, Machine.runFrom_cons.mpr ⟨_, hstep, rfl⟩, hrunning, hcalls, rfl⟩

/-! ### Exactly once -/

/-- Whatever closes a session, one disconnect is published and one quit queued. A call of
`close` that was under way at any time is lost in no way, and the loop from the session over
the bus and the registry back to the session ends. -/
theorem disconnected_once_of_run {labels : List (Label K)}
    (h : (machine ext tick_interval registryFirst id world).run labels = some c) :
    (c.session.published.countP (NetworkEvent.isDisconnectOf id) ≤ 1 ∧
      c.enqueued.countP (isQuitOf id) ≤ 1) ∧
    (∀ before after, labels = before ++ after → ∀ earlier,
      (machine ext tick_interval registryFirst id world).run before = some earlier →
      earlier.Requested → c.Requested) ∧
    (c.Closed → c.session.published.countP (NetworkEvent.isDisconnectOf id) = 1) ∧
    (.ClientDisconnectedEvent id ∈ c.session.published → c.Heard →
      c.session.registered = false ∧ c.enqueued.countP (isQuitOf id) = 1) ∧
    ∃ n c', (machine ext tick_interval registryFirst id world).run
        (labels ++ List.replicate n .advanceRunning) = some c' ∧ c'.running = [] := by
  have hannounced := Announced.of_run h
  have hid := hannounced.id_
  have honce := hannounced.once
  have hquits := hannounced.quits
  rw [disconnects, hid] at honce hquits
  rw [Connection.quits, hid] at hquits
  -- What is counted once is published at most once.
  have hatMost : c.session.published.countP (NetworkEvent.isDisconnectOf id) ≤ 1 := by
    split_ifs at honce <;> omega
  refine ⟨⟨hatMost, by omega⟩, ?_, ?_, ?_, ?_⟩
  · rintro before after rfl earlier hearlier hrequested
    obtain ⟨middle, hmiddle, hafter⟩ := Machine.runFrom_append.mp h
    obtain rfl := Option.some.inj (hmiddle.symm.trans hearlier)
    exact requested_of_runFrom hrequested hafter
  · intro hclosed
    rw [if_pos hclosed.1, List.count_eq_zero.mpr hclosed.2.1,
      List.count_eq_zero.mpr hclosed.2.2] at honce
    omega
  · intro hmem hheard
    have hpos : 0 < c.session.published.countP (NetworkEvent.isDisconnectOf id) :=
      List.countP_pos_iff.mpr ⟨_, hmem, decide_eq_true rfl⟩
    -- No call that could enqueue the quit is left.
    have hquit : c.pending.count .onClientDisconnected = 0 :=
      List.count_eq_zero.mpr fun hmem =>
        (List.mem_append.mp hmem).elim hheard.2 hannounced.calls
    refine ⟨?_, by omega⟩
    have hregistered := hannounced.registered
    rw [disconnects, hid] at hregistered
    exact Bool.eq_false_iff.mpr fun h => hheard.1 (hregistered h hpos)
  · obtain ⟨n, c', hrun, hdone, -⟩ := exists_runFrom_running c
    exact ⟨n, c', Machine.runFrom_append.mpr ⟨c, h, hrun⟩, hdone⟩

section Exact

attribute [local instance] RationalScalar.rational

/-- Two threads close a session that a third one removes from the registry. -/
def closings : List (Label ℚ) :=
  [.session .start, .close, .close, .removeSession, .advance 0, .advance 0, .advance 0,
    .advance 0, .advance 0, .runHandler fun _ => false, .runHandler fun _ => false,
    .advanceRunning, .advanceRunning]

/-- The connection of session `7` in exact arithmetic. -/
def exactMachine : Machine (Connection ℚ) (Label ℚ) :=
  machine World.exactExternals 16666 false 7
    (World.empty World.kDefaultWidth World.kDefaultHeight)

theorem disconnected_once_closings : ∃ c, exactMachine.run closings = some c ∧
    c.session.published.countP (NetworkEvent.isDisconnectOf 7) = 1 ∧
      c.session.registered = false ∧ c.enqueued.countP (isQuitOf 7) = 1 := by
  have hend : ∃ c ∈ exactMachine.run closings, c.Closed ∧ c.Heard ∧
      .ClientDisconnectedEvent 7 ∈ c.session.published := by decide +kernel
  obtain ⟨c, hrun, hclosed, hheard, hmem⟩ := hend
  obtain ⟨-, -, honce, hreturned, -⟩ := disconnected_once_of_run hrun
  exact ⟨c, hrun, honce hclosed, hreturned hmem hheard⟩

end Exact

end Connection

end SpaceShooter.Server
