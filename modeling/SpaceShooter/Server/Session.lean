/-
# The server session

One connection of the server: its socket, its strand and its entry in the session
registry. The strand runs posted handlers and completion handlers one at a time in
the order they arrived; `close` and `removeSession` may be called from any thread.

Closing flips a flag at once but publishes the disconnect from a posted handler. The
read completion handler does not look at the flag, so bytes that were read before
the socket was closed are decoded and published even after the disconnect.
-/

import SpaceShooter.Common.FrameCodec
import SpaceShooter.Library.Machine
import SpaceShooter.Server.NetworkEvents

namespace SpaceShooter.Server

open Library Network Relation

/-- Why an operation of the socket failed; the difference shows in the log only. -/
inductive IoError
  | operation_aborted
  | failed
  deriving DecidableEq, Repr

/-- The result of an asynchronous read. -/
inductive ReadResult
  | error (error : IoError)
  | bytes (chunk : Bytes)
  deriving DecidableEq, Repr

/-- A closed socket only aborts the reads that wait on it. -/
def ReadResult.possible (socketOpen : Bool) : ReadResult → Bool
  | error _ => true
  | bytes _ => socketOpen

/-- The bytes a finished read delivers. -/
def ReadResult.chunk? : ReadResult → Option Bytes
  | error _ => none
  | bytes chunk => some chunk

/-- A handler on the session's strand. -/
inductive Session.Handler
  | doRead
  | send (data : Bytes)
  | close
  | readCompletion (result : ReadResult)
  | writeCompletion (error : Option IoError)
  deriving DecidableEq, Repr

/-- A session and what the runtime holds for it. -/
structure Session (K : Type) where
  id_ : SessionId
  closed_ : Bool := false
  write_queue_ : List Bytes := []
  is_writing_ : Bool := false
  read_buffer_ : Bytes := []
  socketOpen : Bool := true
  /-- `TcpServer` starts every session once. -/
  started : Bool := false
  /-- The session has an entry in the registry. -/
  registered : Bool := true
  strand : List Session.Handler := []
  /-- Reads that wait for the peer. -/
  reading : ℕ := 0
  /-- Results of reads whose completion handlers have not reached the strand. -/
  finished : List ReadResult := []
  /-- Writes whose completion handlers have not reached the strand. -/
  writing : ℕ := 0
  /-- History: the frames handed to the socket. -/
  written : List Bytes := []
  /-- History: the events published on the bus. -/
  published : List (NetworkEvent K) := []

/-- What can happen next: a call from any thread, progress of the runtime, or the
strand running its first handler. A subscriber may answer any publication with an
exception; `refuses` tells which, counted along the session's history. -/
inductive Session.Label
  | start
  | send (data : Bytes)
  | close
  | removeSession
  | readFinishes (result : ReadResult)
  | readPosted
  | writeFinishes (error : Option IoError)
  | runHandler (refuses : ℕ → Bool)

namespace Session

variable {K : Type}

def post (s : Session K) (handler : Handler) : Session K :=
  { s with strand := s.strand ++ [handler] }

def publish (s : Session K) (event : NetworkEvent K) : Session K :=
  { s with published := s.published ++ [event] }

def close (s : Session K) : Session K :=
  if s.closed_ then s else { s with closed_ := true }.post .close

/-- `SessionRegistry::removeSession` for this session. -/
def removeSession (s : Session K) : Session K :=
  if s.registered then { s with registered := false }.close else s

def start (s : Session K) : Session K :=
  if s.closed_ then s else s.post .doRead

def doRead (s : Session K) : Session K :=
  if s.closed_ then s else { s with reading := s.reading + 1 }

def doWrite (s : Session K) : Session K :=
  if s.closed_ then
    { s with is_writing_ := false }
  else
    match s.write_queue_ with
    | [] => { s with is_writing_ := false }
    | payload :: queue =>
      match FrameCodec.encode payload with
      | .ok frame =>
        { s with
          write_queue_ := queue
          writing := s.writing + 1
          written := s.written ++ [frame.buffers] }
      -- A payload that cannot be framed is dropped and closes the session.
      | .error _ => { s with write_queue_ := queue, is_writing_ := false }.close

/-- The handler `send` posts. -/
def onSend (s : Session K) (data : Bytes) : Session K :=
  if s.closed_ then s
  else
    let s := { s with write_queue_ := s.write_queue_ ++ [data] }
    if !s.is_writing_ then { s with is_writing_ := true }.doWrite else s

/-- The handler `close` posts. The registry is among the subscribers of the event
and removes the session. -/
def onClose (s : Session K) : Session K :=
  ({ s with socketOpen := false }.publish (.ClientDisconnectedEvent s.id_)).removeSession

/-- Publish a frame; a subscriber may throw. -/
def publishMessage (id : SessionId) (refuses : ℕ → Bool) (payload : PayloadView) :
    EStateM StdException (List (NetworkEvent K)) Unit := fun published =>
  if refuses published.length then
    .error (.runtime_error "subscriber") (published ++ [.NetworkMessageEvent id payload])
  else
    .ok () (published ++ [.NetworkMessageEvent id payload])

/-- The completion handler of a read. An exception of a subscriber leaves it before
the next read is started. -/
def onReadCompletion (s : Session K) (refuses : ℕ → Bool) : ReadResult → Session K
  | .error _ => s.close
  | .bytes chunk =>
    -- `closed_` is not consulted before the frames are published.
    match FrameCodec.decode (publishMessage s.id_ refuses) (s.read_buffer_ ++ chunk)
      s.published with
    | (.ok _ published, rest) =>
      { s with published := published, read_buffer_ := rest }.doRead
    | (.error _ published, rest) => { s with published := published, read_buffer_ := rest }

/-- The completion handler of a write. -/
def onWriteCompletion (s : Session K) : Option IoError → Session K
  | some _ => { s with is_writing_ := false }.close
  | none => s.doWrite

def handle (s : Session K) (refuses : ℕ → Bool) : Handler → Session K
  | .doRead => s.doRead
  | .send data => s.onSend data
  | .close => s.onClose
  | .readCompletion result => s.onReadCompletion refuses result
  | .writeCompletion error => s.onWriteCompletion error

def step (s : Session K) : Label → Option (Session K)
  | .start => if s.started then none else some { s with started := true }.start
  | .send data => some (s.post (.send data))
  | .close => some s.close
  | .removeSession => some s.removeSession
  -- A read that waits finishes at any time, with bytes only while the socket is open.
  | .readFinishes result =>
    if s.reading = 0 ∨ ¬ result.possible s.socketOpen then none
    else some { s with reading := s.reading - 1, finished := s.finished ++ [result] }
  -- Its handler reaches the strand some time later.
  | .readPosted =>
    match s.finished with
    | [] => none
    | result :: finished => some ({ s with finished := finished }.post (.readCompletion result))
  | .writeFinishes error =>
    if s.writing = 0 then none
    else some ({ s with writing := s.writing - 1 }.post (.writeCompletion error))
  | .runHandler refuses =>
    match s.strand with
    | [] => none
    | handler :: strand => some ({ s with strand := strand }.handle refuses handler)

def machine (K : Type) (id : SessionId) : Machine (Session K) Label where
  init := { id_ := id }
  step := step

/-! ### Event order -/

/-- No message of the session is published after its disconnect. -/
def Quiet (id : SessionId) (published : List (NetworkEvent K)) : Prop :=
  ∀ before after, published = before ++ .ClientDisconnectedEvent id :: after →
    ∀ payload, .NetworkMessageEvent id payload ∉ after

/-- The frames `decode` finds in a buffer. -/
def frameCount (buffer : Bytes) : ℕ :=
  match (FrameCodec.decode (ε := Empty) (fun _ => pure ()) buffer ()).1 with
  | .ok count _ => count
  | .error e _ => e.elim

/-- The bytes a completion handler on the strand delivers. -/
def Handler.chunk? : Handler → Option Bytes
  | .readCompletion result => ReadResult.chunk? result
  | _ => none

/-- What was read from the socket and is not decoded yet, in the order in which it
will be. -/
def undecoded (s : Session K) : List Bytes :=
  s.strand.filterMap Handler.chunk? ++ s.finished.filterMap ReadResult.chunk?

/-- A read has finished with the end of a frame and is still to be handled. -/
def FrameUnderway (s : Session K) : Prop :=
  ∃ chunk ∈ s.undecoded, 0 < frameCount (s.read_buffer_ ++ chunk)

/-- A step that runs the posted close handler. -/
def RunsClose (s : Session K) : Label → Prop
  | .runHandler _ => s.strand.head? = some .close
  | _ => False

/-- A step that does not run the posted close handler ahead of a frame. -/
def FramesBeforeClose (s : Session K) (label : Label) : Prop :=
  RunsClose s label → ¬ FrameUnderway s

instance (s : Session K) (label : Label) : Decidable (FramesBeforeClose s label) := by
  unfold FramesBeforeClose RunsClose FrameUnderway
  cases label <;> infer_instance

/-- A handler that reads or handles what was read. -/
def Handler.isRead : Handler → Bool
  | .doRead => true
  | .readCompletion _ => true
  | _ => false

/-! ### What a handler does -/

/-- What handlers and calls do that neither read nor publish: they set the writer's own fields,
the flag together with its handler, and the entry in the registry. -/
inductive Update : Session K → Session K → Prop
  | writer (s : Session K) (queue : List Bytes) (is_writing : Bool) (writing : ℕ)
      (written : List Bytes) :
      Update s { s with
        write_queue_ := queue, is_writing_ := is_writing, writing := writing, written := written }
  | close (s : Session K) (open_ : s.closed_ = false) :
      Update s ({ s with closed_ := true }.post .close)
  | erase (s : Session K) : Update s { s with registered := false }

theorem updates_close (s : Session K) : ReflTransGen Update s s.close := by
  unfold close
  split_ifs with hclosed
  · exact .refl
  · exact .single (.close s (Bool.eq_false_of_not_eq_true hclosed))

theorem updates_removeSession (s : Session K) : ReflTransGen Update s s.removeSession := by
  unfold removeSession
  split_ifs
  · exact .head (.erase s) (updates_close _)
  · exact .refl

theorem updates_doWrite (s : Session K) : ReflTransGen Update s s.doWrite := by
  unfold doWrite
  split_ifs
  · exact .single (.writer s _ _ _ _)
  · split
    · exact .single (.writer s _ _ _ _)
    · split
      · exact .single (.writer s _ _ _ _)
      · exact .head (.writer s _ _ _ _) (updates_close _)

theorem updates_onSend (s : Session K) (data : Bytes) : ReflTransGen Update s (s.onSend data) := by
  unfold onSend
  split_ifs
  · exact .refl
  · dsimp only
    split_ifs
    · exact .head (.writer s _ _ _ _) (updates_doWrite _)
    · exact .single (.writer s _ _ _ _)

theorem updates_onWriteCompletion (s : Session K) (error : Option IoError) :
    ReflTransGen Update s (s.onWriteCompletion error) := by
  cases error with
  | some _ => exact .head (.writer s _ _ _ _) (updates_close _)
  | none => exact updates_doWrite s

theorem frameCount_eq (buffer : Bytes) :
    frameCount buffer = (FrameCodec.decoder.run buffer).1.length := by
  have hdispatch := @Incremental.Decoder.dispatch_of_total _ _ FrameCodec.decoder Empty Unit
    (fun _ => pure ()) (fun state _ => state) (fun _ _ => rfl) buffer 0 ()
  rw [frameCount, FrameCodec.decode_eq_dispatch, hdispatch, Nat.zero_add]

theorem frameCount_eq_zero {buffer : Bytes} :
    frameCount buffer = 0 ↔ (FrameCodec.decoder.run buffer).1 = [] := by
  rw [frameCount_eq, List.length_eq_zero_iff]

/-- The reads under way: what will be started, waits, or has finished. -/
def reads (s : Session K) : ℕ :=
  (if s.started then 0 else 1) + s.reading + s.finished.length +
    s.strand.countP Handler.isRead

/-- A handler that has nothing to do with reading and events: it may post the close
handler. -/
structure Keeps (s s' : Session K) : Prop where
  id_ : s'.id_ = s.id_
  read_buffer_ : s'.read_buffer_ = s.read_buffer_
  socketOpen : s'.socketOpen = s.socketOpen
  started : s'.started = s.started
  reading : s'.reading = s.reading
  finished : s'.finished = s.finished
  published : s'.published = s.published
  strand : ∃ closings, s'.strand = s.strand ++ List.replicate closings .close

theorem Keeps.refl (s : Session K) : Keeps s s :=
  ⟨rfl, rfl, rfl, rfl, rfl, rfl, rfl, 0, (List.append_nil _).symm⟩

theorem Keeps.trans {s s' s'' : Session K} (h : Keeps s s') (h' : Keeps s' s'') :
    Keeps s s'' := by
  obtain ⟨n, hn⟩ := h.strand
  obtain ⟨m, hm⟩ := h'.strand
  refine ⟨h'.id_.trans h.id_, h'.read_buffer_.trans h.read_buffer_,
    h'.socketOpen.trans h.socketOpen, h'.started.trans h.started,
    h'.reading.trans h.reading, h'.finished.trans h.finished,
    h'.published.trans h.published, n + m, ?_⟩
  rw [hm, hn, List.append_assoc, List.replicate_append_replicate]

theorem Keeps.undecoded {s s' : Session K} (h : Keeps s s') : s'.undecoded = s.undecoded := by
  obtain ⟨n, hn⟩ := h.strand
  have hnone : (List.replicate n Handler.close).filterMap Handler.chunk? = [] := by
    simp [Handler.chunk?]
  rw [Session.undecoded, hn, h.finished, List.filterMap_append, hnone, List.append_nil]
  rfl

theorem Keeps.reads {s s' : Session K} (h : Keeps s s') : s'.reads = s.reads := by
  obtain ⟨n, hn⟩ := h.strand
  simp [Session.reads, hn, h.started, h.reading, h.finished, List.countP_replicate, Handler.isRead]

/-- Nothing of this has to do with reading. -/
theorem Update.keeps {s s' : Session K} (h : Update s s') : Keeps s s' := by
  cases h with
  | writer => exact ⟨rfl, rfl, rfl, rfl, rfl, rfl, rfl, 0, (List.append_nil _).symm⟩
  | close => exact ⟨rfl, rfl, rfl, rfl, rfl, rfl, rfl, 1, rfl⟩
  | erase => exact ⟨rfl, rfl, rfl, rfl, rfl, rfl, rfl, 0, (List.append_nil _).symm⟩

theorem keeps_of_updates {s s' : Session K} (h : ReflTransGen Update s s') : Keeps s s' := by
  induction h with
  | refl => exact Keeps.refl s
  | tail _ hlast ih => exact ih.trans hlast.keeps

/-- The handler of `close` shuts the socket and tells the bus. -/
theorem keeps_onClose (s : Session K) :
    Keeps ({ s with socketOpen := false }.publish (.ClientDisconnectedEvent s.id_)) s.onClose :=
  keeps_of_updates (updates_removeSession _)

/-- Handling bytes publishes frames of the buffer, and some if there are any. -/
theorem onReadCompletion_bytes (s : Session K) (refuses : ℕ → Bool) (chunk : Bytes) :
    ∃ payloads : List PayloadView,
      (payloads = [] ↔ frameCount (s.read_buffer_ ++ chunk) = 0) ∧
      (s.onReadCompletion refuses (.bytes chunk)).published =
        s.published ++ payloads.map (.NetworkMessageEvent s.id_) ∧
      (s.onReadCompletion refuses (.bytes chunk)).id_ = s.id_ ∧
      (s.onReadCompletion refuses (.bytes chunk)).socketOpen = s.socketOpen ∧
      (s.onReadCompletion refuses (.bytes chunk)).undecoded = s.undecoded ∧
      (s.onReadCompletion refuses (.bytes chunk)).reads ≤ s.reads + 1 := by
  -- The event is on the bus before a subscriber may throw.
  have hrecords (item : PayloadView) (state : List (NetworkEvent K)) :
      Outcome.resultState (publishMessage s.id_ refuses item state) =
        state ++ [.NetworkMessageEvent s.id_ item] := by
    unfold publishMessage
    split_ifs <;> rfl
  obtain ⟨payloads, hprefix, hnil, hpublished⟩ :=
    Incremental.Decoder.dispatch_of_recorded (d := FrameCodec.decoder) _ hrecords
      (s.read_buffer_ ++ chunk) 0 s.published
  rw [← FrameCodec.decode_eq_dispatch] at hpublished
  refine ⟨payloads, ?_, ?_⟩
  · rw [frameCount_eq_zero]
    exact ⟨hnil, fun hrun => List.prefix_nil.mp (hrun ▸ hprefix)⟩
  · unfold onReadCompletion
    dsimp only
    split
    · next published rest heq =>
      rw [heq] at hpublished
      unfold doRead
      split_ifs
      · exact ⟨hpublished, rfl, rfl, rfl, Nat.le_succ _⟩
      · refine ⟨hpublished, rfl, rfl, rfl, ?_⟩
        simp only [reads]
        omega
    · next published rest heq =>
      rw [heq] at hpublished
      exact ⟨hpublished, rfl, rfl, rfl, Nat.le_succ _⟩

theorem undecoded_cons {s : Session K} {handler : Handler} {rest : List Handler}
    (h : s.strand = handler :: rest) :
    s.undecoded = handler.chunk?.toList ++ { s with strand := rest }.undecoded := by
  rw [undecoded, h, List.filterMap_cons]
  cases handler.chunk? <;> rfl

theorem reads_cons {s : Session K} {handler : Handler} {rest : List Handler}
    (h : s.strand = handler :: rest) :
    s.reads = { s with strand := rest }.reads + if handler.isRead then 1 else 0 := by
  rw [reads, h, List.countP_cons]
  exact (Nat.add_assoc _ _ _).symm

theorem undecoded_post (s : Session K) (handler : Handler) (h : handler.chunk? = none) :
    (s.post handler).undecoded = s.undecoded := by
  simp [undecoded, post, h]

theorem reads_post (s : Session K) (handler : Handler) :
    (s.post handler).reads = s.reads + if handler.isRead then 1 else 0 := by
  rw [reads, post, List.countP_append, List.countP_singleton]
  exact (Nat.add_assoc _ _ _).symm

/-- Without a read under way nothing is left to decode. -/
theorem undecoded_eq_nil {s : Session K} (h : s.reads = 0) : s.undecoded = [] := by
  unfold reads at h
  have hfinished : s.finished = [] := List.length_eq_zero_iff.mp (by omega)
  have hstrand : s.strand.countP Handler.isRead = 0 := by omega
  rw [List.countP_eq_zero] at hstrand
  rw [undecoded, hfinished, List.filterMap_nil, List.append_nil, List.filterMap_eq_nil_iff]
  intro handler hmem
  have hread := hstrand handler hmem
  cases handler with
  | readCompletion _ => exact absurd rfl hread
  | _ => rfl

/-- What leaves the buffer and the events alone, and starts no second read. -/
structure Idles (s s' : Session K) : Prop where
  id_ : s'.id_ = s.id_
  read_buffer_ : s'.read_buffer_ = s.read_buffer_
  socketOpen : s'.socketOpen = s.socketOpen
  published : s'.published = s.published
  undecoded : s'.undecoded = s.undecoded
  reads : s'.reads ≤ s.reads

theorem Keeps.idles {s s' : Session K} (h : Keeps s s') : Idles s s' :=
  ⟨h.id_, h.read_buffer_, h.socketOpen, h.published, h.undecoded, h.reads.le⟩

theorem idles_post (s : Session K) {handler : Handler} (hread : handler.isRead = false)
    (hchunk : handler.chunk? = none) : Idles s (s.post handler) := by
  refine ⟨rfl, rfl, rfl, rfl, undecoded_post s handler hchunk, ?_⟩
  rw [reads_post, hread]
  exact le_rfl

/-- Running a handler that neither delivers bytes nor closes the socket. -/
theorem idles_handle {s : Session K} {handler : Handler} {rest : List Handler}
    (hstrand : s.strand = handler :: rest) (hchunk : handler.chunk? = none)
    (hopen : handler ≠ .close) (refuses : ℕ → Bool) :
    Idles s ({ s with strand := rest }.handle refuses handler) := by
  have hreads := reads_cons hstrand
  have hundecoded := undecoded_cons hstrand
  set popped : Session K := { s with strand := rest }
  -- A handler that keeps what matters keeps it also of the session before the pop.
  have hkeeps (h : Keeps popped (popped.handle refuses handler)) :
      Idles s (popped.handle refuses handler) := by
    refine ⟨h.id_, h.read_buffer_, h.socketOpen, h.published, ?_, h.reads.trans_le (by omega)⟩
    rw [h.undecoded, hundecoded, hchunk]
    rfl
  cases handler with
  | doRead =>
    have hle : popped.reads + 1 = s.reads := by simp [hreads, Handler.isRead]
    change Idles s popped.doRead
    unfold doRead
    split_ifs
    · exact ⟨rfl, rfl, rfl, rfl, hundecoded.symm, by omega⟩
    · refine ⟨rfl, rfl, rfl, rfl, hundecoded.symm, ?_⟩
      simp only [reads] at hle ⊢
      omega
  | send data => exact hkeeps (keeps_of_updates (updates_onSend _ _))
  | close => exact absurd rfl hopen
  | readCompletion result =>
    cases result with
    | error _ => exact hkeeps (keeps_of_updates (updates_close _))
    | bytes chunk => cases hchunk
  | writeCompletion error => exact hkeeps (keeps_of_updates (updates_onWriteCompletion _ _))

/-! ### What a step does -/

/-- The label of a step, with the guard that let it through. -/
inductive Transition (s : Session K) : Label → Session K → Prop
  | start (fresh : s.started = false) : Transition s .start { s with started := true }.start
  | send (data : Bytes) : Transition s (.send data) (s.post (.send data))
  | close : Transition s .close s.close
  | removeSession : Transition s .removeSession s.removeSession
  | readFinishes (result : ReadResult) (reading : s.reading ≠ 0)
      (possible : result.possible s.socketOpen = true) :
      Transition s (.readFinishes result)
        { s with reading := s.reading - 1, finished := s.finished ++ [result] }
  | readPosted (result : ReadResult) (finished : List ReadResult)
      (first : s.finished = result :: finished) :
      Transition s .readPosted ({ s with finished := finished }.post (.readCompletion result))
  | writeFinishes (error : Option IoError) (writing : s.writing ≠ 0) :
      Transition s (.writeFinishes error)
        ({ s with writing := s.writing - 1 }.post (.writeCompletion error))
  | runHandler (refuses : ℕ → Bool) (handler : Handler) (rest : List Handler)
      (strand : s.strand = handler :: rest) :
      Transition s (.runHandler refuses) ({ s with strand := rest }.handle refuses handler)

theorem transition_of_step {s s' : Session K} {label : Label} (h : step s label = some s') :
    Transition s label s' := by
  cases label with
  | start =>
    simp only [step] at h
    split_ifs at h with hstarted
    exact Option.some.inj h ▸ .start (Bool.eq_false_of_not_eq_true hstarted)
  | send data => exact Option.some.inj h ▸ .send data
  | close => exact Option.some.inj h ▸ .close
  | removeSession => exact Option.some.inj h ▸ .removeSession
  | readFinishes result =>
    simp only [step] at h
    split_ifs at h with hrefused
    rw [not_or, not_not] at hrefused
    exact Option.some.inj h ▸ .readFinishes result hrefused.1 hrefused.2
  | readPosted =>
    simp only [step] at h
    split at h
    · cases h
    · next result finished hfinished =>
      exact Option.some.inj h ▸ .readPosted result finished hfinished
  | writeFinishes error =>
    simp only [step] at h
    split_ifs at h with hnone
    exact Option.some.inj h ▸ .writeFinishes error hnone
  | runHandler refuses =>
    simp only [step] at h
    split at h
    · cases h
    · next handler rest hstrand =>
      exact Option.some.inj h ▸ .runHandler refuses handler rest hstrand

/-- The strand takes up its first handler. -/
theorem exists_of_runHandler {s s' : Session K} {refuses : ℕ → Bool}
    (h : step s (.runHandler refuses) = some s') :
    ∃ handler rest, s.strand = handler :: rest ∧
      s' = { s with strand := rest }.handle refuses handler := by
  cases transition_of_step h with
  | runHandler _ handler rest hstrand => exact ⟨handler, rest, hstrand, rfl⟩

/-- All that a step can do: it leaves the buffer and the events alone, finishes a read, decodes
what a read brought or closes the socket. -/
inductive Steps (s : Session K) : Label → Session K → Prop
  | idle (label : Label) (s' : Session K) (other : ∀ refuses, label ≠ .runHandler refuses)
      (idles : Idles s s') : Steps s label s'
  | finish (chunk : Bytes) (reading : s.reading ≠ 0) (open_ : s.socketOpen = true) :
      Steps s (.readFinishes (.bytes chunk))
        { s with reading := s.reading - 1, finished := s.finished ++ [.bytes chunk] }
  | handle (refuses : ℕ → Bool) (handler : Handler) (rest : List Handler) (s' : Session K)
      (strand : s.strand = handler :: rest) (chunk : handler.chunk? = none)
      (open_ : handler ≠ .close) (idles : Idles s s') : Steps s (.runHandler refuses) s'
  | deliver (refuses : ℕ → Bool) (chunk : Bytes) (rest : List Handler)
      (strand : s.strand = .readCompletion (.bytes chunk) :: rest) :
      Steps s (.runHandler refuses)
        ({ s with strand := rest }.onReadCompletion refuses (.bytes chunk))
  | close (refuses : ℕ → Bool) (rest : List Handler) (strand : s.strand = .close :: rest) :
      Steps s (.runHandler refuses) { s with strand := rest }.onClose

theorem steps_of_step {s s' : Session K} {label : Label} (h : step s label = some s') :
    Steps s label s' := by
  cases transition_of_step h with
  | start hfresh =>
    have hle : { s with started := true }.reads + 1 = s.reads := by
      simp only [reads, hfresh, if_true, Bool.false_eq_true, if_false]
      omega
    refine .idle _ _ nofun ?_
    unfold start
    split_ifs
    · exact ⟨rfl, rfl, rfl, rfl, rfl, by omega⟩
    · refine ⟨rfl, rfl, rfl, rfl, undecoded_post _ _ rfl, ?_⟩
      rw [reads_post]
      exact hle.le
  | send data => exact .idle _ _ nofun (idles_post s rfl rfl)
  | close => exact .idle _ _ nofun (keeps_of_updates (updates_close s)).idles
  | removeSession => exact .idle _ _ nofun (keeps_of_updates (updates_removeSession s)).idles
  | readFinishes result hreading hpossible =>
    cases result with
    | error _ =>
      refine .idle _ _ nofun ⟨rfl, rfl, rfl, rfl, by simp [undecoded, ReadResult.chunk?], ?_⟩
      simp only [reads, List.length_append, List.length_singleton]
      omega
    | bytes chunk => exact .finish chunk hreading hpossible
  | readPosted result finished hfinished =>
    -- The result goes from one queue to the next.
    refine .idle _ _ nofun ⟨rfl, rfl, rfl, rfl, ?_, ?_⟩
    · simp only [undecoded, post, hfinished, List.filterMap_append, List.filterMap_cons,
        List.filterMap_nil, Handler.chunk?]
      cases result <;> simp [ReadResult.chunk?]
    · rw [reads_post]
      simp only [reads, hfinished, List.length_cons, Handler.isRead, if_true]
      omega
  | writeFinishes error =>
    have hpost : Idles { s with writing := s.writing - 1 }
        ({ s with writing := s.writing - 1 }.post (.writeCompletion error)) :=
      idles_post _ rfl rfl
    exact .idle _ _ nofun ⟨rfl, rfl, rfl, rfl, hpost.undecoded, hpost.reads⟩
  | runHandler refuses handler rest hstrand =>
    have hsilent (hchunk : handler.chunk? = none) (hopen : handler ≠ .close) :
        Steps s (.runHandler refuses) ({ s with strand := rest }.handle refuses handler) :=
      .handle refuses handler rest _ hstrand hchunk hopen
        (idles_handle hstrand hchunk hopen refuses)
    cases handler with
    | readCompletion result =>
      cases result with
      | error _ => exact hsilent rfl nofun
      | bytes chunk => exact .deliver refuses chunk rest hstrand
    | close => exact .close refuses rest hstrand
    | doRead | send _ | writeCompletion _ => exact hsilent rfl nofun

theorem undecoded_finish (s : Session K) (chunk : Bytes) (reading : ℕ) :
    { s with reading := reading, finished := s.finished ++ [ReadResult.bytes chunk] }.undecoded =
      s.undecoded ++ [chunk] := by
  simp [undecoded, ReadResult.chunk?]

/-- The handler of a read is the only one there is, so nothing else waits to be decoded. -/
theorem reads_of_completion {s : Session K} {chunk : Bytes} {rest : List Handler}
    (reads_le : s.reads ≤ 1) (hstrand : s.strand = .readCompletion (.bytes chunk) :: rest) :
    { s with strand := rest }.reads = 0 ∧ s.reads = 1 ∧ s.undecoded = [chunk] := by
  have hreads := reads_cons hstrand
  simp only [Handler.isRead, if_true] at hreads
  have hidle : { s with strand := rest }.reads = 0 := by omega
  have hundecoded := undecoded_cons hstrand
  rw [undecoded_eq_nil hidle] at hundecoded
  exact ⟨hidle, by omega, hundecoded⟩

/-- What a step does to the events and to what was read. -/
inductive Effect (s : Session K) (label : Label) (s' : Session K) : Prop
  | idle (open_ : ¬ RunsClose s label) (published : s'.published = s.published)
      (buffer : s'.read_buffer_ = s.read_buffer_) (socket : s'.socketOpen = s.socketOpen)
      (undecoded : s'.undecoded = s.undecoded)
  | receive (chunk : Bytes) (open_ : ¬ RunsClose s label)
      (published : s'.published = s.published)
      (buffer : s'.read_buffer_ = s.read_buffer_) (before : s.socketOpen = true)
      (socket : s'.socketOpen = true) (undecoded : s'.undecoded = s.undecoded ++ [chunk])
  | deliver (chunk : Bytes) (payloads : List PayloadView) (open_ : ¬ RunsClose s label)
      (frames : payloads = [] ↔ frameCount (s.read_buffer_ ++ chunk) = 0)
      (published : s'.published = s.published ++ payloads.map (.NetworkMessageEvent s.id_))
      (socket : s'.socketOpen = s.socketOpen) (before : s.undecoded = [chunk])
      (undecoded : s'.undecoded = [])
  | disconnect (close : RunsClose s label)
      (published : s'.published = s.published ++ [.ClientDisconnectedEvent s.id_])
      (buffer : s'.read_buffer_ = s.read_buffer_) (socket : s'.socketOpen = false)
      (undecoded : s'.undecoded = s.undecoded)

/-- What a step does to a session with at most one read under way. -/
theorem step_effect {s s' : Session K} {label : Label} (reads_le : s.reads ≤ 1)
    (h : step s label = some s') : s'.id_ = s.id_ ∧ s'.reads ≤ s.reads ∧ Effect s label s' := by
  have hruns {refuses : ℕ → Bool} {handler : Handler} {rest : List Handler}
      (hstrand : s.strand = handler :: rest) :
      RunsClose s (.runHandler refuses) ↔ handler = .close := by
    rw [RunsClose, hstrand, List.head?_cons, Option.some.injEq]
  cases steps_of_step h with
  | idle _ _ hother hidles =>
    have hopen : ¬ RunsClose s label := by
      cases label with
      | runHandler refuses => exact absurd rfl (hother refuses)
      | _ => exact id
    exact ⟨hidles.id_, hidles.reads, .idle hopen hidles.published hidles.read_buffer_
      hidles.socketOpen hidles.undecoded⟩
  | finish chunk hreading hopen =>
    refine ⟨rfl, ?_, .receive chunk id rfl rfl hopen hopen (undecoded_finish s chunk _)⟩
    simp only [reads, List.length_append, List.length_singleton]
    omega
  | handle refuses handler rest _ hstrand _ hopen hidles =>
    exact ⟨hidles.id_, hidles.reads, .idle (mt (hruns hstrand).mp hopen) hidles.published
      hidles.read_buffer_ hidles.socketOpen hidles.undecoded⟩
  | deliver refuses chunk rest hstrand =>
    obtain ⟨hidle, hone, hundecoded⟩ := reads_of_completion reads_le hstrand
    obtain ⟨payloads, hframes, hpublished, hid, hsocket, hundecoded', hle⟩ :=
      onReadCompletion_bytes { s with strand := rest } refuses chunk
    exact ⟨hid, by omega, .deliver chunk payloads (mt (hruns hstrand).mp nofun) hframes
      hpublished hsocket hundecoded (hundecoded'.trans (undecoded_eq_nil hidle))⟩
  | close refuses rest hstrand =>
    have hreads := reads_cons hstrand
    have hkeeps := keeps_onClose { s with strand := rest }
    exact ⟨hkeeps.id_, hkeeps.reads.trans_le (hreads ▸ Nat.le_add_right _ _),
      .disconnect ((hruns hstrand).mpr rfl) hkeeps.published hkeeps.read_buffer_
        hkeeps.socketOpen (hkeeps.undecoded.trans (undecoded_cons hstrand).symm)⟩

/-! ### Runs -/

/-- What every run keeps: one read at a time, and a closed socket once the disconnect
is published. -/
structure Wired (id : SessionId) (s : Session K) : Prop where
  id_eq : s.id_ = id
  reads_le : s.reads ≤ 1
  shut : .ClientDisconnectedEvent id ∈ s.published → s.socketOpen = false

theorem Wired.step {id : SessionId} {s s' : Session K} {label : Label} (wired : Wired id s)
    (h : step s label = some s') : Wired id s' ∧ Effect s label s' := by
  obtain ⟨hid, hreads, effect⟩ := step_effect wired.reads_le h
  refine ⟨⟨hid.trans wired.id_eq, hreads.trans wired.reads_le, fun hmem => ?_⟩, effect⟩
  cases effect with
  | idle _ published _ socket _ => exact socket.trans (wired.shut (published ▸ hmem))
  | receive _ _ published _ before socket _ =>
    -- Bytes come from an open socket only.
    have hshut := wired.shut (published ▸ hmem)
    rw [before] at hshut
    cases hshut
  | deliver _ payloads _ _ published socket _ _ =>
    rw [published, List.mem_append] at hmem
    rcases hmem with hmem | hmem
    · exact socket.trans (wired.shut hmem)
    · obtain ⟨payload, -, heq⟩ := List.mem_map.mp hmem
      cases heq
  | disconnect _ _ _ socket _ => exact socket

theorem wired_of_run {id : SessionId} {labels : List Label} {s : Session K}
    (run : (machine K id).run labels = some s) : Wired id s := by
  refine Machine.run_induction (motive := fun _ s => Wired id s) ?_ ?_ run
  · exact ⟨rfl, Nat.le_refl 1, nofun⟩
  · intro _ s label s' _ wired h
    exact (wired.step h).1

/-- The events are in order, and once the disconnect is published no frame is left. -/
structure Settled (id : SessionId) (s : Session K) : Prop where
  quiet : Quiet id s.published
  spent : .ClientDisconnectedEvent id ∈ s.published → ¬ FrameUnderway s

theorem Quiet.of_not_mem {id : SessionId} {published : List (NetworkEvent K)}
    (h : .ClientDisconnectedEvent id ∉ published) : Quiet id published := by
  rintro before after rfl
  exact absurd (List.mem_append_right _ List.mem_cons_self) h

theorem Quiet.of_append {id : SessionId} {published later : List (NetworkEvent K)}
    (h : Quiet id (published ++ later)) : Quiet id published := by
  rintro before after rfl payload hmem
  refine h before (after ++ later) ?_ payload (List.mem_append_left _ hmem)
  rw [List.append_assoc, List.cons_append]

theorem Quiet.disconnect {id : SessionId} {published : List (NetworkEvent K)}
    (h : Quiet id published) : Quiet id (published ++ [.ClientDisconnectedEvent id]) := by
  intro before after heq payload
  rcases List.eq_nil_or_concat after with rfl | ⟨rest, last, rfl⟩
  · exact List.not_mem_nil
  · rw [List.concat_eq_append, ← List.cons_append, ← List.append_assoc] at heq
    obtain ⟨hold, hlast⟩ := List.append_inj' heq rfl
    obtain rfl := List.singleton_inj.mp hlast
    rw [List.concat_eq_append, List.mem_append, List.mem_singleton]
    rintro (hmem | hmem)
    · exact h before rest hold payload hmem
    · cases hmem

/-- A message after the disconnect breaks the order. -/
theorem not_quiet_append {id : SessionId} {published : List (NetworkEvent K)}
    {payloads : List PayloadView} (hmem : .ClientDisconnectedEvent id ∈ published)
    (hne : payloads ≠ []) :
    ¬ Quiet id (published ++ payloads.map (.NetworkMessageEvent id)) := by
  intro hquiet
  obtain ⟨before, after, rfl⟩ := List.append_of_mem hmem
  obtain ⟨payload, rest, rfl⟩ := List.exists_cons_of_ne_nil hne
  refine hquiet before (after ++ (payload :: rest).map (.NetworkMessageEvent id)) ?_ payload ?_
  · rw [List.append_assoc, List.cons_append]
  · exact List.mem_append_right _ List.mem_cons_self

/-- A step that runs no close handler ahead of a frame keeps the session settled. -/
theorem Settled.step {id : SessionId} {s s' : Session K} {label : Label}
    (settled : Settled id s) (wired : Wired id s) (frames : FramesBeforeClose s label)
    (effect : Effect s label s') : Settled id s' := by
  have hid := wired.id_eq
  cases effect with
  | idle _ published buffer _ undecoded =>
    refine ⟨published ▸ settled.quiet, fun hmem => ?_⟩
    rw [FrameUnderway, undecoded, buffer]
    exact settled.spent (published ▸ hmem)
  | receive _ _ published _ before _ _ =>
    -- Bytes come from an open socket, so the disconnect is not published yet.
    have hopen : .ClientDisconnectedEvent id ∉ s.published := fun hmem => by
      rw [wired.shut hmem] at before
      cases before
    exact ⟨published ▸ settled.quiet, fun hmem => absurd (published ▸ hmem) hopen⟩
  | deliver chunk payloads _ hframes published _ before undecoded =>
    subst hid
    constructor
    · by_cases hmem : .ClientDisconnectedEvent s.id_ ∈ s.published
      · -- After the disconnect the delivered bytes complete no frame.
        have hspent := settled.spent hmem
        have hnil : payloads = [] := by
          rw [hframes]
          by_contra hne
          exact hspent ⟨chunk, by simp [before], Nat.pos_of_ne_zero hne⟩
        rw [published, hnil, List.map_nil, List.append_nil]
        exact settled.quiet
      · refine Quiet.of_not_mem fun hnew => ?_
        rw [published, List.mem_append] at hnew
        rcases hnew with hnew | hnew
        · exact hmem hnew
        · obtain ⟨_, -, heq⟩ := List.mem_map.mp hnew
          cases heq
    · rintro - ⟨_, hmem, -⟩
      rw [undecoded] at hmem
      cases hmem
  | disconnect close published buffer _ undecoded =>
    subst hid
    refine ⟨published ▸ settled.quiet.disconnect, fun _ => ?_⟩
    rw [FrameUnderway, undecoded, buffer]
    exact frames close

/-- Once the close handler has run ahead of a frame, that frame is still to come or the
order is broken. -/
def Overtaken (id : SessionId) (s : Session K) : Prop :=
  ¬ Quiet id s.published ∨ .ClientDisconnectedEvent id ∈ s.published ∧ FrameUnderway s

/-- Running the close handler ahead of a frame lets it overtake the frame. -/
theorem overtaken_of_close {id : SessionId} {s s' : Session K} {label : Label}
    (wired : Wired id s) (frames : ¬ FramesBeforeClose s label) (effect : Effect s label s') :
    Overtaken id s' := by
  unfold FramesBeforeClose at frames
  push Not at frames
  obtain ⟨hclose, hframe⟩ := frames
  cases effect with
  | idle open_ => exact absurd hclose open_
  | receive _ open_ => exact absurd hclose open_
  | deliver _ _ open_ => exact absurd hclose open_
  | disconnect _ published buffer _ undecoded =>
    right
    rw [FrameUnderway, undecoded, buffer, published, wired.id_eq]
    exact ⟨List.mem_append_right _ List.mem_cons_self, hframe⟩

theorem Overtaken.step {id : SessionId} {s s' : Session K} {label : Label}
    (overtaken : Overtaken id s) (wired : Wired id s) (effect : Effect s label s') :
    Overtaken id s' := by
  have hid := wired.id_eq
  rcases overtaken with hbroken | ⟨hmem, hframe⟩
  · left
    cases effect with
    | idle _ published _ _ _ => rwa [published]
    | receive _ _ published _ _ _ _ => rwa [published]
    | deliver _ _ _ _ published _ _ _ => exact fun h => hbroken (published ▸ h).of_append
    | disconnect _ published _ _ _ => exact fun h => hbroken (published ▸ h).of_append
  · cases effect with
    | idle _ published buffer _ undecoded =>
      right
      rw [FrameUnderway, undecoded, buffer, published]
      exact ⟨hmem, hframe⟩
    | receive _ _ _ _ before _ _ =>
      rw [wired.shut hmem] at before
      cases before
    | deliver chunk payloads _ hframes published _ before _ =>
      left
      subst hid
      rw [published]
      refine not_quiet_append hmem fun hnil => ?_
      obtain ⟨other, hother, hpos⟩ := hframe
      rw [before, List.mem_singleton] at hother
      subst hother
      exact hpos.ne' (hframes.mp hnil)
    | disconnect _ published buffer _ undecoded =>
      right
      rw [FrameUnderway, undecoded, buffer, published]
      exact ⟨List.mem_append_left _ hmem, hframe⟩

/-- In a run whose close handler never runs ahead of a frame, no message is published
after the disconnect; and when nothing is left to decode, only in such a run. -/
theorem quiet_of_run {id : SessionId} {labels : List Label} {s : Session K}
    (run : (machine K id).run labels = some s) :
    ((machine K id).Meets FramesBeforeClose labels → Quiet id s.published) ∧
      (¬ FrameUnderway s → Quiet id s.published →
        (machine K id).Meets FramesBeforeClose labels) := by
  constructor
  · intro frames
    have hsettled : Settled id s := by
      refine Machine.guarded_induction FramesBeforeClose
        (motive := fun _ s => Settled id s) ⟨?_, fun hmem => absurd hmem List.not_mem_nil⟩
        ?_ frames run
      · exact Quiet.of_not_mem List.not_mem_nil
      · intro _ s label s' hrun _ settled hframes hstep
        have wired := wired_of_run hrun
        exact settled.step wired hframes (wired.step hstep).2
    exact hsettled.quiet
  · intro hdone hquiet
    -- From the first violation on, the overtaken frame is to come or out of order.
    have hmeets : (machine K id).Meets FramesBeforeClose labels ∨ Overtaken id s := by
      refine Machine.run_induction
        (motive := fun labels s =>
          (machine K id).Meets FramesBeforeClose labels ∨ Overtaken id s)
        (Or.inl (Machine.Meets.nil _)) ?_ run
      intro labels s label s' hrun hbefore hstep
      have wired := wired_of_run hrun
      have effect := (wired.step hstep).2
      rcases hbefore with hmeets | hovertaken
      · by_cases hframes : FramesBeforeClose s label
        · refine Or.inl (hmeets.concat fun t ht => ?_)
          rw [hrun, Option.some.injEq] at ht
          exact ht ▸ hframes
        · exact Or.inr (overtaken_of_close wired hframes effect)
      · exact Or.inr (hovertaken.step wired effect)
    rcases hmeets with hmeets | hbroken | ⟨-, hframe⟩
    · exact hmeets
    · exact absurd hquiet hbroken
    · exact absurd hframe hdone

/-- A session that sends a command and is then closed. -/
def closedAfterShot : List Label :=
  [.start, .runHandler fun _ => false,
    .readFinishes (.bytes (FrameCodec.wire (bytesOf "SHOOT"))), .readPosted,
    .runHandler fun _ => false, .close, .runHandler fun _ => false]

/-- The same session when the command is read while the close handler is posted. -/
def closedBeforeShot : List Label :=
  [.start, .runHandler fun _ => false, .close,
    .readFinishes (.bytes (FrameCodec.wire (bytesOf "SHOOT"))), .readPosted,
    .runHandler fun _ => false, .runHandler fun _ => false]

theorem quiet_closedAfterShot :
    ∃ s, (machine Unit 7).run closedAfterShot = some s ∧
      s.published =
        [.NetworkMessageEvent 7 (bytesOf "SHOOT"), .ClientDisconnectedEvent 7] ∧
      Quiet 7 s.published := by
  have hpublished : ((machine Unit 7).run closedAfterShot).map (·.published) =
      some [.NetworkMessageEvent 7 (bytesOf "SHOOT"), .ClientDisconnectedEvent 7] := by
    decide
  obtain ⟨s, hs, heq⟩ := Option.map_eq_some_iff.mp hpublished
  exact ⟨s, hs, heq, (quiet_of_run hs).1 (Machine.meets_of_checks (by decide))⟩

/-- A command that is read while the close handler waits on the strand is published
after the disconnect. -/
theorem not_quiet_closedBeforeShot :
    ¬ ∀ (id : SessionId) labels s, (machine Unit id).run labels = some s →
      Quiet id s.published := by
  intro hall
  have hpublished : ((machine Unit 7).run closedBeforeShot).map (·.published) =
      some [.ClientDisconnectedEvent 7, .NetworkMessageEvent 7 (bytesOf "SHOOT")] := by
    decide
  obtain ⟨s, hs, heq⟩ := Option.map_eq_some_iff.mp hpublished
  have hquiet := hall 7 _ s hs
  rw [heq] at hquiet
  exact hquiet [] _ rfl _ List.mem_cons_self

end Session

end SpaceShooter.Server
