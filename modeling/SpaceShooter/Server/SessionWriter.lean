/-
# The writer of a session

A session's payloads wait in a queue, from which one at a time is framed and handed to the
socket. Other threads may close the session at any moment, also while a handler of the writer
runs: the handlers are taken apart where they look at the flag again. A payload that is too
large to be framed is dropped, and the session is closed before anything else is sent.
-/

import SpaceShooter.Server.Session

namespace SpaceShooter.Server

open Library Network

/-- What a handler of the writer has still to do. -/
inductive SessionWriter.Task
  | doWrite
  | close
  deriving DecidableEq, Repr

/-- A session and the handler that its strand runs. -/
structure SessionWriter (K : Type) where
  session : Session K
  running : Option SessionWriter.Task := none
  /-- History: the payloads that `send` handlers have put into the queue. -/
  accepted : List Bytes := []

namespace SessionWriter

/-- What can happen next: a label of the session, or the strand goes on with its handler. -/
inductive Label
  | session (label : Session.Label)
  | resume

variable {K : Type}

/-- A handler up to the point where it looks at the flag again. -/
def handle (w : SessionWriter K) (refuses : ℕ → Bool) : Session.Handler → SessionWriter K
  | .send data =>
    if w.session.closed_ then w
    else
      { w with
        session := { w.session with
          write_queue_ := w.session.write_queue_ ++ [data]
          is_writing_ := true }
        running := if !w.session.is_writing_ then some .doWrite else none
        accepted := w.accepted ++ [data] }
  | .writeCompletion none => { w with running := some .doWrite }
  | .writeCompletion (some _) =>
    { w with session := { w.session with is_writing_ := false }, running := some .close }
  | handler => { w with session := w.session.handle refuses handler }

def doWrite (w : SessionWriter K) : SessionWriter K :=
  if w.session.closed_ then
    { w with session := { w.session with is_writing_ := false }, running := none }
  else
    match w.session.write_queue_ with
    | [] => { w with session := { w.session with is_writing_ := false }, running := none }
    | payload :: queue =>
      match FrameCodec.encode payload with
      | .ok frame =>
        { w with
          session := { w.session with
            write_queue_ := queue
            writing := w.session.writing + 1
            written := w.session.written ++ [frame.buffers] }
          running := none }
      | .error _ =>
        { w with
          session := { w.session with write_queue_ := queue, is_writing_ := false }
          running := some .close }

def step (w : SessionWriter K) : Label → Option (SessionWriter K)
  | .session (.runHandler refuses) =>
    -- The strand runs one handler at a time.
    match w.running, w.session.strand with
    | none, handler :: strand =>
      some ({ w with session := { w.session with strand := strand } }.handle refuses handler)
    | _, _ => none
  | .session label => (w.session.step label).map fun session => { w with session := session }
  | .resume =>
    match w.running with
    | none => none
    | some .doWrite => some w.doWrite
    | some .close => some { w with session := w.session.close, running := none }

def machine (K : Type) (id : SessionId) : Machine (SessionWriter K) Label where
  init := { session := { id_ := id } }
  step := step

end SessionWriter

namespace Session

variable {K : Type}

def Handler.isWrite : Handler → Bool
  | .writeCompletion _ => true
  | _ => false

/-- The payload a handler puts into the queue. -/
def Handler.payload? : Handler → Option Bytes
  | .send data => some data
  | _ => none

/-- The writes whose completion handlers have not run. -/
def outstanding (s : Session K) : ℕ := s.writing + s.strand.countP Handler.isWrite

/-- A handler or a call that leaves the writer alone, except that it may close the session. -/
structure Calm (s s' : Session K) : Prop where
  write_queue_ : s'.write_queue_ = s.write_queue_
  is_writing_ : s'.is_writing_ = s.is_writing_
  written : s'.written = s.written
  outstanding : s'.outstanding = s.outstanding
  closed : s.closed_ = true → s'.closed_ = true

variable {s s' s'' : Session K}

theorem Calm.refl (s : Session K) : Calm s s := ⟨rfl, rfl, rfl, rfl, fun h => h⟩

theorem Calm.trans (h : Calm s s') (h' : Calm s' s'') : Calm s s'' where
  write_queue_ := h'.write_queue_.trans h.write_queue_
  is_writing_ := h'.is_writing_.trans h.is_writing_
  written := h'.written.trans h.written
  outstanding := h'.outstanding.trans h.outstanding
  closed hclosed := h'.closed (h.closed hclosed)

theorem calm_post (s : Session K) {handler : Handler} (h : handler.isWrite = false) :
    Calm s (s.post handler) := by
  refine ⟨rfl, rfl, rfl, ?_, fun hclosed => hclosed⟩
  rw [Session.outstanding, post, List.countP_append, List.countP_singleton, h]
  rfl

theorem calm_close (s : Session K) : Calm s s.close := by
  unfold close
  split_ifs
  · exact Calm.refl s
  · have hflag : Calm s { s with closed_ := true } := ⟨rfl, rfl, rfl, rfl, fun _ => rfl⟩
    exact hflag.trans (calm_post _ rfl)

theorem calm_removeSession (s : Session K) : Calm s s.removeSession := by
  unfold removeSession
  split_ifs
  · have herase : Calm s { s with registered := false } := ⟨rfl, rfl, rfl, rfl, fun h => h⟩
    exact herase.trans (calm_close _)
  · exact Calm.refl s

theorem calm_doRead (s : Session K) : Calm s s.doRead := by
  unfold doRead
  split_ifs
  · exact Calm.refl s
  · exact ⟨rfl, rfl, rfl, rfl, fun h => h⟩

theorem calm_onClose (s : Session K) : Calm s s.onClose := by
  have hsocket : Calm s ({ s with socketOpen := false }.publish
      (.ClientDisconnectedEvent s.id_)) := ⟨rfl, rfl, rfl, rfl, fun h => h⟩
  exact hsocket.trans (calm_removeSession _)

theorem calm_onReadCompletion (s : Session K) (refuses : ℕ → Bool) (result : ReadResult) :
    Calm s (s.onReadCompletion refuses result) := by
  cases result with
  | error _ => exact calm_close s
  | bytes chunk =>
    unfold onReadCompletion
    dsimp only
    split
    · next published rest _ =>
      have hread : Calm s { s with published := published, read_buffer_ := rest } :=
        ⟨rfl, rfl, rfl, rfl, fun h => h⟩
      exact hread.trans (calm_doRead _)
    · exact ⟨rfl, rfl, rfl, rfl, fun h => h⟩

/-- The calls, and what the runtime does. -/
theorem calm_step {label : Label} (h : s.step label = some s')
    (hother : ∀ refuses, label ≠ .runHandler refuses) : Calm s s' := by
  cases transition_of_step h with
  | start =>
    have hstarted : Calm s { s with started := true } := ⟨rfl, rfl, rfl, rfl, fun h => h⟩
    refine hstarted.trans ?_
    unfold start
    split_ifs
    · exact Calm.refl _
    · exact calm_post _ rfl
  | send data => exact calm_post s rfl
  | close => exact calm_close s
  | removeSession => exact calm_removeSession s
  | readFinishes result => exact ⟨rfl, rfl, rfl, rfl, fun h => h⟩
  | readPosted result finished =>
    have hfinished : Calm s { s with finished := finished } := ⟨rfl, rfl, rfl, rfl, fun h => h⟩
    exact hfinished.trans (calm_post _ rfl)
  | writeFinishes error hwriting =>
    -- The write is still outstanding while its handler waits.
    refine ⟨rfl, rfl, rfl, ?_, fun h => h⟩
    simp only [Session.outstanding, post, List.countP_append, List.countP_singleton,
      Handler.isWrite, if_true]
    omega
  | runHandler refuses => exact absurd rfl (hother refuses)

end Session

namespace SessionWriter

variable {K : Type} {w w' : SessionWriter K}

/-! ### A handler without interruption -/

theorem encode_of_large {payload : Bytes} (h : FrameCodec.kMaxMessageSize < payload.length) :
    ∃ e, FrameCodec.encode payload = .error e := by
  unfold FrameCodec.encode
  rw [dif_pos h]
  exact ⟨_, rfl⟩

/-- Nothing is written, or the first payload of the queue is taken. -/
theorem doWrite_cases (w : SessionWriter K) :
    (w.session.closed_ = true ∨ w.session.write_queue_ = []) ∧
        w.doWrite = { w with
          session := { w.session with is_writing_ := false }, running := none } ∧
        w.session.doWrite = { w.session with is_writing_ := false } ∨
      ∃ payload queue, w.session.closed_ = false ∧ w.session.write_queue_ = payload :: queue ∧
        (payload.length ≤ FrameCodec.kMaxMessageSize ∧
            w.doWrite = { w with
              session := { w.session with
                write_queue_ := queue
                writing := w.session.writing + 1
                written := w.session.written ++ [FrameCodec.wire payload] }
              running := none } ∧
            w.session.doWrite = { w.session with
              write_queue_ := queue
              writing := w.session.writing + 1
              written := w.session.written ++ [FrameCodec.wire payload] } ∨
          FrameCodec.kMaxMessageSize < payload.length ∧
            w.doWrite = { w with
              session := { w.session with write_queue_ := queue, is_writing_ := false }
              running := some .close } ∧
            w.session.doWrite = ({ w.session with
              write_queue_ := queue, is_writing_ := false } : Session K).close) := by
  cases hclosed : w.session.closed_ with
  | true =>
    left
    refine ⟨.inl rfl, ?_, ?_⟩
    · rw [doWrite, if_pos hclosed]
    · rw [Session.doWrite, if_pos hclosed]
  | false =>
    have hopen : ¬ w.session.closed_ = true := by rw [hclosed]; exact fun h => by cases h
    cases hqueue : w.session.write_queue_ with
    | nil =>
      left
      refine ⟨.inr rfl, ?_, ?_⟩
      · rw [doWrite, if_neg hopen, hqueue]
      · rw [Session.doWrite, if_neg hopen, hqueue]
        dsimp only
        rw [hqueue]
    | cons payload queue =>
      right
      refine ⟨payload, queue, rfl, rfl, ?_⟩
      -- Encoding fails exactly for a payload that is too large.
      by_cases hlarge : FrameCodec.kMaxMessageSize < payload.length
      · obtain ⟨e, hencode⟩ := encode_of_large hlarge
        refine .inr ⟨hlarge, ?_, ?_⟩
        · rw [doWrite, if_neg hopen, hqueue]
          dsimp only
          rw [hencode]
        · rw [Session.doWrite, if_neg hopen, hqueue]
          dsimp only
          rw [hencode]
      · obtain ⟨frame, hencode, hbuffers⟩ := FrameCodec.encode_of_fits (Nat.not_lt.mp hlarge)
        refine .inl ⟨Nat.not_lt.mp hlarge, ?_, ?_⟩
        · rw [doWrite, if_neg hopen, hqueue]
          dsimp only
          rw [hencode, ← hbuffers]
        · rw [Session.doWrite, if_neg hopen, hqueue]
          dsimp only
          rw [hencode, ← hbuffers]

/-- Writing, and closing where a payload cannot be framed, is what the session does. -/
theorem exists_doWrite (id : SessionId) (hrunning : w.running = some .doWrite) :
    ∃ labels w', (machine K id).runFrom w labels = some w' ∧ w'.session = w.session.doWrite ∧
      w'.running = none ∧ w'.accepted = w.accepted := by
  have hwrite : step w .resume = some w.doWrite := by rw [step, hrunning]
  rcases w.doWrite_cases with ⟨-, heq, hsession⟩ | ⟨payload, queue, -, -,
    ⟨-, heq, hsession⟩ | ⟨-, heq, hsession⟩⟩ <;> rw [heq] at hwrite <;> rw [hsession]
  · exact ⟨[.resume], _, Machine.runFrom_cons.mpr ⟨_, hwrite, rfl⟩, rfl, rfl, rfl⟩
  · exact ⟨[.resume], _, Machine.runFrom_cons.mpr ⟨_, hwrite, rfl⟩, rfl, rfl, rfl⟩
  · exact ⟨[.resume, .resume], _, Machine.runFrom_cons.mpr ⟨_, hwrite,
      Machine.runFrom_cons.mpr ⟨_, rfl, rfl⟩⟩, rfl, rfl, rfl⟩

theorem step_runHandler (hidle : w.running = none) {handler : Session.Handler}
    {strand : List Session.Handler} (hstrand : w.session.strand = handler :: strand)
    (refuses : ℕ → Bool) :
    step w (.session (.runHandler refuses)) =
      some ({ w with session := { w.session with strand := strand } }.handle refuses handler) := by
  simp only [step, hidle, hstrand]

/-- The parts of the handler of a payload. -/
theorem exists_send (w : SessionWriter K) (id : SessionId) (hidle : w.running = none)
    (refuses : ℕ → Bool) (data : Bytes) :
    ∃ labels w', (machine K id).runFrom (w.handle refuses (.send data)) labels = some w' ∧
      w'.session = w.session.onSend data ∧ w'.running = none ∧
      w'.accepted = w.accepted ++ if w.session.closed_ then [] else [data] := by
  by_cases hclosed : w.session.closed_ = true
  · have hmid : w.handle refuses (.send data) = w := if_pos hclosed
    have hsend : w.session.onSend data = w.session := if_pos hclosed
    rw [hmid, hsend, if_pos hclosed, List.append_nil]
    exact ⟨[], w, rfl, rfl, hidle, rfl⟩
  · have hmid : w.handle refuses (.send data) = _ := if_neg hclosed
    have hsend : w.session.onSend data = _ := if_neg hclosed
    cases hwriting : w.session.is_writing_ with
    | false =>
      have hrunning : (w.handle refuses (.send data)).running = some .doWrite := by
        rw [hmid, hwriting]
        rfl
      obtain ⟨labels, w', hrun, heq, hdone, haccepted⟩ := exists_doWrite id hrunning
      refine ⟨labels, w', hrun, heq.trans ?_, hdone, haccepted.trans ?_⟩
      · rw [hsend, hmid, hwriting]
        rfl
      · rw [hmid, if_neg hclosed]
    | true =>
      refine ⟨[], _, rfl, ?_, ?_, ?_⟩
      · rw [hsend, hmid, hwriting]
        rfl
      · rw [hmid, hwriting]
        rfl
      · rw [hmid, if_neg hclosed]

/-- The parts of a handler, one right after the other, are the handler. -/
theorem exists_handler (id : SessionId) (hidle : w.running = none) {refuses : ℕ → Bool}
    {s : Session K} (hstep : w.session.step (.runHandler refuses) = some s) :
    ∃ labels w', (machine K id).runFrom w labels = some w' ∧ w'.session = s ∧
      w'.running = none ∧ w'.accepted = w.accepted ++ if w.session.closed_ then [] else
        (w.session.strand.head?.bind Session.Handler.payload?).toList := by
  obtain ⟨handler, strand, hstrand, rfl⟩ := Session.exists_of_runHandler hstep
  have hbegin := step_runHandler hidle hstrand refuses
  set popped : SessionWriter K := { w with session := { w.session with strand := strand } }
  -- What is left of the handler follows it at once.
  suffices hrest : ∃ labels w',
      (machine K id).runFrom (popped.handle refuses handler) labels = some w' ∧
        w'.session = popped.session.handle refuses handler ∧ w'.running = none ∧
        w'.accepted = popped.accepted ++
          if popped.session.closed_ then [] else handler.payload?.toList by
    obtain ⟨labels, w', hrun, heq, hdone, haccepted⟩ := hrest
    refine ⟨.session (.runHandler refuses) :: labels, w',
      Machine.runFrom_cons.mpr ⟨_, hbegin, hrun⟩, heq, hdone, haccepted.trans ?_⟩
    rw [hstrand]
    rfl
  have hnothing : popped.accepted =
      popped.accepted ++ if popped.session.closed_ then [] else [] := by
    rw [ite_self, List.append_nil]
  cases handler with
  | doRead => exact ⟨[], _, rfl, rfl, hidle, hnothing⟩
  | close => exact ⟨[], _, rfl, rfl, hidle, hnothing⟩
  | readCompletion result => exact ⟨[], _, rfl, rfl, hidle, hnothing⟩
  | send data => exact exists_send popped id hidle refuses data
  | writeCompletion error =>
    cases error with
    | none =>
      obtain ⟨labels, w', hrun, heq, hdone, haccepted⟩ := exists_doWrite id
        (w := popped.handle refuses (.writeCompletion none)) rfl
      exact ⟨labels, w', hrun, heq, hdone, haccepted.trans hnothing⟩
    | some _ =>
      exact ⟨[.resume], _, Machine.runFrom_cons.mpr ⟨_, rfl, rfl⟩, rfl, rfl, hnothing⟩

/-! ### The invariant -/

/-- Every accepted payload has been framed and sent, has been dropped because it was too large,
or waits in the queue. -/
structure Intact (w : SessionWriter K) : Prop where
  ledger : ∃ sent dropped, w.accepted = sent ++ dropped ++ w.session.write_queue_ ∧
    w.session.written = sent.map FrameCodec.wire ∧
    (∀ payload ∈ sent, payload.length ≤ FrameCodec.kMaxMessageSize) ∧
    (dropped ≠ [] → w.session.closed_ = true ∨ w.running = some .close)
  single : w.session.outstanding ≤ 1
  exclusive : w.running = some .doWrite → w.session.outstanding = 0
  flag : w.session.is_writing_ = true ↔
    w.session.outstanding = 1 ∨ w.running = some .doWrite
  served : w.session.closed_ = false → w.session.write_queue_ ≠ [] →
    w.session.outstanding = 1 ∨ w.running.isSome = true

theorem intact_init (id : SessionId) : Intact (machine K id).init where
  ledger := ⟨[], [], rfl, rfl, fun _ h => (by cases h), fun h => absurd rfl h⟩
  single := Nat.zero_le 1
  exclusive h := by cases h
  flag := ⟨fun h => (by cases h), fun h => (by rcases h with h | h <;> cases h)⟩
  served _ h := absurd rfl h

/-- What leaves the writer alone. -/
theorem Intact.calm (h : w.Intact) {s : Session K} (hcalm : Session.Calm w.session s) :
    Intact { w with session := s } where
  ledger := by
    obtain ⟨sent, dropped, haccepted, hwritten, hfits, hdropped⟩ := h.ledger
    refine ⟨sent, dropped, ?_, hcalm.written.trans hwritten, hfits,
      fun hne => (hdropped hne).imp_left hcalm.closed⟩
    rw [hcalm.write_queue_]
    exact haccepted
  single := by rw [hcalm.outstanding]; exact h.single
  exclusive hrunning := hcalm.outstanding.trans (h.exclusive hrunning)
  flag := by rw [hcalm.is_writing_, hcalm.outstanding]; exact h.flag
  served hopen hqueue := by
    rw [hcalm.outstanding]
    rw [hcalm.write_queue_] at hqueue
    refine h.served ?_ hqueue
    rw [Bool.eq_false_iff]
    exact fun hclosed => by cases (hcalm.closed hclosed).symm.trans hopen

theorem Intact.doWrite (h : w.Intact) (hrunning : w.running = some .doWrite) :
    w.doWrite.Intact := by
  have hnone := h.exclusive hrunning
  obtain ⟨sent, dropped, haccepted, hwritten, hfits, hdropped⟩ := h.ledger
  have hkept : dropped ≠ [] → w.session.closed_ = true := fun hne =>
    (hdropped hne).resolve_right fun hclose => by cases hrunning.symm.trans hclose
  rcases w.doWrite_cases with ⟨hnothing, heq, -⟩ | ⟨payload, queue, hopen, hqueue,
    ⟨hfit, heq, -⟩ | ⟨hlarge, heq, -⟩⟩ <;> rw [heq]
  · -- Nothing is written.
    refine ⟨⟨sent, dropped, haccepted, hwritten, hfits, fun hne => .inl (hkept hne)⟩, h.single,
      fun h => (by cases h), ⟨fun h => (by cases h), fun hwrites => ?_⟩, fun hopen hne => ?_⟩
    · rcases hwrites with hone | hwrites
      · cases hnone.symm.trans hone
      · cases hwrites
    · rcases hnothing with hclosed | hempty
      · cases hclosed.symm.trans hopen
      · exact absurd hempty hne
  · -- Nothing has been dropped, or the session would be closed.
    have hnil : dropped = [] := by
      by_contra hne
      cases (hkept hne).symm.trans hopen
    -- No write was outstanding, so there is one now.
    have hone : Session.outstanding ({ w.session with
        write_queue_ := queue
        writing := w.session.writing + 1
        written := w.session.written ++ [FrameCodec.wire payload] } : Session K) = 1 := by
      change w.session.writing + w.session.strand.countP Session.Handler.isWrite = 0 at hnone
      change w.session.writing + 1 + w.session.strand.countP Session.Handler.isWrite = 1
      omega
    refine ⟨⟨sent ++ [payload], [], ?_, ?_, ?_, fun hne => absurd rfl hne⟩, hone.le,
      fun h => (by cases h), iff_of_true (h.flag.mpr (.inr hrunning)) (.inl hone),
      fun _ _ => .inl hone⟩
    · rw [haccepted, hnil, hqueue, List.append_nil, List.append_nil, List.append_assoc]
      rfl
    · rw [List.map_append, ← hwritten]
      rfl
    · intro other hmem
      rcases List.mem_append.mp hmem with hold | hnew
      · exact hfits other hold
      · rw [List.mem_singleton.mp hnew]
        exact hfit
  · -- The payload is dropped, and the session closes next.
    refine ⟨⟨sent, dropped ++ [payload], ?_, hwritten, hfits, fun _ => .inr rfl⟩, h.single,
      fun h => (by cases h), ⟨fun h => (by cases h), fun hwrites => ?_⟩, fun _ _ => .inr rfl⟩
    · rw [haccepted, hqueue]
      simp
    · rcases hwrites with hone | hwrites
      · cases hnone.symm.trans hone
      · cases hwrites

theorem Intact.send (h : w.Intact) (hidle : w.running = none) (refuses : ℕ → Bool)
    (data : Bytes) : (w.handle refuses (.send data)).Intact := by
  by_cases hclosed : w.session.closed_ = true
  · have heq : w.handle refuses (.send data) = w := if_pos hclosed
    rw [heq]
    exact h
  · have heq : w.handle refuses (.send data) = _ := if_neg hclosed
    rw [heq]
    obtain ⟨sent, dropped, haccepted, hwritten, hfits, hdropped⟩ := h.ledger
    have hledger : ∃ sent dropped, w.accepted ++ [data] =
        sent ++ dropped ++ (w.session.write_queue_ ++ [data]) ∧
        w.session.written = sent.map FrameCodec.wire ∧
        (∀ payload ∈ sent, payload.length ≤ FrameCodec.kMaxMessageSize) ∧ dropped = [] := by
      refine ⟨sent, dropped, ?_, hwritten, hfits, ?_⟩
      · rw [haccepted, List.append_assoc _ _ [data]]
      · by_contra hne
        rcases hdropped hne with hgone | hclose
        · exact hclosed hgone
        · cases hidle.symm.trans hclose
    -- While the session is open nothing has been dropped.
    obtain ⟨sent, dropped, haccepted, hwritten, hfits, rfl⟩ := hledger
    cases hwriting : w.session.is_writing_ with
    | false =>
      have hnone : w.session.outstanding = 0 := by
        by_contra hne
        have hone : w.session.outstanding = 1 := by
          have hsingle := h.single
          omega
        cases hwriting.symm.trans (h.flag.mpr (.inl hone))
      exact ⟨⟨sent, [], haccepted, hwritten, hfits, fun hne => absurd rfl hne⟩, h.single,
        fun _ => hnone, iff_of_true rfl (.inr rfl), fun _ _ => .inr rfl⟩
    | true =>
      have hone : w.session.outstanding = 1 := by
        refine (h.flag.mp hwriting).resolve_right fun hwrite => ?_
        cases hidle.symm.trans hwrite
      exact ⟨⟨sent, [], haccepted, hwritten, hfits, fun hne => absurd rfl hne⟩, h.single,
        fun hwrite => (by cases hwrite), iff_of_true rfl (.inl hone), fun _ _ => .inl hone⟩

/-- The write is over. -/
theorem Intact.writeCompletion (h : w.Intact) (hidle : w.running = none)
    {strand : List Session.Handler} {error : Option IoError}
    (hstrand : w.session.strand = .writeCompletion error :: strand) (refuses : ℕ → Bool) :
    Intact ({ w with session := { w.session with strand := strand } }.handle refuses
      (.writeCompletion error)) := by
  have hcount : w.session.outstanding =
      Session.outstanding ({ w.session with strand := strand } : Session K) + 1 := by
    rw [Session.outstanding, hstrand, List.countP_cons]
    rfl
  have hnone : Session.outstanding ({ w.session with strand := strand } : Session K) = 0 := by
    have hsingle := h.single
    omega
  have hone : w.session.outstanding = 1 := by omega
  obtain ⟨sent, dropped, haccepted, hwritten, hfits, hdropped⟩ := h.ledger
  cases error with
  | none =>
    refine ⟨⟨sent, dropped, haccepted, hwritten, hfits, fun hne => ?_⟩,
      hnone.le.trans (Nat.zero_le 1), fun _ => hnone,
      iff_of_true (h.flag.mpr (.inl hone)) (.inr rfl), fun _ _ => .inr rfl⟩
    refine .inl ((hdropped hne).resolve_right fun hclose => ?_)
    cases hidle.symm.trans hclose
  | some e =>
    refine ⟨⟨sent, dropped, haccepted, hwritten, hfits, fun _ => .inr rfl⟩,
      hnone.le.trans (Nat.zero_le 1), fun hwrite => (by cases hwrite),
      ⟨fun hwrites => (by cases hwrites), fun hwrites => ?_⟩, fun _ _ => .inr rfl⟩
    rcases hwrites with hone | hwrite
    · cases hnone.symm.trans hone
    · cases hwrite

/-- A handler that has nothing to do with writes leaves the strand. -/
theorem calm_pop {s : Session K} {handler : Session.Handler} {strand : List Session.Handler}
    (hstrand : s.strand = handler :: strand) (h : handler.isWrite = false) :
    Session.Calm s { s with strand := strand } := by
  refine ⟨rfl, rfl, rfl, ?_, fun hclosed => hclosed⟩
  rw [Session.outstanding, Session.outstanding, hstrand, List.countP_cons, h]
  rfl

theorem Intact.handle (h : w.Intact) (hidle : w.running = none) {handler : Session.Handler}
    {strand : List Session.Handler} (hstrand : w.session.strand = handler :: strand)
    (refuses : ℕ → Bool) :
    Intact ({ w with session := { w.session with strand := strand } }.handle refuses handler) := by
  cases handler with
  | doRead => exact h.calm ((calm_pop hstrand rfl).trans (Session.calm_doRead _))
  | close => exact h.calm ((calm_pop hstrand rfl).trans (Session.calm_onClose _))
  | readCompletion result =>
    exact h.calm ((calm_pop hstrand rfl).trans (Session.calm_onReadCompletion _ refuses result))
  | send data => exact (h.calm (calm_pop hstrand rfl)).send hidle refuses data
  | writeCompletion error => exact h.writeCompletion hidle hstrand refuses

/-- The session is closed. -/
theorem Intact.close (h : w.Intact) (hrunning : w.running = some .close) :
    Intact { w with session := w.session.close, running := none } := by
  have hclosed : w.session.close.closed_ = true := by
    unfold Session.close
    split_ifs with hclosed
    · exact hclosed
    · rfl
  have hcalm := h.calm (Session.calm_close w.session)
  obtain ⟨sent, dropped, haccepted, hwritten, hfits, -⟩ := hcalm.ledger
  refine ⟨⟨sent, dropped, haccepted, hwritten, hfits, fun _ => .inl hclosed⟩, hcalm.single,
    fun hwrite => (by cases hwrite), ?_, fun hopen => (by cases hclosed.symm.trans hopen)⟩
  refine hcalm.flag.trans (or_congr_right ⟨fun hwrite => ?_, fun hwrite => by cases hwrite⟩)
  cases hrunning.symm.trans hwrite

theorem Intact.step (h : w.Intact) {label : Label} (hstep : w.step label = some w') :
    w'.Intact := by
  cases label with
  | session label =>
    cases label with
    | runHandler refuses =>
      rw [SessionWriter.step] at hstep
      split at hstep
      · next handler strand hidle hstrand =>
        exact Option.some.inj hstep ▸ h.handle hidle hstrand refuses
      · cases hstep
    | _ =>
      simp only [SessionWriter.step] at hstep
      obtain ⟨s, hsession, rfl⟩ := Option.map_eq_some_iff.mp hstep
      exact h.calm (Session.calm_step hsession fun refuses heq => by cases heq)
  | resume =>
    cases hrunning : w.running with
    | none =>
      rw [SessionWriter.step, hrunning] at hstep
      cases hstep
    | some task =>
      rw [SessionWriter.step, hrunning] at hstep
      cases task with
      | doWrite => exact Option.some.inj hstep ▸ h.doWrite hrunning
      | close => exact Option.some.inj hstep ▸ h.close hrunning

theorem intact_of_run {id : SessionId} {labels : List Label}
    (hrun : (machine K id).run labels = some w) : w.Intact := by
  refine Machine.invariant (intact_init id) (fun s label t hs hstep => ?_) ⟨labels, hrun⟩
  exact hs.step hstep

/-- In every run: at most one write is outstanding; what was handed to the socket are the
encodings of the first payloads accepted, in order and without any of or behind a payload that
is too large; the flag of the writer tells between handlers whether a write is outstanding;
while the session is open, a payload that waits in the queue has a write outstanding or a
handler at work; and a payload that is too large closes the session, once the handler at work
and the write before it are over. -/
theorem writes_in_order {id : SessionId} {labels : List Label}
    (hrun : (machine K id).run labels = some w) :
    w.session.outstanding ≤ 1 ∧
    (∃ sent frames, sent <+: w.accepted ∧ sent.mapM FrameCodec.encode = .ok frames ∧
      w.session.written.flatten = frames.flatMap FrameCodec.Frame.buffers ∧
      ∀ before payload after, w.accepted = before ++ payload :: after →
        FrameCodec.kMaxMessageSize < payload.length → sent <+: before) ∧
    (w.running = none → (w.session.is_writing_ = true ↔ w.session.outstanding = 1)) ∧
    (w.session.closed_ = false → w.running = none → w.session.write_queue_ ≠ [] →
      w.session.outstanding = 1) ∧
    (∀ payload ∈ w.accepted, FrameCodec.kMaxMessageSize < payload.length →
      w.running = none → w.session.outstanding = 0 → w.session.closed_ = true) := by
  have h := intact_of_run hrun
  obtain ⟨sent, dropped, haccepted, hwritten, hfits, hdropped⟩ := h.ledger
  have hsent : sent <+: w.accepted := by
    rw [haccepted, List.append_assoc]
    exact List.prefix_append _ _
  obtain ⟨frames, hframes, hwire⟩ := FrameCodec.mapM_encode_of_fits sent hfits
  refine ⟨h.single, ⟨sent, frames, hsent, hframes, ?_, ?_⟩, fun hidle => ?_, ?_, ?_⟩
  · rw [hwritten, hwire]
    rfl
  · intro before payload after heq hlarge
    rw [heq] at hsent
    refine List.prefix_of_prefix_length_le hsent (List.prefix_append _ _) ?_
    -- Otherwise the payload would be among those that were sent.
    by_contra hlong
    have hlt : before.length < sent.length := Nat.not_le.mp hlong
    have hpayload : sent[before.length] = payload := by
      have hget := hsent.getElem hlt
      rw [hget, List.getElem_append_right le_rfl]
      simp
    have hfit := hfits _ (List.getElem_mem hlt)
    rw [hpayload] at hfit
    exact absurd hfit (Nat.not_le.mpr hlarge)
  · refine h.flag.trans ⟨fun hwrites => hwrites.resolve_right fun hwrite => ?_, .inl⟩
    cases hidle.symm.trans hwrite
  · intro hopen hidle hqueue
    refine (h.served hopen hqueue).resolve_right fun hsome => ?_
    rw [hidle] at hsome
    cases hsome
  · intro payload hmem hlarge hidle hnone
    by_contra hopen
    have hopen : w.session.closed_ = false := Bool.eq_false_iff.mpr hopen
    rw [haccepted] at hmem
    rcases List.mem_append.mp hmem with hmem | hwaits
    · rcases List.mem_append.mp hmem with hold | hgone
      · exact absurd (hfits payload hold) (Nat.not_le.mpr hlarge)
      · rcases hdropped (List.ne_nil_of_mem hgone) with hclosed | hclose
        · cases hclosed.symm.trans hopen
        · cases hidle.symm.trans hclose
    · rcases h.served hopen (List.ne_nil_of_mem hwaits) with hone | hsome
      · cases hnone.symm.trans hone
      · rw [hidle] at hsome
        cases hsome

/-- Two payloads are sent and the session is closed by another thread while the handler of the
first completion runs, between the completion and the next write. -/
def closedUnderWrite : List Label :=
  [.session (.send [1]), .session (.send [2]), .session (.runHandler fun _ => false), .resume,
    .session (.runHandler fun _ => false), .session (.writeFinishes none),
    .session (.runHandler fun _ => false), .session .close, .resume]

theorem writes_closedUnderWrite : ∃ w, (machine Unit 7).run closedUnderWrite = some w ∧
    w.accepted = [[1], [2]] ∧ w.session.written = [FrameCodec.wire [1]] ∧
    w.session.outstanding ≤ 1 ∧ w.session.is_writing_ = false := by
  have hend : ∃ w ∈ (machine Unit 7).run closedUnderWrite, w.running = none ∧
      w.accepted = [[1], [2]] ∧ w.session.written = [FrameCodec.wire [1]] ∧
      w.session.outstanding = 0 := by decide +kernel
  obtain ⟨w, hrun, hidle, haccepted, hwritten, hnone⟩ := hend
  obtain ⟨hsingle, -, hflag, -, -⟩ := writes_in_order hrun
  refine ⟨w, hrun, haccepted, hwritten, hsingle, ?_⟩
  rw [Bool.eq_false_iff]
  intro hwriting
  cases hnone.symm.trans ((hflag hidle).mp hwriting)

end SessionWriter

end SpaceShooter.Server
