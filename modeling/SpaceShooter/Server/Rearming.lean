/-
# Reading on

The completion handler of a read starts the next one in its last statement. An exception of a
subscriber leaves the handler before that; the worker reports it and takes up the next handler.
So a session reads on or is closed in every run in which no subscriber throws out of the handler
of an open session, and after such an exception the session never reads again.
-/

import SpaceShooter.Server.Session

namespace SpaceShooter.Server.Session

open Library Network Relation

variable {K : Type} {id : SessionId} {s s' s'' : Session K}

/-- The session is started, and no handler of it runs, is queued or is on its way to the
strand. -/
def Quiescent (s : Session K) : Prop := s.started = true ∧ s.strand = [] ∧ s.finished = []

/-- The session is closed and its disconnect announced, or it waits for the peer. -/
def Attended (id : SessionId) (s : Session K) : Prop :=
  s.closed_ = true ∧ .ClientDisconnectedEvent id ∈ s.published ∨ s.reading ≠ 0

/-- No subscriber throws at a frame that a handler decodes. -/
def Accepts (s : Session K) (refuses : ℕ → Bool) (handler : Handler) : Prop :=
  ∀ chunk ∈ handler.chunk?, ∀ i < frameCount (s.read_buffer_ ++ chunk),
    refuses (s.published.length + i) = false

/-- A step out of which no subscriber throws while the session is open. -/
def AcceptsFrames (s : Session K) : Label → Prop
  | .runHandler refuses =>
    match s.strand with
    | [] => True
    | handler :: _ => s.closed_ = false → s.Accepts refuses handler
  | _ => True

/-! ### What a handler does -/

/-- A handler that starts `n` reads unless the session is closed, and posts the handler of
`close` when it closes it. -/
structure Minds (n : ℕ) (s s' : Session K) : Prop where
  closed_ : s.closed_ = true → s'.closed_ = true
  posted : s'.closed_ = true → s.closed_ = true ∨ .close ∈ s'.strand
  strand : s.strand ⊆ s'.strand
  published : s.published ⊆ s'.published
  reads : s'.closed_ = false → s'.reads = s.reads + n

theorem Minds.refl (s : Session K) : Minds 0 s s :=
  ⟨fun h => h, .inl, fun _ h => h, fun _ h => h, fun _ => rfl⟩

/-- A session that is open after a step was open before. -/
theorem Minds.open_ {n : ℕ} (h : Minds n s s') (hopen : s'.closed_ = false) :
    s.closed_ = false := by
  by_contra hclosed
  rw [h.closed_ (Bool.eq_true_of_not_eq_false hclosed)] at hopen
  cases hopen

theorem Minds.trans {n : ℕ} (h : Minds 0 s s') (h' : Minds n s' s'') : Minds n s s'' where
  closed_ hclosed := h'.closed_ (h.closed_ hclosed)
  posted hclosed := by
    rcases h'.posted hclosed with hbefore | hmem
    · exact (h.posted hbefore).imp_right fun hmem => h'.strand hmem
    · exact .inr hmem
  strand _ hmem := h'.strand (h.strand hmem)
  published _ hmem := h'.published (h.published hmem)
  reads hopen := by rw [h'.reads hopen, h.reads (h'.open_ hopen), Nat.add_zero]

/-- The flag is set together with the handler that announces it. -/
theorem Update.minds (h : Update s s') : Minds 0 s s' := by
  cases h with
  | writer => exact ⟨fun h => h, .inl, fun _ h => h, fun _ h => h, fun _ => rfl⟩
  | close =>
    exact ⟨fun _ => rfl, fun _ => .inr (List.mem_append_right _ List.mem_cons_self),
      List.subset_append_left _ _, fun _ h => h, nofun⟩
  | erase => exact ⟨fun h => h, .inl, fun _ h => h, fun _ h => h, fun _ => rfl⟩

theorem minds_of_updates (h : ReflTransGen Update s s') : Minds 0 s s' := by
  induction h with
  | refl => exact Minds.refl s
  | tail _ hlast ih => exact ih.trans hlast.minds

theorem close_closed_ (s : Session K) : s.close.closed_ = true := by
  unfold close
  split_ifs with hclosed
  · exact hclosed
  · rfl

/-- A session that is closed needs no read. -/
theorem minds_close (s : Session K) (n : ℕ) : Minds n s s.close := by
  have hclosed := close_closed_ s
  obtain ⟨hkept, hposted, hstrand, hpublished, -⟩ := minds_of_updates (updates_close s)
  refine ⟨hkept, hposted, hstrand, hpublished, fun hopen => ?_⟩
  rw [hclosed] at hopen
  cases hopen

theorem minds_onClose (s : Session K) : Minds 0 s s.onClose := by
  have hpublish : Minds 0 s
      ({ s with socketOpen := false }.publish (.ClientDisconnectedEvent s.id_)) :=
    ⟨fun h => h, .inl, fun _ h => h, List.subset_append_left _ _, fun _ => rfl⟩
  exact hpublish.trans (minds_of_updates (updates_removeSession _))

theorem minds_doRead (s : Session K) : Minds 1 s s.doRead := by
  unfold doRead
  split_ifs with hclosed
  · refine ⟨fun h => h, .inl, fun _ h => h, fun _ h => h, fun hopen => ?_⟩
    rw [hclosed] at hopen
    cases hopen
  · refine ⟨fun h => h, .inl, fun _ h => h, fun _ h => h, fun _ => ?_⟩
    simp only [reads]
    omega

/-- A subscriber that throws does so at the place of an event on the bus. -/
theorem publishMessage_ok_iff (s : Session K) (refuses : ℕ → Bool) (buffer : Bytes) :
    (∃ n published, (FrameCodec.decode (publishMessage s.id_ refuses) buffer s.published).1 =
        .ok n published) ↔
      ∀ i < frameCount buffer, refuses (s.published.length + i) = false := by
  rw [FrameCodec.decode_eq_dispatch, frameCount_eq]
  refine Incremental.Decoder.dispatch_ok_iff _ List.length (refuses · = false) ?_ ?_ buffer 0
    s.published
  · intro item published published' h
    unfold publishMessage at h
    split_ifs at h with hrefuses
    cases h
    exact ⟨Bool.eq_false_of_not_eq_true hrefuses, List.length_append⟩
  · intro item published e published' h
    unfold publishMessage at h
    split_ifs at h with hrefuses
    rw [hrefuses]
    exact Bool.true_eq_false_eq_False

/-- A handler that decodes reads on if no subscriber throws, and only then. -/
theorem minds_onReadCompletion (s : Session K) (refuses : ℕ → Bool) (chunk : Bytes) :
    Minds
      (if ∀ i < frameCount (s.read_buffer_ ++ chunk), refuses (s.published.length + i) = false
        then 1 else 0)
      s (s.onReadCompletion refuses (.bytes chunk)) := by
  obtain ⟨payloads, -, hpublished, -⟩ := s.onReadCompletion_bytes refuses chunk
  have hprefix : s.published ⊆ (s.onReadCompletion refuses (.bytes chunk)).published := by
    rw [hpublished]
    exact List.subset_append_left _ _
  have haccepts := publishMessage_ok_iff s refuses (s.read_buffer_ ++ chunk)
  unfold onReadCompletion at hprefix ⊢
  dsimp only at hprefix ⊢
  split at hprefix
  · next n published rest heq =>
    rw [heq] at haccepts
    rw [if_pos (haccepts.mp ⟨_, _, rfl⟩)]
    have hread := minds_doRead { s with published := published, read_buffer_ := rest }
    exact ⟨hread.closed_, hread.posted, hread.strand, hprefix, hread.reads⟩
  · next e published rest heq =>
    rw [heq] at haccepts
    rw [if_neg fun hall => nomatch haccepts.mpr hall]
    exact ⟨fun h => h, .inl, fun _ h => h, hprefix, fun _ => rfl⟩

theorem closed_onReadCompletion (s : Session K) (refuses : ℕ → Bool) (chunk : Bytes) :
    (s.onReadCompletion refuses (.bytes chunk)).closed_ = s.closed_ := by
  unfold onReadCompletion
  dsimp only
  split
  · unfold doRead
    split_ifs
    · rfl
    · rfl
  · rfl

/-- A handler starts a read for the one it ends, unless a subscriber throws. -/
theorem minds_handle (s : Session K) (refuses : ℕ → Bool) (handler : Handler) :
    (s.Accepts refuses handler →
        Minds (if handler.isRead then 1 else 0) s (s.handle refuses handler)) ∧
      (¬ s.Accepts refuses handler → Minds 0 s (s.handle refuses handler)) := by
  cases handler with
  | doRead => exact ⟨fun _ => minds_doRead s, fun hrefused => absurd nofun hrefused⟩
  | send data =>
    have hsend := minds_of_updates (updates_onSend s data)
    exact ⟨fun _ => hsend, fun _ => hsend⟩
  | close => exact ⟨fun _ => minds_onClose s, fun _ => minds_onClose s⟩
  | writeCompletion error =>
    have hwrite := minds_of_updates (updates_onWriteCompletion s error)
    exact ⟨fun _ => hwrite, fun _ => hwrite⟩
  | readCompletion result =>
    cases result with
    | error _ => exact ⟨fun _ => minds_close s 1, fun _ => minds_close s 0⟩
    | bytes chunk =>
      have hread := minds_onReadCompletion s refuses chunk
      constructor
      · intro haccepts
        rw [if_pos (haccepts chunk rfl)] at hread
        exact hread
      · intro hrefused
        rw [if_neg fun hall => hrefused fun _ heq => Option.some.inj heq ▸ hall] at hread
        exact hread

/-! ### What a step does -/

theorem minds_post (s : Session K) {handler : Handler} (hread : handler.isRead = false) :
    Minds 0 s (s.post handler) := by
  refine ⟨fun h => h, .inl, List.subset_append_left _ _, fun _ h => h, fun _ => ?_⟩
  rw [reads_post, hread]
  rfl

/-- The calls, and what the runtime does. -/
theorem minds_step {label : Label} (h : step s label = some s')
    (hother : ∀ refuses, label ≠ .runHandler refuses) : Minds 0 s s' := by
  cases transition_of_step h with
  | start hfresh =>
    unfold start
    split_ifs with hclosed
    · refine ⟨fun h => h, .inl, fun _ h => h, fun _ h => h, fun hopen => ?_⟩
      rw [hclosed] at hopen
      cases hopen
    · refine ⟨fun h => h, .inl, List.subset_append_left _ _, fun _ h => h, fun _ => ?_⟩
      rw [reads_post]
      simp only [reads, hfresh, Handler.isRead, Bool.false_eq_true, if_false, if_true]
      omega
  | send data => exact minds_post s rfl
  | close => exact minds_of_updates (updates_close s)
  | removeSession => exact minds_of_updates (updates_removeSession s)
  | readFinishes result hreading =>
    refine ⟨fun h => h, .inl, fun _ h => h, fun _ h => h, fun _ => ?_⟩
    simp only [reads, List.length_append, List.length_singleton]
    omega
  | readPosted result finished hfinished =>
    refine ⟨fun h => h, .inl, List.subset_append_left _ _, fun _ h => h, fun _ => ?_⟩
    rw [reads_post]
    simp only [reads, hfinished, List.length_cons, Handler.isRead, if_true]
    omega
  | writeFinishes error =>
    have hwriter : Update s { s with writing := s.writing - 1 } := .writer s _ _ _ _
    exact hwriter.minds.trans (minds_post _ rfl)
  | runHandler refuses => exact absurd rfl (hother refuses)

/-! ### Runs -/

/-- The disconnect of a closed session is announced, or the handler that does so is posted. -/
def Announcing (id : SessionId) (s : Session K) : Prop :=
  s.closed_ = true → .close ∈ s.strand ∨ .ClientDisconnectedEvent id ∈ s.published

theorem Minds.announcing {n : ℕ} (h : Minds n s s') (announcing : Announcing id s) :
    Announcing id s' := by
  intro hclosed
  rcases h.posted hclosed with hbefore | hmem
  · rcases announcing hbefore with hposted | hpublished
    · exact .inl (h.strand hposted)
    · exact .inr (h.published hpublished)
  · exact .inl hmem

theorem Announcing.step {label : Label} (announcing : Announcing id s) (hid : s.id_ = id)
    (h : step s label = some s') : Announcing id s' := by
  by_cases hother : ∀ refuses, label ≠ .runHandler refuses
  · exact (minds_step h hother).announcing announcing
  · push Not at hother
    obtain ⟨refuses, rfl⟩ := hother
    obtain ⟨handler, rest, hstrand, rfl⟩ := exists_of_runHandler h
    have hminds := minds_handle { s with strand := rest } refuses handler
    by_cases hclose : handler = .close
    · -- The handler of `close` announces the disconnect.
      subst hclose
      intro _
      right
      have hkeeps := keeps_onClose { s with strand := rest }
      change _ ∈ (onClose _).published
      rw [hkeeps.published, ← hid]
      exact List.mem_append_right _ List.mem_cons_self
    · have hpopped : Announcing id { s with strand := rest } := by
        intro hclosed
        refine (announcing hclosed).imp_left fun hmem => ?_
        rw [hstrand, List.mem_cons] at hmem
        exact hmem.resolve_left (Ne.symm hclose)
      by_cases haccepts : Accepts { s with strand := rest } refuses handler
      · exact (hminds.1 haccepts).announcing hpopped
      · exact (hminds.2 haccepts).announcing hpopped

theorem announcing_of_run {labels : List Label} (run : (machine K id).run labels = some s) :
    Announcing id s := by
  refine Machine.run_induction (motive := fun _ s => Announcing id s) ?_ ?_ run
  · exact fun hclosed => absurd hclosed Bool.false_ne_true
  · intro _ s label s' hrun announcing h
    exact announcing.step (wired_of_run hrun).id_eq h

/-- A step out of which no subscriber throws keeps the number of reads. -/
theorem reads_of_accepts {label : Label} (accepts : AcceptsFrames s label)
    (h : step s label = some s') (hopen : s'.closed_ = false) :
    s.closed_ = false ∧ s'.reads = s.reads := by
  by_cases hother : ∀ refuses, label ≠ .runHandler refuses
  · have hminds := minds_step h hother
    exact ⟨hminds.open_ hopen, hminds.reads hopen⟩
  · push Not at hother
    obtain ⟨refuses, rfl⟩ := hother
    obtain ⟨handler, rest, hstrand, rfl⟩ := exists_of_runHandler h
    have hhandle := minds_handle { s with strand := rest } refuses handler
    have hbefore : s.closed_ = false := by
      by_cases haccepts : Accepts { s with strand := rest } refuses handler
      · exact (hhandle.1 haccepts).open_ hopen
      · exact (hhandle.2 haccepts).open_ hopen
    have haccepts : s.Accepts refuses handler := by
      rw [AcceptsFrames, hstrand] at accepts
      exact accepts hbefore
    refine ⟨hbefore, ?_⟩
    rw [(hhandle.1 haccepts).reads hopen, reads_cons hstrand]

/-- A step out of which a subscriber throws ends the reading. -/
theorem reads_of_refused {label : Label} (reads_le : s.reads ≤ 1)
    (refused : ¬ AcceptsFrames s label) (h : step s label = some s') : s'.reads = 0 := by
  cases label with
  | runHandler refuses =>
    obtain ⟨handler, rest, hstrand, rfl⟩ := exists_of_runHandler h
    rw [AcceptsFrames, hstrand, Classical.not_imp] at refused
    obtain ⟨hopen, hrefused⟩ := refused
    have hchunk : ∃ chunk, handler = .readCompletion (.bytes chunk) := by
      by_contra hnone
      refine hrefused fun chunk hmem => ?_
      cases handler with
      | readCompletion result =>
        cases result with
        | error _ => cases hmem
        | bytes chunk => exact absurd ⟨chunk, rfl⟩ hnone
      | _ => cases hmem
    obtain ⟨chunk, rfl⟩ := hchunk
    obtain ⟨hidle, -, -⟩ := reads_of_completion reads_le hstrand
    have hreads := ((minds_handle { s with strand := rest } refuses _).2 hrefused).reads
      ((closed_onReadCompletion _ refuses chunk).trans hopen)
    exact hreads.trans hidle
  | _ => exact absurd trivial refused

/-- The reading goes on, or no read will ever be started again. -/
theorem meets_or_reads_eq_zero {labels : List Label}
    (run : (machine K id).run labels = some s) :
    (machine K id).Meets AcceptsFrames labels ∨ s.reads = 0 := by
  refine Machine.run_induction
    (motive := fun labels s => (machine K id).Meets AcceptsFrames labels ∨ s.reads = 0)
    (.inl (Machine.Meets.nil _)) ?_ run
  intro labels s label s' hrun hbefore h
  have reads_le := (wired_of_run hrun).reads_le
  rcases hbefore with hmeets | hidle
  · by_cases haccepts : AcceptsFrames s label
    · refine .inl (hmeets.concat fun t ht => ?_)
      rw [hrun, Option.some.injEq] at ht
      exact ht ▸ haccepts
    · exact .inr (reads_of_refused reads_le haccepts h)
  · have hle := (step_effect reads_le h).2.1
    exact .inr (by omega)

theorem reads_of_meets {labels : List Label} (run : (machine K id).run labels = some s)
    (meets : (machine K id).Meets AcceptsFrames labels) (hopen : s.closed_ = false) :
    s.reads = 1 := by
  refine Machine.guarded_induction AcceptsFrames
    (motive := fun _ s => s.closed_ = false → s.reads = 1) (fun _ => rfl) ?_ meets run hopen
  intro _ s label s' _ _ hbefore haccepts h hopen
  obtain ⟨hbeforeOpen, hreads⟩ := reads_of_accepts haccepts h hopen
  exact hreads.trans (hbefore hbeforeOpen)

/-- At rest the reads under way are those that wait for the peer. -/
theorem Quiescent.reads_eq (quiescent : Quiescent s) : s.reads = s.reading := by
  obtain ⟨hstarted, hstrand, hfinished⟩ := quiescent
  simp [reads, hstarted, hstrand, hfinished]

/-- A session at rest is closed and its disconnect announced, or reads on, if no subscriber has
thrown out of a handler of the open session; and if one has, only if it is closed. -/
theorem attended_of_run {labels : List Label} (run : (machine K id).run labels = some s)
    (quiescent : Quiescent s) :
    ((machine K id).Meets AcceptsFrames labels → Attended id s) ∧
      (¬ (machine K id).Meets AcceptsFrames labels → (Attended id s ↔ s.closed_ = true)) := by
  have hreading := quiescent.reads_eq
  have hannounced (hclosed : s.closed_ = true) : Attended id s := by
    rcases announcing_of_run run hclosed with hposted | hpublished
    · rw [quiescent.2.1] at hposted
      cases hposted
    · exact .inl ⟨hclosed, hpublished⟩
  constructor
  · intro meets
    by_cases hopen : s.closed_ = false
    · refine .inr ?_
      rw [← hreading, reads_of_meets run meets hopen]
      exact one_ne_zero
    · exact hannounced (Bool.eq_true_of_not_eq_false hopen)
  · intro hthrown
    have hidle := (meets_or_reads_eq_zero run).resolve_left hthrown
    refine ⟨?_, hannounced⟩
    rintro (⟨hclosed, -⟩ | hreads)
    · exact hclosed
    · exact absurd (hreading.symm.trans hidle) hreads

/-- Subscribers that never throw accept all frames. -/
theorem meets_of_forall {labels : List Label}
    (h : ∀ refuses, .runHandler refuses ∈ labels → ∀ n, refuses n = false) :
    (machine K id).Meets AcceptsFrames labels := by
  rintro before label after rfl s -
  cases label with
  | runHandler refuses =>
    have hnever := h refuses (List.mem_append_right _ List.mem_cons_self)
    rw [AcceptsFrames]
    split
    · trivial
    · exact fun _ _ _ i _ => hnever _
  | _ => trivial

/-- A session that reads a command; a subscriber may throw at it. -/
def readsJoin (refuses : ℕ → Bool) : List Label :=
  [.start, .runHandler fun _ => false,
    .readFinishes (.bytes (FrameCodec.wire (bytesOf "JOIN"))), .readPosted, .runHandler refuses]

instance (s : Session K) : Decidable (Quiescent s) :=
  inferInstanceAs (Decidable (_ ∧ _ ∧ _))

theorem attended_readsJoin :
    ∃ s, (machine Unit 7).run (readsJoin fun _ => false) = some s ∧ Quiescent s ∧
      Attended 7 s := by
  have hrun : ((machine Unit 7).run (readsJoin fun _ => false)).map
      (fun s => decide (Quiescent s)) = some true := by
    decide
  obtain ⟨s, hs, hquiescent⟩ := Option.map_eq_some_iff.mp hrun
  have quiescent : Quiescent s := of_decide_eq_true hquiescent
  refine ⟨s, hs, quiescent, (attended_of_run hs quiescent).1 (meets_of_forall ?_)⟩
  intro refuses hmem n
  simp only [readsJoin, List.mem_cons, reduceCtorEq, Label.runHandler.injEq, List.not_mem_nil,
    or_false, false_or, or_self] at hmem
  rw [hmem]

/-- When a subscriber throws at the command, the session stays open and does not read. -/
theorem not_attended_readsJoin :
    ¬ ∀ (id : SessionId) labels s, (machine Unit id).run labels = some s → Quiescent s →
      Attended id s := by
  intro hall
  have hrun : ((machine Unit 7).run (readsJoin fun _ => true)).map
      (fun s => (decide (Quiescent s), s.closed_, s.reading)) = some (true, false, 0) := by
    decide
  obtain ⟨s, hs, heq⟩ := Option.map_eq_some_iff.mp hrun
  obtain ⟨hquiescent, hrest⟩ := Prod.mk.inj heq
  obtain ⟨hopen, hreading⟩ := Prod.mk.inj hrest
  rcases hall 7 _ s hs (of_decide_eq_true hquiescent) with ⟨hclosed, -⟩ | hreads
  · rw [hopen] at hclosed
    cases hclosed
  · exact hreads hreading

end SpaceShooter.Server.Session
