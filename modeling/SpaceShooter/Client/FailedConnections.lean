/-
# Failed connections

A read or a write that fails asks for a disconnect, and this disconnect carries no generation:
it ends whatever attempt or connection it finds when the strand comes to it. It finds a newer
attempt where a connect waits behind a disconnect on the strand when it is posted. In every
run in which none waits so it ends nothing but the connection that failed.
-/

import SpaceShooter.Client.ConnectCallbacks

namespace SpaceShooter.Client.TcpClient

open Library Network

/-! ### Phases -/

/-- Whether there is a connection or an attempt. -/
inductive Phase
  | down
  | trying
  | up
  deriving DecidableEq, Repr

def phase (c : TcpClient) : Phase :=
  if c.is_connected_ then .up else if c.is_connecting_ then .trying else .down

namespace Phase

/-- The phase behind a handler, unless it is the completion of an attempt. -/
def next (phase : Phase) : Handler → Phase
  | .disconnect _ => .down
  | .connect _ _ => if phase = .down then .trying else phase
  | _ => phase

/-- The phase behind the handlers of a strand, unless attempts complete among them. -/
def after (phase : Phase) (strand : List Handler) : Phase := strand.foldl next phase

@[simp] theorem after_nil (phase : Phase) : phase.after [] = phase := rfl

@[simp] theorem after_cons (phase : Phase) (handler : Handler) (strand : List Handler) :
    phase.after (handler :: strand) = (phase.next handler).after strand := rfl

theorem next_ne_up {phase : Phase} (h : phase ≠ .up) (handler : Handler) :
    phase.next handler ≠ .up := by
  cases handler with
  | connect call on_connect =>
    unfold next
    split_ifs
    · exact fun h => by cases h
    · exact h
  | disconnect failed => exact fun h => by cases h
  | _ => exact h

theorem after_ne_up {phase : Phase} (h : phase ≠ .up) (strand : List Handler) :
    phase.after strand ≠ .up := by
  induction strand generalizing phase with
  | nil => exact h
  | cons handler strand ih => exact ih (next_ne_up h handler)

/-- Handlers that end an attempt end with the same phase wherever they start. -/
theorem after_eq_of_ends {strand : List Handler} (h : Phase.trying.after strand ≠ .trying)
    (phase : Phase) : phase.after strand = Phase.trying.after strand := by
  induction strand generalizing phase with
  | nil => exact absurd rfl h
  | cons handler strand ih =>
    cases handler with
    | disconnect failed => rfl
    | connect call on_connect => exact ih h _
    | send frame => exact ih h phase
    | completion operation result => exact ih h phase

end Phase

/-! ### Posting in time -/

/-- No connect waits behind a disconnect when the disconnect of a failed connection is
posted. -/
def PostsInTime (c : TcpClient) : Label → Prop
  | .resume =>
    match c.running with
    | some (.postDisconnect _) => Phase.up.after c.strand ≠ .trying
    | _ => True
  | _ => True

instance (c : TcpClient) (label : Label) : Decidable (c.PostsInTime label) := by
  unfold PostsInTime
  cases label with
  | resume =>
    dsimp only
    split <;> infer_instance
  | _ => exact isTrue trivial

/-- A disconnect that a failed connection asked for has ended no attempt, or connection, of a
call that was issued after the failed connection had been told to disconnect. -/
def Spares (c : TcpClient) : Prop :=
  ∀ generation call record, (some generation, call) ∈ c.ended → c.calls[call]? = some record →
    generation ∉ record.told

/-! ### Generations of calls -/

variable {c : TcpClient} {label : Label} {handler : Handler} {strand : List Handler}

/-- There is an attempt or a connection. -/
def Busy (c : TcpClient) : Prop := c.is_connecting_ = true ∨ c.is_connected_ = true

/-- Connections are told to disconnect in their own generation, and calls know of earlier
ones only. -/
structure Dated (c : TcpClient) : Prop where
  active : c.is_connected_ = true → c.active_connect_generation_ = c.disconnect_generation_
  told : ∀ generation ∈ c.told, generation < c.disconnect_generation_ ∨
    c.is_connected_ = true ∧ generation = c.disconnect_generation_
  record : ∀ record ∈ c.calls, record.told ⊆ c.told
  current : c.Busy → ∀ record, c.calls[c.current]? = some record →
    ∀ generation ∈ record.told, generation < c.disconnect_generation_
  waiting : ∀ call on_connect, .connect call on_connect ∈ c.strand → call < c.calls.length
  issued : c.Busy → c.current < c.calls.length
  ended : ∀ entry ∈ c.ended, entry.2 < c.calls.length
  failed : ∀ generation, Task.failed? c.running = some generation →
    c.is_connected_ = true ∧ generation = c.disconnect_generation_

theorem Dated.keeps {s : TcpClient} (h : Dated s) (hkeeps : Keeps s c) : Dated c := by
  have hbusy : c.Busy ↔ s.Busy := by
    rw [Busy, Busy, hkeeps.is_connecting_, hkeeps.is_connected_]
  have htold : s.told ⊆ c.told := by
    rcases hkeeps.told with heq | ⟨-, heq⟩ <;> rw [heq]
    · exact List.Subset.refl _
    · exact List.subset_append_left _ _
  refine ⟨?_, ?_, ?_, ?_, ?_, ?_, ?_, ?_⟩
  · rw [hkeeps.is_connected_, hkeeps.active_connect_generation_, hkeeps.disconnect_generation_]
    exact h.active
  · rw [hkeeps.is_connected_, hkeeps.disconnect_generation_]
    intro generation hmem
    rcases hkeeps.told with heq | ⟨hconnected, heq⟩ <;> rw [heq] at hmem
    · exact h.told generation hmem
    · rcases List.mem_append.mp hmem with hmem | hmem
      · exact h.told generation hmem
      · rw [List.mem_singleton.mp hmem]
        exact .inr ⟨hconnected, h.active hconnected⟩
  · rw [hkeeps.calls]
    exact fun record hmem => List.Subset.trans (h.record record hmem) htold
  · rw [hbusy, hkeeps.calls, hkeeps.current, hkeeps.disconnect_generation_]
    exact h.current
  · rw [hkeeps.strand, hkeeps.calls]
    exact h.waiting
  · rw [hbusy, hkeeps.calls, hkeeps.current]
    exact h.issued
  · rw [hkeeps.ended, hkeeps.calls]
    exact h.ended
  · rw [hkeeps.is_connected_, hkeeps.disconnect_generation_]
    intro generation hfailed
    rcases hkeeps.failing generation hfailed with hfailed | ⟨hconnected, -, heq⟩
    · exact h.failed generation hfailed
    · exact ⟨hconnected, heq⟩

/-- While nothing is connected, every connection that was told to disconnect is over. -/
theorem Dated.past (h : Dated c) (hconnected : c.is_connected_ = false) {generation : ℕ}
    (hmem : generation ∈ c.told) : generation < c.disconnect_generation_ := by
  rcases h.told generation hmem with hlt | ⟨hc, -⟩
  · exact hlt
  · rw [hconnected] at hc
    cases hc

theorem Dated.le (h : Dated c) {generation : ℕ} (hmem : generation ∈ c.told) :
    generation ≤ c.disconnect_generation_ := by
  rcases h.told generation hmem with hlt | ⟨-, heq⟩
  · exact hlt.le
  · exact heq.le

/-- A handler has run, so no disconnect was about to be posted. -/
theorem failed_none (hrunning : c.running = none) {P : ℕ → Prop} (generation : ℕ)
    (h : Task.failed? c.running = some generation) : P generation := by
  rw [hrunning] at h
  cases h

/-- The connects that wait on the strand belong to calls. -/
theorem Dated.called (h : Dated c) {s : TcpClient} (hmove : Move c label s) (call : ℕ)
    (on_connect : Bool) (hmem : .connect call on_connect ∈ s.strand) :
    call < s.calls.length := by
  rcases hmove.mem_strand hmem with hmem | ⟨rfl, heq⟩
  · exact (h.waiting call on_connect hmem).trans_le hmove.calls_le
  · rw [heq, List.length_append]
    exact Nat.lt_succ_self _

theorem Dated.move (h : Dated c) (hattempting : Attempting c) {s : TcpClient}
    (hmove : Move c label s) : Dated s := by
  have hcalled := h.called hmove
  cases hmove with
  | stay => exact h
  | transfer hrunning hstrand htransfer =>
    exact ⟨h.active, h.told, h.record, h.current, hcalled, h.issued, h.ended, h.failed⟩
  | postSend frame =>
    exact ⟨h.active, h.told, h.record, h.current, hcalled, h.issued,
      h.ended, h.failed⟩
  | postDisconnect failed hfailed =>
    exact ⟨h.active, h.told, h.record, h.current, hcalled, h.issued,
      h.ended, h.failed⟩
  | call on_connect =>
    have hlength : (c.calls ++ [Call.mk on_connect c.told]).length = c.calls.length + 1 :=
      List.length_append
    -- Only the new call is added, with the disconnects that were told before it.
    refine ⟨h.active, h.told, fun record hmem => ?_, fun hbusy record hrecord => ?_,
      hcalled, fun hbusy => ?_, fun entry hmem => ?_, h.failed⟩
    · rcases List.mem_append.mp hmem with hmem | hmem
      · exact h.record record hmem
      · rw [List.mem_singleton.mp hmem]
        exact List.Subset.refl _
    · refine h.current hbusy record ?_
      rwa [List.getElem?_append_left (h.issued hbusy)] at hrecord
    · rw [hlength]
      exact Nat.lt_succ_of_lt (h.issued hbusy)
    · rw [hlength]
      exact Nat.lt_succ_of_lt (h.ended entry hmem)
  | complete hi result =>
    exact ⟨h.active, h.told, h.record, h.current, hcalled, h.issued,
      h.ended, h.failed⟩
  | reject hrunning hstrand hbusy =>
    exact ⟨h.active, h.told, h.record, h.current, hcalled, h.issued, h.ended, h.failed⟩
  | @accept call on_connect strand hrunning hstrand hconnected hconnecting =>
    -- Nothing is connected, so what was told concerns connections that are over.
    refine ⟨fun hc => absurd hc (Bool.eq_false_iff.mp hconnected), h.told, h.record,
      fun _ record hrecord generation hmem => ?_, hcalled, fun _ => ?_, h.ended, h.failed⟩
    · exact h.past hconnected (h.record record (List.mem_of_getElem? hrecord) hmem)
    · exact h.waiting call on_connect (hstrand ▸ List.mem_cons_self)
  | ignore hrunning hstrand hattempt hinvalid =>
    exact ⟨h.active, h.told, h.record, h.current, hcalled, h.issued, h.ended, h.failed⟩
  | launch hrunning hstrand hvalid hconnecting =>
    exact ⟨h.active, h.told, h.record, h.current, hcalled, h.issued, h.ended, h.failed⟩
  | @fail operation attempt result strand hrunning hstrand hattempt hvalid hconnecting connected
      hconnected ended hended =>
    have hdown := hattempting.exclusive hconnecting
    -- It is an attempt that fails, and no connection.
    have hsame : connected = false := by
      cases connected with
      | false => rfl
      | true => exact absurd (hconnected rfl) (Bool.eq_false_iff.mp hdown)
    subst hsame
    refine ⟨fun h => (by cases h), fun generation hmem => .inl (h.past hdown hmem), h.record,
      fun hbusy => ?_, hcalled, fun hbusy => ?_, fun entry hmem => ?_,
      failed_none hrunning⟩
    · rcases hbusy with hbusy | hbusy <;> cases hbusy
    · rcases hbusy with hbusy | hbusy <;> cases hbusy
    · rcases List.mem_append.mp hmem with hmem | hmem
      · exact h.ended entry hmem
      · rcases hended with rfl | ⟨-, rfl⟩
        · cases hmem
        · rw [List.mem_singleton.mp hmem]
          exact h.issued (.inl hconnecting)
  | establish hrunning hstrand hvalid hconnecting =>
    have hdown := hattempting.exclusive hconnecting
    exact ⟨fun _ => hattempting.active hconnecting,
      fun generation hmem => .inl (h.past hdown hmem), h.record,
      fun _ => h.current (.inl hconnecting), hcalled, fun _ => h.issued (.inl hconnecting),
      h.ended, failed_none hrunning⟩
  | skip hrunning hstrand hconnected hconnecting =>
    exact ⟨fun hc => absurd hc (Bool.eq_false_iff.mp hconnected),
      fun generation hmem => .inl (Nat.lt_succ_of_le (h.le hmem)), h.record,
      fun hbusy record hrecord generation hmem =>
        Nat.lt_succ_of_lt (h.current hbusy record hrecord generation hmem),
      hcalled, h.issued, h.ended, failed_none hrunning⟩
  | disconnect hrunning hstrand =>
    refine ⟨fun h => (by cases h), fun generation hmem => .inl (Nat.lt_succ_of_le (h.le hmem)),
      h.record, fun hbusy => ?_, hcalled, fun hbusy => ?_, fun entry hmem => ?_,
      failed_none hrunning⟩
    · rcases hbusy with hbusy | hbusy <;> cases hbusy
    · rcases hbusy with hbusy | hbusy <;> cases hbusy
    · rcases List.mem_append.mp hmem with hmem | hmem
      · exact h.ended entry hmem
      · split_ifs at hmem with hbusy
        · rw [List.mem_singleton.mp hmem]
          exact h.issued ((Bool.or_eq_true_iff.mp hbusy).symm)
        · cases hmem

/-! ### Disconnects of failed connections -/

/-- The disconnects that failed connections have posted will find no attempt, and no
connection but the one that failed; no such connection has raised the flag on an attempt. -/
structure Spaced (c : TcpClient) : Prop where
  flag : c.is_connecting_ = true → c.disconnect_requested_ = true → c.requestedBy = none
  posted : ∀ front generation back, c.strand = front ++ .disconnect (some generation) :: back →
    c.phase.after front ≠ .trying ∧
      (c.phase.after front = .up → generation = c.disconnect_generation_)
  spares : Spares c

theorem Spaced.keeps {s : TcpClient} (h : Spaced s) (hattempting : Attempting s)
    (hdated : Dated s) (hkeeps : Keeps s c) : Spaced c := by
  have hphase : c.phase = s.phase := by
    rw [phase, phase, hkeeps.is_connected_, hkeeps.is_connecting_]
  refine ⟨fun hconnecting hrequested => ?_, ?_, ?_⟩
  · rw [hkeeps.is_connecting_] at hconnecting
    rcases hkeeps.flag with ⟨hflag, hby⟩ | hby | ⟨generation, hfailed⟩
    · rw [hby]
      exact h.flag hconnecting (hflag ▸ hrequested)
    · exact hby
    · -- A connection that fails is no attempt.
      have hconnected := (hdated.failed generation hfailed).1
      rw [hattempting.exclusive hconnecting] at hconnected
      cases hconnected
  · rw [hphase, hkeeps.strand, hkeeps.disconnect_generation_]
    exact h.posted
  · rw [Spares, hkeeps.ended, hkeeps.calls]
    exact h.spares

theorem phase_of_connected (h : c.is_connected_ = true) : c.phase = .up := if_pos h

theorem phase_of_connecting (hattempting : Attempting c) (h : c.is_connecting_ = true) :
    c.phase = .trying := by
  rw [phase, hattempting.exclusive h, if_neg Bool.false_ne_true, if_pos h]

theorem phase_of_idle (hconnected : c.is_connected_ = false)
    (hconnecting : c.is_connecting_ = false) : c.phase = .down := by
  rw [phase, hconnected, hconnecting]
  rfl

/-- What is posted behind the strand changes nothing for what is on it, unless it is the
disconnect of a failed connection. -/
theorem posted_append (h : Spaced c) {handler : Handler}
    (hnone : ∀ generation, handler = .disconnect (some generation) →
      c.phase.after c.strand ≠ .trying ∧
        (c.phase.after c.strand = .up → generation = c.disconnect_generation_))
    (front : List Handler) (generation : ℕ) (back : List Handler)
    (heq : c.strand ++ [handler] = front ++ .disconnect (some generation) :: back) :
    c.phase.after front ≠ .trying ∧
      (c.phase.after front = .up → generation = c.disconnect_generation_) := by
  rcases List.eq_nil_or_concat back with rfl | ⟨rest, last, rfl⟩
  · obtain ⟨rfl, hlast⟩ := List.append_inj' heq rfl
    exact hnone generation (List.singleton_inj.mp hlast)
  · rw [List.concat_eq_append, ← List.cons_append, ← List.append_assoc] at heq
    exact h.posted front generation rest (List.append_inj' heq rfl).1

/-- Running the first handler. -/
theorem posted_tail (h : Spaced c) (hstrand : c.strand = handler :: strand) {s : TcpClient}
    (hphase : s.phase = c.phase.next handler)
    (hgeneration : s.disconnect_generation_ = c.disconnect_generation_ ∨ s.phase = .down)
    (front : List Handler) (generation : ℕ) (back : List Handler)
    (heq : strand = front ++ .disconnect (some generation) :: back) :
    s.phase.after front ≠ .trying ∧
      (s.phase.after front = .up → generation = s.disconnect_generation_) := by
  have hposted := h.posted (handler :: front) generation back (by rw [hstrand, heq]; rfl)
  rw [Phase.after_cons, ← hphase] at hposted
  refine ⟨hposted.1, fun hup => ?_⟩
  rcases hgeneration with hsame | hdown
  · rw [hsame]
    exact hposted.2 hup
  · rw [hdown] at hup
    exact absurd hup (Phase.after_ne_up (fun h => by cases h) front)

/-- An attempt completes: a disconnect is to come before that of the failed connection. -/
theorem posted_complete (h : Spaced c) (htrying : c.phase = .trying)
    (hstrand : c.strand = handler :: strand) (hnext : Phase.trying.next handler = .trying)
    {s : TcpClient} (front : List Handler) (generation : ℕ) (back : List Handler)
    (heq : strand = front ++ .disconnect (some generation) :: back) :
    s.phase.after front ≠ .trying ∧
      (s.phase.after front = .up → generation = s.disconnect_generation_) := by
  have hposted := (h.posted (handler :: front) generation back (by rw [hstrand, heq]; rfl)).1
  rw [htrying, Phase.after_cons, hnext] at hposted
  rw [Phase.after_eq_of_ends hposted s.phase]
  exact ⟨hposted, fun hup => absurd hup (Phase.after_ne_up (fun h => by cases h) front)⟩

theorem isTransfer_next (h : handler.isTransfer = true) (phase : Phase) :
    phase.next handler = phase := by
  cases handler with
  | disconnect failed => cases h
  | connect call on_connect => cases h
  | _ => rfl

theorem Spaced.move (h : Spaced c) (hattempting : Attempting c) (hdated : Dated c)
    (hguard : c.PostsInTime label) {s : TcpClient} (hmove : Move c label s) : Spaced s := by
  cases hmove with
  | stay => exact h
  | transfer hrunning hstrand htransfer =>
    exact ⟨h.flag, posted_tail h hstrand (isTransfer_next htransfer _).symm (.inl rfl), h.spares⟩
  | postSend frame => exact ⟨h.flag, posted_append h fun _ h => (by cases h), h.spares⟩
  | postDisconnect failed hfailed =>
    refine ⟨h.flag, posted_append h fun generation heq => ?_, h.spares⟩
    cases heq
    obtain ⟨rfl, hrunning⟩ := hfailed generation rfl
    obtain ⟨hconnected, hgeneration⟩ := hdated.failed generation (by rw [hrunning]; rfl)
    rw [PostsInTime, hrunning] at hguard
    rw [phase_of_connected hconnected]
    exact ⟨hguard, fun _ => hgeneration⟩
  | call on_connect =>
    refine ⟨h.flag, posted_append h fun _ h => (by cases h), ?_⟩
    intro generation call record hended hrecord
    refine h.spares generation call record hended ?_
    have hlt : call < c.calls.length := hdated.ended _ hended
    rwa [List.getElem?_append_left hlt] at hrecord
  | complete hi result => exact ⟨h.flag, posted_append h fun _ h => (by cases h), h.spares⟩
  | @reject call on_connect strand hrunning hstrand hbusy =>
    have hup : c.phase ≠ .down := by
      rcases hbusy with hconnected | hconnecting
      · rw [phase_of_connected hconnected]
        decide
      · rw [phase_of_connecting hattempting hconnecting]
        decide
    have hnext : c.phase.next (.connect call on_connect) = c.phase := if_neg hup
    exact ⟨h.flag, posted_tail h hstrand hnext.symm (.inl rfl), h.spares⟩
  | @accept call on_connect strand hrunning hstrand hconnected hconnecting =>
    refine ⟨fun _ h => (by cases h), posted_tail h hstrand ?_ (.inl rfl), h.spares⟩
    rw [phase_of_idle hconnected hconnecting, phase]
    exact if_neg (Bool.eq_false_iff.mp hconnected)
  | ignore hrunning hstrand hattempt hinvalid =>
    exact ⟨h.flag, posted_tail h hstrand rfl (.inl rfl), h.spares⟩
  | launch hrunning hstrand hvalid hconnecting =>
    exact ⟨h.flag, posted_tail h hstrand rfl (.inl rfl), h.spares⟩
  | fail hrunning hstrand hattempt hvalid hconnecting hconnected hended =>
    refine ⟨fun h => (by cases h), posted_complete h (phase_of_connecting hattempting hconnecting)
      hstrand rfl, ?_⟩
    intro generation call record hmem hrecord
    rcases List.mem_append.mp hmem with hmem | hmem
    · exact h.spares generation call record hmem hrecord
    · rcases hended with rfl | ⟨hrequested, rfl⟩
      · cases hmem
      · rw [h.flag hconnecting hrequested] at hmem
        cases List.mem_singleton.mp hmem
  | establish hrunning hstrand hvalid hconnecting =>
    exact ⟨fun h => (by cases h), posted_complete h (phase_of_connecting hattempting hconnecting)
      hstrand rfl, h.spares⟩
  | skip hrunning hstrand hconnected hconnecting =>
    have hdown := phase_of_idle hconnected hconnecting
    refine ⟨h.flag, posted_tail h hstrand hdown (.inr hdown), h.spares⟩
  | @disconnect failed strand hrunning hstrand =>
    refine ⟨fun h => (by cases h), posted_tail h hstrand rfl (.inr rfl), ?_⟩
    intro generation call record hmem hrecord
    rcases List.mem_append.mp hmem with hmem | hmem
    · exact h.spares generation call record hmem hrecord
    · split_ifs at hmem with hbusy
      · obtain ⟨rfl, rfl⟩ := Prod.mk.inj (List.mem_singleton.mp hmem)
        -- The connection that failed is still there, and the call knows of earlier ones only.
        obtain ⟨htrying, hup⟩ := h.posted [] generation strand hstrand
        have hconnected : c.is_connected_ = true := by
          rcases Bool.or_eq_true_iff.mp hbusy with hconnected | hconnecting
          · exact hconnected
          · exact absurd (phase_of_connecting hattempting hconnecting) htrying
        rw [hup (phase_of_connected hconnected)]
        intro hmem
        exact Nat.lt_irrefl _ (hdated.current (.inr hconnected) record hrecord _ hmem)
      · cases hmem

/-! ### Runs -/

variable {message_cb disconnect_cb : Bool}

theorem dated_init : Dated (machine message_cb disconnect_cb).init :=
  ⟨fun h => (by cases h), List.forall_mem_nil _, List.forall_mem_nil _,
    fun h => (by rcases h with h | h <;> cases h), fun _ _ h => (by cases h),
    fun h => (by rcases h with h | h <;> cases h), List.forall_mem_nil _, fun _ h => (by cases h)⟩

theorem spaced_init : Spaced (machine message_cb disconnect_cb).init := by
  refine ⟨fun h => (by cases h), fun front generation back heq => ?_,
    fun _ _ _ h => (by cases h)⟩
  cases front <;> cases heq

theorem Dated.of_run {labels : List Label}
    (h : (machine message_cb disconnect_cb).run labels = some c) : Dated c := by
  refine Machine.run_induction (motive := fun _ c => Dated c) dated_init
    (fun before s label t hrun hs hstep => ?_) h
  obtain ⟨middle, hmove, hkeeps⟩ := move_of_step hstep
  exact (hs.move (.of_run hrun) hmove).keeps hkeeps

/-- Where the disconnects of failed connections are posted in time, none of them ends an
attempt or a connection that is newer than the request to disconnect. -/
theorem spares_of_run {labels : List Label}
    (hguard : (machine message_cb disconnect_cb).Meets PostsInTime labels)
    (h : (machine message_cb disconnect_cb).run labels = some c) : Spares c := by
  refine (Machine.guarded_induction PostsInTime (motive := fun _ c => Spaced c) spaced_init
    (fun before s label t hrun _ hs hlabel hstep => ?_) hguard h).spares
  obtain ⟨middle, hmove, hkeeps⟩ := move_of_step hstep
  have hattempting := Attempting.of_run hrun
  have hdated := Dated.of_run hrun
  exact (hs.move hattempting hdated hlabel hmove).keeps (hattempting.move hmove)
    (hdated.move hattempting hmove) hkeeps

/-- A connection with a read and a write under way. -/
def writing : List Label :=
  [.connect true, .runHandler, .complete 0 (some []), .runHandler, .complete 0 (some []),
    .runHandler, .resume, .send [1], .runHandler, .resume]

/-- The write fails, and the owner disconnects and connects anew after that is handled. -/
def failedInTime : List Label :=
  writing ++ [.complete 1 none, .runHandler, .resume, .resume, .disconnect, .postDisconnect,
    .connect true, .runHandler, .runHandler, .runHandler]

theorem spares_failedInTime : ∃ c, (machine true true).run failedInTime = some c ∧
    (some 0, 0) ∈ c.ended ∧ c.is_connecting_ = true ∧ Spares c := by
  have hend : ∃ c ∈ (machine true true).run failedInTime,
      (some 0, 0) ∈ c.ended ∧ c.is_connecting_ = true := by decide +kernel
  obtain ⟨c, hrun, hended, hconnecting⟩ := hend
  have hguard : (machine true true).Meets PostsInTime failedInTime :=
    Machine.meets_of_checks (by decide +kernel)
  exact ⟨c, hrun, hended, hconnecting, spares_of_run hguard hrun⟩

/-- The write fails, and the owner disconnects and connects anew before that is handled. -/
def failedLate : List Label :=
  writing ++ [.complete 1 none, .disconnect, .postDisconnect, .connect true, .runHandler, .resume,
    .resume, .runHandler, .runHandler, .runHandler]

/-- The disconnect for the first connection ends the attempt of the second call. -/
theorem not_spares_failedLate : ∃ c, (machine true true).run failedLate = some c ∧
    .on_connect 1 false ∈ c.events ∧ ¬ Spares c := by
  have hend : ∃ c ∈ (machine true true).run failedLate, .on_connect 1 false ∈ c.events ∧
      (some 0, 1) ∈ c.ended ∧ ∃ record ∈ c.calls[1]?, 0 ∈ record.told := by decide +kernel
  obtain ⟨c, hrun, hfailed, hended, record, hrecord, htold⟩ := hend
  exact ⟨c, hrun, hfailed, fun hspares => hspares 0 1 record hended hrecord htold⟩

end SpaceShooter.Client.TcpClient
