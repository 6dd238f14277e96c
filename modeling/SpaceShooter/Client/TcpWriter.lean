/-
# The writer of the TCP client

What the client does with frames, apart from everything else. A frame stays at the head of the
queue until its write is over, a disconnect empties the queue under a write that is still in
flight, and the completion of that write may come while the next connection is up. Generations
keep the connections apart, and the flag, once raised, stays up until the disconnect.
-/

import Mathlib.Data.Multiset.UnionInter
import SpaceShooter.Client.ConnectCallbacks

namespace SpaceShooter.Client.TcpClient

open Library Network

/-! ### The writer -/

/-- The generation and the frame of a write. -/
def Operation.write? : Operation → Option (ℕ × QueuedFrame)
  | .write generation frame => some (generation, frame)
  | _ => none

def Handler.write? : Handler → Option (ℕ × QueuedFrame)
  | .completion operation _ => operation.write?
  | _ => none

/-- The frame of a handler that `send` has posted. -/
def Handler.frame? : Handler → Option QueuedFrame
  | .send frame => some frame
  | _ => none

/-- The writes whose completion handlers have not run. -/
def outstanding (c : TcpClient) : Multiset (ℕ × QueuedFrame) :=
  ↑(c.operations.filterMap Operation.write? ++ c.strand.filterMap Handler.write?)

/-- The frames on their way to the queue. -/
def posted (c : TcpClient) : List QueuedFrame := c.strand.filterMap Handler.frame?

/-- The frames of one connection in a log. -/
def framesOf (generation : ℕ) (log : List (ℕ × QueuedFrame)) : List QueuedFrame :=
  (log.filter (·.1 = generation)).map Prod.snd

/-- What a handler has still to do for the writer: write, or raise the flag. -/
inductive Duty
  | free
  | write
  | fail
  deriving DecidableEq, Repr

def Duty.of : Option Task → Duty
  | some .doWrite => .write
  | some (.disconnect _) => .fail
  | _ => .free

/-- The part of a client that matters to its frames. -/
structure Writer where
  is_connected_ : Bool
  disconnect_requested_ : Bool
  disconnect_generation_ : ℕ
  active_connect_generation_ : ℕ
  write_queue_ : List QueuedFrame
  is_writing_ : Bool
  duty : Duty
  outstanding : Multiset (ℕ × QueuedFrame)
  posted : List QueuedFrame
  sends : ℕ
  accepted : List (ℕ × QueuedFrame)
  written : List (ℕ × QueuedFrame)

def writer (c : TcpClient) : Writer where
  is_connected_ := c.is_connected_
  disconnect_requested_ := c.disconnect_requested_
  disconnect_generation_ := c.disconnect_generation_
  active_connect_generation_ := c.active_connect_generation_
  write_queue_ := c.write_queue_
  is_writing_ := c.is_writing_
  duty := .of c.running
  outstanding := c.outstanding
  posted := c.posted
  sends := c.sends
  accepted := c.accepted
  written := c.written

namespace Writer

/-- The connection a generation belongs to is the current one. -/
def Current (w : Writer) (generation : ℕ) : Prop :=
  generation = w.active_connect_generation_ ∧ generation = w.disconnect_generation_ ∧
    w.is_connected_ = true

/-- What a step does to the frames. -/
inductive Step (w : Writer) : Writer → Prop
  /-- The flag may be raised; it is where a handler was about to. -/
  | quiet {flag : Bool} {duty : Duty} (hflag : w.disconnect_requested_ = true → flag = true)
    (hduty : duty = w.duty ∨
      w.duty ≠ .write ∧ duty ≠ .write ∧ (w.duty = .fail → flag = true)) :
    Step w { w with disconnect_requested_ := flag, duty := duty }
  | submit (frame : FrameCodec.Frame) :
    Step w { w with posted := w.posted ++ [⟨w.sends, frame⟩], sends := w.sends + 1 }
  | drop {frame : QueuedFrame} {posted : List QueuedFrame} (hposted : w.posted = frame :: posted) :
    Step w { w with posted := posted }
  | accept {frame : QueuedFrame} {posted : List QueuedFrame} (hduty : w.duty = .free)
    (hup : w.is_connected_ = true) (hflag : w.disconnect_requested_ = false)
    (hposted : w.posted = frame :: posted) :
    Step w { w with
      posted := posted
      write_queue_ := w.write_queue_ ++ [frame]
      accepted := w.accepted ++ [(w.active_connect_generation_, frame)]
      duty := if !w.is_writing_ then .write else .free }
  | connect (hdown : w.is_connected_ = false) :
    Step w { w with
      disconnect_requested_ := false, active_connect_generation_ := w.disconnect_generation_ }
  | establish (hdown : w.is_connected_ = false)
    (hactive : w.active_connect_generation_ = w.disconnect_generation_) :
    Step w { w with is_connected_ := true }
  | skip (hdown : w.is_connected_ = false) :
    Step w { w with disconnect_generation_ := w.disconnect_generation_ + 1 }
  | disconnect (hduty : w.duty = .free) :
    Step w { w with
      disconnect_generation_ := w.disconnect_generation_ + 1
      is_connected_ := false
      write_queue_ := []
      is_writing_ := false }
  /-- There is nothing to write, or no connection any more. -/
  | rest (hduty : w.duty = .write)
    (hnothing : w.is_connected_ = false ∨ w.disconnect_requested_ = true ∨ w.write_queue_ = []) :
    Step w { w with is_writing_ := false, duty := .free }
  | hand {frame : QueuedFrame} {queue : List QueuedFrame} (hduty : w.duty = .write)
    (hup : w.is_connected_ = true) (hqueue : w.write_queue_ = frame :: queue) :
    Step w { w with
      is_writing_ := true
      duty := .free
      outstanding := (w.active_connect_generation_, frame) ::ₘ w.outstanding
      written := w.written ++ [(w.active_connect_generation_, frame)] }
  /-- A completion that comes too late. -/
  | late {write : ℕ × QueuedFrame} {outstanding : Multiset (ℕ × QueuedFrame)}
    (houtstanding : w.outstanding = write ::ₘ outstanding) (hlate : ¬ w.Current write.1) :
    Step w { w with outstanding := outstanding }
  | fail {write : ℕ × QueuedFrame} {outstanding : Multiset (ℕ × QueuedFrame)}
    (houtstanding : w.outstanding = write ::ₘ outstanding) (hduty : w.duty = .free)
    (hcurrent : w.Current write.1) :
    Step w { w with outstanding := outstanding, duty := .fail }
  | finish {write : ℕ × QueuedFrame} {outstanding : Multiset (ℕ × QueuedFrame)}
    {queue : List QueuedFrame} (houtstanding : w.outstanding = write ::ₘ outstanding)
    (hduty : w.duty = .free) (hcurrent : w.Current write.1)
    (hqueue : queue =
      if w.write_queue_.head? = some write.2 then w.write_queue_.tail else w.write_queue_) :
    Step w { w with
      outstanding := outstanding
      write_queue_ := queue
      is_writing_ := if queue.isEmpty then false else w.is_writing_
      duty := if queue.isEmpty then .free else .write }

/-! ### The invariant -/

/-- A generation is one of the past, or that of the connection that is up. -/
def Dated (w : Writer) (generation : ℕ) : Prop :=
  generation < w.disconnect_generation_ ∨
    generation = w.disconnect_generation_ ∧ w.is_connected_ = true

/-- What became of the frame at the head of the queue. -/
inductive Head
  /-- It has not been handed to the socket. -/
  | waiting
  | writing (frame : QueuedFrame)
  | failed (frame : QueuedFrame)

/-- The frame that was handed over and is still in the queue. -/
def Head.frame? : Head → Option QueuedFrame
  | .waiting => none
  | .writing frame => some frame
  | .failed frame => some frame

/-- No write of the connection is in flight. -/
def Still (w : Writer) : Prop := ∀ write ∈ w.outstanding, write.1 ≠ w.active_connect_generation_

/-- How the queue of a connection is served. -/
def Serves (w : Writer) : Head → Prop
  | .waiting => w.Still ∧ (w.is_writing_ = true → w.duty = .write) ∧
      (w.write_queue_ ≠ [] → w.duty = .write ∨ w.disconnect_requested_ = true)
  | .writing frame => (w.active_connect_generation_, frame) ∈ w.outstanding ∧
      w.is_writing_ = true ∧ w.duty ≠ .write
  | .failed _ => w.Still ∧ w.is_writing_ = true ∧ w.duty ≠ .write ∧
      (w.duty = .fail ∨ w.disconnect_requested_ = true)

/-- The connection that is up: what was accepted and is not handed over waits in the queue,
behind the frame that is. -/
def Up (w : Writer) : Prop :=
  w.active_connect_generation_ = w.disconnect_generation_ ∧
    ∃ head waiting, w.Serves head ∧ w.write_queue_ = head.frame?.toList ++ waiting ∧
      framesOf w.active_connect_generation_ w.accepted =
        framesOf w.active_connect_generation_ w.written ++ waiting

structure Orderly (w : Writer) : Prop where
  up : w.is_connected_ = true → w.Up
  down : w.is_connected_ = false →
    w.write_queue_ = [] ∧ w.is_writing_ = false ∧ w.duty ≠ .write
  outstanding : ∀ write ∈ w.outstanding, w.Dated write.1
  accepted : ∀ entry ∈ w.accepted, w.Dated entry.1
  single : (w.outstanding.map Prod.fst).Nodup
  in_order : ∀ generation, framesOf generation w.written <+: framesOf generation w.accepted

/-- No frame is accepted twice. -/
structure Distinct (w : Writer) : Prop where
  bounded : ∀ frame ∈ w.accepted.map Prod.snd ++ w.posted, frame.serial < w.sends
  nodup : ((w.accepted.map Prod.snd ++ w.posted).map QueuedFrame.serial).Nodup

variable {w w' : Writer}

/-! ### Frames by connection -/

end Writer

@[simp] theorem framesOf_append (generation : ℕ) (log more : List (ℕ × QueuedFrame)) :
    framesOf generation (log ++ more) = framesOf generation log ++ framesOf generation more := by
  rw [framesOf, List.filter_append, List.map_append]
  rfl

@[simp] theorem framesOf_self (generation : ℕ) (frame : QueuedFrame) :
    framesOf generation [(generation, frame)] = [frame] := by
  simp [framesOf]

theorem framesOf_of_ne {generation other : ℕ} (h : other ≠ generation) (frame : QueuedFrame) :
    framesOf generation [(other, frame)] = [] := by
  simp [framesOf, h]

theorem mem_framesOf {generation : ℕ} {log : List (ℕ × QueuedFrame)} {frame : QueuedFrame} :
    frame ∈ framesOf generation log ↔ (generation, frame) ∈ log := by
  simp [framesOf]

theorem framesOf_eq_nil {generation : ℕ} {log : List (ℕ × QueuedFrame)}
    (h : ∀ entry ∈ log, entry.1 ≠ generation) : framesOf generation log = [] := by
  rw [framesOf, List.map_eq_nil_iff, List.filter_eq_nil_iff]
  intro entry hmem heq
  exact h entry hmem (of_decide_eq_true heq)

namespace Writer

variable {w w' : Writer}

/-! ### Steps -/

theorem Orderly.quiet (h : w.Orderly) {flag : Bool} {duty : Duty}
    (hflag : w.disconnect_requested_ = true → flag = true)
    (hduty : duty = w.duty ∨
      w.duty ≠ .write ∧ duty ≠ .write ∧ (w.duty = .fail → flag = true)) :
    Orderly { w with disconnect_requested_ := flag, duty := duty } := by
  have hkeeps : duty = .write ↔ w.duty = .write := by
    rcases hduty with rfl | ⟨hold, hnew, -⟩
    · exact Iff.rfl
    · exact iff_of_false hnew hold
  refine ⟨fun hup => ?_, fun hdown => ?_, h.outstanding, h.accepted, h.single, h.in_order⟩
  · obtain ⟨hactive, head, waiting, hserves, hqueue, haccepted⟩ := h.up hup
    refine ⟨hactive, head, waiting, ?_, hqueue, haccepted⟩
    cases head with
    | waiting =>
      obtain ⟨hstill, hwriting, hwaits⟩ := hserves
      exact ⟨hstill, fun hw => hkeeps.mpr (hwriting hw),
        fun hne => (hwaits hne).imp hkeeps.mpr hflag⟩
    | writing frame =>
      obtain ⟨hflight, hwriting, hnot⟩ := hserves
      exact ⟨hflight, hwriting, fun hw => hnot (hkeeps.mp hw)⟩
    | failed frame =>
      obtain ⟨hstill, hwriting, hnot, hfail⟩ := hserves
      refine ⟨hstill, hwriting, fun hw => hnot (hkeeps.mp hw), ?_⟩
      rcases hfail with hfail | hfail
      · rcases hduty with rfl | ⟨-, -, hraised⟩
        · exact .inl hfail
        · exact .inr (hraised hfail)
      · exact .inr (hflag hfail)
  · obtain ⟨hqueue, hwriting, hnot⟩ := h.down hdown
    exact ⟨hqueue, hwriting, fun hw => hnot (hkeeps.mp hw)⟩

/-- While nothing is connected the generations of the past lie behind. -/
theorem Dated.lt {generation : ℕ} (h : w.Dated generation) (hdown : w.is_connected_ = false) :
    generation < w.disconnect_generation_ := by
  rcases h with hlt | ⟨-, hup⟩
  · exact hlt
  · cases hdown.symm.trans hup

theorem Orderly.accept (h : w.Orderly) {frame : QueuedFrame} {posted : List QueuedFrame}
    (hduty : w.duty = .free) (hup : w.is_connected_ = true)
    (hflag : w.disconnect_requested_ = false) :
    Orderly { w with
      posted := posted
      write_queue_ := w.write_queue_ ++ [frame]
      accepted := w.accepted ++ [(w.active_connect_generation_, frame)]
      duty := if !w.is_writing_ then .write else .free } := by
  have hfree (duty : Duty) (hne : duty ≠ .free) : w.duty ≠ duty := fun heq =>
    hne (heq.symm.trans hduty)
  obtain ⟨hactive, head, waiting, hserves, hqueue, haccepted⟩ := h.up hup
  have hframes : framesOf w.active_connect_generation_
      (w.accepted ++ [(w.active_connect_generation_, frame)]) =
        framesOf w.active_connect_generation_ w.written ++ (waiting ++ [frame]) := by
    rw [framesOf_append, framesOf_self, haccepted, List.append_assoc]
  have hlonger : w.write_queue_ ++ [frame] = head.frame?.toList ++ (waiting ++ [frame]) := by
    rw [hqueue, List.append_assoc]
  refine ⟨fun _ => ⟨hactive, head, waiting ++ [frame], ?_, hlonger, hframes⟩, ?_,
    h.outstanding, ?_, h.single, ?_⟩
  · cases head with
    | waiting =>
      obtain ⟨hstill, hwriting, -⟩ := hserves
      -- A free writer of a connection has nothing in its queue.
      have hrests : w.is_writing_ = false := by
        rw [Bool.eq_false_iff]
        exact fun hw => hfree .write (fun heq => by cases heq) (hwriting hw)
      have hwrites : (if !w.is_writing_ then Duty.write else .free) = .write := by rw [hrests]; rfl
      exact ⟨hstill, fun _ => hwrites, fun _ => .inl hwrites⟩
    | writing other =>
      obtain ⟨hflight, hwriting, -⟩ := hserves
      refine ⟨hflight, hwriting, ?_⟩
      dsimp only
      rw [hwriting]
      exact fun heq => by cases heq
    | failed other =>
      obtain ⟨-, -, -, hfail | hraised⟩ := hserves
      · exact absurd hfail (hfree .fail fun heq => by cases heq)
      · cases hflag.symm.trans hraised
  · exact fun hdown => by cases hup.symm.trans hdown
  · intro entry hmem
    rcases List.mem_append.mp hmem with hold | hnew
    · exact h.accepted entry hold
    · rw [List.mem_singleton.mp hnew]
      exact .inr ⟨hactive, hup⟩
  · intro generation
    dsimp only
    rw [framesOf_append]
    exact (h.in_order generation).trans (List.prefix_append _ _)

theorem Orderly.connect (h : w.Orderly) (hdown : w.is_connected_ = false) :
    Orderly { w with
      disconnect_requested_ := false
      active_connect_generation_ := w.disconnect_generation_ } :=
  ⟨fun hup => (by cases hdown.symm.trans hup), h.down, h.outstanding, h.accepted, h.single,
    h.in_order⟩

theorem Orderly.establish (h : w.Orderly) (hdown : w.is_connected_ = false)
    (hactive : w.active_connect_generation_ = w.disconnect_generation_) :
    Orderly { w with is_connected_ := true } := by
  have hdated {generation : ℕ} (hgeneration : w.Dated generation) :
      Dated { w with is_connected_ := true } generation := .inl (hgeneration.lt hdown)
  have hpast {generation : ℕ} (hgeneration : w.Dated generation) :
      generation ≠ w.active_connect_generation_ := by
    rw [hactive]
    exact (hgeneration.lt hdown).ne
  obtain ⟨hqueue, hwriting, -⟩ := h.down hdown
  have haccepted : framesOf w.active_connect_generation_ w.accepted = [] :=
    framesOf_eq_nil fun entry hmem => hpast (h.accepted entry hmem)
  have hwritten : framesOf w.active_connect_generation_ w.written = [] :=
    List.prefix_nil.mp (haccepted ▸ h.in_order w.active_connect_generation_)
  refine ⟨fun _ => ⟨hactive, .waiting, [], ⟨?_, ?_, ?_⟩, hqueue, ?_⟩,
    fun hdown => (by cases hdown), fun write hmem => hdated (h.outstanding write hmem),
    fun entry hmem => hdated (h.accepted entry hmem), h.single, h.in_order⟩
  · exact fun write hmem => hpast (h.outstanding write hmem)
  · exact fun hw => by cases hwriting.symm.trans hw
  · exact fun hne => absurd hqueue hne
  · rw [List.append_nil]
    exact haccepted.trans hwritten.symm

theorem Orderly.skip (h : w.Orderly) (hdown : w.is_connected_ = false) :
    Orderly { w with disconnect_generation_ := w.disconnect_generation_ + 1 } := by
  have hdated {generation : ℕ} (hgeneration : w.Dated generation) :
      Dated { w with disconnect_generation_ := w.disconnect_generation_ + 1 } generation :=
    .inl ((hgeneration.lt hdown).trans (Nat.lt_succ_self _))
  exact ⟨fun hup => (by cases hdown.symm.trans hup), h.down,
    fun write hmem => hdated (h.outstanding write hmem),
    fun entry hmem => hdated (h.accepted entry hmem), h.single, h.in_order⟩

theorem Orderly.disconnect (h : w.Orderly) (hduty : w.duty = .free) :
    Orderly { w with
      disconnect_generation_ := w.disconnect_generation_ + 1
      is_connected_ := false
      write_queue_ := []
      is_writing_ := false } := by
  have hdated {generation : ℕ} (hgeneration : w.Dated generation) :
      generation < w.disconnect_generation_ + 1 := by
    rcases hgeneration with hlt | ⟨rfl, -⟩
    · exact hlt.trans (Nat.lt_succ_self _)
    · exact Nat.lt_succ_self _
  refine ⟨fun hup => (by cases hup), fun _ => ⟨rfl, rfl, ?_⟩,
    fun write hmem => .inl (hdated (h.outstanding write hmem)),
    fun entry hmem => .inl (hdated (h.accepted entry hmem)), h.single, h.in_order⟩
  dsimp only
  rw [hduty]
  exact fun heq => by cases heq

/-- A writer that is about to write has handed over all that is not in its queue. -/
theorem Orderly.about_to_write (h : w.Orderly) (hduty : w.duty = .write) :
    w.is_connected_ = true ∧ w.active_connect_generation_ = w.disconnect_generation_ ∧ w.Still ∧
      framesOf w.active_connect_generation_ w.accepted =
        framesOf w.active_connect_generation_ w.written ++ w.write_queue_ := by
  have hup : w.is_connected_ = true := by
    rw [← Bool.not_eq_false]
    exact fun hdown => (h.down hdown).2.2 hduty
  obtain ⟨hactive, head, waiting, hserves, hqueue, haccepted⟩ := h.up hup
  cases head with
  | waiting =>
    refine ⟨hup, hactive, hserves.1, haccepted.trans ?_⟩
    rw [hqueue]
    rfl
  | writing frame => exact absurd hduty hserves.2.2
  | failed frame => exact absurd hduty hserves.2.2.1

theorem Orderly.rest (h : w.Orderly) (hduty : w.duty = .write)
    (hnothing : w.is_connected_ = false ∨ w.disconnect_requested_ = true ∨
      w.write_queue_ = []) :
    Orderly { w with is_writing_ := false, duty := .free } := by
  obtain ⟨hup, hactive, hstill, haccepted⟩ := h.about_to_write hduty
  refine ⟨fun _ => ⟨hactive, .waiting, w.write_queue_, ⟨hstill, fun hw => (by cases hw), ?_⟩,
    rfl, haccepted⟩, fun hdown => (by cases hup.symm.trans hdown), h.outstanding, h.accepted,
    h.single, h.in_order⟩
  intro hne
  rcases hnothing with hdown | hflag | hempty
  · cases hup.symm.trans hdown
  · exact .inr hflag
  · exact absurd hempty hne

theorem Orderly.hand (h : w.Orderly) {frame : QueuedFrame} {queue : List QueuedFrame}
    (hduty : w.duty = .write) (hqueue : w.write_queue_ = frame :: queue) :
    Orderly { w with
      is_writing_ := true
      duty := .free
      outstanding := (w.active_connect_generation_, frame) ::ₘ w.outstanding
      written := w.written ++ [(w.active_connect_generation_, frame)] } := by
  obtain ⟨hup, hactive, hstill, haccepted⟩ := h.about_to_write hduty
  rw [hqueue] at haccepted
  -- The frame goes from the front of the queue to the end of what is written.
  have hframes : framesOf w.active_connect_generation_ w.accepted =
      framesOf w.active_connect_generation_
        (w.written ++ [(w.active_connect_generation_, frame)]) ++ queue := by
    rw [framesOf_append, framesOf_self, List.append_assoc]
    exact haccepted
  refine ⟨fun _ => ⟨hactive, .writing frame, queue, ⟨?_, rfl, fun heq => (by cases heq)⟩,
    hqueue, hframes⟩, fun hdown => (by cases hup.symm.trans hdown), ?_, h.accepted, ?_, ?_⟩
  · exact Multiset.mem_cons_self _ _
  · intro write hmem
    rcases Multiset.mem_cons.mp hmem with rfl | hold
    · exact .inr ⟨hactive, hup⟩
    · exact h.outstanding write hold
  · dsimp only
    rw [Multiset.map_cons, Multiset.nodup_cons]
    refine ⟨fun hmem => ?_, h.single⟩
    obtain ⟨write, hwrite, heq⟩ := Multiset.mem_map.mp hmem
    exact hstill write hwrite heq
  · intro generation
    dsimp only
    by_cases hgeneration : w.active_connect_generation_ = generation
    · subst hgeneration
      rw [hframes]
      exact List.prefix_append _ _
    · rw [framesOf_append, framesOf_of_ne hgeneration, List.append_nil]
      exact h.in_order generation

/-- A completion of the connection that is up is that of the frame at the head of the queue, and
nothing else is in flight. -/
theorem Orderly.completes (h : w.Orderly) {write : ℕ × QueuedFrame}
    {rest : Multiset (ℕ × QueuedFrame)} (houtstanding : w.outstanding = write ::ₘ rest)
    (hcurrent : w.Current write.1) :
    w.active_connect_generation_ = w.disconnect_generation_ ∧ w.is_writing_ = true ∧
      (∀ other ∈ rest, other.1 ≠ w.active_connect_generation_) ∧
      ∃ waiting, w.write_queue_ = write.2 :: waiting ∧
        framesOf w.active_connect_generation_ w.accepted =
          framesOf w.active_connect_generation_ w.written ++ waiting := by
  obtain ⟨hsame, -, hup⟩ := hcurrent
  have hmem : write ∈ w.outstanding := by
    rw [houtstanding]
    exact Multiset.mem_cons_self _ _
  have hsingle := h.single
  rw [houtstanding, Multiset.map_cons, Multiset.nodup_cons] at hsingle
  have hrest : ∀ other ∈ rest, other.1 ≠ w.active_connect_generation_ := by
    intro other hother heq
    exact hsingle.1 (Multiset.mem_map.mpr ⟨other, hother, heq.trans hsame.symm⟩)
  obtain ⟨hactive, head, waiting, hserves, hqueue, haccepted⟩ := h.up hup
  cases head with
  | waiting => exact absurd hsame (hserves.1 write hmem)
  | failed frame => exact absurd hsame (hserves.1 write hmem)
  | writing frame =>
    obtain ⟨hflight, hwriting, -⟩ := hserves
    have hframe : write.2 = frame := by
      rw [houtstanding] at hflight
      rcases Multiset.mem_cons.mp hflight with heq | hother
      · rw [← heq]
      · exact absurd rfl (hrest _ hother)
    refine ⟨hactive, hwriting, hrest, waiting, ?_, haccepted⟩
    rw [hframe]
    exact hqueue

theorem Orderly.of_rest (h : w.Orderly) {write : ℕ × QueuedFrame}
    {rest : Multiset (ℕ × QueuedFrame)} (houtstanding : w.outstanding = write ::ₘ rest) :
    (∀ other ∈ rest, w.Dated other.1) ∧ (rest.map Prod.fst).Nodup := by
  have hsingle := h.single
  rw [houtstanding, Multiset.map_cons, Multiset.nodup_cons] at hsingle
  refine ⟨fun other hmem => h.outstanding other ?_, hsingle.2⟩
  rw [houtstanding]
  exact Multiset.mem_cons_of_mem hmem

theorem Orderly.late (h : w.Orderly) {write : ℕ × QueuedFrame}
    {rest : Multiset (ℕ × QueuedFrame)} (houtstanding : w.outstanding = write ::ₘ rest)
    (hlate : ¬ w.Current write.1) : Orderly { w with outstanding := rest } := by
  obtain ⟨hdated, hsingle⟩ := h.of_rest houtstanding
  refine ⟨fun hup => ?_, h.down, hdated, h.accepted, hsingle, h.in_order⟩
  obtain ⟨hactive, head, waiting, hserves, hqueue, haccepted⟩ := h.up hup
  have hstill (hall : w.Still) : Still { w with outstanding := rest } := by
    intro other hmem
    refine hall other ?_
    rw [houtstanding]
    exact Multiset.mem_cons_of_mem hmem
  refine ⟨hactive, head, waiting, ?_, hqueue, haccepted⟩
  cases head with
  | waiting => exact ⟨hstill hserves.1, hserves.2⟩
  | failed frame => exact ⟨hstill hserves.1, hserves.2⟩
  | writing frame =>
    refine ⟨?_, hserves.2⟩
    have hflight := hserves.1
    rw [houtstanding] at hflight
    rcases Multiset.mem_cons.mp hflight with rfl | hother
    · exact absurd ⟨rfl, hactive, hup⟩ hlate
    · exact hother

theorem Orderly.fail (h : w.Orderly) {write : ℕ × QueuedFrame}
    {rest : Multiset (ℕ × QueuedFrame)} (houtstanding : w.outstanding = write ::ₘ rest)
    (hcurrent : w.Current write.1) :
    Orderly { w with outstanding := rest, duty := .fail } := by
  obtain ⟨hdated, hsingle⟩ := h.of_rest houtstanding
  obtain ⟨hactive, hwriting, hstill, waiting, hqueue, haccepted⟩ :=
    h.completes houtstanding hcurrent
  refine ⟨fun _ => ⟨hactive, .failed write.2, waiting, ?_, hqueue, haccepted⟩,
    fun hdown => (by cases hcurrent.2.2.symm.trans hdown), hdated, h.accepted, hsingle, h.in_order⟩
  exact ⟨hstill, hwriting, fun heq => (by cases heq), .inl rfl⟩

theorem Orderly.finish (h : w.Orderly) {write : ℕ × QueuedFrame}
    {rest : Multiset (ℕ × QueuedFrame)} {queue : List QueuedFrame}
    (houtstanding : w.outstanding = write ::ₘ rest) (hcurrent : w.Current write.1)
    (hqueue : queue =
      if w.write_queue_.head? = some write.2 then w.write_queue_.tail else w.write_queue_) :
    Orderly { w with
      outstanding := rest
      write_queue_ := queue
      is_writing_ := if queue.isEmpty then false else w.is_writing_
      duty := if queue.isEmpty then .free else .write } := by
  obtain ⟨hdated, hsingle⟩ := h.of_rest houtstanding
  obtain ⟨hactive, hwriting, hstill, waiting, hhead, haccepted⟩ :=
    h.completes houtstanding hcurrent
  obtain rfl : queue = waiting := by
    rw [hqueue, hhead]
    exact if_pos rfl
  refine ⟨fun _ => ⟨hactive, .waiting, queue, ⟨hstill, ?_, ?_⟩, rfl, haccepted⟩,
    fun hdown => (by cases hcurrent.2.2.symm.trans hdown), hdated, h.accepted, hsingle, h.in_order⟩
  · cases queue with
    | nil => exact fun hw => by cases hw
    | cons next waiting => exact fun _ => rfl
  · cases queue with
    | nil => exact fun hne => absurd rfl hne
    | cons next waiting => exact fun _ => .inl rfl

theorem Orderly.step (h : w.Orderly) (hstep : Step w w') : w'.Orderly := by
  cases hstep with
  | quiet hflag hduty => exact h.quiet hflag hduty
  | submit frame => exact ⟨h.up, h.down, h.outstanding, h.accepted, h.single, h.in_order⟩
  | drop hposted => exact ⟨h.up, h.down, h.outstanding, h.accepted, h.single, h.in_order⟩
  | accept hduty hup hflag hposted => exact h.accept hduty hup hflag
  | connect hdown => exact h.connect hdown
  | establish hdown hactive => exact h.establish hdown hactive
  | skip hdown => exact h.skip hdown
  | disconnect hduty => exact h.disconnect hduty
  | rest hduty hnothing => exact h.rest hduty hnothing
  | hand hduty hup hqueue => exact h.hand hduty hqueue
  | late houtstanding hlate => exact h.late houtstanding hlate
  | fail houtstanding hduty hcurrent => exact h.fail houtstanding hcurrent
  | finish houtstanding hduty hcurrent hqueue => exact h.finish houtstanding hcurrent hqueue

theorem Distinct.step (h : w.Distinct) (hstep : Step w w') : w'.Distinct := by
  cases hstep with
  | submit frame =>
    have hsplit : w.accepted.map Prod.snd ++ (w.posted ++ [⟨w.sends, frame⟩]) =
        w.accepted.map Prod.snd ++ w.posted ++ [⟨w.sends, frame⟩] :=
      (List.append_assoc _ _ _).symm
    constructor
    · intro other hmem
      rw [hsplit] at hmem
      rcases List.mem_append.mp hmem with hold | hnew
      · exact (h.bounded other hold).trans (Nat.lt_succ_self _)
      · rw [List.mem_singleton.mp hnew]
        exact Nat.lt_succ_self _
    · dsimp only
      rw [hsplit, List.map_append, List.nodup_append]
      refine ⟨h.nodup, List.nodup_singleton _, fun serial hold other hnew => ?_⟩
      obtain ⟨earlier, hearlier, rfl⟩ := List.mem_map.mp hold
      rw [List.mem_singleton.mp hnew]
      exact (h.bounded earlier hearlier).ne
  | @drop frame posted hposted =>
    have hsub : (w.accepted.map Prod.snd ++ posted).Sublist
        (w.accepted.map Prod.snd ++ w.posted) := by
      rw [hposted]
      exact (List.Sublist.refl _).append (List.sublist_cons_self _ _)
    exact ⟨fun other hmem => h.bounded other (hsub.mem hmem),
      h.nodup.sublist (hsub.map QueuedFrame.serial)⟩
  | @accept frame posted hduty hup hflag hposted =>
    -- The frame moves from the strand to the log.
    have hsame : (w.accepted ++ [(w.active_connect_generation_, frame)]).map Prod.snd ++ posted =
        w.accepted.map Prod.snd ++ w.posted := by
      rw [hposted, List.map_append, List.append_assoc]
      rfl
    constructor
    · dsimp only
      rw [hsame]
      exact h.bounded
    · dsimp only
      rw [hsame]
      exact h.nodup
  | _ => exact ⟨h.bounded, h.nodup⟩

/-- A frame that was accepted is not handed to the socket of another connection. -/
theorem Orderly.generation_eq (h : w.Orderly) (hdistinct : w.Distinct) {generation other : ℕ}
    {frame : QueuedFrame} (haccepted : (generation, frame) ∈ w.accepted)
    (hwritten : (other, frame) ∈ w.written) : other = generation := by
  have hother : (other, frame) ∈ w.accepted :=
    mem_framesOf.mp ((h.in_order other).subset (mem_framesOf.mpr hwritten))
  have hnodup := hdistinct.nodup
  rw [List.map_append, List.map_map] at hnodup
  have hinjective := List.inj_on_of_nodup_map hnodup.of_append_left
  exact congrArg Prod.fst (hinjective hother haccepted rfl)

/-- No frame is handed over twice on one connection. -/
theorem Orderly.nodup_written (h : w.Orderly) (hdistinct : w.Distinct) (generation : ℕ) :
    (framesOf generation w.written).Nodup := by
  have hnodup := hdistinct.nodup
  rw [List.map_append] at hnodup
  have haccepted : (w.accepted.map Prod.snd).Nodup := hnodup.of_append_left.of_map
  have hframes : (framesOf generation w.accepted).Nodup :=
    haccepted.sublist (List.filter_sublist.map Prod.snd)
  exact hframes.sublist (h.in_order generation).sublist

end Writer

end SpaceShooter.Client.TcpClient
