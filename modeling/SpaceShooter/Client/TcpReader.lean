/-
# The reader of the TCP client

What matters of a client to the bytes it reads: the reads of its connections, the handler that
decodes what one brought and starts the next, and the flag that stops both. Reads of an earlier
connection may end while a later one is up; they are told apart by their generation. A log
keeps the chunks that ended a read and the payloads handed to the owner.
-/

import Mathlib.Data.Multiset.Count
import SpaceShooter.Client.TcpMoves
import SpaceShooter.Library.Streams

namespace SpaceShooter.Client

open Library Network Incremental

/-- What a handler has still to do for the reader: dispatch payloads and start the next read, or
raise the flag. -/
inductive Chore
  | other
  | read (todo : List PayloadView)
  | fail
  deriving DecidableEq, Repr

namespace Chore

def isRead : Chore → Bool
  | read _ => true
  | _ => false

def todo : Chore → List PayloadView
  | read todo => todo
  | _ => []

end Chore

/-- The entries of a log that belong to one connection. -/
def ofGeneration {α : Type} (generation : ℕ) (log : List (ℕ × α)) : List α :=
  (log.filter (·.1 = generation)).map Prod.snd

/-- The part of a client that matters to its reads. -/
structure Reading where
  is_connected_ : Bool
  disconnect_requested_ : Bool
  disconnect_generation_ : ℕ
  active_connect_generation_ : ℕ
  message_cb_ : Bool
  read_buffer_ : Bytes
  chore : Chore
  /-- The reads that wait for the peer. -/
  waiting : Multiset ℕ
  /-- The completions on the strand. -/
  arrived : List (ℕ × Option Bytes)
  received : List (ℕ × Bytes)
  handed : List (ℕ × PayloadView)

namespace Reading

/-- The connection a generation belongs to is the current one. -/
def Current (r : Reading) (generation : ℕ) : Prop :=
  generation = r.active_connect_generation_ ∧ generation = r.disconnect_generation_ ∧
    r.is_connected_ = true

/-- What a step does to the reads. -/
inductive Step (r : Reading) : Reading → Prop
  /-- The flag may be raised; it is where a handler was about to. -/
  | quiet {flag : Bool} {chore : Chore} (hflag : r.disconnect_requested_ = true → flag = true)
    (hchore : chore = r.chore ∨
      r.chore.isRead = false ∧ chore.isRead = false ∧ (r.chore = .fail → flag = true)) :
    Step r { r with disconnect_requested_ := flag, chore := chore }
  | connect (hdown : r.is_connected_ = false) :
    Step r { r with
      disconnect_requested_ := false, active_connect_generation_ := r.disconnect_generation_ }
  | establish (hdown : r.is_connected_ = false)
    (hactive : r.active_connect_generation_ = r.disconnect_generation_) :
    Step r { r with is_connected_ := true, chore := .read [] }
  | skip (hdown : r.is_connected_ = false) :
    Step r { r with disconnect_generation_ := r.disconnect_generation_ + 1 }
  | disconnect (hchore : r.chore = .other) :
    Step r { r with
      disconnect_generation_ := r.disconnect_generation_ + 1
      is_connected_ := false
      read_buffer_ := [] }
  | arrive {generation : ℕ} {waiting : Multiset ℕ} (result : Option Bytes)
    (hwaiting : r.waiting = generation ::ₘ waiting) :
    Step r { r with
      waiting := waiting
      arrived := r.arrived ++ [(generation, result)]
      received := r.received ++ result.toList.map (generation, ·) }
  /-- A completion that comes too late, or behind the flag. -/
  | ignore {completion : ℕ × Option Bytes} {arrived : List (ℕ × Option Bytes)}
    (harrived : r.arrived = completion :: arrived)
    (hstopped : ¬ r.Current completion.1 ∨ r.disconnect_requested_ = true) :
    Step r { r with arrived := arrived }
  | fail {generation : ℕ} {arrived : List (ℕ × Option Bytes)}
    (harrived : r.arrived = (generation, none) :: arrived) (hchore : r.chore = .other)
    (hcurrent : r.Current generation) :
    Step r { r with arrived := arrived, chore := .fail }
  | decode {generation : ℕ} {chunk : Bytes} {arrived : List (ℕ × Option Bytes)}
    (harrived : r.arrived = (generation, some chunk) :: arrived) (hchore : r.chore = .other)
    (hcurrent : r.Current generation) (hflag : r.disconnect_requested_ = false) :
    Step r { r with
      arrived := arrived
      read_buffer_ := (FrameCodec.decoder.run (r.read_buffer_ ++ chunk)).2
      chore := .read (FrameCodec.decoder.run (r.read_buffer_ ++ chunk)).1 }
  | hand {payload : PayloadView} {todo : List PayloadView}
    (hchore : r.chore = .read (payload :: todo)) (hflag : r.disconnect_requested_ = false)
    (hcb : r.message_cb_ = true) :
    Step r { r with
      handed := r.handed ++ [(r.active_connect_generation_, payload)], chore := .read todo }
  /-- The owner has set no callback. -/
  | pass {payload : PayloadView} {todo : List PayloadView}
    (hchore : r.chore = .read (payload :: todo)) (hcb : r.message_cb_ = false) :
    Step r { r with chore := .read todo }
  /-- Behind the flag payloads are dropped. -/
  | drop {todo : List PayloadView} (hchore : r.chore = .read todo)
    (hflag : r.disconnect_requested_ = true) :
    Step r { r with chore := .read [] }
  | rest (hchore : r.chore = .read [])
    (hstopped : r.is_connected_ = false ∨ r.disconnect_requested_ = true) :
    Step r { r with chore := .other }
  | launch (hchore : r.chore = .read []) (hup : r.is_connected_ = true)
    (hflag : r.disconnect_requested_ = false) :
    Step r { r with chore := .other, waiting := r.active_connect_generation_ ::ₘ r.waiting }

/-! ### The invariant -/

/-- A generation is one of the past, or that of the connection that is up. -/
def Dated (r : Reading) (generation : ℕ) : Prop :=
  generation < r.disconnect_generation_ ∨
    generation = r.disconnect_generation_ ∧ r.is_connected_ = true

/-- The reads of a connection: those that wait, those that have ended, and the one that the
handler is about to start. -/
def reads (r : Reading) (generation : ℕ) : ℕ :=
  r.waiting.count generation + (r.arrived.map Prod.fst).count generation +
    if r.chore.isRead = true ∧ generation = r.active_connect_generation_ then 1 else 0

/-- The chunks whose completion handlers have not run. -/
def undecoded (r : Reading) : List (ℕ × Bytes) :=
  r.arrived.filterMap fun completion => completion.2.map (completion.1, ·)

/-- What is known of the connection that is up while nobody has asked for its end: it has a read
or is about to fail, and what was decoded has been handed over or is about to be. -/
structure Serves (r : Reading) : Prop where
  armed : r.chore ≠ .fail → r.reads r.active_connect_generation_ = 1
  whole : r.message_cb_ = true → ∃ handled,
    ofGeneration r.active_connect_generation_ r.received =
      handled ++ ofGeneration r.active_connect_generation_ r.undecoded ∧
    (ofGeneration r.active_connect_generation_ r.handed ++ r.chore.todo, r.read_buffer_) =
      FrameCodec.decoder.run handled.flatten

structure Steady (r : Reading) : Prop where
  active : r.is_connected_ = true → r.active_connect_generation_ = r.disconnect_generation_
  down : r.is_connected_ = false → r.read_buffer_ = [] ∧ r.chore.isRead = false
  single : ∀ generation, r.reads generation ≤ 1
  dated : ∀ generation, r.reads generation ≠ 0 → r.Dated generation
  received : ∀ entry ∈ r.received, r.Dated entry.1
  handed : ∀ entry ∈ r.handed, r.Dated entry.1
  first : ∀ generation, ofGeneration generation r.handed <+:
    (FrameCodec.decoder.run (ofGeneration generation r.received).flatten).1
  serves : r.is_connected_ = true → r.disconnect_requested_ = false → r.Serves

variable {r r' : Reading} {generation : ℕ}

theorem ofGeneration_append {α : Type} (generation : ℕ) (log more : List (ℕ × α)) :
    ofGeneration generation (log ++ more) =
      ofGeneration generation log ++ ofGeneration generation more := by
  rw [ofGeneration, List.filter_append, List.map_append]
  rfl

theorem ofGeneration_self {α : Type} (generation : ℕ) (entry : α) :
    ofGeneration generation [(generation, entry)] = [entry] := by
  simp [ofGeneration]

theorem ofGeneration_of_ne {α : Type} {generation other : ℕ} (h : other ≠ generation)
    (entry : α) : ofGeneration generation [(other, entry)] = [] := by
  simp [ofGeneration, h]

theorem ofGeneration_eq_nil {α : Type} {generation : ℕ} {log : List (ℕ × α)}
    (h : ∀ entry ∈ log, entry.1 ≠ generation) : ofGeneration generation log = [] := by
  rw [ofGeneration, List.map_eq_nil_iff, List.filter_eq_nil_iff]
  intro entry hmem own
  exact h entry hmem (of_decide_eq_true own)

theorem Step.message_cb (h : Step r r') : r'.message_cb_ = r.message_cb_ := by
  cases h <;> rfl

/-- While nothing is connected the generations of the past lie behind. -/
theorem Dated.lt (h : r.Dated generation) (hdown : r.is_connected_ = false) :
    generation < r.disconnect_generation_ := by
  rcases h with past | ⟨-, hup⟩
  · exact past
  · rw [hdown] at hup
    cases hup

/-- The connection that is up has no chunk behind the one that is decoded. -/
theorem undecoded_eq_nil {arrived : List (ℕ × Option Bytes)}
    (h : (arrived.map Prod.fst).count generation = 0) :
    ofGeneration generation
      (arrived.filterMap fun completion => completion.2.map (completion.1, ·)) = [] := by
  apply ofGeneration_eq_nil
  rintro entry hmem rfl
  obtain ⟨⟨other, result⟩, harrived, hentry⟩ := List.mem_filterMap.mp hmem
  obtain ⟨chunk, -, rfl⟩ := Option.map_eq_some_iff.mp hentry
  rw [List.count_eq_zero] at h
  exact h (List.mem_map_of_mem (f := Prod.fst) harrived)

/-! ### Steps -/

theorem Steady.quiet (h : r.Steady) {flag : Bool} {chore : Chore}
    (hflag : r.disconnect_requested_ = true → flag = true)
    (hchore : chore = r.chore ∨
      r.chore.isRead = false ∧ chore.isRead = false ∧ (r.chore = .fail → flag = true)) :
    Steady { r with disconnect_requested_ := flag, chore := chore } := by
  have isRead : chore.isRead = r.chore.isRead := by
    rcases hchore with rfl | ⟨hold, hnew, -⟩
    · rfl
    · rw [hold, hnew]
  have todo : chore.todo = r.chore.todo := by
    rcases hchore with rfl | ⟨hold, hnew, -⟩
    · rfl
    · cases chore with
      | read => cases hnew
      | _ =>
        cases hr : r.chore with
        | read => rw [hr] at hold; cases hold
        | _ => rfl
  have reads (generation : ℕ) :
      Reading.reads { r with disconnect_requested_ := flag, chore := chore } generation =
        r.reads generation := by
    simp only [Reading.reads, isRead]
  refine ⟨h.active, fun hdown => ?_, fun generation => ?_, fun generation hne => ?_, h.received,
    h.handed, h.first, fun hup hdown => ?_⟩
  · exact ⟨(h.down hdown).1, isRead.trans (h.down hdown).2⟩
  · exact (reads generation).trans_le (h.single generation)
  · exact h.dated generation (reads generation ▸ hne)
  · have before : r.disconnect_requested_ = false := by
      by_contra hne
      have raised := hflag (Bool.eq_true_of_not_eq_false hne)
      rw [show flag = false from hdown] at raised
      cases raised
    have serves := h.serves hup before
    refine ⟨fun hne => ?_, fun hcb => ?_⟩
    · refine (reads _).trans (serves.armed fun hfail => ?_)
      -- A handler that was about to raise the flag has done so.
      rcases hchore with rfl | ⟨-, -, hraised⟩
      · exact hne hfail
      · have raised := hraised hfail
        rw [show flag = false from hdown] at raised
        cases raised
    · obtain ⟨handled, hreceived, hrun⟩ := serves.whole hcb
      exact ⟨handled, hreceived, by rw [← hrun, todo]⟩

theorem Steady.connect (h : r.Steady) (hdown : r.is_connected_ = false) :
    Steady { r with
      disconnect_requested_ := false, active_connect_generation_ := r.disconnect_generation_ } := by
  have idle := (h.down hdown).2
  have reads (generation : ℕ) : Reading.reads { r with
      disconnect_requested_ := false
      active_connect_generation_ := r.disconnect_generation_ } generation =
        r.reads generation := by
    simp [Reading.reads, idle]
  refine ⟨fun _ => rfl, h.down, fun generation => ?_, fun generation hne => ?_, h.received,
    h.handed, h.first, fun hup => ?_⟩
  · exact (reads generation).trans_le (h.single generation)
  · exact h.dated generation (reads generation ▸ hne)
  · rw [show r.is_connected_ = true from hup] at hdown
    cases hdown

/-- The generation of a new connection has not been in use. -/
theorem Steady.fresh (h : r.Steady) (hdown : r.is_connected_ = false)
    (hactive : r.active_connect_generation_ = r.disconnect_generation_) :
    r.reads r.active_connect_generation_ = 0 ∧
      ofGeneration r.active_connect_generation_ r.received = [] ∧
      ofGeneration r.active_connect_generation_ r.handed = [] := by
  refine ⟨?_, ofGeneration_eq_nil fun entry hmem same => ?_,
    ofGeneration_eq_nil fun entry hmem same => ?_⟩
  · by_contra hne
    exact Nat.lt_irrefl _ (hactive ▸ (h.dated _ hne).lt hdown)
  · exact Nat.lt_irrefl _ (hactive ▸ same ▸ (h.received entry hmem).lt hdown)
  · exact Nat.lt_irrefl _ (hactive ▸ same ▸ (h.handed entry hmem).lt hdown)

theorem Dated.mono {r' : Reading} (h : r.Dated generation)
    (hgeneration : r.disconnect_generation_ ≤ r'.disconnect_generation_)
    (hup : r.is_connected_ = true →
      r.disconnect_generation_ < r'.disconnect_generation_ ∨ r'.is_connected_ = true) :
    r'.Dated generation := by
  rcases h with past | ⟨rfl, up⟩
  · exact .inl (Nat.lt_of_lt_of_le past hgeneration)
  · rcases hup up with past | up'
    · exact .inl past
    · rcases Nat.lt_or_eq_of_le hgeneration with past | same
      · exact .inl past
      · exact .inr ⟨same, up'⟩

theorem Steady.establish (h : r.Steady) (hdown : r.is_connected_ = false)
    (hactive : r.active_connect_generation_ = r.disconnect_generation_) :
    Steady { r with is_connected_ := true, chore := .read [] } := by
  obtain ⟨empty, idle⟩ := h.down hdown
  obtain ⟨unread, unreceived, unhanded⟩ := h.fresh hdown hactive
  have reads (generation : ℕ) :
      Reading.reads { r with is_connected_ := true, chore := .read [] } generation =
        r.reads generation + if generation = r.active_connect_generation_ then 1 else 0 := by
    rw [Reading.reads, Reading.reads, idle]
    simp [Chore.isRead]
  have older {generation : ℕ} (hdated : r.Dated generation) :
      Reading.Dated { r with is_connected_ := true, chore := .read [] } generation :=
    hdated.mono le_rfl fun _ => .inr rfl
  refine ⟨fun _ => hactive, fun hdown' => ?_, fun generation => ?_, fun generation hne => ?_,
    fun entry hmem => older (h.received entry hmem), fun entry hmem => older (h.handed entry hmem),
    h.first, fun _ _ => ⟨fun _ => ?_, fun _ => ⟨[], ?_, ?_⟩⟩⟩
  · cases hdown'
  · rw [reads]
    split_ifs with own
    · rw [own, unread]
    · exact h.single generation
  · by_cases own : generation = r.active_connect_generation_
    · exact .inr ⟨own.trans hactive, rfl⟩
    · rw [reads, if_neg own] at hne
      exact older (h.dated generation hne)
  · rw [reads, if_pos rfl]
    exact congrArg (· + 1) unread
  · have none_arrived : (r.arrived.map Prod.fst).count r.active_connect_generation_ = 0 := by
      simp only [Reading.reads] at unread
      omega
    exact unreceived.trans (undecoded_eq_nil none_arrived).symm
  · dsimp only
    rw [unhanded, empty, List.flatten_nil, Decoder.run_of_wait FrameCodec.decoder_verdict_nil]
    rfl

theorem Steady.skip (h : r.Steady) (hdown : r.is_connected_ = false) :
    Steady { r with disconnect_generation_ := r.disconnect_generation_ + 1 } := by
  have older {generation : ℕ} (hdated : r.Dated generation) :
      Reading.Dated { r with disconnect_generation_ := r.disconnect_generation_ + 1 } generation :=
    hdated.mono (Nat.le_succ _) fun _ => .inl (Nat.lt_succ_self _)
  refine ⟨fun hup => ?_, h.down, h.single, fun generation hne => older (h.dated generation hne),
    fun entry hmem => older (h.received entry hmem), fun entry hmem => older (h.handed entry hmem),
    h.first, fun hup => ?_⟩
  · rw [show r.is_connected_ = true from hup] at hdown
    cases hdown
  · rw [show r.is_connected_ = true from hup] at hdown
    cases hdown

theorem Steady.disconnect (h : r.Steady) (hchore : r.chore = .other) :
    Steady { r with
      disconnect_generation_ := r.disconnect_generation_ + 1
      is_connected_ := false
      read_buffer_ := [] } := by
  have older {generation : ℕ} (hdated : r.Dated generation) : Reading.Dated { r with
      disconnect_generation_ := r.disconnect_generation_ + 1
      is_connected_ := false
      read_buffer_ := [] } generation :=
    hdated.mono (Nat.le_succ _) fun _ => .inl (Nat.lt_succ_self _)
  refine ⟨fun hup => ?_, fun _ => ⟨rfl, ?_⟩, h.single,
    fun generation hne => older (h.dated generation hne),
    fun entry hmem => older (h.received entry hmem), fun entry hmem => older (h.handed entry hmem),
    h.first, fun hup => ?_⟩
  · cases hup
  · dsimp only
    rw [hchore]
    rfl
  · cases hup

/-- A read ends; its completion handler is still to run. -/
theorem Steady.arrive (h : r.Steady) {waiting : Multiset ℕ} (result : Option Bytes)
    (hwaiting : r.waiting = generation ::ₘ waiting) :
    Steady { r with
      waiting := waiting
      arrived := r.arrived ++ [(generation, result)]
      received := r.received ++ result.toList.map (generation, ·) } := by
  have reads (other : ℕ) : Reading.reads { r with
      waiting := waiting
      arrived := r.arrived ++ [(generation, result)]
      received := r.received ++ result.toList.map (generation, ·) } other = r.reads other := by
    simp only [Reading.reads, hwaiting, Multiset.count_cons, List.map_append, List.count_append,
      List.map_cons, List.map_nil, List.count_singleton, beq_iff_eq]
    split_ifs <;> omega
  have current : r.Dated generation := by
    refine h.dated generation fun none_left => ?_
    rw [Reading.reads, hwaiting, Multiset.count_cons_self] at none_left
    omega
  refine ⟨h.active, h.down, fun other => (reads other).trans_le (h.single other),
    fun other hne => h.dated other (reads other ▸ hne), fun entry hmem => ?_, h.handed,
    fun other => ?_, fun hup hflag => ?_⟩
  · rcases List.mem_append.mp hmem with hmem | hmem
    · exact h.received entry hmem
    · obtain ⟨chunk, -, rfl⟩ := List.mem_map.mp hmem
      exact current
  · refine (h.first other).trans (Decoder.run_prefix ?_)
    rw [ofGeneration_append, List.flatten_append]
    exact List.prefix_append _ _
  · have serves := h.serves hup hflag
    refine ⟨fun hne => (reads _).trans (serves.armed hne), fun hcb => ?_⟩
    obtain ⟨handled, hreceived, hrun⟩ := serves.whole hcb
    refine ⟨handled, ?_, hrun⟩
    have both : ofGeneration r.active_connect_generation_
        (r.undecoded ++ result.toList.map (generation, ·)) =
          ofGeneration r.active_connect_generation_ r.undecoded ++
            ofGeneration r.active_connect_generation_ (result.toList.map (generation, ·)) :=
      ofGeneration_append _ _ _
    have later : Reading.undecoded { r with
        waiting := waiting
        arrived := r.arrived ++ [(generation, result)]
        received := r.received ++ result.toList.map (generation, ·) } =
          r.undecoded ++ result.toList.map (generation, ·) := by
      rw [Reading.undecoded, List.filterMap_append]
      cases result with
      | none => rfl
      | some chunk => rfl
    rw [later, both, ofGeneration_append, hreceived, List.append_assoc]

theorem reads_cons {completion : ℕ × Option Bytes} {arrived : List (ℕ × Option Bytes)}
    (harrived : r.arrived = completion :: arrived) (generation : ℕ) :
    r.reads generation = Reading.reads { r with arrived := arrived } generation +
      if completion.1 = generation then 1 else 0 := by
  simp only [Reading.reads, harrived, List.map_cons, List.count_cons, beq_iff_eq]
  omega

theorem undecoded_cons {completion : ℕ × Option Bytes} {arrived : List (ℕ × Option Bytes)}
    (harrived : r.arrived = completion :: arrived) :
    r.undecoded = completion.2.toList.map (completion.1, ·) ++
      Reading.undecoded { r with arrived := arrived } := by
  rw [undecoded, harrived, List.filterMap_cons]
  cases completion.2 with
  | none => rfl
  | some chunk => rfl

theorem Steady.ignore (h : r.Steady) {completion : ℕ × Option Bytes}
    {arrived : List (ℕ × Option Bytes)} (harrived : r.arrived = completion :: arrived)
    (hstopped : ¬ r.Current completion.1 ∨ r.disconnect_requested_ = true) :
    Steady { r with arrived := arrived } := by
  have reads := reads_cons harrived
  have fewer (generation : ℕ) :
      Reading.reads { r with arrived := arrived } generation ≤ r.reads generation := by
    rw [reads generation]
    exact Nat.le_add_right _ _
  refine ⟨h.active, h.down, fun generation => (fewer generation).trans (h.single generation),
    fun generation hne => h.dated generation fun none_left => hne ?_, h.received, h.handed,
    h.first, fun hup hflag => ?_⟩
  · exact Nat.le_zero.mp (none_left ▸ fewer generation)
  · -- A completion of the connection that is up is not ignored.
    have other : completion.1 ≠ r.active_connect_generation_ := by
      rintro same
      rcases hstopped with late | raised
      · exact late ⟨same, same.trans (h.active hup), hup⟩
      · rw [show r.disconnect_requested_ = false from hflag] at raised
        cases raised
    have serves := h.serves hup hflag
    refine ⟨fun hne => ?_, fun hcb => ?_⟩
    · have armed := serves.armed hne
      rw [reads, if_neg other] at armed
      exact armed
    · obtain ⟨handled, hreceived, hrun⟩ := serves.whole hcb
      refine ⟨handled, ?_, hrun⟩
      have none_own : ofGeneration r.active_connect_generation_
          (completion.2.toList.map (completion.1, ·)) = [] := by
        apply ofGeneration_eq_nil
        intro entry hmem
        obtain ⟨chunk, -, rfl⟩ := List.mem_map.mp hmem
        exact other
      rw [hreceived, undecoded_cons harrived, ofGeneration_append, none_own]
      rfl

theorem Steady.fail (h : r.Steady) {arrived : List (ℕ × Option Bytes)}
    (harrived : r.arrived = (generation, none) :: arrived) (hchore : r.chore = .other) :
    Steady { r with arrived := arrived, chore := .fail } := by
  have reads := reads_cons harrived
  have same (generation : ℕ) :
      Reading.reads { r with arrived := arrived, chore := .fail } generation =
        Reading.reads { r with arrived := arrived } generation := by
    rw [Reading.reads, Reading.reads, hchore]
    rfl
  have fewer (generation : ℕ) :
      Reading.reads { r with arrived := arrived, chore := .fail } generation ≤
        r.reads generation := by
    rw [same, reads generation]
    exact Nat.le_add_right _ _
  refine ⟨h.active, fun hdown => ⟨(h.down hdown).1, rfl⟩,
    fun generation => (fewer generation).trans (h.single generation),
    fun generation hne => h.dated generation fun none_left => hne ?_, h.received, h.handed,
    h.first, fun hup hflag => ⟨fun hne => absurd rfl hne, fun hcb => ?_⟩⟩
  · exact Nat.le_zero.mp (none_left ▸ fewer generation)
  · obtain ⟨handled, hreceived, hrun⟩ := (h.serves hup hflag).whole hcb
    refine ⟨handled, ?_, ?_⟩
    · rw [hreceived, undecoded_cons harrived]
      rfl
    · rw [← hrun, hchore]
      rfl

/-- The chunk that ended the read of the connection that is up is decoded. -/
theorem Steady.decode (h : r.Steady) {chunk : Bytes} {arrived : List (ℕ × Option Bytes)}
    (harrived : r.arrived = (generation, some chunk) :: arrived) (hchore : r.chore = .other)
    (hcurrent : r.Current generation) (hflag : r.disconnect_requested_ = false) :
    Steady { r with
      arrived := arrived
      read_buffer_ := (FrameCodec.decoder.run (r.read_buffer_ ++ chunk)).2
      chore := .read (FrameCodec.decoder.run (r.read_buffer_ ++ chunk)).1 } := by
  obtain ⟨rfl, hgeneration, hup⟩ := hcurrent
  have reads (generation : ℕ) : Reading.reads { r with
      arrived := arrived
      read_buffer_ := (FrameCodec.decoder.run (r.read_buffer_ ++ chunk)).2
      chore := .read (FrameCodec.decoder.run (r.read_buffer_ ++ chunk)).1 } generation =
        r.reads generation := by
    rw [reads_cons harrived, Reading.reads, Reading.reads, hchore]
    simp [Chore.isRead, eq_comm]
  refine ⟨h.active, fun hdown => ?_, fun generation => (reads generation).trans_le
    (h.single generation), fun generation hne => h.dated generation (reads generation ▸ hne),
    h.received, h.handed, h.first, fun _ _ => ⟨fun _ => ?_, fun hcb => ?_⟩⟩
  · rw [show r.is_connected_ = false from hdown] at hup
    cases hup
  · refine (reads _).trans ((h.serves hup hflag).armed fun hfail => ?_)
    rw [hchore] at hfail
    cases hfail
  · obtain ⟨handled, hreceived, hrun⟩ := (h.serves hup hflag).whole hcb
    have alone : (arrived.map Prod.fst).count r.active_connect_generation_ = 0 := by
      have single := h.single r.active_connect_generation_
      rw [reads_cons harrived, if_pos rfl, Reading.reads] at single
      dsimp only at single
      omega
    refine ⟨handled ++ [chunk], ?_, ?_⟩
    · rw [hreceived, undecoded_cons harrived, ofGeneration_append]
      change handled ++ (ofGeneration _ [(r.active_connect_generation_, chunk)] ++ _) =
        handled ++ [chunk] ++ _
      rw [ofGeneration_self, List.append_assoc]
      rfl
    · rw [Decoder.run_flatten_concat, ← hrun, hchore]
      simp [Chore.todo]

/-- Payloads leave the list of what is to be dispatched. -/
theorem reads_read {todo : List PayloadView} (todo' : List PayloadView)
    (hchore : r.chore = .read todo) (generation : ℕ) :
    Reading.reads { r with chore := .read todo' } generation = r.reads generation := by
  rw [Reading.reads, Reading.reads, hchore]
  rfl

/-- The handler of a read works for the connection that is up. -/
theorem Steady.up (h : r.Steady) {todo : List PayloadView} (hchore : r.chore = .read todo) :
    r.is_connected_ = true := by
  by_contra hdown
  have idle := (h.down (Bool.eq_false_of_not_eq_true hdown)).2
  rw [hchore] at idle
  cases idle

theorem Steady.hand (h : r.Steady) {payload : PayloadView} {todo : List PayloadView}
    (hchore : r.chore = .read (payload :: todo)) (hflag : r.disconnect_requested_ = false)
    (hcb : r.message_cb_ = true) :
    Steady { r with
      handed := r.handed ++ [(r.active_connect_generation_, payload)], chore := .read todo } := by
  have reads := reads_read todo hchore
  have hup := h.up hchore
  obtain ⟨handled, hreceived, hrun⟩ := (h.serves hup hflag).whole hcb
  have longer : ofGeneration r.active_connect_generation_
      (r.handed ++ [(r.active_connect_generation_, payload)]) =
        ofGeneration r.active_connect_generation_ r.handed ++ [payload] := by
    rw [ofGeneration_append, ofGeneration_self]
  have split : (ofGeneration r.active_connect_generation_ r.handed ++ [payload] ++ todo,
      r.read_buffer_) = FrameCodec.decoder.run handled.flatten := by
    rw [← hrun, hchore, List.append_assoc]
    rfl
  refine ⟨h.active, fun hdown => ?_, fun generation => (reads generation).trans_le
    (h.single generation), fun generation hne => h.dated generation (reads generation ▸ hne),
    h.received, fun entry hmem => ?_, fun generation => ?_,
    fun _ _ => ⟨fun _ => ?_, fun _ => ⟨handled, hreceived, ?_⟩⟩⟩
  · rw [show r.is_connected_ = false from hdown] at hup
    cases hup
  · rcases List.mem_append.mp hmem with hmem | hmem
    · exact h.handed entry hmem
    · rw [List.mem_singleton.mp hmem]
      exact .inr ⟨h.active hup, hup⟩
  · by_cases own : generation = r.active_connect_generation_
    · subst own
      dsimp only
      rw [longer, hreceived, List.flatten_append]
      refine List.IsPrefix.trans ?_ (Decoder.run_prefix (List.prefix_append _ _))
      rw [← split]
      exact List.prefix_append _ _
    · dsimp only
      rw [ofGeneration_append, ofGeneration_of_ne (Ne.symm own), List.append_nil]
      exact h.first generation
  · refine (reads _).trans ((h.serves hup hflag).armed fun hfail => ?_)
    rw [hchore] at hfail
    cases hfail
  · dsimp only
    rw [longer]
    exact split

theorem Steady.pass (h : r.Steady) {payload : PayloadView} {todo : List PayloadView}
    (hchore : r.chore = .read (payload :: todo)) (hcb : r.message_cb_ = false) :
    Steady { r with chore := .read todo } := by
  have reads := reads_read todo hchore
  have hup := h.up hchore
  refine ⟨h.active, fun hdown => ?_, fun generation => (reads generation).trans_le
    (h.single generation), fun generation hne => h.dated generation (reads generation ▸ hne),
    h.received, h.handed, h.first, fun hup hflag => ⟨fun _ => ?_, fun hset => ?_⟩⟩
  · rw [show r.is_connected_ = false from hdown] at hup
    cases hup
  · refine (reads _).trans ((h.serves hup hflag).armed fun hfail => ?_)
    rw [hchore] at hfail
    cases hfail
  · rw [show r.message_cb_ = true from hset] at hcb
    cases hcb

theorem Steady.drop (h : r.Steady) {todo : List PayloadView} (hchore : r.chore = .read todo)
    (hflag : r.disconnect_requested_ = true) : Steady { r with chore := .read [] } := by
  have reads := reads_read [] hchore
  have hup := h.up hchore
  refine ⟨h.active, fun hdown => ?_, fun generation => (reads generation).trans_le
    (h.single generation), fun generation hne => h.dated generation (reads generation ▸ hne),
    h.received, h.handed, h.first, fun _ hdown => ?_⟩
  · rw [show r.is_connected_ = false from hdown] at hup
    cases hup
  · rw [show r.disconnect_requested_ = false from hdown] at hflag
    cases hflag

theorem Steady.rest (h : r.Steady) (hchore : r.chore = .read [])
    (hstopped : r.is_connected_ = false ∨ r.disconnect_requested_ = true) :
    Steady { r with chore := .other } := by
  have hup := h.up hchore
  have fewer (generation : ℕ) :
      Reading.reads { r with chore := .other } generation ≤ r.reads generation := by
    rw [Reading.reads, Reading.reads, hchore]
    exact Nat.le_add_right _ _
  refine ⟨h.active, fun hdown => ⟨(h.down hdown).1, rfl⟩,
    fun generation => (fewer generation).trans (h.single generation),
    fun generation hne => h.dated generation fun none_left => hne ?_, h.received, h.handed,
    h.first, fun _ hdown => ?_⟩
  · exact Nat.le_zero.mp (none_left ▸ fewer generation)
  · rcases hstopped with down | raised
    · rw [hup] at down
      cases down
    · rw [show r.disconnect_requested_ = false from hdown] at raised
      cases raised

theorem Steady.launch (h : r.Steady) (hchore : r.chore = .read [])
    (hup : r.is_connected_ = true) (hflag : r.disconnect_requested_ = false) :
    Steady { r with
      chore := .other, waiting := r.active_connect_generation_ ::ₘ r.waiting } := by
  have reads (generation : ℕ) : Reading.reads { r with
      chore := .other, waiting := r.active_connect_generation_ ::ₘ r.waiting } generation =
        r.reads generation := by
    simp only [Reading.reads, hchore, Multiset.count_cons, Chore.isRead, true_and,
      Bool.false_eq_true, false_and, if_false]
    omega
  refine ⟨h.active, fun hdown => ⟨(h.down hdown).1, rfl⟩, fun generation =>
    (reads generation).trans_le (h.single generation),
    fun generation hne => h.dated generation (reads generation ▸ hne), h.received, h.handed,
    h.first, fun _ _ => ⟨fun _ => ?_, fun hcb => ?_⟩⟩
  · refine (reads _).trans ((h.serves hup hflag).armed fun hfail => ?_)
    rw [hchore] at hfail
    cases hfail
  · obtain ⟨handled, hreceived, hrun⟩ := (h.serves hup hflag).whole hcb
    refine ⟨handled, hreceived, ?_⟩
    rw [← hrun, hchore]
    rfl

theorem Steady.step (h : r.Steady) (hstep : Step r r') : r'.Steady := by
  cases hstep with
  | quiet hflag hchore => exact h.quiet hflag hchore
  | connect hdown => exact h.connect hdown
  | establish hdown hactive => exact h.establish hdown hactive
  | skip hdown => exact h.skip hdown
  | disconnect hchore => exact h.disconnect hchore
  | arrive result hwaiting => exact h.arrive result hwaiting
  | ignore harrived hstopped => exact h.ignore harrived hstopped
  | fail harrived hchore => exact h.fail harrived hchore
  | decode harrived hchore hcurrent hflag => exact h.decode harrived hchore hcurrent hflag
  | hand hchore hflag hcb => exact h.hand hchore hflag hcb
  | pass hchore hcb => exact h.pass hchore hcb
  | drop hchore hflag => exact h.drop hchore hflag
  | rest hchore hstopped => exact h.rest hchore hstopped
  | launch hchore hup hflag => exact h.launch hchore hup hflag

end Reading

end SpaceShooter.Client
