/-
# The transport as a link

For its owner a TCP client is a link that is asked for by `connect`, closed by `disconnect`, and
reported by the two callbacks. Each step that the client makes on its own is one of such a link,
or none: the completion of an operation may establish it or give an attempt up, and the failure
of a transfer may end it at any time.
-/

import SpaceShooter.Client.MessageOrder
import SpaceShooter.Library.Supervision

namespace SpaceShooter.Client

open Library Network Supervision Relation

namespace TcpClient

/-! ### The transport as a link -/

/-- The connection or the attempt of a client; an attempt is known by a number. -/
def link (number : ℕ → ℕ) (c : TcpClient) : Link :=
  if c.is_connected_ then .established
  else if c.is_connecting_ then .opening (number c.current)
  else .idle

/-- What the owner of a client wants of it; a failure is no command. -/
def Handler.command? (number : ℕ → ℕ) : Handler → Option Command
  | .connect call _ => some (.attempt (number call))
  | .disconnect none => some .close
  | _ => none

def Event.report (number : ℕ → ℕ) : Event → Report
  | .on_connect call status => .result (number call) status
  | .disconnect_cb => .down

/-- A client whose owner has set all callbacks. -/
structure Wired (c : TcpClient) : Prop where
  exclusive : c.is_connecting_ = true → c.is_connected_ = false
  pending : c.is_connecting_ = true → c.pending_connect_callback_ = some c.current
  on_connect : ∀ call on_connect, .connect call on_connect ∈ c.strand → on_connect = true
  disconnect_cb : c.disconnect_cb_ = true

/-- A client takes its link, with the commands on its strand, from one state to another, and
leaves the calls to others. -/
def Guides (number : ℕ → ℕ) (c c' : TcpClient) : Prop :=
  (c'.disconnecting = c.disconnecting ∧ c'.calls = c.calls) ∧
    ∃ events, c'.events = c.events ++ events ∧
      ∀ (phase : Supervision.Phase) (attempt : ℕ) (commands : List Command)
        (reports : List Report),
        ReflTransGen Supervision.Step
          ⟨phase, attempt, c.link number,
            c.strand.filterMap (Handler.command? number) ++ commands, reports⟩
          ⟨phase, attempt, c'.link number,
            c'.strand.filterMap (Handler.command? number) ++ commands,
            reports ++ events.map (Event.report number)⟩

variable {number : ℕ → ℕ} {c c' : TcpClient} {handler : Handler} {strand : List Handler}

/-- Where the link, the commands and the reports of a step lead. -/
theorem guides_of {events : List Event} {l : Link} {taken : List Command}
    (hcalls : c'.disconnecting = c.disconnecting ∧ c'.calls = c.calls)
    (hevents : c'.events = c.events ++ events) (hlink : c'.link number = l)
    (hstrand : c'.strand.filterMap (Handler.command? number) = taken)
    (hstep : ∀ (phase : Supervision.Phase) (attempt : ℕ) (commands : List Command)
      (reports : List Report), Supervision.Step
        ⟨phase, attempt, c.link number,
          c.strand.filterMap (Handler.command? number) ++ commands, reports⟩
        ⟨phase, attempt, l, taken ++ commands,
          reports ++ events.map (Event.report number)⟩) : Guides number c c' := by
  refine ⟨hcalls, events, hevents, fun phase attempt commands reports => ?_⟩
  rw [hlink, hstrand]
  exact .single (hstep phase attempt commands reports)

/-- A step that has nothing to do with attempts and connections. -/
theorem guides_of_same (hcalls : c'.disconnecting = c.disconnecting ∧ c'.calls = c.calls)
    (hevents : c'.events = c.events) (hlink : c'.link number = c.link number)
    (hstrand : c'.strand.filterMap (Handler.command? number) =
      c.strand.filterMap (Handler.command? number)) : Guides number c c' := by
  refine ⟨hcalls, [], hevents.trans (List.append_nil _).symm,
    fun phase attempt commands reports => ?_⟩
  rw [hlink, hstrand, List.map_nil, List.append_nil]

theorem commands_pop (hstrand : c.strand = handler :: strand)
    (h : handler.command? number = none) :
    strand.filterMap (Handler.command? number) =
      c.strand.filterMap (Handler.command? number) := by
  rw [hstrand, List.filterMap_cons_none h]

theorem commands_post (c : TcpClient) (h : handler.command? number = none) :
    (c.strand ++ [handler]).filterMap (Handler.command? number) =
      c.strand.filterMap (Handler.command? number) := by
  rw [List.filterMap_append, List.filterMap_cons_none h, List.filterMap_nil, List.append_nil]

/-- An attempt is given up. -/
theorem guides_of_givesUp (hwired : c.Wired) (hconnecting : c.is_connecting_ = true)
    (hcalls : c'.disconnecting = c.disconnecting ∧ c'.calls = c.calls)
    (hevents : c'.events = c.events ++ invocation c.pending_connect_callback_ false)
    (hlink : c'.link number = .idle)
    (hstrand : c'.strand.filterMap (Handler.command? number) =
      c.strand.filterMap (Handler.command? number)) : Guides number c c' := by
  have hending : (c.link number).ending = [.result (number c.current) false] := by
    rw [link, hwired.exclusive hconnecting, hconnecting]
    rfl
  rw [hwired.pending hconnecting] at hevents
  refine guides_of hcalls hevents hlink hstrand fun phase attempt commands reports => ?_
  have hfail := Supervision.Step.fail (s := ⟨phase, attempt, c.link number,
    c.strand.filterMap (Handler.command? number) ++ commands, reports⟩)
  rw [hending] at hfail
  exact hfail

theorem link_of_connecting (hwired : c.Wired) (hconnecting : c.is_connecting_ = true) :
    c.link number = .opening (number c.current) := by
  rw [link, hwired.exclusive hconnecting, hconnecting]
  rfl

theorem link_of_idle (hdown : c.is_connected_ = false) (hidle : c.is_connecting_ = false) :
    c.link number = .idle := by
  rw [link, hdown, hidle]
  rfl

theorem guides_onConnect (hwired : c.Wired) {call : ℕ} {on_connect : Bool}
    (hstrand : c.strand = .connect call on_connect :: strand) :
    Guides number c
      { { c with strand := strand }.onConnect call on_connect with running := none } := by
  have hcallback : on_connect = true :=
    hwired.on_connect call on_connect (hstrand ▸ List.mem_cons_self)
  subst hcallback
  have hcommands : c.strand.filterMap (Handler.command? number) =
      .attempt (number call) :: strand.filterMap (Handler.command? number) := by
    rw [hstrand]
    rfl
  by_cases hbusy : (c.is_connected_ || c.is_connecting_) = true
  · have hlink : c.link number ≠ .idle := by
      rw [link]
      rcases Bool.or_eq_true_iff.mp hbusy with hup | hconnecting
      · rw [if_pos hup]
        exact fun h => by cases h
      · rw [hwired.exclusive hconnecting, hconnecting]
        exact fun h => by cases h
    rw [onConnect, if_pos hbusy, invokeConnectCallback_eq]
    refine guides_of ⟨rfl, rfl⟩ rfl rfl rfl fun phase attempt commands reports => ?_
    rw [hcommands]
    exact .refuse rfl hlink
  · obtain ⟨hdown, hidle⟩ := Bool.or_eq_false_iff.mp (Bool.not_eq_true _ ▸ hbusy)
    rw [onConnect, if_neg hbusy]
    refine guides_of (l := .opening (number call)) ⟨rfl, rfl⟩ (List.append_nil _).symm ?_ rfl
      fun phase attempt commands reports => ?_
    · rw [link]
      dsimp only [launch]
      rw [hdown]
      rfl
    · rw [hcommands, List.map_nil, List.append_nil]
      exact .accept rfl (link_of_idle hdown hidle)

/-- What a disconnect invokes is what is to be reported of the link. -/
theorem map_report_disconnect (hwired : c.Wired) :
    ((if c.is_connecting_ then invocation c.pending_connect_callback_ false else []) ++
      (if c.is_connected_ && c.disconnect_cb_ then [Event.disconnect_cb] else [])).map
        (Event.report number) = (c.link number).ending := by
  rw [link, hwired.disconnect_cb, Bool.and_true]
  by_cases hconnecting : c.is_connecting_ = true
  · rw [hwired.exclusive hconnecting, hconnecting, hwired.pending hconnecting]
    rfl
  · rw [Bool.eq_false_of_not_eq_true hconnecting]
    cases c.is_connected_ <;> rfl

theorem guides_onDisconnect (hwired : c.Wired) {failed : Option ℕ}
    (hstrand : c.strand = .disconnect failed :: strand) :
    Guides number c
      { { c with strand := strand }.onDisconnect failed with running := none } := by
  -- The owner's request takes a command, a failure does not.
  rcases { c with strand := strand }.onDisconnect_cases failed with
    ⟨hdown, hidle, heq⟩ | heq <;> rw [heq]
  · have hlink : c.link number = .idle := link_of_idle hdown hidle
    cases failed with
    | some generation => exact guides_of_same ⟨rfl, rfl⟩ rfl rfl (commands_pop hstrand rfl)
    | none =>
      refine guides_of ⟨rfl, rfl⟩ (List.append_nil _).symm hlink rfl
        fun phase attempt commands reports => ?_
      have hclose := Supervision.Step.close (s := ⟨phase, attempt, c.link number,
        .close :: (strand.filterMap (Handler.command? number) ++ commands), reports⟩) rfl
      rw [hlink] at hclose ⊢
      rw [hstrand]
      exact hclose
  · have hreports : _ = (c.link number).ending := map_report_disconnect hwired
    cases failed with
    | some generation =>
      refine guides_of ⟨rfl, rfl⟩ rfl rfl (commands_pop hstrand rfl)
        fun phase attempt commands reports => ?_
      dsimp only
      rw [hreports]
      exact .fail
    | none =>
      refine guides_of ⟨rfl, rfl⟩ rfl rfl rfl fun phase attempt commands reports => ?_
      dsimp only
      rw [hreports, hstrand]
      exact .close rfl

theorem guides_onResolved (hwired : c.Wired) {generation call : ℕ} {result : Option Bytes}
    (hstrand : c.strand = .completion (.resolve generation call) result :: strand) :
    Guides number c { { c with strand := strand }.onResolved generation call result with
      running := none } := by
  rcases { c with strand := strand }.onResolved_cases generation call result with
    ⟨-, heq⟩ | ⟨⟨-, hconnecting⟩, ⟨ended, -, heq⟩ | heq⟩ <;> rw [heq]
  · exact guides_of_same ⟨rfl, rfl⟩ rfl rfl (commands_pop hstrand rfl)
  · exact guides_of_givesUp hwired hconnecting ⟨rfl, rfl⟩ rfl
      (link_of_idle (hwired.exclusive hconnecting) rfl) (commands_pop hstrand rfl)
  · exact guides_of_same ⟨rfl, rfl⟩ rfl rfl (commands_pop hstrand rfl)

theorem guides_onConnected (hwired : c.Wired) {generation call : ℕ} {result : Option Bytes}
    (hstrand : c.strand = .completion (.connect generation call) result :: strand) :
    Guides number c { ({ c with strand := strand }.onConnected generation result).1 with
      running := ({ c with strand := strand }.onConnected generation result).2 } := by
  rcases { c with strand := strand }.onConnected_cases generation result with
    ⟨-, heq⟩ | ⟨⟨-, hconnecting⟩, ⟨⟨ended, -, heq⟩, htask⟩ | ⟨-, heq⟩⟩
  · rw [heq]
    exact guides_of_same ⟨rfl, rfl⟩ rfl rfl (commands_pop hstrand rfl)
  · rw [heq, htask]
    exact guides_of_givesUp hwired hconnecting ⟨rfl, rfl⟩ rfl (link_of_idle rfl rfl)
      (commands_pop hstrand rfl)
  · rw [heq]
    refine guides_of ⟨rfl, rfl⟩ rfl rfl (commands_pop hstrand rfl)
        fun phase attempt commands reports => ?_
    rw [show c.pending_connect_callback_ = some c.current from hwired.pending hconnecting]
    exact .establish (link_of_connecting hwired hconnecting)

theorem guides_onSend {frame : QueuedFrame} (hstrand : c.strand = .send frame :: strand) :
    Guides number c { ({ c with strand := strand }.onSend frame).1 with
      running := ({ c with strand := strand }.onSend frame).2 } := by
  by_cases hdropped : (!c.is_connected_ || c.disconnect_requested_) = true
  · rw [show onSend { c with strand := strand } frame = ({ c with strand := strand }, none) from
      if_pos hdropped]
    exact guides_of_same ⟨rfl, rfl⟩ rfl rfl (commands_pop hstrand rfl)
  · rw [show onSend { c with strand := strand } frame = _ from if_neg hdropped]
    exact guides_of_same ⟨rfl, rfl⟩ rfl rfl (commands_pop hstrand rfl)

theorem guides_onRead {generation : ℕ} {result : Option Bytes}
    (hstrand : c.strand = .completion (.read generation) result :: strand) :
    Guides number c { ({ c with strand := strand }.onRead generation result).1 with
      running := ({ c with strand := strand }.onRead generation result).2 } := by
  by_cases hignored :
      (!c.isValidGeneration generation || !c.is_connected_ || c.disconnect_requested_) = true
  · rw [show onRead { c with strand := strand } generation result =
      ({ c with strand := strand }, none) from if_pos hignored]
    exact guides_of_same ⟨rfl, rfl⟩ rfl rfl (commands_pop hstrand rfl)
  · rw [show onRead { c with strand := strand } generation result = _ from if_neg hignored]
    cases result <;> exact guides_of_same ⟨rfl, rfl⟩ rfl rfl (commands_pop hstrand rfl)

theorem guides_handle (hwired : c.Wired) (hstrand : c.strand = handler :: strand) :
    Guides number c { ({ c with strand := strand }.handle handler).1 with
      running := ({ c with strand := strand }.handle handler).2 } := by
  cases handler with
  | connect call on_connect => exact guides_onConnect hwired hstrand
  | send frame => exact guides_onSend hstrand
  | disconnect failed => exact guides_onDisconnect hwired hstrand
  | completion operation result =>
    cases operation with
    | resolve generation call => exact guides_onResolved hwired hstrand
    | connect generation call => exact guides_onConnected hwired hstrand
    | read generation => exact guides_onRead hstrand
    | write generation frame =>
      obtain ⟨queue, writing, task, heq, -⟩ :=
        { c with strand := strand }.onWritten_cases generation frame result
      rw [handle, heq]
      exact guides_of_same ⟨rfl, rfl⟩ rfl rfl (commands_pop hstrand rfl)

theorem guides_perform (c : TcpClient) (task : Task) :
    Guides number c { (c.perform task).1 with running := (c.perform task).2 } := by
  cases task with
  | disconnect failed =>
    rw [perform, requestDisconnect, tell_eq]
    exact guides_of_same ⟨rfl, rfl⟩ rfl rfl rfl
  | postDisconnect failed =>
    rw [perform, postDisconnect, tell_eq]
    exact guides_of_same ⟨rfl, rfl⟩ rfl rfl (commands_post c rfl)
  | doRead =>
    rw [perform, doRead]
    split_ifs <;> exact guides_of_same ⟨rfl, rfl⟩ rfl rfl rfl
  | doWrite =>
    rw [perform, doWrite]
    split_ifs
    · exact guides_of_same ⟨rfl, rfl⟩ rfl rfl rfl
    · cases c.write_queue_ <;> exact guides_of_same ⟨rfl, rfl⟩ rfl rfl rfl
  | dispatch payloads =>
    cases payloads with
    | nil => exact guides_of_same ⟨rfl, rfl⟩ rfl rfl rfl
    | cons payload payloads =>
      rw [perform]
      split_ifs <;> exact guides_of_same ⟨rfl, rfl⟩ rfl rfl rfl
  | dispatched payloads =>
    rw [perform]
    split_ifs <;> exact guides_of_same ⟨rfl, rfl⟩ rfl rfl rfl
  | finishRead =>
    rw [perform]
    split_ifs <;> exact guides_of_same ⟨rfl, rfl⟩ rfl rfl rfl

/-- A step that a client makes on its own. -/
def Label.isInternal : Label → Bool
  | .connect _ => false
  | .send _ => false
  | .disconnect => false
  | _ => true

theorem guides_step (hwired : c.Wired) {label : Label} (hinternal : label.isInternal = true)
    (hlabel : label ≠ .postDisconnect) (h : c.step label = some c') : Guides number c c' := by
  cases transition_of_step h with
  | complete i operation result hi =>
    exact guides_of_same ⟨rfl, rfl⟩ rfl rfl (commands_post c rfl)
  | runHandler handler strand hrunning hstrand => exact guides_handle hwired hstrand
  | resume task hrunning => exact guides_perform c task
  | postDisconnect => exact absurd rfl hlabel
  | _ => cases hinternal

theorem calls_of_internal (hwired : c.Wired) {label : Label} (hinternal : label.isInternal = true)
    (h : c.step label = some c') : c'.calls = c.calls := by
  by_cases hlabel : label = .postDisconnect
  · subst hlabel
    cases transition_of_step h with
    | postDisconnect called =>
      rw [postDisconnect, tell_eq]
      rfl
  · exact (show Guides id c c' from guides_step hwired hinternal hlabel h).1.2

/-! ### Runs of the TCP client -/

theorem wired_of_run {labels : List Label} (hrun : (machine true true).run labels = some c)
    (hcalls : ∀ call ∈ c.calls, call.on_connect = true) : c.Wired := by
  have hlinked := Linked.of_run hrun hcalls
  refine ⟨(Attempting.of_run hrun).exclusive, fun hconnecting => ?_, hlinked.strand, ?_⟩
  · obtain ⟨call, hpending⟩ := Option.isSome_iff_exists.mp (hlinked.pending hconnecting)
    rw [hpending, (Accounted.of_run hrun).current call hpending]
  · refine Machine.invariant (motive := fun c => c.disconnect_cb_ = true) rfl ?_ ⟨labels, hrun⟩
    intro s label t hs hstep
    obtain ⟨middle, hmove, hkeeps⟩ := move_of_step hstep
    exact hkeeps.disconnect_cb_.trans (hmove.callbacks.1.trans hs)

theorem of_link_idle (h : c.link number = .idle) :
    c.is_connected_ = false ∧ c.is_connecting_ = false := by
  rw [link] at h
  split_ifs at h with hup hconnecting
  exact ⟨Bool.eq_false_of_not_eq_true hup, Bool.eq_false_of_not_eq_true hconnecting⟩

theorem of_link_opening {attempt : ℕ} (h : c.link number = .opening attempt) :
    c.is_connecting_ = true := by
  rw [link] at h
  split_ifs at h with hup hconnecting
  exact hconnecting

theorem of_link_established (h : c.link number = .established) : c.is_connected_ = true := by
  rw [link] at h
  split_ifs at h with hup hconnecting
  exact hup

/-- With no completion on the strand, an attempt lives in an operation. -/
theorem exists_operation {message_cb disconnect_cb : Bool} {labels : List Label}
    (hrun : (machine message_cb disconnect_cb).run labels = some c)
    (hconnecting : c.is_connecting_ = true) (hstrand : c.strand = []) :
    ∃ operation ∈ c.operations,
      operation.attempt? = some (c.disconnect_generation_, c.current) := by
  have hlive := (Attempting.of_run hrun).live
  rw [if_pos hconnecting] at hlive
  have hmem : c.current ∈ c.live := hlive.mem_iff.mpr (List.mem_singleton_self _)
  rw [live, attempts, hstrand, List.filterMap_nil, List.append_nil] at hmem
  obtain ⟨⟨generation, call⟩, hattempt, hcurrent⟩ := List.mem_filterMap.mp hmem
  obtain ⟨operation, hoperation, heq⟩ := List.mem_filterMap.mp hattempt
  obtain ⟨rfl, hcall⟩ := Option.ite_none_right_eq_some.mp hcurrent
  obtain rfl := Option.some.inj hcall
  exact ⟨operation, hoperation, heq⟩

/-- Calls are known by their position among those that have been made. -/
structure Numbered (c : TcpClient) : Prop where
  strand : ∀ call on_connect, .connect call on_connect ∈ c.strand → call < c.calls.length
  current : c.is_connecting_ = true ∨ c.is_connected_ = true → c.current < c.calls.length

theorem Numbered.keeps {s : TcpClient} (h : Numbered s) (hkeeps : Keeps s c) : Numbered c := by
  refine ⟨fun call on_connect hmem => ?_, fun hbusy => ?_⟩
  · rw [hkeeps.calls]
    exact h.strand call on_connect (hkeeps.strand ▸ hmem)
  · rw [hkeeps.calls, hkeeps.current]
    exact h.current (by rwa [← hkeeps.is_connecting_, ← hkeeps.is_connected_])

theorem Numbered.move {label : Label} {s : TcpClient} (h : Numbered c) (hmove : Move c label s) :
    Numbered s := by
  have hle := hmove.calls_le
  refine ⟨fun call on_connect hmem => ?_, fun hbusy => ?_⟩
  · rcases hmove.mem_strand hmem with hmem | ⟨rfl, hcalls⟩
    · exact (h.strand call on_connect hmem).trans_le hle
    · rw [hcalls, List.length_append]
      exact Nat.lt_succ_self _
  · have hsame (hbusy : c.is_connecting_ = true ∨ c.is_connected_ = true) :
        c.current < s.calls.length := (h.current hbusy).trans_le hle
    cases hmove with
    | accept hrunning hstrand hdown hidle => exact h.strand _ _ (hstrand ▸ List.mem_cons_self)
    | fail hrunning hstrand hattempt hvalid hconnecting => exact hsame (.inl hconnecting)
    | establish hrunning hstrand hvalid hconnecting => exact hsame (.inl hconnecting)
    | disconnect hrunning hstrand => rcases hbusy with hbusy | hbusy <;> cases hbusy
    | _ => exact hsame hbusy

theorem numbered_of_run {message_cb disconnect_cb : Bool} {labels : List Label}
    (hrun : (machine message_cb disconnect_cb).run labels = some c) : c.Numbered := by
  refine Machine.invariant (motive := Numbered) ?_ (fun s label t hs hstep => ?_) ⟨labels, hrun⟩
  · exact ⟨fun _ _ hmem => (by cases hmem), fun hbusy => by rcases hbusy with h | h <;> cases h⟩
  · obtain ⟨middle, hmove, hkeeps⟩ := move_of_step hstep
    exact (hs.move hmove).keeps hkeeps

end TcpClient

end SpaceShooter.Client
