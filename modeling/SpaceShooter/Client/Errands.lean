/-
# The errands of the TCP client

What the owner of a TCP client has asked for waits on its strand, payloads to send and commands to
connect or to disconnect. They are taken up in their order, and a payload is accepted for the
connection that is up when its turn comes, if there is one and nobody wants it closed.
-/

import SpaceShooter.Client.SentFrames
import SpaceShooter.Client.Transport

namespace SpaceShooter.Client.TcpClient

open Library Network

/-- A payload that the owner wants to be sent; a command has none. -/
def Handler.errand? : Handler → Option (Option Bytes)
  | .send frame => some (some frame.frame.payload)
  | .connect _ _ => some none
  | .disconnect none => some none
  | _ => none

/-- The part of a client that matters to its errands. -/
structure Desk where
  errands : List (Option Bytes)
  is_connecting_ : Bool
  is_connected_ : Bool
  disconnect_requested_ : Bool
  active_connect_generation_ : ℕ
  accepted : List (ℕ × QueuedFrame)

def desk (c : TcpClient) : Desk where
  errands := c.strand.filterMap Handler.errand?
  is_connecting_ := c.is_connecting_
  is_connected_ := c.is_connected_
  disconnect_requested_ := c.disconnect_requested_
  active_connect_generation_ := c.active_connect_generation_
  accepted := c.accepted

namespace Desk

/-- The payloads accepted for a connection. -/
def acceptedOn (d : Desk) (generation : ℕ) : List Bytes :=
  (framesOf generation d.accepted).map fun frame => frame.frame.payload

/-- What a step of the client on its own does to the errands. -/
inductive Step (d : Desk) : Desk → Prop
  /-- The flag may be raised. -/
  | quiet {flag : Bool} (hflag : d.disconnect_requested_ = true → flag = true) :
    Step d { d with disconnect_requested_ := flag }
  /-- An attempt begins. -/
  | connect {errands : List (Option Bytes)} {generation : ℕ}
    (herrands : d.errands = none :: errands) (hdown : d.is_connected_ = false) :
    Step d { d with
      errands := errands
      is_connecting_ := true
      disconnect_requested_ := false
      active_connect_generation_ := generation }
  /-- An attempt that finds the client in use. -/
  | refuse {errands : List (Option Bytes)} (herrands : d.errands = none :: errands) :
    Step d { d with errands := errands }
  | accept {errands : List (Option Bytes)} {frame : QueuedFrame}
    (herrands : d.errands = some frame.frame.payload :: errands) (hup : d.is_connected_ = true)
    (hwanted : d.disconnect_requested_ = false) :
    Step d { d with
      errands := errands
      accepted := d.accepted ++ [(d.active_connect_generation_, frame)] }
  | drop {errands : List (Option Bytes)} {payload : Bytes}
    (herrands : d.errands = some payload :: errands)
    (hclosed : d.is_connected_ = false ∨ d.disconnect_requested_ = true) :
    Step d { d with errands := errands }
  | establish (hconnecting : d.is_connecting_ = true)
    (hnew : d.acceptedOn d.active_connect_generation_ = []) :
    Step d { d with is_connecting_ := false, is_connected_ := true }
  /-- The attempt or the connection is over. -/
  | fail : Step d { d with is_connecting_ := false, is_connected_ := false }
  | close {errands : List (Option Bytes)} (herrands : d.errands = none :: errands) :
    Step d { d with errands := errands, is_connecting_ := false, is_connected_ := false }

variable {d d' : Desk}

theorem Step.append (h : Step d d') (rest : List (Option Bytes)) :
    Step { d with errands := d.errands ++ rest } { d' with errands := d'.errands ++ rest } := by
  cases h with
  | quiet hflag => exact .quiet hflag
  | connect herrands hdown => exact .connect (congrArg (· ++ rest) herrands) hdown
  | refuse herrands => exact .refuse (congrArg (· ++ rest) herrands)
  | accept herrands hup hwanted => exact .accept (congrArg (· ++ rest) herrands) hup hwanted
  | drop herrands hclosed => exact .drop (congrArg (· ++ rest) herrands) hclosed
  | establish hconnecting hnew => exact .establish hconnecting hnew
  | fail => exact .fail
  | close herrands => exact .close (congrArg (· ++ rest) herrands)

end Desk

variable {c c' : TcpClient} {handler : Handler} {strand : List Handler}

/-! ### Handlers -/

/-- A client whose desk is where a step leads. -/
theorem desk_of {d : Desk} (hstep : Desk.Step c.desk d)
    (herrands : c'.strand.filterMap Handler.errand? = d.errands)
    (hsame : { c'.desk with errands := d.errands } = d) : Desk.Step c.desk c'.desk := by
  have heq : c'.desk = d := by
    rw [← hsame, ← herrands]
    rfl
  rw [heq]
  exact hstep

/-- A step that leaves the errands alone. -/
theorem desk_rest (herrands : c'.strand.filterMap Handler.errand? = c.desk.errands)
    (hsame : { c'.desk with errands := c.desk.errands } = c.desk) : Desk.Step c.desk c'.desk :=
  desk_of (.quiet fun h => h) herrands hsame

theorem errands_pop (hstrand : c.strand = handler :: strand) (h : handler.errand? = none) :
    strand.filterMap Handler.errand? = c.desk.errands := by
  rw [desk, hstrand, List.filterMap_cons_none h]

theorem errands_post (c : TcpClient) (handler : Handler) (h : handler.errand? = none) :
    (c.post handler).strand.filterMap Handler.errand? = c.desk.errands := by
  rw [post, List.filterMap_append, List.filterMap_cons_none h, List.filterMap_nil, List.append_nil]
  rfl

theorem errands_cons {errand : Option Bytes} (hstrand : c.strand = handler :: strand)
    (h : handler.errand? = some errand) :
    c.desk.errands = errand :: strand.filterMap Handler.errand? := by
  rw [desk, hstrand, List.filterMap_cons_some h]

theorem desk_onConnect {call : ℕ} {on_connect : Bool}
    (hstrand : c.strand = .connect call on_connect :: strand) :
    Desk.Step c.desk
      { { c with strand := strand }.onConnect call on_connect with running := none }.desk := by
  have herrands := errands_cons hstrand rfl
  by_cases hbusy : (c.is_connected_ || c.is_connecting_) = true
  · rw [onConnect, if_pos hbusy, invokeConnectCallback_eq]
    exact .refuse herrands
  · obtain ⟨hdown, -⟩ := Bool.or_eq_false_iff.mp (Bool.not_eq_true _ ▸ hbusy)
    rw [onConnect, if_neg hbusy]
    exact .connect herrands hdown

theorem desk_onDisconnect {failed : Option ℕ} (hstrand : c.strand = .disconnect failed :: strand) :
    Desk.Step c.desk { { c with strand := strand }.onDisconnect failed with
      running := none }.desk := by
  rcases { c with strand := strand }.onDisconnect_cases failed with
    ⟨hdown, hidle, heq⟩ | heq <;> rw [heq]
  · cases failed with
    | some generation => exact desk_rest (errands_pop hstrand rfl) rfl
    | none => exact .refuse (errands_cons hstrand rfl)
  · cases failed with
    | some generation => exact desk_of .fail (errands_pop hstrand rfl) rfl
    | none => exact .close (errands_cons hstrand rfl)

theorem desk_onResolved (hexclusive : c.is_connecting_ = true → c.is_connected_ = false)
    {generation call : ℕ} {result : Option Bytes}
    (hstrand : c.strand = .completion (.resolve generation call) result :: strand) :
    Desk.Step c.desk { { c with strand := strand }.onResolved generation call result with
      running := none }.desk := by
  have hpop := errands_pop hstrand rfl
  rcases { c with strand := strand }.onResolved_cases generation call result with
    ⟨-, heq⟩ | ⟨⟨-, hconnecting⟩, ⟨ended, -, heq⟩ | heq⟩ <;> rw [heq]
  · exact desk_rest hpop rfl
  · refine desk_of .fail hpop ?_
    rw [desk]
    dsimp only
    rw [hexclusive hconnecting]
    rfl
  · exact desk_rest hpop rfl

theorem desk_onConnected (horderly : c.writer.Orderly)
    (hexclusive : c.is_connecting_ = true → c.is_connected_ = false) {generation call : ℕ}
    {result : Option Bytes}
    (hstrand : c.strand = .completion (.connect generation call) result :: strand) :
    Desk.Step c.desk { ({ c with strand := strand }.onConnected generation result).1 with
      running := ({ c with strand := strand }.onConnected generation result).2 }.desk := by
  have hpop := errands_pop hstrand rfl
  rcases { c with strand := strand }.onConnected_cases generation result with
    ⟨-, heq⟩ | ⟨⟨hvalid, hconnecting⟩, ⟨⟨ended, -, heq⟩, htask⟩ | ⟨-, heq⟩⟩
  · rw [heq]
    exact desk_rest hpop rfl
  · rw [heq, htask]
    exact desk_of .fail hpop rfl
  · obtain ⟨hactive, hgeneration⟩ : generation = c.active_connect_generation_ ∧
        generation = c.disconnect_generation_ := by
      simpa [isValidGeneration] using hvalid
    -- What was accepted is of the past, and this generation is not.
    have hnew : framesOf c.active_connect_generation_ c.accepted = [] :=
      framesOf_eq_nil fun entry hentry => by
        have hlt : entry.1 < c.disconnect_generation_ :=
          (horderly.accepted entry hentry).lt (hexclusive hconnecting)
        omega
    rw [heq]
    exact desk_of (.establish hconnecting (congrArg (List.map _) hnew)) hpop rfl

theorem desk_onSend {frame : QueuedFrame} (hstrand : c.strand = .send frame :: strand) :
    Desk.Step c.desk { ({ c with strand := strand }.onSend frame).1 with
      running := ({ c with strand := strand }.onSend frame).2 }.desk := by
  have herrands := errands_cons hstrand rfl
  by_cases hdropped : (!c.is_connected_ || c.disconnect_requested_) = true
  · rw [show onSend { c with strand := strand } frame = ({ c with strand := strand }, none) from
      if_pos hdropped]
    have hclosed : c.is_connected_ = false ∨ c.disconnect_requested_ = true := by
      simpa using hdropped
    exact .drop herrands hclosed
  · obtain ⟨hup, hwanted⟩ : c.is_connected_ = true ∧ c.disconnect_requested_ = false := by
      simpa using hdropped
    rw [show onSend { c with strand := strand } frame = _ from if_neg hdropped]
    exact .accept herrands hup hwanted

theorem desk_handle (horderly : c.writer.Orderly)
    (hexclusive : c.is_connecting_ = true → c.is_connected_ = false)
    (hstrand : c.strand = handler :: strand) :
    Desk.Step c.desk { ({ c with strand := strand }.handle handler).1 with
      running := ({ c with strand := strand }.handle handler).2 }.desk := by
  cases handler with
  | connect call on_connect => exact desk_onConnect hstrand
  | send frame => exact desk_onSend hstrand
  | disconnect failed => exact desk_onDisconnect hstrand
  | completion operation result =>
    have hpop := errands_pop hstrand rfl
    cases operation with
    | resolve generation call => exact desk_onResolved hexclusive hstrand
    | connect generation call => exact desk_onConnected horderly hexclusive hstrand
    | read generation =>
      rw [handle]
      by_cases hignored :
          (!c.isValidGeneration generation || !c.is_connected_ || c.disconnect_requested_) = true
      · rw [show onRead { c with strand := strand } generation result =
          ({ c with strand := strand }, none) from if_pos hignored]
        exact desk_rest hpop rfl
      · rw [show onRead { c with strand := strand } generation result = _ from if_neg hignored]
        cases result <;> exact desk_rest hpop rfl
    | write generation frame =>
      obtain ⟨queue, writing, task, heq, -⟩ :=
        { c with strand := strand }.onWritten_cases generation frame result
      rw [handle, heq]
      exact desk_rest hpop rfl

theorem desk_perform (c : TcpClient) (task : Task) :
    Desk.Step c.desk { (c.perform task).1 with running := (c.perform task).2 }.desk := by
  have hrest : Desk.Step c.desk c.desk := .quiet fun h => h
  cases task with
  | disconnect failed =>
    rw [perform, requestDisconnect, tell_eq]
    exact .quiet fun _ => rfl
  | postDisconnect failed =>
    rw [perform, postDisconnect, tell_eq]
    exact desk_rest (c.errands_post (.disconnect (some failed)) rfl) rfl
  | doRead =>
    rw [perform, doRead]
    split_ifs <;> exact hrest
  | doWrite =>
    rw [perform, doWrite]
    split_ifs
    · exact hrest
    · cases c.write_queue_ <;> exact hrest
  | dispatch payloads =>
    cases payloads with
    | nil => exact hrest
    | cons payload payloads =>
      rw [perform]
      split_ifs <;> exact hrest
  | dispatched payloads =>
    rw [perform]
    split_ifs <;> exact hrest
  | finishRead =>
    rw [perform]
    split_ifs <;> exact hrest

/-! ### Steps -/

theorem desk_step (horderly : c.writer.Orderly)
    (hexclusive : c.is_connecting_ = true → c.is_connected_ = false) {label : Label}
    (hinternal : label.isInternal = true) (hlabel : label ≠ .postDisconnect)
    (h : c.step label = some c') : Desk.Step c.desk c'.desk := by
  cases transition_of_step h with
  | complete i operation result pending =>
    exact desk_rest (errands_post _ (.completion operation result) rfl) rfl
  | runHandler handler strand idle first => exact desk_handle horderly hexclusive first
  | resume task suspended => exact desk_perform c task
  | postDisconnect => exact absurd rfl hlabel
  | _ => cases hinternal

end SpaceShooter.Client.TcpClient
