/-
# The client as a whole

The game controller on top of its TCP client, each with a strand of its own. A handler of the
controller makes its calls on the TCP client one by one, while the strand of the TCP client goes
on; the callbacks of the TCP client post handlers on the strand of the controller. What the
controller alone takes for granted about its transport holds here because of what the TCP client
does.
-/

import SpaceShooter.Client.GameController
import SpaceShooter.Client.Transport

namespace SpaceShooter.Client

open Library Network Protocol

/-- The generation of a call of `connect`. -/
def TcpCall.attempt? : TcpCall → Option ℕ
  | .connect _ _ generation => some generation
  | _ => none

/-- The call as the TCP client knows it. -/
def TcpCall.label : TcpCall → TcpClient.Label
  | .connect _ _ _ => .connect true
  | .disconnect => .disconnect
  | .send _ data => .send data

/-- The generation that the callback of a call of `connect` has captured; a call goes by its
position. -/
def GameController.number (c : GameController) (call : ℕ) : ℕ :=
  (c.tcpCalls.filterMap TcpCall.attempt?)[call]?.getD 0

/-- The controller, the TCP client it is wired to, and the number of its calls on it that have
been made. -/
structure GameClient where
  controller : ControllerStrand := {}
  tcp_ : TcpClient := (TcpClient.machine true true).init
  made : ℕ := 0
  deriving DecidableEq

namespace GameClient

/-- What can happen next: a public call from any thread, the strand of the controller taking up
its first handler, that handler making its next call on the TCP client or finishing a
`disconnect`, the end of an operation, and the strand of the TCP client taking up a handler or
going on with one. -/
inductive Label
  | start (host : Bytes) (port : UInt16) (playerName : Bytes)
  | rejoin (host : Bytes) (port : UInt16) (playerName : Bytes)
  | shutdown
  | shoot
  | runHandler (now : Int64) (myPlayerAlive : Bool)
  | call
  | postDisconnect
  | complete (i : ℕ) (result : Option Bytes)
  | runTcpHandler
  | resume
  deriving DecidableEq

/-- The handler of the controller has calls left to make. -/
def isCalling (g : GameClient) : Bool :=
  g.made < g.controller.controller.tcpCalls.length || g.tcp_.disconnecting ≠ 0

/-! ### Callbacks -/

/-- The callbacks of `connect` and for disconnects. -/
def onEvent (number : ℕ → ℕ) (c : ControllerStrand) : TcpClient.Event → ControllerStrand
  | .on_connect call status =>
    { c.post (.connectResult (number call) status) with
      established := if status then number call :: c.established else c.established }
  | .disconnect_cb => c.post .disconnected

/-- The callback for messages. -/
def onMessage (connection : ℕ) (c : ControllerStrand) (payload : PayloadView) : ControllerStrand :=
  c.post (.message connection payload)

/-- The TCP client has made a step, and has invoked callbacks. -/
def hear (g : GameClient) (tcp : TcpClient) : GameClient :=
  let number := g.controller.controller.number
  let heard := (tcp.events.drop g.tcp_.events.length).foldl (onEvent number) g.controller
  { g with
    tcp_ := tcp
    controller := (tcp.messages.drop g.tcp_.messages.length).foldl
      (onMessage (number g.tcp_.current)) heard }

/-! ### Steps -/

def command (g : GameClient) (label : Client.Label) : Option GameClient :=
  (g.controller.step label).map fun controller => { g with controller := controller }

def turn (g : GameClient) (label : TcpClient.Label) : Option GameClient :=
  (g.tcp_.step label).map g.hear

/-- The next call of the handler; the one before has returned. -/
def makeCall (g : GameClient) : Option GameClient :=
  if g.tcp_.disconnecting ≠ 0 then none
  else
    match g.controller.controller.tcpCalls[g.made]? with
    | none => none
    | some call => (g.turn call.label).map fun g => { g with made := g.made + 1 }

def step (g : GameClient) : Label → Option GameClient
  | .start host port playerName => g.command (.start host port playerName)
  | .rejoin host port playerName => g.command (.rejoin host port playerName)
  | .shutdown => g.command .shutdown
  | .shoot => g.command .shoot
  -- The strand runs one handler at a time.
  | .runHandler now myPlayerAlive =>
    if g.isCalling then none else g.command (.runHandler now myPlayerAlive)
  | .call => g.makeCall
  | .postDisconnect => g.turn .postDisconnect
  | .complete i result => g.turn (.complete i result)
  | .runTcpHandler => g.turn .runHandler
  | .resume => g.turn .resume

def machine : Machine GameClient Label where
  init := {}
  step := step

/-! ### What a step is -/

/-- A handler that no callback posts. -/
def isPublic : Post → Bool
  | .connectResult _ _ => false
  | .disconnected => false
  | .message _ _ => false
  | _ => true

inductive Transition (g : GameClient) : Label → GameClient → Prop
  | post {label : Label} (event : Client.Label) (handler : Post)
    (hpublic : isPublic handler = true) (hcall : ∀ now alive, event ≠ .runHandler now alive)
    (hstep : g.controller.step event = some (g.controller.post handler)) :
    Transition g label { g with controller := g.controller.post handler }
  /-- A name that the controller does not take. -/
  | refuse {label : Label} : Transition g label g
  | handle (now : Int64) (myPlayerAlive : Bool) (handler : Post) (strand : List Post)
    (hdone : g.isCalling = false) (hstrand : g.controller.strand = handler :: strand) :
    Transition g (.runHandler now myPlayerAlive) { g with
      controller := { g.controller with
        controller :=
          ControllerStrand.handle g.controller.controller now myPlayerAlive handler
        strand := strand } }
  | call (call : TcpCall) (tcp : TcpClient) (hreturned : g.tcp_.disconnecting = 0)
    (hnext : g.controller.controller.tcpCalls[g.made]? = some call)
    (hstep : g.tcp_.step call.label = some tcp) :
    Transition g .call { g.hear tcp with made := g.made + 1 }
  | turn {label : Label} (event : TcpClient.Label) (tcp : TcpClient)
    (hinternal : event.isInternal = true) (hstep : g.tcp_.step event = some tcp) :
    Transition g label (g.hear tcp)

variable {g g' : GameClient}

theorem command_eq_some {event : Client.Label} (h : g.command event = some g') :
    ∃ controller, g.controller.step event = some controller ∧
      g' = { g with controller := controller } := by
  obtain ⟨controller, hstep, heq⟩ := Option.map_eq_some_iff.mp h
  exact ⟨controller, hstep, heq.symm⟩

theorem transition_of_turn {label : Label} {event : TcpClient.Label}
    (hinternal : event.isInternal = true) (h : g.turn event = some g') :
    Transition g label g' := by
  obtain ⟨tcp, hstep, rfl⟩ := Option.map_eq_some_iff.mp h
  exact .turn event tcp hinternal hstep

theorem transition_of_step {label : Label} (h : g.step label = some g') :
    Transition g label g' := by
  cases label with
  | start host port name =>
    obtain ⟨controller, hstep, rfl⟩ := command_eq_some h
    by_cases hvalid : validatePlayerName name = true
    · have heq : g.controller.step (.start host port name) =
          some (g.controller.post (.doStart host port name)) := congrArg some (if_pos hvalid)
      obtain rfl := Option.some.inj (hstep.symm.trans heq)
      exact .post _ (.doStart host port name) rfl (fun _ _ h => by cases h) heq
    · obtain rfl := Option.some.inj (hstep.symm.trans (congrArg some (if_neg hvalid)))
      exact .refuse
  | rejoin host port name =>
    obtain ⟨controller, hstep, rfl⟩ := command_eq_some h
    by_cases hvalid : validatePlayerName name = true
    · have heq : g.controller.step (.rejoin host port name) =
          some (g.controller.post (.rejoin host port name)) := congrArg some (if_pos hvalid)
      obtain rfl := Option.some.inj (hstep.symm.trans heq)
      exact .post _ (.rejoin host port name) rfl (fun _ _ h => by cases h) heq
    · obtain rfl := Option.some.inj (hstep.symm.trans (congrArg some (if_neg hvalid)))
      exact .refuse
  | shutdown =>
    obtain ⟨controller, hstep, rfl⟩ := command_eq_some h
    exact Option.some.inj hstep ▸
      .post .shutdown .doShutdown rfl (fun _ _ h => by cases h) rfl
  | shoot =>
    obtain ⟨controller, hstep, rfl⟩ := command_eq_some h
    exact Option.some.inj hstep ▸
      .post .shoot .doShoot rfl (fun _ _ h => by cases h) rfl
  | runHandler now alive =>
    obtain ⟨hdone, h⟩ := Option.ite_none_left_eq_some.mp h
    obtain ⟨controller, hstep, rfl⟩ := command_eq_some h
    rw [ControllerStrand.step] at hstep
    split at hstep
    · cases hstep
    · next handler strand hstrand =>
      exact Option.some.inj hstep ▸
        .handle now alive handler strand (Bool.eq_false_of_not_eq_true hdone) hstrand
  | call =>
    obtain ⟨hreturned, h⟩ := Option.ite_none_left_eq_some.mp h
    rw [not_not] at hreturned
    split at h
    · cases h
    · next call hnext =>
      obtain ⟨heard, hturn, rfl⟩ := Option.map_eq_some_iff.mp h
      obtain ⟨tcp, hstep, rfl⟩ := Option.map_eq_some_iff.mp hturn
      exact .call call tcp hreturned hnext hstep
  | postDisconnect => exact transition_of_turn rfl h
  | complete i result => exact transition_of_turn rfl h
  | runTcpHandler => exact transition_of_turn rfl h
  | resume => exact transition_of_turn rfl h

/-! ### What the callbacks change -/

theorem foldl_onEvent (number : ℕ → ℕ) (events : List TcpClient.Event) (c : ControllerStrand) :
    (events.foldl (onEvent number) c).controller = c.controller := by
  induction events generalizing c with
  | nil => rfl
  | cons event events ih =>
    refine (ih _).trans ?_
    cases event <;> rfl

theorem foldl_onMessage (connection : ℕ) (payloads : List PayloadView) (c : ControllerStrand) :
    payloads.foldl (onMessage connection) c =
      { c with strand := c.strand ++ payloads.map (.message connection) } := by
  induction payloads generalizing c with
  | nil => simp
  | cons payload payloads ih => simp [ih, onMessage, ControllerStrand.post]

theorem tcp_hear (g : GameClient) (tcp : TcpClient) : (g.hear tcp).tcp_ = tcp := rfl

/-- The callbacks only post. -/
theorem controller_hear (g : GameClient) (tcp : TcpClient) :
    (g.hear tcp).controller.controller = g.controller.controller := by
  rw [hear]
  dsimp only
  rw [foldl_onMessage]
  exact foldl_onEvent _ _ _

/-! ### What holds of the two together -/

/-- What a handler of the controller adds to the calls on the TCP client. -/
theorem tcpCalls_handle (c : GameController) (now : Int64) (alive : Bool) (handler : Post) :
    ∃ calls, (ControllerStrand.handle c now alive handler).tcpCalls = c.tcpCalls ++ calls := by
  have hsame {c' : GameController} (heq : c'.tcpCalls = c.tcpCalls) :
      ∃ calls, c'.tcpCalls = c.tcpCalls ++ calls := ⟨[], heq.trans (List.append_nil _).symm⟩
  cases handler with
  | doStart host port name =>
    rcases ControllerStrand.doStart_cases c host port name with heq | ⟨-, heq⟩ <;>
      rw [ControllerStrand.handle, heq]
    · exact hsame rfl
    · exact ⟨_, rfl⟩
  | doShutdown =>
    rw [ControllerStrand.handle, ControllerStrand.doShutdown_eq]
    exact ⟨_, rfl⟩
  | rejoin host port name =>
    rcases ControllerStrand.doStart_cases c.doShutdown host port name with heq | ⟨-, heq⟩ <;>
      rw [ControllerStrand.handle, heq, ControllerStrand.doShutdown_eq]
    · exact ⟨_, rfl⟩
    · exact ⟨_, List.append_assoc _ _ _⟩
  | doShoot =>
    rcases ControllerStrand.doShoot_cases c now alive with heq | heq <;>
      rw [ControllerStrand.handle, heq]
    · exact hsame rfl
    · exact ⟨_, rfl⟩
  | connectResult generation ok =>
    rcases ControllerStrand.onConnectResult_cases c generation ok with ⟨heq, -⟩ | ⟨-, -, heq⟩ <;>
      rw [ControllerStrand.handle, heq]
    · exact hsame rfl
    · cases ok with
      | true => exact ⟨_, rfl⟩
      | false => exact hsame rfl
  | disconnected =>
    rcases ControllerStrand.onDisconnect_cases c with heq | heq <;>
      rw [ControllerStrand.handle, heq] <;> exact hsame rfl
  | message connection payload =>
    rcases ControllerStrand.onMessageOnStrand_cases c connection payload with
      heq | heq | ⟨-, -, heq⟩ | ⟨-, -, -, heq⟩ <;> rw [ControllerStrand.handle, heq]
    · exact hsame rfl
    · rw [ControllerStrand.doShutdown_eq]
      exact ⟨_, rfl⟩
    · exact hsame rfl
    · exact hsame rfl

/-- The TCP client has made a run of its own, in which the calls were those that the controller
has made. -/
structure Composed (g : GameClient) : Prop where
  run : ∃ labels, (TcpClient.machine true true).run labels = some g.tcp_
  on_connect : ∀ call ∈ g.tcp_.calls, call.on_connect = true
  made_le : g.made ≤ g.controller.controller.tcpCalls.length
  counted : g.tcp_.calls.length =
    ((g.controller.controller.tcpCalls.take g.made).filterMap TcpCall.attempt?).length

theorem Composed.wired (h : g.Composed) : g.tcp_.Wired := by
  obtain ⟨labels, hrun⟩ := h.run
  exact TcpClient.wired_of_run hrun h.on_connect

theorem Composed.numbered (h : g.Composed) : g.tcp_.Numbered := by
  obtain ⟨labels, hrun⟩ := h.run
  exact TcpClient.numbered_of_run hrun

theorem Composed.extend (h : g.Composed) {label : TcpClient.Label} {tcp : TcpClient}
    (hstep : g.tcp_.step label = some tcp) :
    ∃ labels, (TcpClient.machine true true).run labels = some tcp := by
  obtain ⟨labels, hrun⟩ := h.run
  exact ⟨labels ++ [label], Machine.run_concat.mpr ⟨_, hrun, hstep⟩⟩

/-- What a call of the controller adds to the calls of `connect`. -/
theorem calls_call {tcp tcp' : TcpClient} (call : TcpCall)
    (hstep : tcp.step call.label = some tcp') :
    ∃ calls : List TcpClient.Call, tcp'.calls = tcp.calls ++ calls ∧
      (∀ call ∈ calls, call.on_connect = true) ∧
      calls.length = call.attempt?.toList.length := by
  cases call with
  | connect host port generation =>
    cases TcpClient.transition_of_step hstep with
    | connect =>
      refine ⟨[_], rfl, fun call hmem => ?_, rfl⟩
      rw [List.mem_singleton.mp hmem]
  | disconnect =>
    cases TcpClient.transition_of_step hstep with
    | disconnect =>
      refine ⟨[], ?_, fun call hmem => (by cases hmem), rfl⟩
      rw [TcpClient.requestDisconnect, TcpClient.tell_eq]
      exact (List.append_nil _).symm
  | send generation data =>
    cases TcpClient.transition_of_step hstep with
    | send | refuse =>
      exact ⟨[], (List.append_nil _).symm, fun call hmem => (by cases hmem), rfl⟩

theorem Composed.step (h : g.Composed) {label : Label} (hgoes : g.step label = some g') :
    g'.Composed := by
  cases transition_of_step hgoes with
  | post event handler => exact ⟨h.run, h.on_connect, h.made_le, h.counted⟩
  | refuse => exact h
  | handle now alive handler strand hdone hstrand =>
    obtain ⟨calls, hcalls⟩ := tcpCalls_handle g.controller.controller now alive handler
    refine ⟨h.run, h.on_connect, ?_, ?_⟩
    · dsimp only
      rw [hcalls, List.length_append]
      exact h.made_le.trans (Nat.le_add_right _ _)
    · dsimp only
      rw [hcalls, List.take_append_of_le_length h.made_le]
      exact h.counted
  | call call tcp hreturned hnext hstep =>
    obtain ⟨calls, hcalls, hgiven, hlength⟩ := calls_call call hstep
    obtain ⟨hlt, hget⟩ := List.getElem?_eq_some_iff.mp hnext
    refine ⟨h.extend hstep, fun call hmem => ?_, ?_, ?_⟩
    · dsimp only at hmem
      rw [tcp_hear, hcalls] at hmem
      exact (List.mem_append.mp hmem).elim (h.on_connect call) (hgiven call)
    · dsimp only
      rw [controller_hear]
      exact hlt
    · dsimp only
      rw [controller_hear, List.take_add_one, hnext, List.filterMap_append, List.length_append,
        ← h.counted, tcp_hear, hcalls, List.length_append, hlength]
      cases call <;> rfl
  | turn event tcp hinternal hstep =>
    have hcalls := TcpClient.calls_of_internal h.wired hinternal hstep
    refine ⟨h.extend hstep, ?_, ?_, ?_⟩
    · rw [tcp_hear, hcalls]
      exact h.on_connect
    · rw [controller_hear]
      exact h.made_le
    · rw [controller_hear, tcp_hear, hcalls]
      exact h.counted

theorem composed_of_run {labels : List Label} (hrun : machine.run labels = some g) :
    g.Composed := by
  refine Machine.invariant (motive := Composed) ?_ (fun g label g' h hstep => h.step hstep)
    ⟨labels, hrun⟩
  exact ⟨⟨[], rfl⟩, fun _ hmem => (by cases hmem), Nat.zero_le _, rfl⟩

/-! ### Numbers of calls -/

/-- The generation of a call stays what it is. -/
theorem number_of_append {c c' : GameController} {calls : List TcpCall}
    (hcalls : c'.tcpCalls = c.tcpCalls ++ calls) {call : ℕ}
    (hlt : call < (c.tcpCalls.filterMap TcpCall.attempt?).length) :
    c'.number call = c.number call := by
  rw [GameController.number, GameController.number, hcalls, List.filterMap_append,
    List.getElem?_append_left hlt]

theorem Composed.lt_attempts (h : g.Composed) {call : ℕ} (hlt : call < g.tcp_.calls.length) :
    call < (g.controller.controller.tcpCalls.filterMap TcpCall.attempt?).length := by
  refine hlt.trans_le ?_
  rw [h.counted]
  exact ((List.take_sublist _ _).filterMap _).length_le

/-- The next call of `connect` has the generation that the controller has given it. -/
theorem Composed.number_next (h : g.Composed) {host : Bytes} {port : UInt16} {generation : ℕ}
    (hnext : g.controller.controller.tcpCalls[g.made]? = some (.connect host port generation)) :
    g.controller.controller.number g.tcp_.calls.length = generation := by
  obtain ⟨hlt, hget⟩ := List.getElem?_eq_some_iff.mp hnext
  have hsplit := List.take_append_drop g.made g.controller.controller.tcpCalls
  rw [List.drop_eq_getElem_cons hlt, hget] at hsplit
  rw [GameController.number, ← hsplit, List.filterMap_append,
    List.getElem?_append_right h.counted.ge, h.counted, Nat.sub_self]
  rfl

end GameClient

end SpaceShooter.Client
