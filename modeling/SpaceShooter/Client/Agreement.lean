/-
# The controller and its transport agree

The controller supervises the TCP client: it has attempts made and connections closed, and hears
of their results and ends. Unless an earlier connection's reply gets in between while it is
connecting, its state is that of the transport whenever nothing is left on the two strands, and
no attempt finds the transport in use.
-/

import SpaceShooter.Client.GameClient

namespace SpaceShooter.Client

open Library Network Supervision Protocol Relation

/-! ### The controller as a supervisor -/

/-- What a state of the controller takes the transport for. -/
def ClientState.phase : ClientState → Phase
  | .Disconnected => .down
  | .Connecting => .opening
  | _ => .up

def TcpCall.command? : TcpCall → Option Command
  | .connect _ _ generation => some (.attempt generation)
  | .disconnect => some .close
  | .send _ _ => none

def Post.report? : Post → Option Report
  | .connectResult generation ok => some (.result generation ok)
  | .disconnected => some .down
  | _ => none

/-- An `ACCEPT` or a `GAME_END` is not handled while the controller is connecting: it would be
that of an earlier connection. -/
def Timely (c : GameController) : Post → Prop
  | .message _ payload =>
    c.state_ = .Connecting →
      (decode payload).type ≠ .Accept ∧ (decode payload).type ≠ .GameEnd
  | _ => True

instance (c : GameController) (handler : Post) : Decidable (Timely c handler) := by
  unfold Timely
  split <;> infer_instance

namespace GameController

open ControllerStrand

/-- A controller supervises its link, with the reports for it on its strand. -/
def Supervises (c c' : GameController) (report : Option Report) : Prop :=
  ∃ calls, c'.tcpCalls = c.tcpCalls ++ calls ∧
    ∀ (link : Link) (commands : List Command) (reports : List Report),
      ReflTransGen Supervision.Step
        ⟨c.state_.phase, c.connectGen_, link, commands, report.toList ++ reports⟩
        ⟨c'.state_.phase, c'.connectGen_, link,
          commands ++ calls.filterMap TcpCall.command?, reports⟩

variable {c c' c'' : GameController} {report : Option Report}

theorem Supervises.trans (h : Supervises c c' report) (h' : Supervises c' c'' none) :
    Supervises c c'' report := by
  obtain ⟨calls, hcalls, hsteps⟩ := h
  obtain ⟨calls', hcalls', hsteps'⟩ := h'
  refine ⟨calls ++ calls', ?_, fun link commands reports => ?_⟩
  · rw [hcalls', hcalls, List.append_assoc]
  · rw [List.filterMap_append, ← List.append_assoc]
    exact (hsteps link commands reports).trans (hsteps' link _ reports)

/-- Nothing that matters to the link. -/
theorem supervises_of_same {calls : List TcpCall} (hcalls : c'.tcpCalls = c.tcpCalls ++ calls)
    (hnone : calls.filterMap TcpCall.command? = [])
    (hphase : c'.state_.phase = c.state_.phase) (hattempt : c'.connectGen_ = c.connectGen_) :
    Supervises c c' none := by
  refine ⟨calls, hcalls, fun link commands reports => ?_⟩
  rw [hnone, hphase, hattempt, List.append_nil]
  exact .refl

theorem Supervises.refl (c : GameController) : Supervises c c none :=
  supervises_of_same (List.append_nil _).symm rfl rfl rfl

theorem supervises_doStart (c : GameController) (host : Bytes) (port : UInt16) (name : Bytes) :
    Supervises c (c.doStart host port name) none := by
  rcases doStart_cases c host port name with heq | ⟨hdown, heq⟩ <;> rw [heq]
  · exact .refl c
  · refine ⟨_, rfl, fun link commands reports => ?_⟩
    rw [hdown]
    exact .single (.start rfl)

theorem supervises_doShutdown (c : GameController) : Supervises c c.doShutdown none := by
  rw [doShutdown_eq]
  exact ⟨_, rfl, fun link commands reports => .single .stop⟩

theorem supervises_doShoot (c : GameController) (now : Int64) (alive : Bool) :
    Supervises c (c.doShoot now alive) none := by
  rcases doShoot_cases c now alive with heq | heq <;> rw [heq]
  · exact .refl c
  · exact supervises_of_same rfl rfl rfl rfl

/-- A result counts if it is that of the current attempt. -/
theorem supervises_onConnectResult (c : GameController) (generation : ℕ) (ok : Bool) :
    Supervises c (c.onConnectResult generation ok) (some (.result generation ok)) := by
  have hopening : c.state_.phase = .opening ↔ c.state_ = .Connecting := by
    cases c.state_ <;> simp [ClientState.phase]
  rcases onConnectResult_cases c generation ok with
    ⟨heq, hother⟩ | ⟨rfl, hconnecting, heq⟩ <;> rw [heq]
  · refine ⟨[], (List.append_nil _).symm, fun link commands reports => .single ?_⟩
    have hhear := Supervision.Step.hearResult (s := ⟨c.state_.phase, c.connectGen_, link,
      commands, .result generation ok :: reports⟩) rfl
    have hignored : ¬ (c.connectGen_ = generation ∧ c.state_.phase = .opening) := by
      rintro ⟨hsame, hphase⟩
      exact hother.elim (fun hne => hne hsame) fun hne => hne (hopening.mp hphase)
    dsimp only at hhear
    rw [if_neg hignored] at hhear
    rw [List.filterMap_nil, List.append_nil]
    exact hhear
  · have hcounts : c.connectGen_ = c.connectGen_ ∧ c.state_.phase = .opening :=
      ⟨rfl, hopening.mpr hconnecting⟩
    cases ok with
    | true =>
      refine ⟨_, rfl, fun link commands reports => .single ?_⟩
      have hhear := Supervision.Step.hearResult (s := ⟨c.state_.phase, c.connectGen_, link,
        commands, .result c.connectGen_ true :: reports⟩) rfl
      dsimp only at hhear
      rw [if_pos hcounts] at hhear
      rw [show List.filterMap TcpCall.command? [TcpCall.send _ _] = [] from rfl, List.append_nil]
      exact hhear
    | false =>
      refine ⟨[], (List.append_nil _).symm, fun link commands reports => .single ?_⟩
      have hhear := Supervision.Step.hearResult (s := ⟨c.state_.phase, c.connectGen_, link,
        commands, .result c.connectGen_ false :: reports⟩) rfl
      dsimp only at hhear
      rw [if_pos hcounts] at hhear
      rw [List.filterMap_nil, List.append_nil]
      exact hhear

theorem supervises_onDisconnect (c : GameController) :
    Supervises c c.onDisconnect (some .down) := by
  have hphase : c.onDisconnect.state_.phase =
      if c.state_.phase = .up then .down else c.state_.phase := by
    rw [onDisconnect, setState]
    cases hstate : c.state_ <;> simp [ClientState.phase, hstate]
  have hcalls : c.onDisconnect.tcpCalls = c.tcpCalls ∧
      c.onDisconnect.connectGen_ = c.connectGen_ := by
    rcases onDisconnect_cases c with heq | heq <;> rw [heq] <;> exact ⟨rfl, rfl⟩
  refine ⟨[], hcalls.1.trans (List.append_nil _).symm, fun link commands reports => .single ?_⟩
  rw [hphase, hcalls.2, List.filterMap_nil, List.append_nil]
  exact .hearDown rfl

/-- In the other states the controller takes the transport to be connected. -/
theorem phase_of_up (hconnecting : c.state_ ≠ .Connecting)
    (hdisconnected : c.state_ ≠ .Disconnected) : c.state_.phase = .up := by
  cases hstate : c.state_ with
  | Disconnected => exact absurd hstate hdisconnected
  | Connecting => exact absurd hstate hconnecting
  | _ => rfl

theorem supervises_onMessage {connection : ℕ} {payload : Bytes}
    (htimely : Timely c (.message connection payload)) :
    Supervises c (c.onMessageOnStrand connection payload) none := by
  -- Outside of connecting, a controller that is not disconnected stays up.
  rcases onMessageOnStrand_cases c connection payload with
    heq | heq | ⟨hdisconnected, htype, heq⟩ | ⟨hdisconnected, -, htype, heq⟩ <;> rw [heq]
  · exact .refl c
  · exact supervises_doShutdown c
  · refine supervises_of_same (List.append_nil _).symm rfl (phase_of_up ?_ hdisconnected).symm rfl
    exact fun hconnecting => (htimely hconnecting).2 htype
  · refine supervises_of_same (List.append_nil _).symm rfl (phase_of_up ?_ hdisconnected).symm rfl
    exact fun hconnecting => (htimely hconnecting).1 htype

theorem supervises_handle (now : Int64) (alive : Bool) {handler : Post}
    (htimely : Timely c handler) :
    Supervises c (handle c now alive handler) handler.report? := by
  cases handler with
  | doStart host port name => exact supervises_doStart c host port name
  | doShutdown => exact supervises_doShutdown c
  | rejoin host port name =>
    exact (supervises_doShutdown c).trans (supervises_doStart _ host port name)
  | doShoot => exact supervises_doShoot c now alive
  | connectResult generation ok => exact supervises_onConnectResult c generation ok
  | disconnected => exact supervises_onDisconnect c
  | message connection payload => exact supervises_onMessage htimely

end GameController

namespace GameClient

/-! ### The client as a supervisor with its link -/

/-- The commands are on the strand of the TCP client, with a thread in `disconnect`, or among
the calls that are still to be made. -/
def supervision (g : GameClient) : Supervision where
  phase := g.controller.controller.state_.phase
  attempt := g.controller.controller.connectGen_
  link := g.tcp_.link g.controller.controller.number
  commands := g.tcp_.strand.filterMap (TcpClient.Handler.command? g.controller.controller.number) ++
    (List.replicate g.tcp_.disconnecting .close ++
      (g.controller.controller.tcpCalls.drop g.made).filterMap TcpCall.command?)
  reports := g.controller.strand.filterMap Post.report?

variable {g g' : GameClient}

theorem reports_onEvent (number : ℕ → ℕ) (events : List TcpClient.Event) (c : ControllerStrand) :
    (events.foldl (onEvent number) c).strand.filterMap Post.report? =
      c.strand.filterMap Post.report? ++ events.map (TcpClient.Event.report number) := by
  induction events generalizing c with
  | nil => exact (List.append_nil _).symm
  | cons event events ih =>
    have hpost : (onEvent number c event).strand.filterMap Post.report? =
        c.strand.filterMap Post.report? ++ [event.report number] := by
      cases event <;> exact List.filterMap_append
    rw [List.foldl_cons, ih, hpost, List.append_assoc]
    rfl

/-- What the callbacks of a step have posted is what is reported. -/
theorem reports_hear {tcp : TcpClient} {events : List TcpClient.Event}
    (hevents : tcp.events = g.tcp_.events ++ events) :
    (g.hear tcp).controller.strand.filterMap Post.report? =
      g.controller.strand.filterMap Post.report? ++
        events.map (TcpClient.Event.report g.controller.controller.number) := by
  rw [hear]
  dsimp only
  have hsilent (payloads : List PayloadView) (connection : ℕ) :
      (payloads.map (Post.message connection)).filterMap Post.report? = [] := by
    rw [List.filterMap_map]
    exact List.filterMap_eq_nil_iff.mpr fun _ _ => rfl
  rw [foldl_onMessage, List.filterMap_append, hsilent, List.append_nil, reports_onEvent, hevents,
    List.drop_left]

/-- The numbers that the TCP client knows stay what they are. -/
theorem Composed.link_eq (h : g.Composed) {c : GameController} {calls : List TcpCall}
    (hcalls : c.tcpCalls = g.controller.controller.tcpCalls ++ calls) :
    g.tcp_.link c.number = g.tcp_.link g.controller.controller.number ∧
      g.tcp_.strand.filterMap (TcpClient.Handler.command? c.number) =
        g.tcp_.strand.filterMap (TcpClient.Handler.command? g.controller.controller.number) := by
  have hnumber {call : ℕ} (hlt : call < g.tcp_.calls.length) :
      c.number call = g.controller.controller.number call :=
    number_of_append hcalls (h.lt_attempts hlt)
  refine ⟨?_, List.filterMap_congr fun handler hmem => ?_⟩
  · rw [TcpClient.link, TcpClient.link]
    split_ifs with hup hconnecting
    · rfl
    · rw [hnumber (h.numbered.current (.inl hconnecting))]
    · rfl
  · cases handler with
    | connect call on_connect =>
      rw [TcpClient.Handler.command?, TcpClient.Handler.command?,
        hnumber (h.numbered.strand call on_connect hmem)]
    | disconnect failed => cases failed <;> rfl
    | _ => rfl

theorem steps_handle (h : g.Composed) {now : Int64} {alive : Bool} {handler : Post}
    {strand : List Post} (htimely : Timely g.controller.controller handler)
    (hdone : g.isCalling = false) (hstrand : g.controller.strand = handler :: strand) :
    ReflTransGen Step g.supervision (supervision { g with
      controller := { g.controller with
        controller := ControllerStrand.handle g.controller.controller now alive handler
        strand := strand } }) := by
  obtain ⟨hmade, hreturned⟩ : g.controller.controller.tcpCalls.length ≤ g.made ∧
      g.tcp_.disconnecting = 0 := by
    simpa [isCalling] using hdone
  have hall : g.made = g.controller.controller.tcpCalls.length := Nat.le_antisymm h.made_le hmade
  obtain ⟨calls, hcalls, hsteps⟩ :=
    g.controller.controller.supervises_handle now alive htimely
  obtain ⟨hlink, hcommands⟩ := h.link_eq hcalls
  have hreports : handler.report?.toList ++ strand.filterMap Post.report? =
      g.controller.strand.filterMap Post.report? := by
    rw [hstrand, List.filterMap_cons]
    cases handler.report? <;> rfl
  have hrun := hsteps (g.tcp_.link g.controller.controller.number)
    (g.tcp_.strand.filterMap (TcpClient.Handler.command? g.controller.controller.number))
    (strand.filterMap Post.report?)
  rw [supervision, supervision]
  dsimp only
  rw [hlink, hcommands, hreturned, hcalls, hall, List.drop_length, List.drop_left, ← hreports]
  rw [List.replicate_zero, List.nil_append, List.nil_append, List.filterMap_nil, List.append_nil]
  exact hrun

/-- A call is a command; it goes from the controller to the strand of the TCP client. -/
theorem supervision_call (h : g.Composed) {call : TcpCall} {tcp : TcpClient}
    (hreturned : g.tcp_.disconnecting = 0)
    (hnext : g.controller.controller.tcpCalls[g.made]? = some call)
    (hstep : g.tcp_.step call.label = some tcp) :
    supervision { g.hear tcp with made := g.made + 1 } = g.supervision := by
  obtain ⟨hlt, hget⟩ := List.getElem?_eq_some_iff.mp hnext
  have hdrop : g.controller.controller.tcpCalls.drop g.made =
      call :: g.controller.controller.tcpCalls.drop (g.made + 1) := by
    rw [List.drop_eq_getElem_cons hlt, hget]
  -- The command leaves the calls and comes last among those of the TCP client.
  have hview (hevents : tcp.events = g.tcp_.events)
      (hlink : tcp.link g.controller.controller.number =
        g.tcp_.link g.controller.controller.number)
      (hcommands : tcp.strand.filterMap
          (TcpClient.Handler.command? g.controller.controller.number) ++
            List.replicate tcp.disconnecting .close =
        g.tcp_.strand.filterMap (TcpClient.Handler.command? g.controller.controller.number) ++
          call.command?.toList) :
      supervision { g.hear tcp with made := g.made + 1 } = g.supervision := by
    have hheard := reports_hear (g := g) (hevents.trans (List.append_nil _).symm)
    rw [supervision, supervision]
    dsimp only
    rw [hheard, controller_hear, tcp_hear, hlink, hdrop, List.map_nil, List.append_nil, hreturned,
      ← List.append_assoc, hcommands, List.replicate_zero, List.nil_append, List.filterMap_cons]
    cases call.command? <;> simp
  cases call with
  | connect host port generation =>
    cases TcpClient.transition_of_step hstep with
    | connect =>
      refine hview rfl rfl ?_
      rw [TcpClient.post, hreturned, List.filterMap_append, ← h.number_next hnext]
      exact List.append_nil _
  | disconnect =>
    cases TcpClient.transition_of_step hstep with
    | disconnect =>
      rw [TcpClient.requestDisconnect, TcpClient.tell_eq] at hview ⊢
      refine hview rfl rfl ?_
      rw [hreturned]
      rfl
  | send generation data =>
    cases TcpClient.transition_of_step hstep with
    | send frame =>
      refine hview rfl rfl ?_
      rw [hreturned]
      exact congrArg (· ++ _) (g.tcp_.commands_post rfl)
    | refuse =>
      refine hview rfl rfl ?_
      rw [hreturned]
      rfl

/-- The close goes from the thread in `disconnect` to the strand. -/
theorem supervision_postDisconnect {tcp : TcpClient}
    (hstep : g.tcp_.step .postDisconnect = some tcp) :
    (g.hear tcp).supervision = g.supervision := by
  obtain ⟨hevents, hlink, hstrand, hthreads⟩ : tcp.events = g.tcp_.events ∧
      tcp.link g.controller.controller.number = g.tcp_.link g.controller.controller.number ∧
      tcp.strand = g.tcp_.strand ++ [.disconnect none] ∧
      g.tcp_.disconnecting = tcp.disconnecting + 1 := by
    cases TcpClient.transition_of_step hstep with
    | postDisconnect called =>
      rw [TcpClient.postDisconnect, TcpClient.tell_eq]
      exact ⟨rfl, rfl, rfl, (Nat.succ_pred called).symm⟩
  rw [supervision, supervision, reports_hear (hevents.trans (List.append_nil _).symm),
    controller_hear, tcp_hear, hlink, hstrand, hthreads, List.replicate_succ,
    List.filterMap_append, List.map_nil, List.append_nil, List.append_assoc]
  rfl

theorem steps_turn (h : g.Composed) {event : TcpClient.Label} {tcp : TcpClient}
    (hinternal : event.isInternal = true) (hstep : g.tcp_.step event = some tcp) :
    ReflTransGen Step g.supervision (g.hear tcp).supervision := by
  by_cases hlabel : event = .postDisconnect
  · subst hlabel
    rw [supervision_postDisconnect hstep]
  · obtain ⟨⟨hthreads, -⟩, events, hevents, hsteps⟩ : TcpClient.Guides
        g.controller.controller.number g.tcp_ tcp :=
      TcpClient.guides_step h.wired hinternal hlabel hstep
    have hrun := hsteps g.controller.controller.state_.phase g.controller.controller.connectGen_
      (List.replicate g.tcp_.disconnecting .close ++
        (g.controller.controller.tcpCalls.drop g.made).filterMap TcpCall.command?)
      (g.controller.strand.filterMap Post.report?)
    rw [supervision, supervision, reports_hear hevents, controller_hear, tcp_hear, hthreads]
    exact hrun

/-! ### Runs -/

/-- A step in which the controller, while it is connecting, does not handle the `ACCEPT` or the
`GAME_END` of an earlier connection. -/
def TimelyStep (g : GameClient) (label : Label) : Prop :=
  match label, g.controller.strand with
  | .runHandler _ _, handler :: _ => Timely g.controller.controller handler
  | _, _ => True

instance (g : GameClient) (label : Label) : Decidable (TimelyStep g label) := by
  unfold TimelyStep
  split <;> infer_instance

theorem steps_of_step (h : g.Composed) {label : Label} (htimely : TimelyStep g label)
    (hgoes : g.step label = some g') : ReflTransGen Step g.supervision g'.supervision := by
  cases transition_of_step hgoes with
  | post event handler hpublic =>
    have hsilent : handler.report? = none := by
      cases handler <;> first | rfl | cases hpublic
    have hsame : supervision { g with controller := g.controller.post handler } =
        g.supervision := by
      rw [supervision, supervision, ControllerStrand.post, List.filterMap_append,
        List.filterMap_cons_none hsilent, List.filterMap_nil, List.append_nil]
    rw [hsame]
  | refuse => exact .refl
  | handle now alive handler strand hdone hstrand =>
    have hown : Timely g.controller.controller handler := by
      simpa only [TimelyStep, hstrand] using htimely
    exact steps_handle h hown hdone hstrand
  | call call tcp hreturned hnext hstep => rw [supervision_call h hreturned hnext hstep]
  | turn event tcp hinternal hstep => exact steps_turn h hinternal hstep

theorem agree_of_run {labels : List Label} (hrun : machine.run labels = some g)
    (htimely : machine.Meets TimelyStep labels) : g.supervision.Agree := by
  refine Machine.guarded_induction (m := machine) TimelyStep
    (motive := fun _ g => g.supervision.Agree) agree_init ?_ htimely hrun
  intro labels g label g' hg _ hagree hown hstep
  exact hagree.steps (steps_of_step (composed_of_run hg) hown hstep)

/-- Nothing is left to do on either strand, and no call is under way. -/
structure AtRest (g : GameClient) : Prop where
  controller : g.controller.strand = []
  tcp : g.tcp_.strand = []
  running : g.tcp_.running = none
  calling : g.isCalling = false

/-- In every run in which the controller, while it is connecting, handles no `ACCEPT` and no
`GAME_END` of an earlier connection: no attempt ever finds the TCP client connected or
connecting; and whenever nothing is left on the two strands, the controller is disconnected only
if the TCP client is idle, connecting only while an operation of the attempt is under way, and in
the other states only while the TCP client is connected. -/
theorem agreement_of_run {labels : List Label} (hrun : machine.run labels = some g)
    (htimely : machine.Meets TimelyStep labels) :
    (∀ call on_connect strand, g.tcp_.strand = .connect call on_connect :: strand →
      g.tcp_.is_connected_ = false ∧ g.tcp_.is_connecting_ = false) ∧
    (g.AtRest →
      (g.controller.controller.state_ = .Disconnected →
        g.tcp_.is_connected_ = false ∧ g.tcp_.is_connecting_ = false) ∧
      (g.controller.controller.state_ = .Connecting →
        g.tcp_.is_connecting_ = true ∧ ∃ operation ∈ g.tcp_.operations,
          operation.attempt? = some (g.tcp_.disconnect_generation_, g.tcp_.current)) ∧
      (g.controller.controller.state_ ≠ .Disconnected →
        g.controller.controller.state_ ≠ .Connecting → g.tcp_.is_connected_ = true)) := by
  have hagree := agree_of_run hrun htimely
  obtain ⟨events, htcp⟩ := (composed_of_run hrun).run
  refine ⟨fun call on_connect strand hstrand => TcpClient.of_link_idle
    (hagree.idle (g.controller.controller.number call) ?_), fun hrest => ?_⟩
  · rw [supervision, hstrand]
    rfl
  · obtain ⟨hmade, hreturned⟩ : g.controller.controller.tcpCalls.length ≤ g.made ∧
        g.tcp_.disconnecting = 0 := by
      simpa [isCalling] using hrest.calling
    have hcommands : g.supervision.commands = [] := by
      rw [supervision, hrest.tcp, hreturned, List.drop_eq_nil_of_le hmade]
      rfl
    have hreports : g.supervision.reports = [] := by
      rw [supervision, hrest.controller]
      rfl
    obtain ⟨hdown, hopening, hup⟩ := hagree.at_rest hcommands hreports
    refine ⟨fun hstate => TcpClient.of_link_idle (hdown ?_), fun hstate => ?_,
      fun hdisconnected hconnecting => TcpClient.of_link_established (hup ?_)⟩
    · rw [supervision, hstate]
      rfl
    · have hconnecting := TcpClient.of_link_opening (hopening (by rw [supervision, hstate]; rfl))
      exact ⟨hconnecting, TcpClient.exists_operation htcp hconnecting hrest.tcp⟩
    · exact GameController.phase_of_up hconnecting hdisconnected

/-- A session up to the reply that accepts it, with nothing left to do. -/
def acceptedClient : List Label :=
  [.start (bytesOf "localhost") 5000 (bytesOf "Ace"), .runHandler 0 false, .call, .runTcpHandler,
    .complete 0 (some []), .runTcpHandler, .complete 0 (some []), .runTcpHandler, .resume,
    .runHandler 0 false, .call, .runTcpHandler, .resume, .complete 1 (some []), .runTcpHandler,
    .complete 0 (some (FrameCodec.wire (bytesOf "ACCEPT"))), .runTcpHandler, .resume, .resume,
    .resume, .resume, .resume, .runHandler 0 false]

theorem agreement_acceptedClient : ∃ g, machine.run acceptedClient = some g ∧
    g.controller.controller.state_ = .InGame ∧ g.tcp_.is_connected_ = true := by
  have hend : ∃ g ∈ machine.run acceptedClient,
      (g.controller.strand = [] ∧ g.tcp_.strand = [] ∧ g.tcp_.running = none ∧
        g.isCalling = false) ∧ g.controller.controller.state_ = .InGame := by
    decide +kernel
  obtain ⟨g, hrun, ⟨hcontroller, htcp, hrunning, hcalling⟩, hstate⟩ := hend
  obtain ⟨-, hagree⟩ := agreement_of_run hrun (Machine.meets_of_checks (by decide +kernel))
  obtain ⟨-, -, hup⟩ := hagree ⟨hcontroller, htcp, hrunning, hcalling⟩
  rw [hstate] at hup
  exact ⟨g, hrun, hstate, hup (fun h => by cases h) fun h => by cases h⟩

/-! ### Without the guard -/

theorem hear_silent {tcp : TcpClient} (hevents : tcp.events = g.tcp_.events)
    (hmessages : tcp.messages = g.tcp_.messages) : g.hear tcp = { g with tcp_ := tcp } := by
  rw [hear, hevents, hmessages, List.drop_length, List.drop_length]
  rfl

/-- A call of `start` up to its result. -/
def restart (host : Bytes) (port : UInt16) (playerName : Bytes) (now : Int64)
    (myPlayerAlive : Bool) : List Label :=
  [.start host port playerName, .runHandler now myPlayerAlive, .call, .runTcpHandler,
    .runHandler now myPlayerAlive]

theorem doStart_of_disconnected {c : GameController} (hstate : c.state_ = .Disconnected)
    (host : Bytes) (port : UInt16) (name : Bytes) :
    c.doStart host port name = { c with
      state_ := .Connecting
      connectGen_ := c.connectGen_ + 1
      playerName_ := name
      tcpCalls := c.tcpCalls ++ [.connect host port (c.connectGen_ + 1)] } := by
  simp [GameController.doStart, GameController.setState, hstate]

/-- The call of `connect` that the handler of `start` makes is refused. -/
theorem turn_refused {call : ℕ} (hidle : g.tcp_.running = none)
    (hstrand : g.tcp_.strand = [.connect call true]) (hup : g.tcp_.is_connected_ = true) :
    g.turn .runHandler = some { g with
      tcp_ := { g.tcp_ with
        strand := [], events := g.tcp_.events ++ [.on_connect call false], running := none }
      controller :=
        g.controller.post (.connectResult (g.controller.controller.number call) false) } := by
  have hstep : g.tcp_.step .runHandler = some { g.tcp_ with
      strand := [], events := g.tcp_.events ++ [.on_connect call false], running := none } := by
    rw [TcpClient.step, hidle, hstrand]
    dsimp only [TcpClient.handle]
    rw [TcpClient.onConnect, if_pos (by rw [hup]; rfl)]
    rfl
  rw [turn, hstep, Option.map_some, hear, List.drop_left, List.drop_length]
  rfl

/-- Once the controller is disconnected while its TCP client is connected, and nothing is left to
do, no call of `start` gets it out of there: the attempt is refused, and all is as before. -/
theorem restart_of_disagree {labels : List Label} (hrun : machine.run labels = some g)
    (hrest : g.AtRest) (hstate : g.controller.controller.state_ = .Disconnected)
    (hup : g.tcp_.is_connected_ = true) {host : Bytes} {port : UInt16} {name : Bytes}
    (hname : validatePlayerName name = true) (now : Int64) (alive : Bool) :
    ∃ g', machine.runFrom g (restart host port name now alive) = some g' ∧ g'.AtRest ∧
      g'.controller.controller.state_ = .Disconnected ∧ g'.tcp_.is_connected_ = true := by
  have hcomposed := composed_of_run hrun
  obtain ⟨hmade, hreturned⟩ : g.controller.controller.tcpCalls.length ≤ g.made ∧
      g.tcp_.disconnecting = 0 := by
    simpa [isCalling] using hrest.calling
  have hall : g.made = g.controller.controller.tcpCalls.length :=
    Nat.le_antisymm hcomposed.made_le hmade
  -- The name is valid, and the controller starts connecting.
  let posted : GameClient :=
    { g with controller := g.controller.post (.doStart host port name) }
  let started : GameClient := { g with controller := { g.controller with
    controller := g.controller.controller.doStart host port name, strand := [] } }
  have hposted : g.step (.start host port name) = some posted := by
    rw [step, command, ControllerStrand.step, if_pos hname]
    rfl
  have hstarted : posted.step (.runHandler now alive) = some started := by
    have hstrand : posted.controller.strand = [.doStart host port name] := by
      rw [show posted.controller.strand = g.controller.strand ++ _ from rfl, hrest.controller]
      rfl
    rw [step, if_neg (Bool.not_eq_true _ ▸ hrest.calling), command, ControllerStrand.step, hstrand]
    rfl
  have hcontroller : started.controller.controller = { g.controller.controller with
      state_ := .Connecting
      connectGen_ := g.controller.controller.connectGen_ + 1
      playerName_ := name
      tcpCalls := g.controller.controller.tcpCalls ++
        [.connect host port (g.controller.controller.connectGen_ + 1)] } :=
    doStart_of_disconnected hstate host port name
  have hnext : started.controller.controller.tcpCalls[started.made]? =
      some (.connect host port (g.controller.controller.connectGen_ + 1)) := by
    rw [hcontroller, show started.made = g.made from rfl, hall]
    exact List.getElem?_concat_length
  have hnumber := ((hcomposed.step hposted).step hstarted).number_next hnext
  -- The call is made, and refused.
  let called : GameClient := { started with
    tcp_ := { g.tcp_ with calls := g.tcp_.calls ++ [TcpClient.Call.mk true g.tcp_.told] }.post
      (.connect g.tcp_.calls.length true)
    made := g.made + 1 }
  have hcalled : started.step .call = some called := by
    have hturn : started.turn (.connect true) = some (started.hear called.tcp_) := rfl
    have hheard : started.hear called.tcp_ = { started with tcp_ := called.tcp_ } :=
      hear_silent rfl rfl
    rw [step, makeCall, if_neg (not_not_intro hreturned), hnext]
    dsimp only [TcpCall.label]
    rw [hturn, hheard]
    rfl
  have hstrand : called.tcp_.strand = [.connect g.tcp_.calls.length true] := by
    rw [show called.tcp_.strand = g.tcp_.strand ++ _ from rfl, hrest.tcp]
    rfl
  have hrefused := turn_refused (g := called) hrest.running hstrand hup
  rw [show called.controller.controller.number g.tcp_.calls.length = _ from hnumber] at hrefused
  let refused : GameClient := { called with
    tcp_ := { called.tcp_ with
      strand := []
      events := g.tcp_.events ++ [.on_connect g.tcp_.calls.length false]
      running := none }
    controller := called.controller.post
      (.connectResult (g.controller.controller.connectGen_ + 1) false) }
  have hcalling : refused.isCalling = false := by
    have hlength : refused.controller.controller.tcpCalls.length = g.made + 1 := by
      rw [show refused.controller.controller = _ from hcontroller, hall]
      exact List.length_append
    rw [isCalling, hlength, show refused.tcp_.disconnecting = 0 from hreturned]
    simp [show refused.made = g.made + 1 from rfl]
  -- The result is that of the current attempt.
  have hended : refused.step (.runHandler now alive) = some { refused with
      controller := { refused.controller with
        controller := { refused.controller.controller with state_ := .Disconnected }
        strand := [] } } := by
    have hresult : refused.controller.strand =
        [.connectResult (g.controller.controller.connectGen_ + 1) false] := rfl
    rw [step, if_neg (Bool.not_eq_true _ ▸ hcalling), command, ControllerStrand.step, hresult]
    dsimp only [ControllerStrand.handle]
    rw [show refused.controller.controller = _ from hcontroller]
    simp [GameController.onConnectResult, GameController.setState]
  refine ⟨_, Machine.runFrom_cons.mpr ⟨posted, hposted, Machine.runFrom_cons.mpr
    ⟨started, hstarted, Machine.runFrom_cons.mpr ⟨called, hcalled, Machine.runFrom_cons.mpr
      ⟨refused, hrefused, Machine.runFrom_cons.mpr ⟨_, hended, rfl⟩⟩⟩⟩⟩, ?_, rfl, hup⟩
  exact ⟨rfl, rfl, rfl, hcalling⟩

/-- The `ACCEPT` of the first connection comes behind a `rejoin`, and its end behind that. -/
def lateAccept : List Label :=
  [.start (bytesOf "localhost") 5000 (bytesOf "Ace"), .runHandler 0 false, .call, .runTcpHandler,
    .complete 0 (some []), .runTcpHandler, .complete 0 (some []), .runTcpHandler, .resume,
    .runHandler 0 false, .call, .runTcpHandler, .resume, .complete 1 (some []), .runTcpHandler,
    .rejoin (bytesOf "localhost") 5000 (bytesOf "Ace"),
    .complete 0 (some (FrameCodec.wire (bytesOf "ACCEPT"))), .runTcpHandler, .resume, .resume,
    .resume, .resume, .resume, .runHandler 0 false, .call, .postDisconnect, .call, .runTcpHandler,
    .runHandler 0 false, .runHandler 0 false, .complete 0 none, .runTcpHandler, .runTcpHandler,
    .complete 0 (some []), .runTcpHandler, .complete 0 (some []), .runTcpHandler, .resume,
    .runHandler 0 false]

theorem restart_lateAccept : ∃ g g', machine.run lateAccept = some g ∧
    machine.runFrom g (restart (bytesOf "localhost") 5000 (bytesOf "Ace") 0 false) = some g' ∧
    g'.controller.controller.state_ = .Disconnected ∧ g'.tcp_.is_connected_ = true := by
  have hend : ∃ g ∈ machine.run lateAccept,
      (g.controller.strand = [] ∧ g.tcp_.strand = [] ∧ g.tcp_.running = none ∧
        g.isCalling = false) ∧
      g.controller.controller.state_ = .Disconnected ∧ g.tcp_.is_connected_ = true := by
    decide +kernel
  obtain ⟨g, hrun, ⟨hcontroller, htcp, hrunning, hcalling⟩, hstate, hup⟩ := hend
  have hname : validatePlayerName (bytesOf "Ace") = true := by decide
  obtain ⟨g', hrestart, -, hstate', hup'⟩ := restart_of_disagree hrun
    ⟨hcontroller, htcp, hrunning, hcalling⟩ hstate hup hname 0 false
  exact ⟨g, g', hrun, hrestart, hstate', hup'⟩

end GameClient

end SpaceShooter.Client
