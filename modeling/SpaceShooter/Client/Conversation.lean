/-
# What a client says on a connection

On each connection a client joins once, under a name that it has validated, and then does nothing
but shoot. The calls on its transport come in the order of the sessions, but the transport drops
some of them and its connections come and go on their own; that none of the calls of one session
is made good on the connection of another rests on the agreement of the two.
-/

import Mathlib.Data.List.Infix
import SpaceShooter.Client.Agreement
import SpaceShooter.Client.Errands

namespace SpaceShooter.Client

open Library Network Supervision Protocol

/-! ### Conversations -/

/-- The commands of a session: none yet, or a join and a number of shots. -/
def conversation : Option (PlayerName × ℕ) → List ClientCommand
  | none => []
  | some (name, shots) => .join name :: List.replicate shots .shoot

/-- Payloads are those of a session. -/
def Said (payloads : List Bytes) : Prop :=
  ∃ session, payloads = (conversation session).map ClientCommand.encode

theorem said_nil : Said [] := ⟨none, rfl⟩

theorem said_join (name : PlayerName) : Said [encodeJoin ⟨name.text⟩] := ⟨some (name, 0), rfl⟩

/-- A session that has been joined goes on with a shot. -/
theorem Said.shoot {payloads : List Bytes} (h : Said payloads) (hjoined : payloads ≠ []) :
    Said (payloads ++ [encodeShoot]) := by
  obtain ⟨session, rfl⟩ := h
  cases session with
  | none => exact absurd rfl hjoined
  | some session =>
    obtain ⟨name, shots⟩ := session
    refine ⟨some (name, shots + 1), ?_⟩
    rw [conversation, conversation, List.replicate_succ', ← List.cons_append, List.map_append]
    rfl

theorem Said.of_beginning {payloads first : List Bytes} (h : Said payloads)
    (hfirst : first <+: payloads) : Said first := by
  obtain ⟨session, rfl⟩ := h
  cases first with
  | nil => exact said_nil
  | cons payload first =>
    cases session with
    | none => exact absurd hfirst.length_le (Nat.not_succ_le_zero _)
    | some session =>
      obtain ⟨name, shots⟩ := session
      rw [conversation, List.map_cons, List.map_replicate, List.cons_prefix_cons] at hfirst
      obtain ⟨rfl, hrest⟩ := hfirst
      refine ⟨some (name, first.length), ?_⟩
      rw [conversation, List.map_cons, List.map_replicate,
        ← (List.prefix_replicate_iff.mp hrest).2]

/-! ### Letters and commands -/

/-- The payloads that wait to be sent come before the commands, and those of the connection that
is up complete what has been accepted for it to the payloads of a session. -/
structure Converses (phase : Phase) (commands : ℕ) (letters : List Bytes)
    (d : TcpClient.Desk) : Prop where
  errands : d.errands = letters.map some ++ List.replicate commands none
  fits : ∀ letter ∈ letters, letter.length ≤ FrameCodec.kMaxMessageSize
  said : ∀ generation, Said (d.acceptedOn generation)
  connecting : d.is_connecting_ = true → letters = []
  saying : d.is_connected_ = true → d.disconnect_requested_ = false →
    Said (d.acceptedOn d.active_connect_generation_ ++ letters)
  joined : d.is_connected_ = true → d.disconnect_requested_ = false → phase = .up →
    d.acceptedOn d.active_connect_generation_ ++ letters ≠ []
  fresh : d.is_connected_ = true → phase = .opening → commands = 0 →
    d.acceptedOn d.active_connect_generation_ ++ letters = []

section Desk

variable {phase : Phase} {commands : ℕ} {letters : List Bytes} {d d' : TcpClient.Desk}

theorem letters_of_command {errands : List (Option Bytes)}
    (h : letters.map some ++ List.replicate commands none = none :: errands) :
    letters = [] ∧ ∃ left, commands = left + 1 ∧ errands = List.replicate left none := by
  cases letters with
  | cons letter letters => cases (List.cons_eq_cons.mp h).1
  | nil =>
    cases commands with
    | zero => cases h
    | succ left => exact ⟨rfl, left, rfl, (List.cons_eq_cons.mp h).2.symm⟩

theorem letters_of_letter {errands : List (Option Bytes)} {letter : Bytes}
    (h : letters.map some ++ List.replicate commands none = some letter :: errands) :
    ∃ left, letters = letter :: left ∧ errands = left.map some ++ List.replicate commands none := by
  cases letters with
  | nil =>
    cases commands with
    | zero => cases h
    | succ left => cases (List.cons_eq_cons.mp h).1
  | cons first left =>
    obtain ⟨heq, hrest⟩ := List.cons_eq_cons.mp h
    obtain rfl := Option.some.inj heq
    exact ⟨left, rfl, hrest.symm⟩

theorem acceptedOn_accept (d : TcpClient.Desk) (errands : List (Option Bytes))
    (frame : TcpClient.QueuedFrame) (generation : ℕ) :
    TcpClient.Desk.acceptedOn { d with
        errands := errands
        accepted := d.accepted ++ [(d.active_connect_generation_, frame)] } generation =
      d.acceptedOn generation ++
        if d.active_connect_generation_ = generation then [frame.frame.payload] else [] := by
  rw [TcpClient.Desk.acceptedOn, TcpClient.framesOf_append, List.map_append]
  split_ifs with hsame
  · rw [hsame, TcpClient.framesOf_self]
    rfl
  · rw [TcpClient.framesOf_of_ne hsame]
    rfl

/-- A connection that is closed, or about to be, hears nothing more. -/
theorem Converses.step (h : Converses phase commands letters d) (hstep : TcpClient.Desk.Step d d')
    (hsettled : phase = .up → d.is_connecting_ = false)
    (halone : phase = .opening → commands = 1 → d.is_connected_ = false) :
    ∃ commands' letters', Converses phase commands' letters' d' := by
  cases hstep with
  | quiet hflag =>
    have hwanted {flag : Bool} (hflag : d.disconnect_requested_ = true → flag = true)
        (hfalse : flag = false) : d.disconnect_requested_ = false := by
      cases hrequested : d.disconnect_requested_ with
      | false => rfl
      | true => cases hfalse.symm.trans (hflag hrequested)
    exact ⟨commands, letters, h.errands, h.fits, h.said, h.connecting,
      fun hup hfalse => h.saying hup (hwanted hflag hfalse),
      fun hup hfalse => h.joined hup (hwanted hflag hfalse), h.fresh⟩
  | connect herrands hdown =>
    obtain ⟨rfl, left, rfl, rfl⟩ := letters_of_command (h.errands.symm.trans herrands)
    exact ⟨left, [], rfl, h.fits, h.said, fun _ => rfl, fun hup => (by cases hdown.symm.trans hup),
      fun hup => (by cases hdown.symm.trans hup), fun hup => (by cases hdown.symm.trans hup)⟩
  | refuse herrands =>
    obtain ⟨rfl, left, rfl, rfl⟩ := letters_of_command (h.errands.symm.trans herrands)
    refine ⟨left, [], rfl, h.fits, h.said, h.connecting, h.saying, h.joined,
      fun hup hopening hnone => ?_⟩
    subst hnone
    cases hup.symm.trans (halone hopening rfl)
  | accept herrands hup hwanted =>
    obtain ⟨left, rfl, rfl⟩ := letters_of_letter (h.errands.symm.trans herrands)
    refine ⟨commands, left, rfl, fun letter hmem => h.fits letter (List.mem_cons_of_mem _ hmem),
      fun generation => ?_, fun hconnecting => ?_, fun _ _ => ?_, fun _ _ hphase => ?_,
      fun _ hopening hnone => ?_⟩
    · rw [acceptedOn_accept]
      split_ifs with hsame
      · subst hsame
        refine (h.saying hup hwanted).of_beginning ?_
        rw [List.prefix_append_right_inj]
        exact ⟨left, rfl⟩
      · rw [List.append_nil]
        exact h.said generation
    · cases h.connecting hconnecting
    · rw [acceptedOn_accept, if_pos rfl, List.append_assoc]
      exact h.saying hup hwanted
    · rw [acceptedOn_accept, if_pos rfl, List.append_assoc]
      exact h.joined hup hwanted hphase
    · cases (List.append_eq_nil_iff.mp (h.fresh hup hopening hnone)).2
  | drop herrands hclosed =>
    obtain ⟨left, rfl, rfl⟩ := letters_of_letter (h.errands.symm.trans herrands)
    have hover (hup : d.is_connected_ = true) (hwanted : d.disconnect_requested_ = false) :
        False := by
      rcases hclosed with hdown | hrequested
      · cases hup.symm.trans hdown
      · cases hwanted.symm.trans hrequested
    refine ⟨commands, left, rfl, fun letter hmem => h.fits letter (List.mem_cons_of_mem _ hmem),
      h.said, fun hconnecting => ?_, fun hup hwanted => (hover hup hwanted).elim,
      fun hup hwanted => (hover hup hwanted).elim, fun hup hopening hnone => ?_⟩
    · cases h.connecting hconnecting
    · cases (List.append_eq_nil_iff.mp (h.fresh hup hopening hnone)).2
  | establish hconnecting hnew =>
    obtain rfl := h.connecting hconnecting
    have hnothing : d.acceptedOn d.active_connect_generation_ ++ ([] : List Bytes) = [] := by
      rw [hnew, List.append_nil]
    refine ⟨commands, [], h.errands, h.fits, h.said, fun hfalse => (by cases hfalse),
      fun _ _ => ?_, fun _ _ hphase => ?_, fun _ _ _ => hnothing⟩
    · exact ⟨none, hnothing⟩
    · cases hconnecting.symm.trans (hsettled hphase)
  | fail =>
    exact ⟨commands, letters, h.errands, h.fits, h.said, fun hfalse => (by cases hfalse),
      fun hfalse => (by cases hfalse), fun hfalse => (by cases hfalse),
      fun hfalse => (by cases hfalse)⟩
  | close herrands =>
    obtain ⟨rfl, left, rfl, rfl⟩ := letters_of_command (h.errands.symm.trans herrands)
    exact ⟨left, [], rfl, h.fits, h.said, fun hfalse => (by cases hfalse),
      fun hfalse => (by cases hfalse), fun hfalse => (by cases hfalse),
      fun hfalse => (by cases hfalse)⟩

/-- A payload is added while no command waits. -/
theorem Converses.say (h : Converses phase 0 letters d) (hidle : d.is_connecting_ = false)
    {letter : Bytes} (hfits : letter.length ≤ FrameCodec.kMaxMessageSize)
    (hsaying : d.is_connected_ = true → d.disconnect_requested_ = false →
      Said (d.acceptedOn d.active_connect_generation_ ++ letters ++ [letter])) :
    Converses .up 0 (letters ++ [letter]) { d with errands := d.errands ++ [some letter] } := by
  refine ⟨?_, fun other hmem => ?_, h.said, fun hconnecting => ?_, fun hup hwanted => ?_,
    fun _ _ _ => ?_, fun _ hopening => (by cases hopening)⟩
  · simp [h.errands]
  · rcases List.mem_append.mp hmem with hmem | hmem
    · exact h.fits other hmem
    · exact List.mem_singleton.mp hmem ▸ hfits
  · cases hidle.symm.trans hconnecting
  · rw [← List.append_assoc]
    exact hsaying hup hwanted
  · simp

end Desk

/-! ### The controller -/

/-- The payload of a call; a command has none. -/
def TcpCall.letter? : TcpCall → Option Bytes
  | .send _ data => some data
  | _ => none

/-- The name that a public call has brought to the strand. -/
def Post.name? : Post → Option Bytes
  | .doStart _ _ playerName => some playerName
  | .rejoin _ _ playerName => some playerName
  | _ => none

/-- A name that has been validated, and with which a join fits into a frame. -/
def Speakable (name : Bytes) : Prop :=
  validatePlayerName name = true ∧ (encodeJoin ⟨name⟩).length ≤ FrameCodec.kMaxMessageSize

namespace GameController

open ControllerStrand

/-- What a handler adds to the calls. -/
inductive Says (c : GameController) : GameController → Prop
  | quiet {c' : GameController} (hcalls : c'.tcpCalls = c.tcpCalls)
    (hphase : c'.state_.phase = c.state_.phase ∨ c'.state_.phase = .down) : Says c c'
  | command {c' : GameController} {calls : List TcpCall}
    (hcalls : c'.tcpCalls = c.tcpCalls ++ calls) (hsome : calls ≠ [])
    (hcommands : ∀ call ∈ calls, call.letter? = none) (hphase : c'.state_.phase ≠ .up) : Says c c'
  | join {c' : GameController} {generation : ℕ}
    (hcalls : c'.tcpCalls = c.tcpCalls ++ [.send generation (encodeJoin ⟨c.playerName_⟩)])
    (hopening : c.state_ = .Connecting) (hphase : c'.state_.phase = .up) : Says c c'
  | shoot {c' : GameController} {generation : ℕ}
    (hcalls : c'.tcpCalls = c.tcpCalls ++ [.send generation encodeShoot])
    (hup : c.state_.phase = .up) (hphase : c'.state_.phase = .up) : Says c c'

variable {c : GameController}

theorem Says.refl (c : GameController) : Says c c := .quiet rfl (.inl rfl)

theorem says_doStart (c : GameController) (host : Bytes) (port : UInt16) (name : Bytes) :
    Says c (c.doStart host port name) := by
  rcases doStart_cases c host port name with heq | ⟨-, heq⟩ <;> rw [heq]
  · exact .refl c
  · refine .command rfl (List.cons_ne_nil _ _) (fun call hmem => ?_) (fun hup => by cases hup)
    rw [List.mem_singleton.mp hmem]
    rfl

theorem says_doShutdown (c : GameController) : Says c c.doShutdown := by
  rw [doShutdown_eq]
  refine .command rfl (List.cons_ne_nil _ _) (fun call hmem => ?_) (fun hup => by cases hup)
  rw [List.mem_singleton.mp hmem]
  rfl

theorem says_rejoin (c : GameController) (host : Bytes) (port : UInt16) (name : Bytes) :
    Says c (c.doShutdown.doStart host port name) := by
  rcases doStart_cases c.doShutdown host port name with heq | ⟨-, heq⟩ <;> rw [heq]
  · exact says_doShutdown c
  · rw [doShutdown_eq]
    refine .command (List.append_assoc _ _ _) (List.cons_ne_nil _ _) (fun call hmem => ?_)
      (fun hup => by cases hup)
    simp only [List.mem_append, List.mem_singleton] at hmem
    rcases hmem with rfl | rfl <;> rfl

/-- Nobody shoots who is not in the game. -/
theorem says_doShoot (c : GameController) (now : Int64) (alive : Bool) :
    Says c (c.doShoot now alive) := by
  by_cases hgame : c.state_ = .InGame
  · have hup : c.state_.phase = .up := by
      rw [hgame]
      rfl
    rcases doShoot_cases c now alive with heq | heq <;> rw [heq]
    · exact .refl c
    · exact .shoot rfl hup hup
  · rw [show c.doShoot now alive = c from if_pos hgame]
    exact .refl c

theorem says_onConnectResult (c : GameController) (generation : ℕ) (ok : Bool) :
    Says c (c.onConnectResult generation ok) := by
  rcases onConnectResult_cases c generation ok with ⟨heq, -⟩ | ⟨-, hopening, heq⟩ <;> rw [heq]
  · exact .refl c
  · cases ok with
    | true => exact .join rfl hopening rfl
    | false => exact .quiet rfl (.inr rfl)

theorem says_onMessage {connection : ℕ} {payload : Bytes}
    (htimely : Timely c (.message connection payload)) :
    Says c (c.onMessageOnStrand connection payload) := by
  rcases onMessageOnStrand_cases c connection payload with
    heq | heq | ⟨hdisconnected, htype, heq⟩ | ⟨hdisconnected, -, htype, heq⟩ <;> rw [heq]
  · exact .refl c
  · exact says_doShutdown c
  · refine .quiet rfl (.inl (phase_of_up ?_ hdisconnected).symm)
    exact fun hconnecting => (htimely hconnecting).2 htype
  · refine .quiet rfl (.inl (phase_of_up ?_ hdisconnected).symm)
    exact fun hconnecting => (htimely hconnecting).1 htype

theorem says_handle (now : Int64) (alive : Bool) {handler : Post} (htimely : Timely c handler) :
    Says c (handle c now alive handler) := by
  cases handler with
  | doStart host port name => exact says_doStart c host port name
  | doShutdown => exact says_doShutdown c
  | rejoin host port name => exact says_rejoin c host port name
  | doShoot => exact says_doShoot c now alive
  | connectResult generation ok => exact says_onConnectResult c generation ok
  | disconnected =>
    rcases onDisconnect_cases c with heq | heq <;> rw [handle, heq]
    · exact .refl c
    · exact .quiet rfl (.inr rfl)
  | message connection payload => exact says_onMessage htimely

/-- The name of the session that is being connected is that of a public call. -/
theorem named_handle {P : Bytes → Prop} (h : c.state_ = .Connecting → P c.playerName_)
    (now : Int64) (alive : Bool) {handler : Post} (hposted : ∀ name ∈ handler.name?, P name)
    (hconnecting : (handle c now alive handler).state_ = .Connecting) :
    P (handle c now alive handler).playerName_ := by
  cases handler with
  | doStart host port name =>
    rw [handle] at hconnecting ⊢
    rcases doStart_cases c host port name with heq | ⟨-, heq⟩ <;> rw [heq] at hconnecting ⊢
    · exact h hconnecting
    · exact hposted name rfl
  | doShutdown =>
    rw [handle, doShutdown_eq] at hconnecting
    cases hconnecting
  | rejoin host port name =>
    rw [handle] at hconnecting ⊢
    rcases doStart_cases c.doShutdown host port name with heq | ⟨-, heq⟩ <;>
      rw [heq] at hconnecting ⊢
    · rw [doShutdown_eq] at hconnecting
      cases hconnecting
    · exact hposted name rfl
  | doShoot =>
    rw [handle] at hconnecting ⊢
    rcases doShoot_cases c now alive with heq | heq <;> rw [heq] at hconnecting ⊢ <;>
      exact h hconnecting
  | connectResult generation ok =>
    rw [handle] at hconnecting ⊢
    rcases onConnectResult_cases c generation ok with ⟨heq, -⟩ | ⟨-, -, heq⟩ <;>
      rw [heq] at hconnecting ⊢
    · exact h hconnecting
    · cases ok <;> cases hconnecting
  | disconnected =>
    rw [handle] at hconnecting ⊢
    rcases onDisconnect_cases c with heq | heq <;> rw [heq] at hconnecting ⊢
    · exact h hconnecting
    · cases hconnecting
  | message connection payload =>
    rw [handle] at hconnecting ⊢
    rcases onMessageOnStrand_cases c connection payload with
      heq | heq | ⟨-, -, heq⟩ | ⟨-, -, -, heq⟩ <;> rw [heq] at hconnecting ⊢
    · exact h hconnecting
    · rw [doShutdown_eq] at hconnecting
      cases hconnecting
    · cases hconnecting
    · cases hconnecting

end GameController

namespace GameClient

/-! ### The client -/

/-- The errands wait on the strand of the TCP client, with a thread in `disconnect`, or among the
calls that are still to be made. -/
def desk (g : GameClient) : TcpClient.Desk :=
  { g.tcp_.desk with
    errands := g.tcp_.desk.errands ++ (List.replicate g.tcp_.disconnecting none ++
      (g.controller.controller.tcpCalls.drop g.made).map TcpCall.letter?) }

/-- The names that public calls have brought to the strand. -/
def names (g : GameClient) : List Bytes := g.controller.strand.filterMap Post.name?

/-- With such a name a session can be joined. -/
def NameFits : Label → Prop
  | .start _ _ playerName =>
    (encodeJoin ⟨playerName⟩).length ≤ FrameCodec.kMaxMessageSize
  | .rejoin _ _ playerName =>
    (encodeJoin ⟨playerName⟩).length ≤ FrameCodec.kMaxMessageSize
  | _ => True

instance (label : Label) : Decidable (NameFits label) :=
  match label with
  | .start _ _ playerName =>
    inferInstanceAs (Decidable ((encodeJoin ⟨playerName⟩).length ≤ FrameCodec.kMaxMessageSize))
  | .rejoin _ _ playerName =>
    inferInstanceAs (Decidable ((encodeJoin ⟨playerName⟩).length ≤ FrameCodec.kMaxMessageSize))
  | .shutdown => .isTrue trivial
  | .shoot => .isTrue trivial
  | .runHandler _ _ => .isTrue trivial
  | .call => .isTrue trivial
  | .postDisconnect => .isTrue trivial
  | .complete _ _ => .isTrue trivial
  | .runTcpHandler => .isTrue trivial
  | .resume => .isTrue trivial

variable {g g' : GameClient}

/-- The commands among the errands are those of the supervisor. -/
theorem count_desk (g : GameClient) :
    g.desk.errands.count none = g.supervision.commands.length := by
  have hstrand (strand : List TcpClient.Handler) :
      (strand.filterMap TcpClient.Handler.errand?).count none =
        (strand.filterMap (TcpClient.Handler.command?
          g.controller.controller.number)).length := by
    induction strand with
    | nil => rfl
    | cons handler strand ih =>
      cases handler with
      | disconnect failed =>
        cases failed <;>
          simp [List.filterMap_cons, TcpClient.Handler.errand?, TcpClient.Handler.command?, ih]
      | _ => simp [List.filterMap_cons, TcpClient.Handler.errand?, TcpClient.Handler.command?, ih]
  have hcalls (calls : List TcpCall) :
      (calls.map TcpCall.letter?).count none = (calls.filterMap TcpCall.command?).length := by
    induction calls with
    | nil => rfl
    | cons call calls ih =>
      cases call <;> simp [List.filterMap_cons, TcpCall.letter?, TcpCall.command?, ih]
  rw [desk, supervision]
  simp only [List.count_append, List.length_append, List.count_replicate_self,
    List.length_replicate, hcalls, TcpClient.desk, hstrand]

theorem count_letters (letters : List Bytes) (commands : ℕ) :
    (letters.map some ++ List.replicate commands none).count none = commands := by
  induction letters with
  | nil => exact List.count_replicate_self
  | cons letter letters ih => simp [ih]

/-- What the two agree on, for the conversation. -/
theorem settled_of_agree (hagree : g.supervision.Agree) (hwired : g.tcp_.Wired)
    (hup : g.controller.controller.state_.phase = .up) :
    g.supervision.commands = [] ∧ g.tcp_.is_connecting_ = false := by
  obtain ⟨hnone, hheld⟩ := hagree.up hup
  refine ⟨hnone, Bool.eq_false_of_not_eq_true fun hconnecting => ?_⟩
  exact hheld.not_opening _ (TcpClient.link_of_connecting hwired hconnecting)

/-- A single command behind which the controller is opening is an attempt, and finds the TCP
client idle. -/
theorem alone_of_agree (hagree : g.supervision.Agree)
    (hopening : g.controller.controller.state_.phase = .opening)
    (hone : g.supervision.commands.length = 1) : g.tcp_.is_connected_ = false := by
  have hattempt : ∃ attempt, g.supervision.commands = [.attempt attempt] := by
    cases hagree.opening hopening with
    | asked front hcommands =>
      rw [hcommands, List.length_append] at hone
      obtain rfl : front = [] := List.length_eq_zero_iff.mp (Nat.succ.inj hone)
      exact ⟨_, hcommands⟩
    | trying hnone =>
      rw [hnone] at hone
      cases hone
    | answered before after success hnone =>
      rw [hnone] at hone
      cases hone
  obtain ⟨attempt, hcommands⟩ := hattempt
  have hidle : g.tcp_.link g.controller.controller.number = .idle :=
    hagree.idle attempt (by rw [hcommands]; rfl)
  exact (TcpClient.of_link_idle hidle).1

/-! ### Steps -/

/-- What the client keeps: its errands continue the sessions of its connections, and the sessions
to come have names that they can be joined with. -/
structure Speaks (g : GameClient) : Prop where
  converses : ∃ commands letters,
    Converses g.controller.controller.state_.phase commands letters g.desk
  named : g.controller.controller.state_ = .Connecting →
    Speakable g.controller.controller.playerName_
  posted : ∀ name ∈ g.names, Speakable name

theorem commands_eq {phase : Phase} {commands : ℕ} {letters : List Bytes}
    (h : Converses phase commands letters g.desk) :
    commands = g.supervision.commands.length := by
  rw [← count_desk, h.errands, count_letters]

/-- A handler adds to the errands what it says. -/
theorem converses_handle (hcomposed : g.Composed) (h : g.Speaks) {now : Int64} {alive : Bool}
    {handler : Post} {strand : List Post} (htimely : Timely g.controller.controller handler)
    {c' : GameController}
    (hnext : ControllerStrand.handle g.controller.controller now alive handler = c')
    (hagree : (supervision { g with controller := { g.controller with
      controller := c', strand := strand } }).Agree) :
    ∃ commands letters, Converses c'.state_.phase commands letters
      (desk { g with controller := { g.controller with
        controller := c', strand := strand } }) := by
  obtain ⟨commands, letters, hconverses⟩ := h.converses
  have hdesk {calls : List TcpCall} (hcalls : c'.tcpCalls =
      g.controller.controller.tcpCalls ++ calls) : desk { g with
        controller := { g.controller with controller := c', strand := strand } } =
      { g.desk with errands := g.desk.errands ++ calls.map TcpCall.letter? } := by
    rw [desk, desk]
    dsimp only
    rw [hcalls, List.drop_append_of_le_length hcomposed.made_le, List.map_append,
      List.append_assoc, List.append_assoc]
  -- The session goes on only while no command waits.
  have hsettled {letter : Bytes} {generation : ℕ} (hup : c'.state_.phase = .up)
      (hcalls : c'.tcpCalls = g.controller.controller.tcpCalls ++ [.send generation letter]) :
      commands = 0 ∧ g.tcp_.is_connecting_ = false := by
    obtain ⟨hnone, hidle⟩ := settled_of_agree hagree hcomposed.wired hup
    have hcount := count_desk { g with
      controller := { g.controller with controller := c', strand := strand } }
    rw [hnone, hdesk hcalls] at hcount
    dsimp only at hcount
    rw [List.count_append, hconverses.errands, count_letters] at hcount
    exact ⟨Nat.eq_zero_of_add_eq_zero_right hcount, hidle⟩
  have hsays := hnext ▸ GameController.says_handle now alive htimely
  cases hsays with
  | quiet hcalls hphase =>
    rw [hdesk (hcalls.trans (List.append_nil _).symm), List.map_nil, List.append_nil]
    rcases hphase with hphase | hphase <;> rw [hphase]
    · exact ⟨commands, letters, hconverses⟩
    · exact ⟨commands, letters, hconverses.errands, hconverses.fits, hconverses.said,
        hconverses.connecting, hconverses.saying, fun _ _ h => (by cases h),
        fun _ h => (by cases h)⟩
  | @command calls hcalls hsome hnone hphase =>
    rw [hdesk hcalls]
    have hmap : calls.map TcpCall.letter? = List.replicate calls.length none := by
      refine List.eq_replicate_iff.mpr ⟨List.length_map _, fun errand hmem => ?_⟩
      obtain ⟨call, hcall, rfl⟩ := List.mem_map.mp hmem
      exact hnone call hcall
    refine ⟨commands + calls.length, letters, ?_, hconverses.fits, hconverses.said,
      hconverses.connecting, hconverses.saying, fun _ _ h => absurd h hphase,
      fun _ _ h => ?_⟩
    · rw [hmap, hconverses.errands, List.append_assoc, List.replicate_append_replicate]
    · have := List.length_pos_of_ne_nil hsome
      omega
  | join hcalls hopening hphase =>
    obtain ⟨rfl, hidle⟩ := hsettled hphase hcalls
    obtain ⟨hvalid, hfits⟩ := h.named hopening
    rw [hdesk hcalls, hphase]
    refine ⟨0, _, hconverses.say hidle hfits fun hup hwanted => ?_⟩
    have hopening : g.controller.controller.state_.phase = .opening := by
      rw [hopening]
      rfl
    rw [hconverses.fresh hup hopening rfl]
    exact said_join ⟨_, hvalid⟩
  | shoot hcalls hup hphase =>
    obtain ⟨rfl, hidle⟩ := hsettled hphase hcalls
    rw [hdesk hcalls, hphase]
    refine ⟨0, _, hconverses.say hidle (by decide) fun hup' hwanted => ?_⟩
    exact (hconverses.saying hup' hwanted).shoot (hconverses.joined hup' hwanted hup)

/-- A call goes from the controller to the strand of the TCP client; a `disconnect` has raised the
flag by then. -/
theorem desk_call {call : TcpCall} {tcp : TcpClient} (hreturned : g.tcp_.disconnecting = 0)
    (hnext : g.controller.controller.tcpCalls[g.made]? = some call)
    (hfits : ∀ letter ∈ call.letter?, letter.length ≤ FrameCodec.kMaxMessageSize)
    (hstep : g.tcp_.step call.label = some tcp) :
    TcpClient.Desk.Step g.desk (desk { g.hear tcp with made := g.made + 1 }) := by
  obtain ⟨hlt, hget⟩ := List.getElem?_eq_some_iff.mp hnext
  have hdrop : g.controller.controller.tcpCalls.drop g.made =
      call :: g.controller.controller.tcpCalls.drop (g.made + 1) := by
    rw [List.drop_eq_getElem_cons hlt, hget]
  have hview {flag : Bool} (hflag : g.tcp_.disconnect_requested_ = true → flag = true)
      (herrands : tcp.desk.errands ++ List.replicate tcp.disconnecting none =
        g.tcp_.desk.errands ++ [call.letter?])
      (hsame : { tcp.desk with errands := g.tcp_.desk.errands } =
        { g.tcp_.desk with disconnect_requested_ := flag }) :
      TcpClient.Desk.Step g.desk (desk { g.hear tcp with made := g.made + 1 }) := by
    have heq : desk { g.hear tcp with made := g.made + 1 } =
        { g.desk with disconnect_requested_ := flag } := by
      have hline : { tcp.desk with errands := g.desk.errands } =
          { g.desk with disconnect_requested_ := flag } := congrArg
        (fun d : TcpClient.Desk => { d with errands := g.desk.errands }) hsame
      rw [← hline, desk, desk]
      dsimp only
      rw [controller_hear, tcp_hear, hdrop, hreturned, ← List.append_assoc, herrands]
      simp
    rw [heq]
    exact .quiet hflag
  cases call with
  | connect host port generation =>
    cases TcpClient.transition_of_step hstep with
    | connect =>
      refine hview (fun h => h) ?_ rfl
      simp [TcpClient.desk, TcpClient.post, hreturned, TcpClient.Handler.errand?, TcpCall.letter?]
  | disconnect =>
    cases TcpClient.transition_of_step hstep with
    | disconnect =>
      rw [TcpClient.requestDisconnect, TcpClient.tell_eq] at hview ⊢
      refine hview (fun _ => rfl) ?_ rfl
      simp [TcpClient.desk, hreturned, TcpCall.letter?]
  | send generation data =>
    cases TcpClient.transition_of_step hstep with
    | send _ frame fits framed =>
      have hpayload : frame.payload = data := by
        rw [FrameCodec.encode, dif_neg fits] at framed
        rw [← Except.ok.inj framed]
      refine hview (fun h => h) ?_ rfl
      simp [TcpClient.desk, TcpClient.post, hreturned, TcpClient.Handler.errand?, TcpCall.letter?,
        hpayload]
    | refuse _ unfit =>
      rcases unfit with hlarge | ⟨e, herror⟩
      · exact absurd (hfits data rfl) (Nat.not_le.mpr hlarge)
      · obtain ⟨frame, hframe, -⟩ := FrameCodec.encode_of_fits (hfits data rfl)
        cases herror.symm.trans hframe

/-- The TCP client goes on by itself. -/
theorem desk_turn (hcomposed : g.Composed) {event : TcpClient.Label} {tcp : TcpClient}
    (hinternal : event.isInternal = true) (hstep : g.tcp_.step event = some tcp) :
    TcpClient.Desk.Step g.desk (g.hear tcp).desk := by
  by_cases hlabel : event = .postDisconnect
  · subst hlabel
    have heq : (g.hear tcp).desk = g.desk := by
      cases TcpClient.transition_of_step hstep with
      | postDisconnect called =>
        obtain ⟨threads, hthreads⟩ := Nat.exists_eq_succ_of_ne_zero called
        rw [desk, desk, controller_hear, tcp_hear, TcpClient.postDisconnect, TcpClient.tell_eq]
        simp [TcpClient.desk, TcpClient.post, TcpClient.Handler.errand?, hthreads,
          List.replicate_succ, hear]
    rw [heq]
    exact .quiet fun h => h
  · obtain ⟨labels, hrun⟩ := hcomposed.run
    have hthreads : tcp.disconnecting = g.tcp_.disconnecting :=
      (show TcpClient.Guides id g.tcp_ tcp from
        TcpClient.guides_step hcomposed.wired hinternal hlabel hstep).1.1
    have hdesk := (TcpClient.desk_step (TcpClient.orderly_of_run hrun).1 hcomposed.wired.exclusive
      hinternal hlabel hstep).append (List.replicate g.tcp_.disconnecting none ++
        (g.controller.controller.tcpCalls.drop g.made).map TcpCall.letter?)
    rw [desk, desk, controller_hear, tcp_hear, hthreads]
    exact hdesk

/-- The callbacks post no names. -/
theorem names_hear (g : GameClient) (tcp : TcpClient) : (g.hear tcp).names = g.names := by
  have hevents (events : List TcpClient.Event) (c : ControllerStrand) :
      (events.foldl (onEvent g.controller.controller.number) c).strand.filterMap Post.name? =
        c.strand.filterMap Post.name? := by
    induction events generalizing c with
    | nil => rfl
    | cons event events ih =>
      refine (ih _).trans ?_
      cases event <;> simp [onEvent, ControllerStrand.post, Post.name?]
  have hmessages (payloads : List PayloadView) (connection : ℕ) :
      (payloads.map (Post.message connection)).filterMap Post.name? = [] := by
    simp [List.filterMap_map, List.filterMap_eq_nil_iff, Post.name?]
  rw [names, hear]
  dsimp only
  rw [foldl_onMessage, List.filterMap_append, hmessages, List.append_nil, hevents]
  rfl

theorem names_turn {event : TcpClient.Label} (h : g.turn event = some g') :
    g'.names = g.names := by
  obtain ⟨tcp, -, rfl⟩ := Option.map_eq_some_iff.mp h
  exact names_hear g tcp

/-- A name is on the strand because it was there or because a public call has brought it. -/
theorem speakable_step (h : ∀ name ∈ g.names, Speakable name) {label : Label}
    (hfits : NameFits label) (hstep : g.step label = some g') :
    ∀ name ∈ g'.names, Speakable name := by
  have hpost {handler : Post} (hname : ∀ name ∈ handler.name?, Speakable name)
      (name : Bytes) (hmem : name ∈ (g.controller.post handler).strand.filterMap Post.name?) :
      Speakable name := by
    rw [ControllerStrand.post, List.filterMap_append, List.mem_append] at hmem
    rcases hmem with hmem | hmem
    · exact h name hmem
    · obtain ⟨other, hother, hown⟩ := List.mem_filterMap.mp hmem
      rw [List.mem_singleton.mp hother] at hown
      exact hname name hown
  cases label with
  | start host port playerName =>
    obtain ⟨controller, hcall, rfl⟩ := command_eq_some hstep
    obtain rfl := Option.some.inj hcall
    dsimp only [names]
    split_ifs with hvalid
    · exact hpost fun name hname => Option.some.inj hname ▸ ⟨hvalid, hfits⟩
    · exact h
  | rejoin host port playerName =>
    obtain ⟨controller, hcall, rfl⟩ := command_eq_some hstep
    obtain rfl := Option.some.inj hcall
    dsimp only [names]
    split_ifs with hvalid
    · exact hpost fun name hname => Option.some.inj hname ▸ ⟨hvalid, hfits⟩
    · exact h
  | shutdown =>
    obtain ⟨controller, hcall, rfl⟩ := command_eq_some hstep
    obtain rfl := Option.some.inj hcall
    exact hpost fun name hname => by cases hname
  | shoot =>
    obtain ⟨controller, hcall, rfl⟩ := command_eq_some hstep
    obtain rfl := Option.some.inj hcall
    exact hpost fun name hname => by cases hname
  | runHandler now alive =>
    obtain ⟨-, hcommand⟩ := Option.ite_none_left_eq_some.mp hstep
    obtain ⟨controller, hrun, rfl⟩ := command_eq_some hcommand
    rw [ControllerStrand.step] at hrun
    split at hrun
    · cases hrun
    · next handler strand hstrand =>
      obtain rfl := Option.some.inj hrun
      refine fun name hmem => h name ?_
      rw [names, hstrand]
      exact (List.Sublist.filterMap _ (List.sublist_cons_self _ _)).subset hmem
  | call =>
    obtain ⟨-, hcall⟩ := Option.ite_none_left_eq_some.mp hstep
    split at hcall
    · cases hcall
    · obtain ⟨heard, hturn, rfl⟩ := Option.map_eq_some_iff.mp hcall
      exact (names_turn hturn).symm ▸ h
  | postDisconnect => exact (names_turn hstep).symm ▸ h
  | complete i result => exact (names_turn hstep).symm ▸ h
  | runTcpHandler => exact (names_turn hstep).symm ▸ h
  | resume => exact (names_turn hstep).symm ▸ h

/-- A step that is timely, and whose name fits. -/
def SpeakingStep (g : GameClient) (label : Label) : Prop := TimelyStep g label ∧ NameFits label

instance (g : GameClient) (label : Label) : Decidable (SpeakingStep g label) :=
  inferInstanceAs (Decidable (_ ∧ _))

theorem Speaks.step (h : g.Speaks) (hcomposed : g.Composed) (hagree : g.supervision.Agree)
    {label : Label} (hspeaking : SpeakingStep g label) (hstep : g.step label = some g') :
    g'.Speaks := by
  have hposted := speakable_step h.posted hspeaking.2 hstep
  have hagree' : g'.supervision.Agree :=
    hagree.steps (steps_of_step hcomposed hspeaking.1 hstep)
  obtain ⟨commands, letters, hconverses⟩ := h.converses
  have hcommands := commands_eq hconverses
  -- A step of the TCP client at the desk, whoever asked for it.
  have hworks {d : TcpClient.Desk} (hdesk : TcpClient.Desk.Step g.desk d) :
      ∃ commands letters, Converses g.controller.controller.state_.phase commands letters d := by
    refine hconverses.step hdesk (fun hup => (settled_of_agree hagree hcomposed.wired hup).2)
      fun hopening hone => alone_of_agree hagree hopening ?_
    rw [← hcommands, hone]
  cases transition_of_step hstep with
  | post event handler => exact ⟨h.converses, h.named, hposted⟩
  | refuse => exact h
  | handle now alive handler strand hdone hstrand =>
    have htimely : Timely g.controller.controller handler := by
      have htimely := hspeaking.1
      simpa only [TimelyStep, hstrand] using htimely
    refine ⟨converses_handle hcomposed h htimely rfl hagree',
      GameController.named_handle h.named now alive fun name hname => h.posted name ?_, hposted⟩
    rw [names, hstrand]
    exact List.mem_filterMap.mpr ⟨handler, List.mem_cons_self, hname⟩
  | call call tcp hreturned hnext hcall =>
    have hfits : ∀ letter ∈ call.letter?, letter.length ≤ FrameCodec.kMaxMessageSize := by
      intro letter hletter
      refine hconverses.fits letter ?_
      have hmem : some letter ∈ g.desk.errands := by
        refine List.mem_append_right _ (List.mem_append_right _ ?_)
        obtain ⟨hlt, hget⟩ := List.getElem?_eq_some_iff.mp hnext
        rw [List.drop_eq_getElem_cons hlt, hget, List.map_cons]
        exact List.mem_cons.mpr (.inl hletter.symm)
      rw [hconverses.errands, List.mem_append] at hmem
      simpa using hmem
    refine ⟨?_, ?_, hposted⟩
    · dsimp only
      rw [controller_hear]
      exact hworks (desk_call hreturned hnext hfits hcall)
    · dsimp only
      rw [controller_hear]
      exact h.named
  | turn event tcp hinternal hturn =>
    refine ⟨?_, ?_, hposted⟩
    · rw [controller_hear]
      exact hworks (desk_turn hcomposed hinternal hturn)
    · rw [controller_hear]
      exact h.named

/-! ### Runs -/

theorem speaks_of_run {labels : List Label} (hrun : machine.run labels = some g)
    (hspeaking : machine.Meets SpeakingStep labels) : g.Speaks := by
  have hboth : g.Speaks ∧ g.supervision.Agree := by
    refine Machine.guarded_induction (m := machine) SpeakingStep
      (motive := fun _ g => g.Speaks ∧ g.supervision.Agree) ?_ ?_ hspeaking hrun
    · refine ⟨⟨⟨0, [], rfl, fun _ h => (by cases h), fun _ => said_nil, fun h => (by cases h),
        fun h => (by cases h), fun h => (by cases h), fun h => (by cases h)⟩,
        fun h => (by cases h), fun _ h => (by cases h)⟩, agree_init⟩
    · rintro labels g label g' hg - ⟨hspeaks, hagree⟩ hguard hstep
      exact ⟨hspeaks.step (composed_of_run hg) hagree hguard hstep,
        hagree.steps (steps_of_step (composed_of_run hg) hguard.1 hstep)⟩
  exact hboth.1

end GameClient

end SpaceShooter.Client
