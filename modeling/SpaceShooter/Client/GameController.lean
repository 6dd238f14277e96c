/-
# The game controller

The client's state machine. All of it runs on one strand: public calls, connect
results, disconnect notifications and server messages are posted there and handled
one at a time in the order they were posted.

Connect results carry the generation of their attempt and are dropped when it is
superseded. Server messages carry none, so a reply that an earlier connection left
on the strand is taken for one of the current session. A session in the game is
sound in every run that handles no such reply.
-/

import Mathlib.Data.Nat.Basic
import Mathlib.Order.Basic
import SpaceShooter.Common.Protocol
import SpaceShooter.Library.Machine

namespace SpaceShooter.Client

open Library Protocol

inductive ClientState
  | Disconnected
  | Connecting
  | Connected
  | Joining
  | InGame
  | GameOver
  deriving DecidableEq, Repr

/-- A call of the controller on its transport. A connect attempt carries the
generation its callback captured; on a send the current one is kept as history. -/
inductive TcpCall
  | connect (host : Bytes) (port : UInt16) (generation : ℕ)
  | disconnect
  | send (generation : ℕ) (data : Bytes)
  deriving DecidableEq, Repr

structure GameController where
  state_ : ClientState := .Disconnected
  connectGen_ : ℕ := 0
  playerName_ : Bytes := []
  /-- Nanoseconds of the steady clock. -/
  last_shot_time_ : Int64 := Int64.minValue
  /-- History: the calls on the transport, in order. -/
  tcpCalls : List TcpCall := []
  /-- History: the connection that delivered the `ACCEPT` which last moved the
  controller into the game. -/
  acceptedOn : Option ℕ := none
  deriving DecidableEq

namespace GameController

/-- 50 milliseconds, in nanoseconds. -/
def kShootCooldown : Int64 := 50000000

def setState (c : GameController) (next : ClientState) : GameController :=
  if c.state_ = next then c else { c with state_ := next }

def doStart (c : GameController) (host : Bytes) (port : UInt16) (playerName : Bytes) :
    GameController :=
  if c.state_ ≠ .Disconnected then
    c
  else
    let c := { c with playerName_ := playerName }
    let c := c.setState .Connecting
    let gen := c.connectGen_ + 1
    { c with
      connectGen_ := gen
      tcpCalls := c.tcpCalls ++ [.connect host port gen] }

def doShutdown (c : GameController) : GameController :=
  let c := { c with
    connectGen_ := c.connectGen_ + 1
    tcpCalls := c.tcpCalls ++ [TcpCall.disconnect] }
  c.setState .Disconnected

def sendJoin (c : GameController) : GameController :=
  let c := { c with
    tcpCalls := c.tcpCalls ++ [TcpCall.send c.connectGen_ (encodeJoin ⟨c.playerName_⟩)] }
  c.setState .Joining

/-- The handler the connect callback posts. -/
def onConnectResult (c : GameController) (gen : ℕ) (ok : Bool) : GameController :=
  if c.connectGen_ ≠ gen then c
  else if c.state_ ≠ .Connecting then c
  else if !ok then c.setState .Disconnected
  else (c.setState .Connected).sendJoin

/-- The handler the disconnect callback posts. -/
def onDisconnect (c : GameController) : GameController :=
  if c.state_ = .Disconnected ∨ c.state_ = .Connecting then c
  else c.setState .Disconnected

/-- Handle a server message. The connection it was received on is known to the
history only: the code branches on the payload and the state. -/
def onMessageOnStrand (c : GameController) (connection : ℕ) (payload : Bytes) :
    GameController :=
  if c.state_ = .Disconnected then
    c
  else
    match (decode payload).type with
    | .Accept =>
      { c.setState .InGame with
        acceptedOn := if c.state_ = .InGame then c.acceptedOn else some connection }
    | .Reject => c.doShutdown
    | .GameEnd => c.setState .GameOver
    | .Unknown => c

def doShoot (c : GameController) (now : Int64) (myPlayerAlive : Bool) : GameController :=
  if c.state_ ≠ .InGame then c
  else if !myPlayerAlive then c
  else if now - c.last_shot_time_ < kShootCooldown then c
  else
    { c with
      last_shot_time_ := now
      tcpCalls := c.tcpCalls ++ [.send c.connectGen_ encodeShoot] }

end GameController

/-! ### The strand -/

/-- A handler posted on the controller's strand. -/
inductive Post
  | doStart (host : Bytes) (port : UInt16) (playerName : Bytes)
  | doShutdown
  | rejoin (host : Bytes) (port : UInt16) (playerName : Bytes)
  | doShoot
  | connectResult (generation : ℕ) (ok : Bool)
  | disconnected
  | message (connection : ℕ) (payload : Bytes)
  deriving DecidableEq, Repr

/-- The controller with its strand. `established` lists the connections whose
success the transport has reported; only these deliver messages. -/
structure ControllerStrand where
  controller : GameController := {}
  strand : List Post := []
  established : List ℕ := []
  deriving DecidableEq

/-- What can happen next: a public call from any thread, a callback of the
transport, or the strand running its first handler. -/
inductive Label
  | start (host : Bytes) (port : UInt16) (playerName : Bytes)
  | rejoin (host : Bytes) (port : UInt16) (playerName : Bytes)
  | shutdown
  | shoot
  | tcpConnectResult (generation : ℕ) (ok : Bool)
  | tcpDisconnect
  | tcpMessage (connection : ℕ) (payload : Bytes)
  | runHandler (now : Int64) (myPlayerAlive : Bool)
  deriving DecidableEq, Repr

namespace ControllerStrand

def post (c : ControllerStrand) (handler : Post) : ControllerStrand :=
  { c with strand := c.strand ++ [handler] }

/-- Run a posted handler. -/
def handle (c : GameController) (now : Int64) (myPlayerAlive : Bool) : Post → GameController
  | .doStart host port playerName => c.doStart host port playerName
  | .doShutdown => c.doShutdown
  | .rejoin host port playerName => c.doShutdown.doStart host port playerName
  | .doShoot => c.doShoot now myPlayerAlive
  | .connectResult gen ok => c.onConnectResult gen ok
  | .disconnected => c.onDisconnect
  | .message connection payload => c.onMessageOnStrand connection payload

/-- The controller has started the connect attempt of this generation. -/
def attempted (c : GameController) (gen : ℕ) : Bool :=
  c.tcpCalls.any fun
    | .connect _ _ generation => generation = gen
    | _ => false

def step (c : ControllerStrand) : Label → Option ControllerStrand
  | .start host port playerName =>
    some (if validatePlayerName playerName then c.post (.doStart host port playerName) else c)
  | .rejoin host port playerName =>
    some (if validatePlayerName playerName then c.post (.rejoin host port playerName) else c)
  | .shutdown => some (c.post .doShutdown)
  | .shoot => some (c.post .doShoot)
  -- The transport answers only attempts it was given.
  | .tcpConnectResult gen ok =>
    if attempted c.controller gen then
      some { c.post (.connectResult gen ok) with
        established := if ok then gen :: c.established else c.established }
    else
      none
  | .tcpDisconnect => some (c.post .disconnected)
  -- It reads a connection only after it reported its success.
  | .tcpMessage connection payload =>
    if connection ∈ c.established then some (c.post (.message connection payload)) else none
  | .runHandler now myPlayerAlive =>
    match c.strand with
    | [] => none
    | handler :: strand =>
      some { c with
        controller := handle c.controller now myPlayerAlive handler
        strand := strand }

def machine : Machine ControllerStrand Label where
  init := {}
  step := step

/-! ### Sound sessions -/

/-- In the game, the join was sent on the connection of the current attempt, and
the reply that accepted it was received on that connection. -/
def SessionSound (c : GameController) : Prop :=
  c.state_ = .InGame →
    .send c.connectGen_ (encodeJoin ⟨c.playerName_⟩) ∈ c.tcpCalls ∧
      c.acceptedOn = some c.connectGen_

/-- A reply of another connection that the controller would act on: an `ACCEPT`
anywhere but in the game or disconnected, or a `GAME_END` while connecting. -/
def ForeignReply (c : GameController) (connection : ℕ) (payload : Bytes) : Prop :=
  connection ≠ c.connectGen_ ∧
    (((decode payload).type = .Accept ∧ c.state_ ≠ .Disconnected ∧ c.state_ ≠ .InGame) ∨
      ((decode payload).type = .GameEnd ∧ c.state_ = .Connecting))

instance (c : GameController) (connection : ℕ) (payload : Bytes) :
    Decidable (ForeignReply c connection payload) :=
  inferInstanceAs (Decidable (_ ∧ _))

/-- A step that does not make the strand handle a foreign reply. -/
def OwnReplies (c : ControllerStrand) (label : Label) : Prop :=
  match label, c.strand with
  | .runHandler _ _, .message connection payload :: _ =>
    ¬ ForeignReply c.controller connection payload
  | _, _ => True

instance (c : ControllerStrand) (label : Label) : Decidable (OwnReplies c label) := by
  unfold OwnReplies
  split <;> infer_instance

/-- The connect result of an attempt has been dealt with. -/
def Settled (c : GameController) (gen : ℕ) : Prop :=
  gen < c.connectGen_ ∨ gen = c.connectGen_ ∧ c.state_ ≠ .Connecting

/-- What the controller keeps when it handles no foreign reply. -/
structure Coherent (c : GameController) : Prop where
  attempts_le : ∀ gen, attempted c gen = true → gen ≤ c.connectGen_
  joined : c.state_ ≠ .Disconnected → c.state_ ≠ .Connecting →
    .send c.connectGen_ (encodeJoin ⟨c.playerName_⟩) ∈ c.tcpCalls
  accepted : c.state_ = .InGame → c.acceptedOn = some c.connectGen_

/-- What the strand keeps: connections were attempted, and each message is behind
the result that established its connection. -/
structure Ordered (c : ControllerStrand) : Prop where
  established_settled : ∀ gen ∈ c.established,
    Settled c.controller gen ∨ .connectResult gen true ∈ c.strand
  established_le : ∀ gen ∈ c.established, gen ≤ c.controller.connectGen_
  result_le : ∀ gen ok, .connectResult gen ok ∈ c.strand → gen ≤ c.controller.connectGen_
  message_settled : ∀ before connection payload after,
    c.strand = before ++ .message connection payload :: after →
      Settled c.controller connection ∨ .connectResult connection true ∈ before

/-! ### Handlers keep the controller coherent -/

/-- A handler either moves to a later generation or stays with the current one,
and then it does not start connecting. -/
def Advances (c c' : GameController) : Prop :=
  c.connectGen_ < c'.connectGen_ ∨
    c'.connectGen_ = c.connectGen_ ∧ (c'.state_ = .Connecting → c.state_ = .Connecting)

theorem Advances.refl (c : GameController) : Advances c c := Or.inr ⟨rfl, id⟩

theorem Advances.le {c c' : GameController} (h : Advances c c') :
    c.connectGen_ ≤ c'.connectGen_ := by
  rcases h with h | ⟨h, -⟩
  · exact h.le
  · exact h.ge

theorem Advances.trans {c c' c'' : GameController} (h : Advances c c')
    (h' : Advances c' c'') : Advances c c'' := by
  rcases h with hlt | ⟨heq, hstate⟩
  · exact Or.inl (hlt.trans_le h'.le)
  · rcases h' with hlt | ⟨heq', hstate'⟩
    · exact Or.inl (heq ▸ hlt)
    · exact Or.inr ⟨heq'.trans heq, hstate ∘ hstate'⟩

theorem Settled.advance {c c' : GameController} {gen : ℕ} (h : Settled c gen)
    (advances : Advances c c') : Settled c' gen := by
  rcases advances with hlt | ⟨heq, hstate⟩
  · rcases h with h | ⟨rfl, -⟩
    · exact Or.inl (h.trans hlt)
    · exact Or.inl hlt
  · rcases h with h | ⟨rfl, hne⟩
    · exact Or.inl (heq ▸ h)
    · exact Or.inr ⟨heq.symm, fun hconnecting => hne (hstate hconnecting)⟩

theorem doStart_cases (c : GameController) (host : Bytes) (port : UInt16) (name : Bytes) :
    c.doStart host port name = c ∨
      (c.state_ = .Disconnected ∧
        c.doStart host port name = { c with
          state_ := .Connecting
          connectGen_ := c.connectGen_ + 1
          playerName_ := name
          tcpCalls := c.tcpCalls ++ [.connect host port (c.connectGen_ + 1)] }) := by
  unfold GameController.doStart
  split_ifs with h
  · exact Or.inl rfl
  · rw [not_not] at h
    right
    refine ⟨h, ?_⟩
    simp [GameController.setState, h]

theorem doShutdown_eq (c : GameController) :
    c.doShutdown = { c with
      state_ := .Disconnected
      connectGen_ := c.connectGen_ + 1
      tcpCalls := c.tcpCalls ++ [.disconnect] } := by
  unfold GameController.doShutdown GameController.setState
  dsimp only
  split_ifs with h
  · simp [← h]
  · rfl

theorem onConnectResult_cases (c : GameController) (gen : ℕ) (ok : Bool) :
    (c.onConnectResult gen ok = c ∧ (c.connectGen_ ≠ gen ∨ c.state_ ≠ .Connecting)) ∨
      (c.connectGen_ = gen ∧ c.state_ = .Connecting ∧
        c.onConnectResult gen ok =
          if ok then { c with
            state_ := .Joining
            tcpCalls := c.tcpCalls ++ [.send c.connectGen_ (encodeJoin ⟨c.playerName_⟩)] }
          else { c with state_ := .Disconnected }) := by
  unfold GameController.onConnectResult
  by_cases hgen : c.connectGen_ = gen
  · by_cases hstate : c.state_ = .Connecting
    · right
      refine ⟨hgen, hstate, ?_⟩
      cases ok <;> simp [hgen, hstate, GameController.sendJoin, GameController.setState]
    · exact Or.inl ⟨by simp [hgen, hstate], Or.inr hstate⟩
  · exact Or.inl ⟨by simp [hgen], Or.inl hgen⟩

theorem onDisconnect_cases (c : GameController) :
    c.onDisconnect = c ∨ c.onDisconnect = { c with state_ := .Disconnected } := by
  unfold GameController.onDisconnect GameController.setState
  split_ifs with h h'
  · exact Or.inl rfl
  · exact Or.inl rfl
  · exact Or.inr rfl

theorem onMessageOnStrand_cases (c : GameController) (connection : ℕ) (payload : Bytes) :
    c.onMessageOnStrand connection payload = c ∨
      c.onMessageOnStrand connection payload = c.doShutdown ∨
      (c.state_ ≠ .Disconnected ∧ (decode payload).type = .GameEnd ∧
        c.onMessageOnStrand connection payload = { c with state_ := .GameOver }) ∨
      (c.state_ ≠ .Disconnected ∧ c.state_ ≠ .InGame ∧ (decode payload).type = .Accept ∧
        c.onMessageOnStrand connection payload =
          { c with state_ := .InGame, acceptedOn := some connection }) := by
  unfold GameController.onMessageOnStrand
  by_cases hdisconnected : c.state_ = .Disconnected
  · exact Or.inl (if_pos hdisconnected)
  · rw [if_neg hdisconnected]
    cases htype : (decode payload).type with
    | Accept =>
      by_cases hgame : c.state_ = .InGame
      · left
        simp [GameController.setState, ← hgame]
      · right; right; right
        refine ⟨hdisconnected, hgame, rfl, ?_⟩
        simp [GameController.setState, hgame]
    | Reject => exact Or.inr (Or.inl rfl)
    | GameEnd =>
      by_cases hover : c.state_ = .GameOver
      · exact Or.inl (if_pos hover)
      · right; right; left
        refine ⟨hdisconnected, rfl, ?_⟩
        simp [GameController.setState, hover]
    | Unknown => exact Or.inl rfl

theorem doShoot_cases (c : GameController) (now : Int64) (alive : Bool) :
    c.doShoot now alive = c ∨
      c.doShoot now alive = { c with
        last_shot_time_ := now
        tcpCalls := c.tcpCalls ++ [.send c.connectGen_ encodeShoot] } := by
  unfold GameController.doShoot
  split_ifs
  all_goals first | exact Or.inl rfl | exact Or.inr rfl

theorem attempted_append (c : GameController) (call : TcpCall) (gen : ℕ) :
    attempted { c with tcpCalls := c.tcpCalls ++ [call] } gen = true ↔
      attempted c gen = true ∨ ∃ host port, call = .connect host port gen := by
  unfold attempted
  rw [List.any_append, Bool.or_eq_true]
  refine or_congr Iff.rfl ?_
  cases call <;> simp [eq_comm]

theorem advances_doStart (c : GameController) (host : Bytes) (port : UInt16) (name : Bytes) :
    Advances c (c.doStart host port name) := by
  rcases doStart_cases c host port name with h | ⟨-, h⟩ <;> rw [h]
  · exact Advances.refl c
  · exact Or.inl (Nat.lt_succ_self _)

theorem advances_doShutdown (c : GameController) : Advances c c.doShutdown := by
  rw [doShutdown_eq]
  exact Or.inl (Nat.lt_succ_self _)

/-- Every handler advances. -/
theorem advances_handle (c : GameController) (now : Int64) (alive : Bool) (handler : Post) :
    Advances c (handle c now alive handler) := by
  cases handler with
  | doStart host port name => exact advances_doStart c host port name
  | doShutdown => exact advances_doShutdown c
  | rejoin host port name =>
    exact (advances_doShutdown c).trans (advances_doStart _ host port name)
  | doShoot =>
    rcases doShoot_cases c now alive with h | h <;> rw [handle, h]
    · exact Advances.refl c
    · exact Or.inr ⟨rfl, id⟩
  | connectResult gen ok =>
    rcases onConnectResult_cases c gen ok with ⟨h, -⟩ | ⟨-, -, h⟩ <;> rw [handle, h]
    · exact Advances.refl c
    · cases ok <;> exact Or.inr ⟨rfl, nofun⟩
  | disconnected =>
    rcases onDisconnect_cases c with h | h <;> rw [handle, h]
    · exact Advances.refl c
    · exact Or.inr ⟨rfl, nofun⟩
  | message connection payload =>
    rcases onMessageOnStrand_cases c connection payload with
      h | h | ⟨-, -, h⟩ | ⟨-, -, -, h⟩ <;> rw [handle, h]
    · exact Advances.refl c
    · exact advances_doShutdown c
    · exact Or.inr ⟨rfl, nofun⟩
    · exact Or.inr ⟨rfl, nofun⟩

/-- Handling the result of an attempt settles it. -/
theorem settled_onConnectResult {c : GameController} {gen : ℕ} (ok : Bool)
    (hle : gen ≤ c.connectGen_) : Settled (c.onConnectResult gen ok) gen := by
  rcases onConnectResult_cases c gen ok with ⟨h, hne⟩ | ⟨hgen, -, h⟩ <;> rw [h]
  · rcases hne with hne | hne
    · exact Or.inl (lt_of_le_of_ne hle (Ne.symm hne))
    · rcases hle.lt_or_eq with hlt | heq
      · exact Or.inl hlt
      · exact Or.inr ⟨heq, hne⟩
  · cases ok <;> exact Or.inr ⟨hgen.symm, nofun⟩

theorem Coherent.doStart {c : GameController} (h : Coherent c) (host : Bytes) (port : UInt16)
    (name : Bytes) : Coherent (c.doStart host port name) := by
  rcases doStart_cases c host port name with heq | ⟨-, heq⟩ <;> rw [heq]
  · exact h
  · refine ⟨fun gen attempt => ?_, fun _ hne => absurd rfl hne, nofun⟩
    have hcall := (attempted_append c (.connect host port (c.connectGen_ + 1)) gen).mp attempt
    rcases hcall with hold | ⟨_, _, hnew⟩
    · exact (h.attempts_le gen hold).trans (Nat.le_succ _)
    · exact (TcpCall.connect.inj hnew).2.2.ge

theorem Coherent.doShutdown {c : GameController} (h : Coherent c) :
    Coherent c.doShutdown := by
  rw [doShutdown_eq]
  refine ⟨fun gen attempt => ?_, fun hne => absurd rfl hne, nofun⟩
  rcases (attempted_append c .disconnect gen).mp attempt with hold | ⟨_, _, hnew⟩
  · exact (h.attempts_le gen hold).trans (Nat.le_succ _)
  · cases hnew

/-- A send adds to the calls and starts no attempt. -/
theorem Coherent.attempts_le_send {c : GameController} (h : Coherent c) (gen : ℕ)
    (data : Bytes) {other : ℕ}
    (attempt : attempted { c with tcpCalls := c.tcpCalls ++ [.send gen data] } other = true) :
    other ≤ c.connectGen_ := by
  rcases (attempted_append c (.send gen data) other).mp attempt with hold | ⟨_, _, hnew⟩
  · exact h.attempts_le other hold
  · cases hnew

theorem Coherent.onConnectResult {c : GameController} (h : Coherent c) (gen : ℕ) (ok : Bool) :
    Coherent (c.onConnectResult gen ok) := by
  rcases onConnectResult_cases c gen ok with ⟨heq, -⟩ | ⟨-, -, heq⟩ <;> rw [heq]
  · exact h
  · cases ok with
    | true =>
      refine ⟨fun other attempt => h.attempts_le_send _ _ attempt, fun _ _ => ?_, nofun⟩
      exact List.mem_append_right _ List.mem_cons_self
    | false => exact ⟨h.attempts_le, fun hne => absurd rfl hne, nofun⟩

theorem Coherent.onDisconnect {c : GameController} (h : Coherent c) :
    Coherent c.onDisconnect := by
  rcases onDisconnect_cases c with heq | heq <;> rw [heq]
  · exact h
  · exact ⟨h.attempts_le, fun hne => absurd rfl hne, nofun⟩

theorem Coherent.doShoot {c : GameController} (h : Coherent c) (now : Int64) (alive : Bool) :
    Coherent (c.doShoot now alive) := by
  rcases doShoot_cases c now alive with heq | heq <;> rw [heq]
  · exact h
  · exact ⟨fun other attempt => h.attempts_le_send _ _ attempt,
      fun hd hc => List.mem_append_left _ (h.joined hd hc), h.accepted⟩

/-- A message of a settled connection that is no foreign reply keeps the controller
coherent: when it moves the controller, the join of the attempt was sent. -/
theorem Coherent.onMessageOnStrand {c : GameController} (h : Coherent c) {connection : ℕ}
    {payload : Bytes} (settled : Settled c connection)
    (own : ¬ ForeignReply c connection payload) :
    Coherent (c.onMessageOnStrand connection payload) := by
  have hconnecting (heq : connection = c.connectGen_) : c.state_ ≠ .Connecting := by
    rcases settled with hlt | ⟨-, hne⟩
    · exact absurd heq hlt.ne
    · exact hne
  rcases onMessageOnStrand_cases c connection payload with
    heq | heq | ⟨hdisconnected, htype, heq⟩ | ⟨hdisconnected, hgame, htype, heq⟩ <;> rw [heq]
  · exact h
  · exact h.doShutdown
  · refine ⟨h.attempts_le, fun _ _ => h.joined hdisconnected fun hstate => ?_, nofun⟩
    exact own ⟨fun hsame => hconnecting hsame hstate, Or.inr ⟨htype, hstate⟩⟩
  · have hsame : connection = c.connectGen_ := by
      by_contra hne
      exact own ⟨hne, Or.inl ⟨htype, hdisconnected, hgame⟩⟩
    exact ⟨h.attempts_le, fun _ _ => h.joined hdisconnected (hconnecting hsame),
      fun _ => congrArg some hsame⟩

/-- Handlers other than a foreign reply keep the controller coherent. -/
theorem Coherent.handle {c : GameController} (h : Coherent c) (now : Int64) (alive : Bool)
    {handler : Post}
    (message : ∀ connection payload, handler = .message connection payload →
      Settled c connection ∧ ¬ ForeignReply c connection payload) :
    Coherent (handle c now alive handler) := by
  cases handler with
  | doStart host port name => exact h.doStart host port name
  | doShutdown => exact h.doShutdown
  | rejoin host port name => exact h.doShutdown.doStart host port name
  | doShoot => exact h.doShoot now alive
  | connectResult gen ok => exact h.onConnectResult gen ok
  | disconnected => exact h.onDisconnect
  | message connection payload =>
    obtain ⟨settled, own⟩ := message connection payload rfl
    exact h.onMessageOnStrand settled own

/-! ### The strand keeps its order -/

/-- Posting keeps the order when a posted result answers an attempt and a posted
message comes from an established connection. -/
theorem Ordered.post {c : ControllerStrand} (h : Ordered c) {handler : Post}
    (result : ∀ gen ok, handler = .connectResult gen ok → gen ≤ c.controller.connectGen_)
    (message : ∀ connection payload, handler = .message connection payload →
      connection ∈ c.established) : Ordered (c.post handler) where
  established_settled gen hgen :=
    (h.established_settled gen hgen).imp_right (List.mem_append_left _)
  established_le := h.established_le
  result_le gen ok hmem := by
    rcases List.mem_append.mp hmem with hold | hnew
    · exact h.result_le gen ok hold
    · exact result gen ok (List.mem_singleton.mp hnew).symm
  message_settled before connection payload after heq := by
    -- The message is either the new handler or an old one.
    rcases List.eq_nil_or_concat after with rfl | ⟨rest, last, rfl⟩
    · obtain ⟨rfl, hnew⟩ := List.append_inj' heq rfl
      exact h.established_settled _ (message _ _ (List.singleton_inj.mp hnew))
    · rw [List.concat_eq_append, ← List.cons_append, ← List.append_assoc] at heq
      exact h.message_settled before connection payload rest (List.append_inj' heq rfl).1

/-- Reporting the success of an attempt establishes its connection. -/
theorem Ordered.establish {c : ControllerStrand} (h : Ordered c) {gen : ℕ}
    (hmem : .connectResult gen true ∈ c.strand) :
    Ordered { c with established := gen :: c.established } where
  established_settled other hother := by
    rcases List.mem_cons.mp hother with rfl | hold
    · exact Or.inr hmem
    · exact h.established_settled other hold
  established_le other hother := by
    rcases List.mem_cons.mp hother with rfl | hold
    · exact h.result_le other true hmem
    · exact h.established_le other hold
  result_le := h.result_le
  message_settled := h.message_settled

/-- What is settled, or will be by a handler on the strand, stays so when the first
handler runs. -/
theorem settled_or_mem_of_handle {c : GameController} (now : Int64) (alive : Bool) {gen : ℕ}
    {handler : Post} {rest : List Post} (hle : gen ≤ c.connectGen_)
    (h : Settled c gen ∨ .connectResult gen true ∈ handler :: rest) :
    Settled (handle c now alive handler) gen ∨ .connectResult gen true ∈ rest := by
  rcases h with h | h
  · exact Or.inl (h.advance (advances_handle c now alive handler))
  · rcases List.mem_cons.mp h with rfl | hrest
    · exact Or.inl (settled_onConnectResult true hle)
    · exact Or.inr hrest

theorem Ordered.handle {c : ControllerStrand} (h : Ordered c) (now : Int64) (alive : Bool)
    {handler : Post} {rest : List Post} (hstrand : c.strand = handler :: rest) :
    Ordered { c with
      controller := handle c.controller now alive handler
      strand := rest } := by
  have hle := (advances_handle c.controller now alive handler).le
  refine ⟨fun gen hgen => ?_, fun gen hgen => (h.established_le gen hgen).trans hle,
    fun gen ok hmem => ?_, fun before connection payload after heq => ?_⟩
  · have hsettled := h.established_settled gen hgen
    rw [hstrand] at hsettled
    exact settled_or_mem_of_handle now alive (h.established_le gen hgen) hsettled
  · have hold := h.result_le gen ok (hstrand ▸ List.mem_cons_of_mem handler hmem)
    exact hold.trans hle
  · have hsettled := h.message_settled (handler :: before) connection payload after
      (by rw [hstrand]; exact congrArg (handler :: ·) heq)
    rcases hsettled with hsettled | hmem
    · exact Or.inl (hsettled.advance (advances_handle c.controller now alive handler))
    · have hgen : .connectResult connection true ∈ c.strand := by
        rw [hstrand, show rest = _ from heq, ← List.cons_append]
        exact List.mem_append_left _ hmem
      exact settled_or_mem_of_handle now alive (h.result_le connection true hgen) (Or.inr hmem)

/-! ### Runs -/

/-- A step that handles no foreign reply keeps the controller coherent and the strand
in order. -/
theorem step_sound {c c' : ControllerStrand} {label : Label} (own : OwnReplies c label)
    (coherent : Coherent c.controller) (ordered : Ordered c) (h : step c label = some c') :
    Coherent c'.controller ∧ Ordered c' := by
  cases label with
  | start host port name =>
    simp only [step, Option.some.injEq] at h
    split_ifs at h <;> subst h
    · exact ⟨coherent, ordered.post nofun nofun⟩
    · exact ⟨coherent, ordered⟩
  | rejoin host port name =>
    simp only [step, Option.some.injEq] at h
    split_ifs at h <;> subst h
    · exact ⟨coherent, ordered.post nofun nofun⟩
    · exact ⟨coherent, ordered⟩
  | shutdown =>
    obtain rfl := Option.some.inj h
    exact ⟨coherent, ordered.post nofun nofun⟩
  | shoot =>
    obtain rfl := Option.some.inj h
    exact ⟨coherent, ordered.post nofun nofun⟩
  | tcpConnectResult gen ok =>
    obtain ⟨hattempted, h⟩ := Option.ite_none_right_eq_some.mp h
    obtain rfl := Option.some.inj h
    -- The generation is that of an attempt, so it is no later than the current one.
    have hpost : Ordered (c.post (.connectResult gen ok)) := by
      refine ordered.post (fun gen' ok' heq => ?_) nofun
      obtain ⟨rfl, -⟩ := Post.connectResult.inj heq
      exact coherent.attempts_le _ hattempted
    refine ⟨coherent, ?_⟩
    cases ok with
    | true => exact hpost.establish (List.mem_append_right _ List.mem_cons_self)
    | false => exact hpost
  | tcpDisconnect =>
    obtain rfl := Option.some.inj h
    exact ⟨coherent, ordered.post nofun nofun⟩
  | tcpMessage connection payload =>
    simp only [step] at h
    split_ifs at h with hmem
    obtain rfl := Option.some.inj h
    refine ⟨coherent, ordered.post nofun fun connection' payload' heq => ?_⟩
    obtain ⟨rfl, -⟩ := Post.message.inj heq
    exact hmem
  | runHandler now alive =>
    simp only [step] at h
    split at h
    · cases h
    · next handler rest hstrand =>
      obtain rfl := Option.some.inj h
      refine ⟨coherent.handle now alive fun connection payload heq => ?_,
        ordered.handle now alive hstrand⟩
      rw [heq] at hstrand
      refine ⟨?_, by simpa only [OwnReplies, hstrand] using own⟩
      rcases ordered.message_settled [] connection payload rest hstrand with h | h
      · exact h
      · cases h

theorem init_sound : Coherent machine.init.controller ∧ Ordered machine.init := by
  refine ⟨⟨nofun, fun hne => absurd rfl hne, nofun⟩, nofun, nofun, nofun,
    fun before _ _ after heq => ?_⟩
  cases before <;> cases heq

/-- A session in the game is sound in every run that handles no foreign reply. -/
theorem sessionSound_of_run {labels : List Label} {c : ControllerStrand}
    (run : machine.run labels = some c) (own : machine.Meets OwnReplies labels) :
    SessionSound c.controller := by
  have hsound : Coherent c.controller ∧ Ordered c := by
    refine Machine.guarded_induction OwnReplies
      (motive := fun _ c => Coherent c.controller ∧ Ordered c) init_sound ?_ own run
    intro _ c label c' _ _ hc hown hstep
    exact step_sound hown hc.1 hc.2 hstep
  intro hgame
  refine ⟨hsound.1.joined ?_ ?_, hsound.1.accepted hgame⟩ <;> rw [hgame] <;> nofun

/-- Handling an `ACCEPT` of another connection outside the game makes it unsound. -/
theorem not_sessionSound_of_foreign_accept {c : GameController} {connection : ℕ}
    {payload : Bytes} (foreign : ForeignReply c connection payload)
    (accept : (decode payload).type = .Accept) :
    ¬ SessionSound (c.onMessageOnStrand connection payload) := by
  obtain ⟨hne, ⟨-, hdisconnected, hgame⟩ | ⟨hend, -⟩⟩ := foreign
  · have heq : c.onMessageOnStrand connection payload =
        { c with state_ := .InGame, acceptedOn := some connection } := by
      simp [GameController.onMessageOnStrand, GameController.setState, accept,
        hdisconnected, hgame]
    rw [heq]
    intro hsound
    exact hne (Option.some.inj (hsound rfl).2)
  · rw [accept] at hend
    cases hend

/-- A first session up to the reply that accepts it. -/
def acceptedSession : List Label :=
  [.start (bytesOf "localhost") 5000 (bytesOf "Ace"), .runHandler 0 false,
    .tcpConnectResult 1 true, .runHandler 0 false,
    .tcpMessage 1 (bytesOf "ACCEPT"), .runHandler 0 false]

/-- The same session when the reply arrives behind a rejoin. -/
def rejoinedSession : List Label :=
  [.start (bytesOf "localhost") 5000 (bytesOf "Ace"), .runHandler 0 false,
    .tcpConnectResult 1 true, .runHandler 0 false,
    .rejoin (bytesOf "localhost") 5000 (bytesOf "Ace"),
    .tcpMessage 1 (bytesOf "ACCEPT"), .runHandler 0 false, .runHandler 0 false]

theorem sessionSound_acceptedSession :
    ∃ c, machine.run acceptedSession = some c ∧ c.controller.state_ = .InGame ∧
      SessionSound c.controller := by
  have hrun : (machine.run acceptedSession).isSome = true := by decide
  obtain ⟨c, hc⟩ := Option.isSome_iff_exists.mp hrun
  have hgame : (machine.run acceptedSession).map (·.controller.state_) = some .InGame := by
    decide
  rw [hc] at hgame
  exact ⟨c, hc, Option.some.inj hgame,
    sessionSound_of_run hc (Machine.meets_of_checks (by decide))⟩

/-- An `ACCEPT` of the first connection that waits behind a rejoin puts the
controller in the game while its new attempt is still connecting. -/
theorem not_sessionSound_rejoinedSession :
    ¬ ∀ labels c, machine.run labels = some c → SessionSound c.controller := by
  intro hall
  have hgame : (machine.run rejoinedSession).map
      (fun c => (c.controller.state_, c.controller.connectGen_, c.controller.acceptedOn)) =
        some (.InGame, 3, some 1) := by decide
  obtain ⟨c, hc, heq⟩ := Option.map_eq_some_iff.mp hgame
  obtain ⟨hstate, hgen, haccepted⟩ := Prod.mk.inj heq |>.imp id Prod.mk.inj
  have hsound := (hall _ c hc hstate).2
  rw [haccepted, hgen] at hsound
  cases hsound

end ControllerStrand

end SpaceShooter.Client
