/-
# What the server makes of a client

Whatever a session has read of what a client says on a connection, the router makes of it nothing,
or one join under a name that the client has validated, with shots behind it.
-/

import SpaceShooter.Client.Conversation
import SpaceShooter.Server.NetworkResponseRouter
import SpaceShooter.System.Exchange

namespace SpaceShooter.System

open Library Network Protocol Client Server NetworkEvent NetworkResponseRouter

variable {K : Type} [Scalar K]

/-- What the router does for a session that it understands: the join is passed on and answered,
and the shots are passed on. -/
def answers (id : SessionId) : Option (PlayerName × ℕ) → List (Effect K)
  | none => []
  | some (name, shots) =>
    .publish (PlayerJoinEvent id name.text) :: .publish (SendPacketEvent id (bytesOf "ACCEPT")) ::
      List.replicate shots (.publish (ShotMessageEvent id))

/-- The router takes the payloads of a session for what they are. -/
theorem flatMap_conversation (handlerSet : Bool) (id : SessionId)
    (session : Option (PlayerName × ℕ)) :
    ((conversation session).map ClientCommand.encode).flatMap
        (onMessageReceived (K := K) handlerSet id) = answers id session := by
  cases session with
  | none => rfl
  | some session =>
    obtain ⟨name, shots⟩ := session
    have hshots : (List.replicate shots encodeShoot).flatMap
        (onMessageReceived (K := K) handlerSet id) =
          List.replicate shots (.publish (ShotMessageEvent id)) := by
      induction shots with
      | zero => rfl
      | succ shots ih =>
        rw [List.replicate_succ, List.flatMap_cons, ih, onMessageReceived_shoot]
        rfl
    rw [conversation, List.map_cons, List.map_replicate, List.flatMap_cons, ClientCommand.encode,
      ClientCommand.encode, onMessageReceived_join, hshots]
    rfl

/-- In every run of the client in which the controller, while it is connecting, handles no `ACCEPT`
and no `GAME_END` of an earlier connection, and in which the names leave room for a frame: on each
connection the payloads that are accepted are those of one session, a join and then shots; and
what a session of the server publishes of the bytes it has read from that connection is the
beginning of such a session too, which the router answers as such. -/
theorem understood_of_run {labels : List GameClient.Label} {g : GameClient}
    (run : GameClient.machine.run labels = some g)
    (speaking : GameClient.machine.Meets GameClient.SpeakingStep labels) (generation : ℕ)
    {id : SessionId} {events : List Session.Label} {session : Session K}
    (served : (Session.machine K id).run events = some session)
    (carried : (Machine.words Session.Label.chunk? events).flatten <+:
      g.tcp_.writtenOn generation) (handlerSet : Bool) :
    Said (g.tcp_.acceptedOn generation) ∧
      session.messages <+: g.tcp_.acceptedOn generation ∧
      ∃ heard, session.messages = (conversation heard).map ClientCommand.encode ∧
        session.messages.flatMap (onMessageReceived (K := K) handlerSet id) =
          answers id heard := by
  have said : Said (g.tcp_.acceptedOn generation) := by
    obtain ⟨commands, letters, converses⟩ := (GameClient.speaks_of_run run speaking).converses
    exact converses.said generation
  have first : session.messages <+: g.tcp_.acceptedOn generation := by
    obtain ⟨own, client⟩ := (GameClient.composed_of_run run).run
    obtain ⟨handed, written, accepted, fits, -⟩ := TcpClient.writtenOn_of_run client generation
    rw [written] at carried
    exact (Session.first_of_run served).trans ((run_prefix_of_wire fits carried).trans accepted)
  obtain ⟨heard, heq⟩ := said.of_beginning first
  refine ⟨said, first, heard, heq, ?_⟩
  rw [heq]
  exact flatMap_conversation handlerSet id heard

/-- The accepted client shoots, at a time that its cooldown allows. -/
def shotInGame : List GameClient.Label :=
  GameClient.acceptedClient ++ [.shoot, .runHandler (-1) true, .call, .runTcpHandler, .resume]

/-- The session has read all of it but the last byte. -/
def joinAndPart : List Session.Label :=
  [.start, .runHandler fun _ => false,
    .readFinishes (.bytes (FrameCodec.wire (bytesOf "JOIN Ace") ++
      (FrameCodec.wire (bytesOf "SHOOT")).dropLast)), .readPosted,
    .runHandler fun _ => false]

section Rational

attribute [local instance] RationalScalar.rational

theorem understood_joinAndPart : ∃ (g : GameClient) (session : Session ℚ),
    GameClient.machine.run shotInGame = some g ∧
    (Session.machine ℚ 7).run joinAndPart = some session ∧
    g.tcp_.acceptedOn 0 = [bytesOf "JOIN Ace", bytesOf "SHOOT"] ∧
    session.messages = [bytesOf "JOIN Ace"] ∧ session.messages <+: g.tcp_.acceptedOn 0 := by
  have said : ∃ g ∈ GameClient.machine.run shotInGame,
      g.tcp_.acceptedOn 0 = [bytesOf "JOIN Ace", bytesOf "SHOOT"] ∧ g.tcp_.writtenOn 0 =
        FrameCodec.wire (bytesOf "JOIN Ace") ++ FrameCodec.wire (bytesOf "SHOOT") := by
    decide +kernel
  have heard : ∃ session ∈ (Session.machine ℚ 7).run joinAndPart,
      session.messages = [bytesOf "JOIN Ace"] := by
    decide +kernel
  obtain ⟨g, run, accepted, written⟩ := said
  obtain ⟨session, served, messages⟩ := heard
  have speaking : GameClient.machine.Meets GameClient.SpeakingStep shotInGame :=
    Machine.meets_of_checks (by decide +kernel)
  have carried : (Machine.words Session.Label.chunk? joinAndPart).flatten <+:
      g.tcp_.writtenOn 0 := by
    rw [written]
    exact ⟨[84], by decide⟩
  obtain ⟨-, first, -⟩ := understood_of_run run speaking 0 served carried false
  exact ⟨g, session, run, served, accepted, messages, first⟩

end Rational

end SpaceShooter.System
