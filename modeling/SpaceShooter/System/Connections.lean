/-
# The server and its clients

A server and any number of clients, joined by TCP connections. A connection loses no bytes and
keeps them in order: at any time, what has been read at one end is a first part of what was
written at the other. How the bytes are cut, and when they arrive, is left open, and so is what
comes from a peer that is none of the clients.
-/

import Mathlib.Data.PEquiv
import SpaceShooter.Client.SentFrames
import SpaceShooter.Server.PacketDelivery
import SpaceShooter.Server.SessionStream

namespace SpaceShooter

open Library Network Client Server

/-! ### What a socket was given -/

namespace Server.TcpServer

variable {T K : Type} {s t : TcpServer T K} {id : SessionId}

/-- The bytes that the socket of a session was given. -/
def writtenTo (s : TcpServer T K) (id : SessionId) : Bytes :=
  ((s.sessions id).map fun session => session.written.flatten).getD []

/-- The chunk that ends a read, and the session whose read it is. -/
def Label.chunk? : Label T → Option (SessionId × Bytes)
  | .session id label => label.chunk?.map fun chunk => (id, chunk)
  | _ => none

variable [DecidableEq T]

theorem isSome_of_step {label : Label T} (hstep : s.step label = some t)
    (h : (s.sessions id).isSome) : (t.sessions id).isSome := by
  cases transition_of_step hstep with
  | acceptCompletion result =>
    cases result with
    | error error =>
      cases error with
      | operation_aborted => exact h
      | failed =>
        rw [onAccept, rearm_eq]
        exact h
    | connected remote_address => exact h
  | done =>
    rw [rearm_eq]
    exact h
  | addSession => exact isSome_put h
  | startSession => exact isSome_put h
  | session => exact isSome_put h
  | send => exact isSome_put h
  | start => exact h
  | stop => exact h
  | acceptFinishes => exact h
  | keepSession => exact h
  | publish => exact h
  | sendPacketEvent => exact h

theorem writtenTo_of_step (h : s.Known) {label : Label T} (hstep : s.step label = some t)
    (id : SessionId) : s.writtenTo id <+: t.writtenTo id := by
  cases after : t.sessions id with
  | none =>
    have before : s.sessions id = none := by
      rw [← Option.not_isSome_iff_eq_none]
      intro there
      have there' := isSome_of_step hstep there
      rw [after] at there'
      cases there'
    rw [writtenTo, before]
    exact List.nil_prefix
  | some session' =>
    obtain ⟨accepts, waits⟩ := follows_of_step h hstep after
    rw [writtenTo, writtenTo, after]
    cases offer : s.offers id label with
    | none =>
      rcases waits offer with same | ⟨absent, -⟩
      · exact same ▸ List.prefix_refl _
      · rw [absent]
        exact List.nil_prefix
    | some own =>
      obtain ⟨session, before, answers⟩ := accepts own offer
      obtain ⟨more, hmore⟩ := Session.written_of_step answers
      rw [before, Option.map_some, Option.map_some, Option.getD_some, Option.getD_some, ← hmore,
        List.flatten_append]
      exact List.prefix_append _ _

/-- The reads of a session are its own steps. -/
theorem chunk_of_step {label : Label T} (hstep : s.step label = some t) (id : SessionId) :
    ofGeneration id label.chunk?.toList =
      ((s.offers id label).bind Session.Label.chunk?).toList := by
  have mute {handler : Accepting} {others : List Accepting} {refuses : Bool}
      (first : s.running = handler :: others) :
      (s.offers id (.accept refuses)).bind Session.Label.chunk? = none := by
    rw [offers_accept first]
    split_ifs <;> rfl
  cases transition_of_step hstep with
  | session other label =>
    rw [Label.chunk?, offers]
    by_cases own : other = id
    · subst own
      rw [if_pos rfl, Option.bind_some]
      cases label.chunk? with
      | none => rfl
      | some chunk => exact Reading.ofGeneration_self other chunk
    · rw [if_neg own, Option.bind_none]
      cases label.chunk? with
      | none => rfl
      | some chunk => exact Reading.ofGeneration_of_ne own chunk
  | send thread other payload rest session session' first =>
    rw [offers, first]
    dsimp only
    split_ifs <;> rfl
  | addSession refuses handler others first => rw [mute first]; rfl
  | keepSession refuses handler others first => rw [mute first]; rfl
  | startSession refuses handler others session session' first => rw [mute first]; rfl
  | publish refuses handler others first => rw [mute first]; rfl
  | done refuses handler others first => rw [mute first]; rfl
  | start => rfl
  | stop => rfl
  | acceptFinishes => rfl
  | acceptCompletion => rfl
  | sendPacketEvent => rfl

end Server.TcpServer

namespace Client.TcpClient

variable {c c' : TcpClient}

theorem writtenOn_of_step (hexclusive : c.is_connecting_ = true → c.is_connected_ = false)
    {label : Label} (hstep : c.step label = some c') (generation : ℕ) :
    c.writtenOn generation <+: c'.writtenOn generation := by
  obtain ⟨more, hmore⟩ := (simulates hexclusive hstep).written_grows
  have hwritten : c'.written = c.written ++ more := hmore.symm
  rw [writtenOn, writtenOn, hwritten, framesOf_append, List.flatMap_append]
  exact List.prefix_append _ _

theorem brings_cases (c : TcpClient) (label : Label) :
    c.brings label = [] ∨ ∃ entry, c.brings label = [entry] := by
  cases label with
  | complete i result =>
    cases result with
    | none => exact .inl rfl
    | some chunk =>
      rw [brings]
      split
      · exact .inr ⟨_, rfl⟩
      · exact .inl rfl
  | _ => exact .inl rfl

end Client.TcpClient

/-! ### The system -/

/-- A client, and the generation of one of its connections. -/
structure Endpoint where
  client : ℕ
  generation : ℕ
  deriving DecidableEq, Repr

structure System (T K : Type) where
  server : TcpServer T K := {}
  clients : ℕ → TcpReader := fun _ => (TcpReader.machine true true).init
  /-- History: the chunks that the reads of the sessions have brought. -/
  received : List (SessionId × Bytes) := []

namespace System

inductive Label (T : Type)
  | server (label : TcpServer.Label T)
  | client (client : ℕ) (label : TcpClient.Label)

/-- Whether bytes may have arrived, for all that is known of the other end. -/
def Carried (sent : Option Bytes) (received : List Bytes) : Prop :=
  ∀ bytes ∈ sent, received.flatten <+: bytes

instance (sent : Option Bytes) (received : List Bytes) : Decidable (Carried sent received) :=
  inferInstanceAs (Decidable (∀ bytes ∈ sent, received.flatten <+: bytes))

variable {T K : Type}

/-- What was written at the other end of a session. -/
def upstream (wiring : SessionId ≃. Endpoint) (s : System T K) (id : SessionId) : Option Bytes :=
  (wiring id).map fun e => (s.clients e.client).client.writtenOn e.generation

/-- What was written at the other end of a client's connection. -/
def downstream (wiring : SessionId ≃. Endpoint) (s : System T K) (e : Endpoint) : Option Bytes :=
  (wiring.symm e).map s.server.writtenTo

def put (s : System T K) (k : ℕ) (client : TcpReader) : System T K :=
  { s with clients := Function.update s.clients k client }

theorem put_self (s : System T K) (k : ℕ) (client : TcpReader) :
    (s.put k client).clients k = client :=
  Function.update_self ..

theorem put_of_ne (s : System T K) {j k : ℕ} (h : j ≠ k) (client : TcpReader) :
    (s.put k client).clients j = s.clients j :=
  Function.update_of_ne h ..

variable [DecidableEq T]

def step (wiring : SessionId ≃. Endpoint) (s : System T K) : Label T → Option (System T K)
  | .server label =>
    let received := s.received ++ label.chunk?.toList
    if ∀ entry ∈ label.chunk?, Carried (s.upstream wiring entry.1) (ofGeneration entry.1 received)
    then (s.server.step label).map fun server => { s with server := server, received := received }
    else none
  | .client k label =>
    let brought := (s.clients k).client.brings label
    if ∀ entry ∈ brought, Carried (s.downstream wiring ⟨k, entry.1⟩)
      (ofGeneration entry.1 ((s.clients k).received ++ brought))
    then ((s.clients k).step label).map (s.put k)
    else none

/-- The system in which a connection joins a session and a generation of a client exactly where
the wiring says so. -/
def machine (T K : Type) [DecidableEq T] (wiring : SessionId ≃. Endpoint) :
    Machine (System T K) (Label T) where
  init := {}
  step := step wiring

end System

end SpaceShooter
