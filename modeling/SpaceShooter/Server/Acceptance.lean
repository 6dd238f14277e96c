/-
# Accepting a connection

The accept handler of the server next to the strand of the session it creates. The handler
starts the session before it publishes the connection, and nothing holds the strand back: on
a context with several threads the session may read a message, or its end, and publish it
while the handler is still on its way. A client that announces a connection before it reads
shows the other order.
-/

import SpaceShooter.Server.Session

namespace SpaceShooter.Server

open Library Network

/-- The statement that the accept handler comes to next. -/
inductive Acceptance.Stage
  | addSession
  | start
  | publish
  | done
  deriving DecidableEq, Repr

/-- A session and the accept handler that created it; the bus is the one of the session. -/
structure Acceptance (K : Type) where
  session : Session K
  remote_address : Bytes
  handler : Acceptance.Stage := .addSession

/-- What can happen next: the accept handler goes on, or the session does on another thread. -/
inductive Acceptance.Label
  | accept
  | session (label : Session.Label)

namespace Session

variable {K : Type}

/-- A handler that publishes an event when it runs. -/
def Handler.speaks (read_buffer_ : Bytes) : Handler → Bool
  | .close => true
  | .readCompletion (.bytes chunk) => decide (0 < frameCount (read_buffer_ ++ chunk))
  | _ => false

/-- A step that runs the posted close handler, or one of a read that completes a frame. -/
def Speaks (s : Session K) : Label → Prop
  | .runHandler _ => (s.strand.head?.any (Handler.speaks s.read_buffer_)) = true
  | _ => False

instance (s : Session K) : DecidablePred s.Speaks
  | .runHandler _ => instDecidableEqBool _ _
  | .start | .send _ | .close | .removeSession => instDecidableFalse
  | .readFinishes _ | .readPosted | .writeFinishes _ => instDecidableFalse

/-- A message of a session, or its end. -/
inductive Utterance (id : SessionId) : NetworkEvent K → Prop
  | message (payload : Bytes) : Utterance id (.NetworkMessageEvent id payload)
  | disconnect : Utterance id (.ClientDisconnectedEvent id)

end Session

namespace Acceptance

variable {K : Type}

/-- The statements of the handler of `TcpServer::doAccept` behind the construction of the
session. -/
def accept (a : Acceptance K) : Option (Acceptance K) :=
  match a.handler with
  | .addSession =>
    some { a with handler := .start, session := { a.session with registered := true } }
  | .start => (a.session.step .start).map fun s => { a with handler := .publish, session := s }
  | .publish =>
    some { a with
      handler := .done
      session := a.session.publish (.ClientConnectedEvent a.session.id_ a.remote_address) }
  | .done => none

def step (a : Acceptance K) : Label → Option (Acceptance K)
  | .accept => a.accept
  -- Only the accept handler starts the session, and nobody knows it before it is registered.
  | .session label =>
    match label with
    | .start => none
    | label =>
      if a.handler = .addSession then none
      else (a.session.step label).map fun s => { a with session := s }

def machine (K : Type) (id : SessionId) (remote_address : Bytes) :
    Machine (Acceptance K) Label where
  init := { session := { id_ := id, registered := false }, remote_address := remote_address }
  step := step

/-- The connection is published ahead of every message and of the end of the session. -/
def ConnectedFirst (id : SessionId) (published : List (NetworkEvent K)) : Prop :=
  ∀ before event after, published = before ++ event :: after → Session.Utterance id event →
    ∃ remote_address, .ClientConnectedEvent id remote_address ∈ before

/-- A step that does not let the session speak while the accept handler has not published. -/
def Holds (a : Acceptance K) : Label → Prop
  | .accept => True
  | .session label => a.session.Speaks label → a.handler = .done

instance (a : Acceptance K) (label : Label) : Decidable (a.Holds label) := by
  cases label <;> unfold Holds <;> infer_instance

end Acceptance

/-! ### What a session publishes -/

namespace Session

variable {K : Type}

/-- A step publishes messages or the end of the session, and does exactly if it runs a handler
that speaks. -/
theorem published_step {s s' : Session K} {label : Label} (h : s.step label = some s') :
    s'.id_ = s.id_ ∧ ∃ events, s'.published = s.published ++ events ∧
      (events = [] ↔ ¬ s.Speaks label) ∧ ∀ event ∈ events, Utterance s.id_ event := by
  have hsilent (hidles : Idles s s') (hspeaks : ¬ s.Speaks label) :
      s'.id_ = s.id_ ∧ ∃ events, s'.published = s.published ++ events ∧
        (events = [] ↔ ¬ s.Speaks label) ∧ ∀ event ∈ events, Utterance s.id_ event :=
    ⟨hidles.id_, [], by rw [hidles.published, List.append_nil], iff_of_true rfl hspeaks,
      List.forall_mem_nil _⟩
  cases steps_of_step h with
  | idle _ _ hother hidles =>
    refine hsilent hidles ?_
    cases label with
    | runHandler refuses => exact absurd rfl (hother refuses)
    | _ => exact id
  | finish chunk => exact ⟨rfl, [], (List.append_nil _).symm, iff_of_true rfl id, nofun⟩
  | handle refuses handler rest _ hstrand hchunk hopen hidles =>
    refine hsilent hidles ?_
    rw [Speaks, hstrand]
    -- What neither delivers bytes nor closes the socket does not speak.
    cases handler with
    | readCompletion result =>
      cases result with
      | error _ => exact Bool.false_ne_true
      | bytes _ => cases hchunk
    | close => exact absurd rfl hopen
    | _ => exact Bool.false_ne_true
  | deliver refuses chunk rest hstrand =>
    obtain ⟨payloads, hframes, hpublished, hid, -⟩ :=
      onReadCompletion_bytes { s with strand := rest } refuses chunk
    refine ⟨hid, _, hpublished, ?_, ?_⟩
    · rw [List.map_eq_nil_iff, hframes, Speaks, hstrand]
      simp [Handler.speaks]
    · intro event hmem
      obtain ⟨payload, -, rfl⟩ := List.mem_map.mp hmem
      exact .message payload
  | close refuses rest hstrand =>
    have hkeeps := keeps_onClose { s with strand := rest }
    refine ⟨hkeeps.id_, [.ClientDisconnectedEvent s.id_], hkeeps.published, ?_, ?_⟩
    · rw [Speaks, hstrand]
      simp [Handler.speaks]
    · exact List.forall_mem_singleton.mpr .disconnect

end Session

namespace Acceptance

variable {K : Type} {id : SessionId} {remote_address : Bytes}

/-! ### Runs -/

/-- Before the connection is published nothing is, and afterwards it is the first event. -/
structure Announces (id : SessionId) (a : Acceptance K) : Prop where
  id_ : a.session.id_ = id
  silent : a.handler ≠ .done → a.session.published = []
  first : a.handler = .done → ∃ remote_address later,
    a.session.published = .ClientConnectedEvent id remote_address :: later

/-- The session spoke first. -/
def Blurted (id : SessionId) (published : List (NetworkEvent K)) : Prop :=
  ∃ event later, published = event :: later ∧ Session.Utterance id event

theorem Announces.connectedFirst {a : Acceptance K} (h : a.Announces id) :
    ConnectedFirst id a.session.published := by
  intro before event after heq hutters
  by_cases hdone : a.handler = .done
  · obtain ⟨remote_address, later, hfirst⟩ := h.first hdone
    rw [hfirst] at heq
    cases before with
    | nil =>
      obtain ⟨rfl, -⟩ := List.cons.inj heq
      cases hutters
    | cons first before =>
      obtain ⟨rfl, -⟩ := List.cons.inj heq
      exact ⟨remote_address, List.mem_cons_self⟩
  · rw [h.silent hdone] at heq
    cases before <;> cases heq

theorem Blurted.not_connectedFirst {published : List (NetworkEvent K)} (h : Blurted id published) :
    ¬ ConnectedFirst id published := by
  obtain ⟨event, later, rfl, hutters⟩ := h
  intro hfirst
  obtain ⟨remote_address, hmem⟩ := hfirst [] event later rfl hutters
  cases hmem

theorem Blurted.append {published : List (NetworkEvent K)} (h : Blurted id published)
    (events : List (NetworkEvent K)) : Blurted id (published ++ events) := by
  obtain ⟨event, later, rfl, hutters⟩ := h
  exact ⟨event, later ++ events, rfl, hutters⟩

/-- A step of the session, while the accept handler waits for its turn. -/
theorem step_session {a a' : Acceptance K} {label : Session.Label}
    (h : a.step (.session label) = some a') :
    ∃ s, a.session.step label = some s ∧ a' = { a with session := s } := by
  unfold step at h
  dsimp only at h
  split at h
  · cases h
  · split_ifs at h
    obtain ⟨s, hs, rfl⟩ := Option.map_eq_some_iff.mp h
    exact ⟨s, hs, rfl⟩

theorem Announces.step {a a' : Acceptance K} {label : Label} (h : a.Announces id)
    (hholds : a.Holds label) (hstep : a.step label = some a') : a'.Announces id := by
  cases label with
  | session label =>
    obtain ⟨s, hs, rfl⟩ := step_session hstep
    obtain ⟨hid, events, hpublished, hspeaks, -⟩ := Session.published_step hs
    refine ⟨hid.trans h.id_, fun hdone => ?_, fun hdone => ?_⟩
    · rw [hpublished, h.silent hdone, hspeaks.mpr fun hspeaks => hdone (hholds hspeaks)]
      rfl
    · obtain ⟨remote_address, later, hfirst⟩ := h.first hdone
      exact ⟨remote_address, later ++ events, by rw [hpublished, hfirst, List.cons_append]⟩
  | accept =>
    change a.accept = some a' at hstep
    unfold accept at hstep
    split at hstep
    · next hhandler =>
      obtain rfl := Option.some.inj hstep
      exact ⟨h.id_, fun _ => h.silent (hhandler ▸ nofun), nofun⟩
    · next hhandler =>
      obtain ⟨s, hs, rfl⟩ := Option.map_eq_some_iff.mp hstep
      obtain ⟨hid, events, hpublished, hspeaks, -⟩ := Session.published_step hs
      refine ⟨hid.trans h.id_, fun _ => ?_, nofun⟩
      rw [hpublished, h.silent (hhandler ▸ nofun), hspeaks.mpr fun h => h]
      rfl
    · next hhandler =>
      obtain rfl := Option.some.inj hstep
      refine ⟨h.id_, fun hdone => absurd rfl hdone, fun _ => ⟨a.remote_address, [], ?_⟩⟩
      rw [Session.publish, h.silent (hhandler ▸ nofun), h.id_]
      rfl
    · cases hstep

/-- What has been published stays. -/
theorem prefix_of_step {a a' : Acceptance K} {label : Label} (hstep : a.step label = some a') :
    a.session.published <+: a'.session.published := by
  cases label with
  | session label =>
    obtain ⟨s, hs, rfl⟩ := step_session hstep
    obtain ⟨-, events, hpublished, -⟩ := Session.published_step hs
    exact ⟨events, hpublished.symm⟩
  | accept =>
    change a.accept = some a' at hstep
    unfold accept at hstep
    split at hstep
    · obtain rfl := Option.some.inj hstep
      exact List.prefix_refl _
    · obtain ⟨s, hs, rfl⟩ := Option.map_eq_some_iff.mp hstep
      obtain ⟨-, events, hpublished, -⟩ := Session.published_step hs
      exact ⟨events, hpublished.symm⟩
    · obtain rfl := Option.some.inj hstep
      exact List.prefix_append _ _
    · cases hstep

/-- The session speaks while the accept handler has not published. -/
theorem blurted_of_step {a a' : Acceptance K} {label : Label} (h : a.Announces id)
    (hholds : ¬ a.Holds label) (hstep : a.step label = some a') :
    Blurted id a'.session.published := by
  cases label with
  | accept => exact absurd trivial hholds
  | session label =>
    obtain ⟨hspeaks, hdone⟩ := Classical.not_imp.mp hholds
    obtain ⟨s, hs, rfl⟩ := step_session hstep
    obtain ⟨-, events, hpublished, hsilent, hutters⟩ := Session.published_step hs
    rw [h.silent hdone, List.nil_append] at hpublished
    cases events with
    | nil => exact absurd hspeaks (hsilent.mp rfl)
    | cons event later =>
      exact ⟨event, later, hpublished, h.id_ ▸ hutters event List.mem_cons_self⟩

theorem announces_or_blurted {labels : List Label} {a : Acceptance K}
    (run : (machine K id remote_address).run labels = some a) :
    (machine K id remote_address).Meets Holds labels ∧ a.Announces id ∨
      ¬ (machine K id remote_address).Meets Holds labels ∧ Blurted id a.session.published := by
  refine Machine.run_induction
    (motive := fun labels a => (machine K id remote_address).Meets Holds labels ∧
        a.Announces id ∨
      ¬ (machine K id remote_address).Meets Holds labels ∧ Blurted id a.session.published)
    (Or.inl ⟨Machine.Meets.nil _, rfl, fun _ => rfl, nofun⟩) ?_ run
  rintro labels a label a' hrun hbefore hstep
  rcases hbefore with ⟨hmeets, hannounces⟩ | ⟨hmeets, hblurted⟩
  · by_cases hholds : a.Holds label
    · refine Or.inl ⟨hmeets.concat fun t ht => ?_, hannounces.step hholds hstep⟩
      rw [hrun, Option.some.injEq] at ht
      exact ht ▸ hholds
    · exact Or.inr ⟨fun h => hholds (h.last hrun), blurted_of_step hannounces hholds hstep⟩
  · obtain ⟨events, hevents⟩ := prefix_of_step hstep
    exact Or.inr ⟨fun h => hmeets h.of_append, hevents ▸ hblurted.append events⟩

/-- In a run the connection is published ahead of every message and of the end of the session
exactly if no handler that publishes one of them runs on the strand before the accept handler
has published. -/
theorem connectedFirst_iff {labels : List Label} {a : Acceptance K}
    (run : (machine K id remote_address).run labels = some a) :
    ConnectedFirst id a.session.published ↔
      (machine K id remote_address).Meets Holds labels := by
  rcases announces_or_blurted run with ⟨hmeets, hannounces⟩ | ⟨hmeets, hblurted⟩
  · exact iff_of_true hannounces.connectedFirst hmeets
  · exact iff_of_false hblurted.not_connectedFirst hmeets

/-- The session of a client whose first message is read on another thread as soon as the session
is started. -/
def earlyShot : List Label :=
  [.accept, .accept, .session (.runHandler fun _ => false),
    .session (.readFinishes (.bytes (FrameCodec.wire (bytesOf "SHOOT")))), .session .readPosted,
    .session (.runHandler fun _ => false), .accept]

/-- The same when the accept handler gets to its end before the read does. -/
def lateShot : List Label :=
  [.accept, .accept, .session (.runHandler fun _ => false),
    .session (.readFinishes (.bytes (FrameCodec.wire (bytesOf "SHOOT")))), .session .readPosted,
    .accept, .session (.runHandler fun _ => false)]

theorem connectedFirst_lateShot :
    ∃ a, (machine Unit 7 (bytesOf "::1")).run lateShot = some a ∧
      a.session.published =
        [.ClientConnectedEvent 7 (bytesOf "::1"), .NetworkMessageEvent 7 (bytesOf "SHOOT")] ∧
      ConnectedFirst 7 a.session.published := by
  have hpublished : ((machine Unit 7 (bytesOf "::1")).run lateShot).map (·.session.published) =
      some [.ClientConnectedEvent 7 (bytesOf "::1"),
        .NetworkMessageEvent 7 (bytesOf "SHOOT")] := by
    decide
  obtain ⟨a, ha, heq⟩ := Option.map_eq_some_iff.mp hpublished
  exact ⟨a, ha, heq, (connectedFirst_iff ha).mpr (Machine.meets_of_checks (by decide))⟩

/-- The message of the early client is published ahead of its connection. -/
theorem not_connectedFirst_earlyShot :
    ¬ ∀ (id : SessionId) remote_address labels a,
      (machine Unit id remote_address).run labels = some a →
        ConnectedFirst id a.session.published := by
  intro hall
  have hpublished : ((machine Unit 7 (bytesOf "::1")).run earlyShot).map (·.session.published) =
      some [.NetworkMessageEvent 7 (bytesOf "SHOOT"),
        .ClientConnectedEvent 7 (bytesOf "::1")] := by
    decide
  obtain ⟨a, ha, heq⟩ := Option.map_eq_some_iff.mp hpublished
  have hfirst := hall 7 _ _ a ha
  rw [heq] at hfirst
  obtain ⟨remote_address, hmem⟩ := hfirst [] _ _ rfl (.message _)
  cases hmem

/-- On a context with one thread nothing comes between the statements of the accept handler. -/
theorem connectedFirst_of_uninterrupted {labels : List Label} {a : Acceptance K}
    (run : (machine K id remote_address).run ([.accept, .accept, .accept] ++ labels) = some a) :
    ConnectedFirst id a.session.published := by
  obtain ⟨accepted, haccepted, hlater⟩ := Machine.runFrom_append.mp run
  have haccept : accepted.Announces id ∧ accepted.handler = .done := by
    obtain rfl := Option.some.inj haccepted
    exact ⟨⟨rfl, fun h => absurd rfl h, fun _ => ⟨remote_address, [], rfl⟩⟩, rfl⟩
  have hend : a.Announces id ∧ a.handler = .done := by
    refine Machine.runFrom_induction (motive := fun a => a.Announces id ∧ a.handler = .done)
      ?_ haccept hlater
    rintro before label - after ⟨hannounces, hdone⟩ hstep
    cases label with
    | accept =>
      change before.accept = some after at hstep
      rw [accept, hdone] at hstep
      cases hstep
    | session label =>
      have hholds : before.Holds (.session label) := fun _ => hdone
      refine ⟨hannounces.step hholds hstep, ?_⟩
      obtain ⟨s, -, rfl⟩ := step_session hstep
      exact hdone
  exact hend.1.connectedFirst

end Acceptance

end SpaceShooter.Server
