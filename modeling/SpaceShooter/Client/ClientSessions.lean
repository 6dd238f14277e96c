/-
# Sessions of the client

The controller alone is modelled with a transport that may report any result of an attempt it
was given, any end of a connection, and any message on a connection it has reported. The TCP
client is such a transport: every run of the client as a whole is a run of the controller, and
what holds of the controller's sessions holds here.
-/

import SpaceShooter.Client.Agreement

namespace SpaceShooter.Client

open Library Network Protocol

namespace TcpClient

variable {c c' s : TcpClient} {label : Label}

/-- The callbacks of a step are those of calls that have been made, and a connection is there
only if it was there before or its callback has just been invoked. -/
def Speaks (c c' : TcpClient) : Prop :=
  ∃ events, c'.events = c.events ++ events ∧
    (∀ call status, .on_connect call status ∈ events → call < c.calls.length) ∧
    (c'.is_connected_ = true →
      c.is_connected_ = true ∧ c'.current = c.current ∨ .on_connect c'.current true ∈ events)

theorem speaks_silently (hevents : c'.events = c.events)
    (hsame : c'.is_connected_ = true → c.is_connected_ = true ∧ c'.current = c.current) :
    Speaks c c' :=
  ⟨[], hevents.trans (List.append_nil _).symm, fun _ _ hmem => (by cases hmem),
    fun hup => .inl (hsame hup)⟩

theorem speaks_of_move (hwired : c.Wired) (hnumbered : c.Numbered) (hmove : Move c label s) :
    Speaks c s := by
  -- The stored callback is that of the current call.
  have hstored (hconnecting : c.is_connecting_ = true) {call : ℕ} {status status' : Bool}
      (hmem : .on_connect call status ∈ invocation c.pending_connect_callback_ status') :
      call < c.calls.length := by
    rw [hwired.pending hconnecting] at hmem
    obtain rfl := (Event.on_connect.inj (List.mem_singleton.mp hmem)).1
    exact hnumbered.current (.inl hconnecting)
  cases hmove with
  | @reject call on_connect strand hrunning hstrand =>
    refine ⟨_, rfl, fun other status hmem => ?_, fun hup => .inl ⟨hup, rfl⟩⟩
    have hgiven := hwired.on_connect call on_connect (hstrand ▸ List.mem_cons_self)
    subst hgiven
    obtain rfl := (Event.on_connect.inj (List.mem_singleton.mp hmem)).1
    exact hnumbered.strand other true (hstrand ▸ List.mem_cons_self)
  | accept hrunning hstrand hdown =>
    refine speaks_silently rfl fun hup => ?_
    rw [show c.is_connected_ = true from hup] at hdown
    cases hdown
  | fail hrunning hstrand hattempt hvalid hconnecting hconnected =>
    exact ⟨_, rfl, fun call status hmem => hstored hconnecting hmem,
      fun hup => .inl ⟨hconnected hup, rfl⟩⟩
  | establish hrunning hstrand hvalid hconnecting =>
    refine ⟨_, rfl, fun call status hmem => hstored hconnecting hmem, fun _ => .inr ?_⟩
    rw [hwired.pending hconnecting]
    exact List.mem_singleton_self _
  | disconnect hrunning hstrand =>
    refine ⟨_, rfl, fun call status hmem => ?_, fun hup => (by cases hup)⟩
    rcases List.mem_append.mp hmem with hmem | hmem
    · split_ifs at hmem with hconnecting
      · exact hstored hconnecting hmem
      · cases hmem
    · split_ifs at hmem
      · cases List.mem_singleton.mp hmem
      · cases hmem
  | _ => exact speaks_silently rfl fun hup => ⟨hup, rfl⟩

theorem speaks_of_step (hwired : c.Wired) (hnumbered : c.Numbered)
    (hstep : c.step label = some c') : Speaks c c' := by
  obtain ⟨s, hmove, hkeeps⟩ := move_of_step hstep
  obtain ⟨events, hevents, hgiven, hup⟩ := speaks_of_move hwired hnumbered hmove
  refine ⟨events, hkeeps.events.trans hevents, hgiven, fun hconnected => ?_⟩
  rw [hkeeps.current]
  exact hup (hkeeps.is_connected_ ▸ hconnected)

/-- A client that hands a payload to its owner is connected. -/
theorem connected_of_hands {labels : List Label}
    (hrun : (machine true true).run labels = some c) (hhands : c.hands label ≠ []) :
    c.is_connected_ = true := by
  obtain ⟨r, hreader, rfl⟩ := TcpReader.exists_run hrun
  obtain ⟨hsteady, -⟩ := TcpReader.steady_of_run hreader
  have htodo : ∃ payloads, r.client.running = some (.dispatch payloads) := by
    by_contra hnone
    apply hhands
    cases label with
    | resume =>
      cases hrunning : r.client.running with
      | none => rw [hands, hrunning]
      | some task =>
        exact hands_eq_nil hrunning fun payloads h => hnone ⟨payloads, hrunning.trans (h ▸ rfl)⟩
    | _ => rfl
  obtain ⟨payloads, hrunning⟩ := htodo
  have hchore : r.reading.chore = .read payloads := by
    rw [TcpReader.reading, reading, hrunning]
    rfl
  exact hsteady.up hchore

end TcpClient

namespace GameClient

variable {g g' : GameClient}

/-- A property that the calls and the callbacks of the controller's model keep. -/
def Kept (P : ControllerStrand → Prop) : Prop :=
  ∀ c c' label, (∀ now alive, label ≠ .runHandler now alive) → P c → c.step label = some c' → P c'

theorem attempted_number (c : GameController) {call : ℕ}
    (hlt : call < (c.tcpCalls.filterMap TcpCall.attempt?).length) :
    ControllerStrand.attempted c (c.number call) = true := by
  rw [GameController.number, List.getElem?_eq_getElem hlt, Option.getD_some,
    ControllerStrand.attempted, List.any_eq_true]
  obtain ⟨made, hmem, hattempt⟩ := List.mem_filterMap.mp (List.getElem_mem hlt)
  refine ⟨made, hmem, ?_⟩
  cases made with
  | connect host port generation =>
    rw [Option.some.inj hattempt]
    exact decide_eq_true rfl
  | disconnect => cases hattempt
  | send generation data => cases hattempt

/-- The callbacks of a step are steps of the controller's model. -/
theorem Kept.onEvent {P : ControllerStrand → Prop} (hkept : Kept P) {number : ℕ → ℕ}
    (events : List TcpClient.Event) {c : ControllerStrand} (h : P c)
    (hattempted : ∀ call status, .on_connect call status ∈ events →
      ControllerStrand.attempted c.controller (number call) = true) :
    P (events.foldl (onEvent number) c) := by
  induction events generalizing c with
  | nil => exact h
  | cons event events ih =>
    rw [List.foldl_cons]
    cases event with
    | on_connect call status =>
      have hown := hattempted call status List.mem_cons_self
      have hstep : c.step (.tcpConnectResult (number call) status) =
          some (GameClient.onEvent number c (.on_connect call status)) := if_pos hown
      exact ih (hkept _ _ _ (fun _ _ h => by cases h) h hstep) fun call' status' hmem =>
        hattempted call' status' (List.mem_cons_of_mem _ hmem)
    | disconnect_cb =>
      have hstep : c.step .tcpDisconnect =
          some (GameClient.onEvent number c .disconnect_cb) := rfl
      exact ih (hkept _ _ _ (fun _ _ h => by cases h) h hstep) fun call' status' hmem =>
        hattempted call' status' (List.mem_cons_of_mem _ hmem)

theorem Kept.onMessage {P : ControllerStrand → Prop} (hkept : Kept P) {connection : ℕ}
    (payloads : List PayloadView) {c : ControllerStrand} (h : P c)
    (hestablished : payloads ≠ [] → connection ∈ c.established) :
    P (payloads.foldl (onMessage connection) c) := by
  induction payloads generalizing c with
  | nil => exact h
  | cons payload payloads ih =>
    have hmem := hestablished (List.cons_ne_nil _ _)
    have hstep : c.step (.tcpMessage connection payload) =
        some (GameClient.onMessage connection c payload) := if_pos hmem
    exact ih (hkept _ _ _ (fun _ _ h => by cases h) h hstep) fun _ => hmem

/-- Connections that have been reported stay known, and those of a step join them. -/
theorem mem_established_onEvent {number : ℕ → ℕ} {generation : ℕ} {c : ControllerStrand}
    (events : List TcpClient.Event)
    (h : generation ∈ c.established ∨
      ∃ call, .on_connect call true ∈ events ∧ number call = generation) :
    generation ∈ (events.foldl (onEvent number) c).established := by
  induction events generalizing c with
  | nil =>
    rcases h with hmem | ⟨call, hmem, -⟩
    · exact hmem
    · cases hmem
  | cons event events ih =>
    rw [List.foldl_cons]
    apply ih
    rcases h with hmem | ⟨call, hmem, hcall⟩
    · left
      cases event with
      | on_connect call status =>
        cases status with
        | true => exact List.mem_cons_of_mem _ hmem
        | false => exact hmem
      | disconnect_cb => exact hmem
    · rcases List.mem_cons.mp hmem with rfl | hmem
      · exact .inl (hcall ▸ List.mem_cons_self)
      · exact .inr ⟨call, hmem, hcall⟩

/-- The connection of the TCP client is one that the controller's model knows. -/
def Established (g : GameClient) : Prop :=
  g.tcp_.is_connected_ = true →
    g.controller.controller.number g.tcp_.current ∈ g.controller.established

/-- What a step of the TCP client makes of the controller is what the controller's model makes
of its callbacks. -/
theorem hear_kept (hcomposed : g.Composed) (hestablished : g.Established)
    {event : TcpClient.Label} {tcp : TcpClient} (hstep : g.tcp_.step event = some tcp) :
    (g.hear tcp).Established ∧
      ∀ P, Kept P → P g.controller → P (g.hear tcp).controller := by
  obtain ⟨events, hevents, hgiven, hup⟩ :=
    TcpClient.speaks_of_step hcomposed.wired hcomposed.numbered hstep
  obtain ⟨labels, hrun⟩ := hcomposed.run
  have hmessages : tcp.messages.drop g.tcp_.messages.length =
      (g.tcp_.hands event).map Prod.snd := by
    rw [TcpClient.messages_step hstep, List.drop_left]
  have hheard : tcp.events.drop g.tcp_.events.length = events := by
    rw [hevents, List.drop_left]
  refine ⟨fun hconnected => ?_, fun P hkept hP => ?_⟩
  · rw [controller_hear, tcp_hear, hear, hmessages, hheard, foldl_onMessage]
    refine mem_established_onEvent events ?_
    rcases hup hconnected with ⟨hbefore, hsame⟩ | hmem
    · exact .inl (hsame ▸ hestablished hbefore)
    · exact .inr ⟨tcp.current, hmem, rfl⟩
  · rw [hear, hmessages, hheard]
    refine hkept.onMessage _ (hkept.onEvent events hP fun call status hmem =>
      attempted_number _ (hcomposed.lt_attempts (hgiven call status hmem))) fun hne => ?_
    refine mem_established_onEvent events (.inl (hestablished ?_))
    exact TcpClient.connected_of_hands hrun fun hnone => hne (by rw [hnone]; rfl)

/-- A property that every step of the controller's model keeps is kept by the client; where it
takes a guard to handle what is on the strand, the guard is asked of the client's step. -/
theorem established_step (hcomposed : g.Composed) (hestablished : g.Established) {label : Label}
    (hgoes : g.step label = some g') :
    g'.Established ∧ ∀ P, Kept P →
      (∀ now alive, label = .runHandler now alive → P g.controller →
        ∀ c, g.controller.step (.runHandler now alive) = some c → P c) →
      P g.controller → P g'.controller := by
  cases transition_of_step hgoes with
  | post event handler hpublic hcall hstep =>
    exact ⟨hestablished, fun P hkept _ hP => hkept _ _ event hcall hP hstep⟩
  | refuse => exact ⟨hestablished, fun P _ _ hP => hP⟩
  | handle now alive handler strand hdone hstrand =>
    obtain ⟨calls, hcalls⟩ := tcpCalls_handle g.controller.controller now alive handler
    refine ⟨fun hup => ?_, fun P _ hhandle hP => hhandle now alive rfl hP _ ?_⟩
    · dsimp only
      rw [number_of_append hcalls
        (hcomposed.lt_attempts (hcomposed.numbered.current (.inr hup)))]
      exact hestablished hup
    · rw [ControllerStrand.step, hstrand]
  | call call tcp hreturned hnext hstep =>
    obtain ⟨hknown, hkeeps⟩ := hear_kept hcomposed hestablished hstep
    exact ⟨hknown, fun P hkept _ => hkeeps P hkept⟩
  | turn event tcp hinternal hstep =>
    obtain ⟨hknown, hkeeps⟩ := hear_kept hcomposed hestablished hstep
    exact ⟨hknown, fun P hkept _ => hkeeps P hkept⟩

/-! ### Runs -/

/-- A step in which the controller does not handle a foreign reply. -/
def OwnStep (g : GameClient) : Label → Prop
  | .runHandler now alive => ControllerStrand.OwnReplies g.controller (.runHandler now alive)
  | _ => True

instance (g : GameClient) (label : Label) : Decidable (OwnStep g label) :=
  match label with
  | .runHandler now alive =>
    inferInstanceAs (Decidable (ControllerStrand.OwnReplies g.controller (.runHandler now alive)))
  | .start _ _ _ => .isTrue trivial
  | .rejoin _ _ _ => .isTrue trivial
  | .shutdown => .isTrue trivial
  | .shoot => .isTrue trivial
  | .call => .isTrue trivial
  | .postDisconnect => .isTrue trivial
  | .complete _ _ => .isTrue trivial
  | .runTcpHandler => .isTrue trivial
  | .resume => .isTrue trivial

theorem established_of_run {labels : List Label} (hrun : machine.run labels = some g) :
    g.Established := by
  refine Machine.run_induction (m := machine) (motive := fun _ g => g.Established)
    (fun hup => by cases hup) ?_ hrun
  intro labels g label g' hg hestablished hstep
  exact (established_step (composed_of_run hg) hestablished hstep).1

/-- Every run of the client is, for the controller, a run with a transport as its model has it:
each result is that of an attempt that was made, and each message comes on a connection that was
reported; so the session of a controller in the game is sound unless it has handled a foreign
reply. -/
theorem sessions_of_run {labels : List Label} (hrun : machine.run labels = some g) :
    ControllerStrand.machine.Reachable g.controller ∧
      (machine.Meets OwnStep labels → ControllerStrand.SessionSound g.controller.controller) := by
  constructor
  · refine Machine.run_induction (m := machine)
      (motive := fun _ g => ControllerStrand.machine.Reachable g.controller) ⟨[], rfl⟩ ?_ hrun
    intro labels g label g' hg hreached hstep
    have hmodel : ∀ c c' event, ControllerStrand.machine.Reachable c →
        c.step event = some c' → ControllerStrand.machine.Reachable c' := by
      rintro c c' event ⟨before, hbefore⟩ hevent
      exact ⟨before ++ [event], Machine.run_concat.mpr ⟨c, hbefore, hevent⟩⟩
    exact (established_step (composed_of_run hg) (established_of_run hg) hstep).2 _
      (fun c c' event _ => hmodel c c' event)
      (fun now alive _ hP c hc => hmodel _ c _ hP hc) hreached
  · intro hown hgame
    have hsound : ControllerStrand.Coherent g.controller.controller ∧
        ControllerStrand.Ordered g.controller := by
      refine Machine.guarded_induction (m := machine) OwnStep
        (motive := fun _ g => ControllerStrand.Coherent g.controller.controller ∧
          ControllerStrand.Ordered g.controller) ControllerStrand.init_sound ?_ hown hrun
      intro labels g label g' hg _ hsound hguard hstep
      refine (established_step (composed_of_run hg) (established_of_run hg) hstep).2
        (fun c => ControllerStrand.Coherent c.controller ∧ ControllerStrand.Ordered c)
        (fun c c' event hcall hP hevent => ?_) (fun now alive hlabel hP c hc => ?_) hsound
      · refine ControllerStrand.step_sound ?_ hP.1 hP.2 hevent
        cases event with
        | runHandler now alive => exact absurd rfl (hcall now alive)
        | _ => exact trivial
      · subst hlabel
        exact ControllerStrand.step_sound hguard hP.1 hP.2 hc
    refine ⟨hsound.1.joined ?_ ?_, hsound.1.accepted hgame⟩ <;> rw [hgame] <;> exact
      fun h => by cases h

theorem sessions_acceptedClient : ∃ g, machine.run acceptedClient = some g ∧
    g.controller.controller.state_ = .InGame ∧
    ControllerStrand.machine.Reachable g.controller ∧
    ControllerStrand.SessionSound g.controller.controller := by
  have hend : ∃ g ∈ machine.run acceptedClient, g.controller.controller.state_ = .InGame := by
    decide +kernel
  obtain ⟨g, hrun, hstate⟩ := hend
  obtain ⟨hreached, hsound⟩ := sessions_of_run hrun
  exact ⟨g, hrun, hstate, hreached, hsound (Machine.meets_of_checks (by decide +kernel))⟩

end GameClient

end SpaceShooter.Client
