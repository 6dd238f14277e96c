/-
# The chain of accepts

Each accept handler starts the next accept as its last statement, so there is never more than
one accept under way. A subscriber that answers a connection with an exception takes the
handler past that statement: the acceptor stays open, and nobody is accepted any more.
-/

import SpaceShooter.Server.TcpServer

namespace SpaceShooter.Server

open Library

namespace TcpServer

variable {T K : Type} {s t : TcpServer T K}

/-- A step in which no subscriber answers a connection with an exception. -/
def Welcomes (s : TcpServer T K) : Label T → Prop
  | .accept true => s.running.head?.map (·.stage) ≠ some .publish
  | _ => True

instance (s : TcpServer T K) : DecidablePred s.Welcomes
  | .accept true => instDecidableNot
  | .accept false | .start | .stop | .acceptFinishes _ | .acceptCompletion => instDecidableTrue
  | .session _ _ | .sendPacketEvent _ _ _ _ | .send _ => instDecidableTrue

/-- The handlers whose connections are not published yet. -/
def unpublished (s : TcpServer T K) : List SessionId :=
  (s.running.filter fun handler => handler.stage ≠ .done).map (·.session_id)

/-- What a step does to the chain. -/
inductive Turn (s : TcpServer T K) (label : Label T) (t : TcpServer T K) : Prop
  | first (fresh : s.started = false) (started : t.started = true)
      (acceptor : t.acceptorOpen = s.acceptorOpen) (welcomes : s.Welcomes label)
      (chain : t.chain = s.chain + 1)
  | go (started : t.started = s.started) (acceptor : t.acceptorOpen = true → s.acceptorOpen = true)
      (welcomes : s.Welcomes label) (chain : t.chain = s.chain)
  | broken (started : t.started = s.started) (acceptor : t.acceptorOpen = s.acceptorOpen)
      (refused : ¬ s.Welcomes label) (chain : t.chain + 1 = s.chain)
  | finish (started : t.started = s.started) (shut : t.acceptorOpen = false)
      (chain : t.chain + 1 = s.chain)

/-- Re-arming puts a link back as long as the acceptor is open, and changes nothing else. -/
theorem rearm_eq (s : TcpServer T K) :
    s.rearm = { s with accepting := s.accepting + if s.acceptorOpen then 1 else 0 } := by
  unfold rearm
  split_ifs
  · rfl
  · rfl

theorem chain_rearm (s : TcpServer T K) :
    s.rearm.chain = s.chain + if s.acceptorOpen then 1 else 0 := by
  rw [rearm_eq]
  simp only [chain]
  omega

/-- A handler that ends, or an accept that failed, re-arms the chain. -/
theorem turn_rearm {label : Label T} {u : TcpServer T K} (welcomes : s.Welcomes label)
    (started : u.started = s.started) (acceptor : u.acceptorOpen = s.acceptorOpen)
    (chain : u.chain + 1 = s.chain) : Turn s label u.rearm := by
  have rearmed := chain_rearm u
  rw [rearm_eq] at rearmed ⊢
  cases acceptorOpen : u.acceptorOpen with
  | true =>
    rw [acceptorOpen, if_pos rfl] at rearmed
    exact .go started (fun _ => acceptor ▸ acceptorOpen) welcomes (rearmed.trans chain)
  | false =>
    rw [acceptorOpen, if_neg Bool.false_ne_true] at rearmed
    exact .finish started rfl ((congrArg (· + 1) rearmed).trans chain)

variable [DecidableEq T]

theorem turn_of_step {label : Label T} (h : s.step label = some t)
    (aborted : s.acceptorOpen = true → .error .operation_aborted ∉ s.finished) :
    Turn s label t := by
  cases transition_of_step h with
  | start fresh =>
    refine .first fresh rfl rfl trivial ?_
    simp only [chain, doAccept]
    omega
  | stop => exact .go rfl (fun h => by cases h) trivial rfl
  | acceptFinishes result accepting =>
    refine .go rfl (fun h => h) trivial ?_
    simp only [chain, List.length_append, List.length_singleton]
    omega
  | acceptCompletion result finished first =>
    have popped : ({ s with finished := finished } : TcpServer T K).chain + 1 = s.chain := by
      simp only [chain, first, List.length_cons]
      omega
    cases result with
    | error error =>
      cases error with
      | operation_aborted =>
        refine .finish rfl ?_ popped
        rw [Bool.eq_false_iff]
        intro acceptorOpen
        exact aborted acceptorOpen (first ▸ List.mem_cons_self)
      | failed => exact turn_rearm trivial rfl rfl popped
    | connected remote_address =>
      refine .go rfl (fun h => h) trivial ?_
      simp only [onAccept, chain, first, List.length_append, List.length_cons, List.length_nil]
      omega
  | addSession refuses handler others first stage =>
    refine .go rfl (fun h => h) ?_ ?_
    · cases refuses with
      | false => trivial
      | true => simp [Welcomes, first, stage]
    · simp [chain, put, first]
  | keepSession refuses handler others first stage =>
    refine .go rfl (fun h => h) ?_ ?_
    · cases refuses with
      | false => trivial
      | true => simp [Welcomes, first, stage]
    · simp [chain, first]
  | startSession refuses handler others session session' first stage =>
    refine .go rfl (fun h => h) ?_ ?_
    · cases refuses with
      | false => trivial
      | true => simp [Welcomes, first, stage]
    · simp [chain, put, first]
  | publish refuses handler others first stage =>
    cases refuses with
    | false =>
      refine .go rfl (fun h => h) trivial ?_
      simp [chain, first]
    | true =>
      refine .broken rfl rfl ?_ ?_
      · simp [Welcomes, first, stage]
      · simp [chain, first]
        omega
  | done refuses handler others first stage =>
    refine turn_rearm ?_ rfl rfl ?_
    · cases refuses with
      | false => trivial
      | true => simp [Welcomes, first, stage]
    · simp [chain, first]
      omega
  | session => exact .go rfl (fun h => h) trivial rfl
  | sendPacketEvent => exact .go rfl (fun h => h) trivial rfl
  | send => exact .go rfl (fun h => h) trivial rfl

/-! ### The chain along a run -/

/-- There is at most one accept under way, and none is aborted while the acceptor is open. -/
structure Chained (s : TcpServer T K) : Prop where
  single : s.chain ≤ 1
  fresh : s.started = false → s.chain = 0
  aborted : s.acceptorOpen = true → .error .operation_aborted ∉ s.finished

theorem Chained.finished_of_step (h : s.Chained) {label : Label T} (hstep : s.step label = some t) :
    t.acceptorOpen = true → .error .operation_aborted ∉ t.finished := by
  cases transition_of_step hstep with
  | stop => exact fun acceptorOpen => by cases acceptorOpen
  | acceptFinishes result _ possible =>
    intro acceptorOpen hmem
    rcases List.mem_append.mp hmem with hmem | hmem
    · exact h.aborted acceptorOpen hmem
    · rw [← List.mem_singleton.mp hmem, AcceptResult.possible, acceptorOpen] at possible
      cases possible
  | acceptCompletion result finished first =>
    have kept : s.acceptorOpen = true → .error .operation_aborted ∉ finished := by
      intro acceptorOpen hmem
      exact h.aborted acceptorOpen (first ▸ List.mem_cons_of_mem _ hmem)
    cases result with
    | error error =>
      cases error with
      | operation_aborted => exact kept
      | failed =>
        rw [onAccept, rearm_eq]
        exact kept
    | connected remote_address => exact kept
  | done refuses handler others first stage =>
    rw [rearm_eq]
    exact h.aborted
  | start => exact h.aborted
  | addSession => exact h.aborted
  | keepSession => exact h.aborted
  | startSession => exact h.aborted
  | publish => exact h.aborted
  | session => exact h.aborted
  | sendPacketEvent => exact h.aborted
  | send => exact h.aborted

theorem Chained.step (h : s.Chained) {label : Label T} (hstep : s.step label = some t) :
    t.Chained := by
  have finished := h.finished_of_step hstep
  have single := h.single
  cases turn_of_step hstep h.aborted with
  | first fresh started acceptor welcomes chain =>
    have none_yet := h.fresh fresh
    refine ⟨by omega, fun fresh' => ?_, finished⟩
    rw [started] at fresh'
    cases fresh'
  | go started acceptor welcomes chain =>
    refine ⟨by omega, fun fresh => ?_, finished⟩
    rw [chain]
    exact h.fresh (started ▸ fresh)
  | broken started acceptor refused chain =>
    refine ⟨by omega, fun fresh => ?_, finished⟩
    have none_yet := h.fresh (started ▸ fresh)
    omega
  | finish started shut chain =>
    refine ⟨by omega, fun fresh => ?_, finished⟩
    have none_yet := h.fresh (started ▸ fresh)
    omega

theorem chained_of_run {labels : List (Label T)} (run : (machine T K).run labels = some s) :
    s.Chained := by
  refine Machine.run_induction (motive := fun _ s => s.Chained) ?_ ?_ run
  · exact ⟨Nat.zero_le 1, fun _ => rfl, fun _ h => by cases h⟩
  · intro _ s label t _ h hstep
    exact h.step hstep

/-- While the acceptor is open the chain is whole exactly if it has never been broken. -/
theorem chain_iff_of_run {labels : List (Label T)} (run : (machine T K).run labels = some s) :
    (s.started = false → (machine T K).Meets Welcomes labels) ∧
      (s.started = true → s.acceptorOpen = true →
        (s.chain = 1 ↔ (machine T K).Meets Welcomes labels)) := by
  refine Machine.run_induction
    (motive := fun labels s => (s.started = false → (machine T K).Meets Welcomes labels) ∧
      (s.started = true → s.acceptorOpen = true →
        (s.chain = 1 ↔ (machine T K).Meets Welcomes labels))) ?_ ?_ run
  · exact ⟨fun _ => Machine.Meets.nil _, fun started => by cases started⟩
  · intro labels s label t hrun ih hstep
    have h := chained_of_run hrun
    have extends_ (welcomes : s.Welcomes label) (meets : (machine T K).Meets Welcomes labels) :
        (machine T K).Meets Welcomes (labels ++ [label]) := by
      refine meets.concat fun u hu => ?_
      rw [hrun, Option.some.injEq] at hu
      exact hu ▸ welcomes
    cases turn_of_step hstep h.aborted with
    | first fresh started acceptor welcomes chain =>
      have none_yet := h.fresh fresh
      refine ⟨fun fresh' => ?_, fun _ _ => iff_of_true (by omega) ?_⟩
      · rw [started] at fresh'
        cases fresh'
      · exact extends_ welcomes (ih.1 fresh)
    | go started acceptor welcomes chain =>
      refine ⟨fun fresh => extends_ welcomes (ih.1 (started ▸ fresh)), fun up acceptorOpen => ?_⟩
      rw [chain, ih.2 (started ▸ up) (acceptor acceptorOpen)]
      exact ⟨extends_ welcomes, fun meets => meets.of_append⟩
    | broken started acceptor refused chain =>
      have hsingle := h.single
      refine ⟨fun fresh => ?_, fun _ _ => iff_of_false (by omega) fun meets => ?_⟩
      · have none_yet := h.fresh (started ▸ fresh)
        omega
      · exact refused (meets.last hrun)
    | finish started shut chain =>
      refine ⟨fun fresh => ?_, fun _ acceptorOpen => ?_⟩
      · have none_yet := h.fresh (started ▸ fresh)
        omega
      · rw [shut] at acceptorOpen
        cases acceptorOpen

/-! ### Numbers -/

/-- The sessions are numbered from `1` on as they are accepted, and published in that order. -/
structure Numbered (s : TcpServer T K) : Prop where
  positive : 1 ≤ s.next_session_id_
  published : s.connections.map Prod.fst ++ s.unpublished = List.range' 1 (s.next_session_id_ - 1)

omit [DecidableEq T] in
theorem Numbered.rearm (h : s.Numbered) : s.rearm.Numbered := by
  rw [rearm_eq]
  exact ⟨h.positive, h.published⟩

omit [DecidableEq T] in
/-- The next stage of the only handler, while its connection is not published. -/
theorem unpublished_advance {handler : Accepting} {others : List Accepting}
    (later : Acceptance.Stage) (first : s.running = handler :: others)
    (stage : handler.stage ≠ .done) (later_ne : later ≠ .done) {u : TcpServer T K}
    (running : u.running = { handler with stage := later } :: others) :
    u.unpublished = s.unpublished := by
  simp [unpublished, running, first, stage, later_ne]

theorem Numbered.step (h : s.Numbered) (single : s.chain ≤ 1) {label : Label T}
    (hstep : s.step label = some t) : t.Numbered := by
  have alone {handler : Accepting} {others : List Accepting}
      (first : s.running = handler :: others) : others = [] := by
    simp only [chain, first, List.length_cons] at single
    exact List.length_eq_zero_iff.mp (by omega)
  cases transition_of_step hstep with
  | acceptCompletion result finished first =>
    cases result with
    | error error =>
      cases error with
      | operation_aborted => exact ⟨h.positive, h.published⟩
      | failed => exact Numbered.rearm ⟨h.positive, h.published⟩
    | connected remote_address =>
      -- The handler of this connection is the only one.
      have none_running : s.running = [] := by
        simp only [chain, first, List.length_cons] at single
        exact List.length_eq_zero_iff.mp (by omega)
      have positive := h.positive
      have published := h.published
      refine ⟨Nat.le_succ_of_le positive, ?_⟩
      rw [unpublished, none_running] at published
      simp only [List.filter_nil, List.map_nil, List.append_nil] at published
      obtain ⟨n, next⟩ := Nat.exists_eq_add_of_le positive
      simp only [onAccept, unpublished, none_running, published, next]
      rw [Nat.add_comm 1 n, Nat.add_sub_cancel, Nat.add_sub_cancel, List.range'_concat,
        Nat.one_mul, Nat.add_comm 1 n]
      rfl
  | addSession refuses handler others first stage =>
    refine ⟨h.positive, ?_⟩
    rw [unpublished_advance .start first (by simp [stage]) (by decide) rfl]
    exact h.published
  | keepSession refuses handler others first stage =>
    refine ⟨h.positive, ?_⟩
    rw [unpublished_advance .start first (by simp [stage]) (by decide) rfl]
    exact h.published
  | startSession refuses handler others session session' first stage =>
    refine ⟨h.positive, ?_⟩
    rw [unpublished_advance .publish first (by simp [stage]) (by decide) rfl]
    exact h.published
  | publish refuses handler others first stage =>
    obtain rfl := alone first
    have published := h.published
    rw [unpublished, first] at published
    refine ⟨h.positive, ?_⟩
    cases refuses with
    | false => simpa [unpublished, stage] using published
    | true => simpa [unpublished, stage] using published
  | done refuses handler others first stage =>
    obtain rfl := alone first
    have published := h.published
    rw [unpublished, first] at published
    refine Numbered.rearm ⟨h.positive, ?_⟩
    simpa [unpublished, stage] using published
  | start => exact ⟨h.positive, h.published⟩
  | stop => exact ⟨h.positive, h.published⟩
  | acceptFinishes => exact ⟨h.positive, h.published⟩
  | session => exact ⟨h.positive, h.published⟩
  | sendPacketEvent => exact ⟨h.positive, h.published⟩
  | send => exact ⟨h.positive, h.published⟩

theorem numbered_of_run {labels : List (Label T)} (run : (machine T K).run labels = some s) :
    s.Numbered := by
  refine Machine.run_induction (motive := fun _ s => s.Numbered) ?_ ?_ run
  · exact ⟨le_rfl, rfl⟩
  · intro _ s label t hrun h hstep
    exact h.step (chained_of_run hrun).single hstep

/-- In every run there is at most one accept under way; while the started server's acceptor is
open there is one exactly if no subscriber has answered a connection with an exception; and the
connections are published once each, in the order of their numbers, with none left out but that
of the handler on its way. -/
theorem accepts_of_run {labels : List (Label T)} (run : (machine T K).run labels = some s) :
    s.chain ≤ 1 ∧
      (s.started = true → s.acceptorOpen = true →
        (s.chain = 1 ↔ (machine T K).Meets Welcomes labels)) ∧
      s.connections.map Prod.fst ++ s.unpublished =
        List.range' 1 (s.next_session_id_ - 1) :=
  ⟨(chained_of_run run).single, (chain_iff_of_run run).2, (numbered_of_run run).published⟩

/-- A server that accepts a connection and waits for the next one. -/
def oneAccepted : List (Label Unit) :=
  [.start, .acceptFinishes (.connected (bytesOf "::1")), .acceptCompletion, .accept false,
    .accept false, .accept false, .accept false]

theorem accepts_oneAccepted : ∃ s : TcpServer Unit Unit,
    (machine Unit Unit).run oneAccepted = some s ∧ s.acceptorOpen = true ∧
      s.connections.map Prod.fst ++ s.unpublished = [1] ∧ s.chain = 1 := by
  have reached : ((machine Unit Unit).run oneAccepted).map
      (fun s => (s.started, s.acceptorOpen, s.next_session_id_)) = some (true, true, 2) := by
    decide
  obtain ⟨s, run, fields⟩ := Option.map_eq_some_iff.mp reached
  simp only [Prod.mk.injEq] at fields
  obtain ⟨started, acceptorOpen, next⟩ := fields
  obtain ⟨-, whole, published⟩ := accepts_of_run run
  refine ⟨s, run, acceptorOpen, ?_, ?_⟩
  · rw [published, next]
    rfl
  · exact (whole started acceptorOpen).mpr (Machine.meets_of_checks (by decide))

/-! ### After the acceptor is closed -/

end TcpServer

end SpaceShooter.Server
