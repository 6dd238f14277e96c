/-
# The registry and the sessions in it

Each session of the server makes a run of its own, with the payloads sent to it in the order
of the calls of `send`. A session is in the registry from the moment it is added until its
disconnect is published; no session has the number that stands for all of them.
-/

import SpaceShooter.Server.AcceptLoop

namespace SpaceShooter.Server

open Library Relation

/-! ### A session and its entry -/

namespace Session

variable {K : Type} {s s' : Session K} {id : SessionId}

theorem registered_close (s : Session K) : s.close.registered = s.registered := by
  unfold close
  split_ifs
  · rfl
  · rfl

theorem registered_doRead (s : Session K) : s.doRead.registered = s.registered := by
  unfold doRead
  split_ifs
  · rfl
  · rfl

theorem registered_doWrite (s : Session K) : s.doWrite.registered = s.registered := by
  unfold doWrite
  split_ifs
  · rfl
  · split
    · rfl
    · split
      · rfl
      · exact registered_close _

theorem registered_onSend (s : Session K) (data : Bytes) :
    (s.onSend data).registered = s.registered := by
  unfold onSend
  split_ifs
  · rfl
  · dsimp only
    split_ifs
    · exact registered_doWrite _
    · rfl

theorem registered_onReadCompletion (s : Session K) (refuses : ℕ → Bool) (result : ReadResult) :
    (s.onReadCompletion refuses result).registered = s.registered := by
  cases result with
  | error error => exact registered_close s
  | bytes chunk =>
    unfold onReadCompletion
    dsimp only
    split
    · exact registered_doRead _
    · rfl

theorem registered_removeSession (s : Session K) : s.removeSession.registered = false := by
  unfold removeSession
  split_ifs with registered
  · rw [registered_close]
  · exact Bool.eq_false_of_not_eq_true registered

theorem closed_removeSession (h : s.registered = false → s.closed_ = true) :
    s.removeSession.closed_ = true := by
  unfold removeSession
  split_ifs with registered
  · exact close_closed_ _
  · exact h (Bool.eq_false_of_not_eq_true registered)

/-- Only the handler of `close` touches the entry. -/
theorem registered_handle {handler : Handler} (other : handler ≠ .close) (refuses : ℕ → Bool) :
    (s.handle refuses handler).registered = s.registered := by
  cases handler with
  | doRead => exact registered_doRead s
  | send data => exact registered_onSend s data
  | close => exact absurd rfl other
  | readCompletion result => exact registered_onReadCompletion s refuses result
  | writeCompletion error =>
    cases error with
    | none => exact registered_doWrite s
    | some _ => exact registered_close _

/-- An open session is in the registry, and one whose disconnect is published is not. -/
structure Enrolled (id : SessionId) (s : Session K) : Prop where
  kept : s.registered = false → s.closed_ = true
  erased : .ClientDisconnectedEvent id ∈ s.published → s.registered = false

theorem closed_of_step {label : Label} (h : step s label = some s') (closed : s.closed_ = true) :
    s'.closed_ = true := by
  by_contra hopen
  have before : s.closed_ = false := by
    by_cases other : ∀ refuses, label ≠ .runHandler refuses
    · exact (minds_step h other).open_ (Bool.eq_false_of_not_eq_true hopen)
    · push Not at other
      obtain ⟨refuses, rfl⟩ := other
      obtain ⟨handler, rest, -, rfl⟩ := exists_of_runHandler h
      have minds := minds_handle { s with strand := rest } refuses handler
      by_cases accepts : Accepts { s with strand := rest } refuses handler
      · exact (minds.1 accepts).open_ (Bool.eq_false_of_not_eq_true hopen)
      · exact (minds.2 accepts).open_ (Bool.eq_false_of_not_eq_true hopen)
  rw [before] at closed
  cases closed

/-- The entry of a session goes with a call of `removeSession` or the handler of `close`. -/
theorem registered_of_step {label : Label} (h : step s label = some s') :
    s'.registered = s.registered ∨
      s'.registered = false ∧ ((s.registered = false → s.closed_ = true) → s'.closed_ = true) := by
  cases transition_of_step h with
  | start =>
    left
    unfold start
    split_ifs
    · rfl
    · rfl
  | close => exact .inl (registered_close s)
  | removeSession => exact .inr ⟨registered_removeSession s, closed_removeSession⟩
  | runHandler refuses handler rest =>
    by_cases close : handler = .close
    · subst close
      exact .inr ⟨registered_removeSession _, fun kept => closed_removeSession kept⟩
    · exact .inl (registered_handle (s := { s with strand := rest }) close refuses)
  | send => exact .inl rfl
  | readFinishes => exact .inl rfl
  | readPosted => exact .inl rfl
  | writeFinishes => exact .inl rfl

theorem Enrolled.step (h : Enrolled id s) (wired : Wired id s) {label : Label}
    (hstep : step s label = some s') : Enrolled id s' := by
  have kept : s'.registered = false → s'.closed_ = true := by
    intro gone
    rcases registered_of_step hstep with same | ⟨-, closes⟩
    · exact closed_of_step hstep (h.kept (same ▸ gone))
    · exact closes h.kept
  have monotone (gone : s.registered = false) : s'.registered = false := by
    rcases registered_of_step hstep with same | ⟨gone', -⟩
    · exact same.trans gone
    · exact gone'
  refine ⟨kept, fun hmem => ?_⟩
  have hid := wired.id_eq
  cases (wired.step hstep).2 with
  | idle _ published => exact monotone (h.erased (published ▸ hmem))
  | receive _ _ published => exact monotone (h.erased (published ▸ hmem))
  | deliver _ payloads _ _ published =>
    rw [published, List.mem_append] at hmem
    rcases hmem with hmem | hmem
    · exact monotone (h.erased hmem)
    · obtain ⟨payload, -, heq⟩ := List.mem_map.mp hmem
      cases heq
  | disconnect close =>
    -- The registry hears of the disconnect before the handler is over.
    cases label with
    | runHandler refuses =>
      obtain ⟨handler, rest, hstrand, rfl⟩ := exists_of_runHandler hstep
      rw [RunsClose, hstrand, List.head?_cons, Option.some.injEq] at close
      subst close
      exact registered_removeSession _
    | _ => cases close

theorem enrolled_of_run {labels : List Label} (run : (machine K id).run labels = some s) :
    Enrolled id s := by
  refine Machine.run_induction (motive := fun _ s => Enrolled id s) ?_ ?_ run
  · exact ⟨fun gone => (by cases gone), fun hmem => (by cases hmem)⟩
  · intro _ s label s' hrun h hstep
    exact h.step (wired_of_run hrun) hstep

/-- At rest a session is in the registry exactly as long as it is open. -/
theorem registered_iff_of_run {labels : List Label} (run : (machine K id).run labels = some s)
    (rest : .close ∉ s.strand) : s.registered = true ↔ s.closed_ = false := by
  have h := enrolled_of_run run
  constructor
  · intro registered
    by_contra closed
    rcases announcing_of_run run (Bool.eq_true_of_not_eq_false closed) with posted | published
    · exact rest posted
    · rw [h.erased published] at registered
      cases registered
  · intro hopen
    by_contra gone
    rw [h.kept (Bool.eq_false_of_not_eq_true gone)] at hopen
    cases hopen

end Session

/-! ### The sessions of a server -/

namespace TcpServer

variable {T K : Type} {s t : TcpServer T K} {id : SessionId}

/-- A session with a number has been added, or its accept handler is about to do so, and
nobody sends to a session that has not been added. -/
structure Known (s : TcpServer T K) : Prop where
  sessions : ∀ {id session}, s.sessions id = some session → id ≠ 0 ∧ id < s.next_session_id_
  running : ∀ handler ∈ s.running,
    handler.session_id ≠ 0 ∧ handler.session_id < s.next_session_id_
  added : ∀ handler ∈ s.running,
    (handler.stage = .addSession ↔ s.sessions handler.session_id = none)
  complete : ∀ id, id ≠ 0 → id < s.next_session_id_ →
    (s.sessions id).isSome ∨ ∃ handler ∈ s.running, handler.session_id = id
  pending : ∀ thread, ∀ call ∈ s.sending thread, (s.sessions call.1).isSome
  posted : ∀ post ∈ s.posts, (s.sessions post.session_id).isSome

theorem isSome_put {session : Session K} {other : SessionId}
    (h : (s.sessions other).isSome) : ((s.put id session).sessions other).isSome := by
  rw [put]
  dsimp only
  rw [Function.update_apply]
  split_ifs
  · rfl
  · exact h

theorem sessions_put (session : Session K) (other : SessionId) :
    (s.put id session).sessions other = if other = id then some session else s.sessions other :=
  Function.update_apply ..

/-- A step of a session that is known. -/
theorem Known.put (h : s.Known) {before : Session K} (known : s.sessions id = some before)
    (session : Session K) : (s.put id session).Known where
  sessions := by
    intro other after hafter
    rw [sessions_put] at hafter
    split_ifs at hafter with same
    · subst same
      exact h.sessions known
    · exact h.sessions hafter
  running := h.running
  added handler hmem := by
    rw [h.added handler hmem, sessions_put]
    split_ifs with same
    · rw [same, known]
      exact iff_of_false (fun heq => by cases heq) (fun heq => by cases heq)
    · rfl
  complete other hne hlt := (h.complete other hne hlt).imp_left isSome_put
  pending thread call hmem := isSome_put (h.pending thread call hmem)
  posted post hmem := isSome_put (h.posted post hmem)

/-- An accept handler goes on behind `addSession`. -/
theorem Known.advance (h : s.Known) {handler : Accepting} (later : Acceptance.Stage)
    (first : s.running = [handler]) (stage : handler.stage ≠ .addSession)
    (later_ne : later ≠ .addSession) :
    Known { s with running := [{ handler with stage := later }] } where
  sessions := h.sessions
  running other hmem := by
    obtain rfl := List.mem_singleton.mp hmem
    exact h.running handler (first ▸ List.mem_singleton_self handler)
  added other hmem := by
    obtain rfl := List.mem_singleton.mp hmem
    refine iff_of_false later_ne fun absent => stage ?_
    exact (h.added handler (first ▸ List.mem_singleton_self handler)).mpr absent
  complete other hne hlt := by
    rcases h.complete other hne hlt with known | ⟨_, hmem, rfl⟩
    · exact .inl known
    · rw [first, List.mem_singleton] at hmem
      subst hmem
      exact .inr ⟨_, List.mem_singleton_self _, rfl⟩
  pending := h.pending
  posted := h.posted

/-- The handler ends behind `addSession`. -/
theorem Known.finish (h : s.Known) {handler : Accepting} (first : s.running = [handler])
    (stage : handler.stage ≠ .addSession) : Known { s with running := [] } where
  sessions := h.sessions
  running other hmem := by cases hmem
  added other hmem := by cases hmem
  complete other hne hlt := by
    rcases h.complete other hne hlt with known | ⟨_, hmem, rfl⟩
    · exact .inl known
    · rw [first, List.mem_singleton] at hmem
      subst hmem
      left
      rw [Option.isSome_iff_ne_none]
      exact fun absent => stage ((h.added _ (first ▸ List.mem_singleton_self _)).mpr absent)
  pending := h.pending
  posted := h.posted

theorem Known.rearm (h : s.Known) : s.rearm.Known := by
  rw [rearm_eq]
  exact ⟨h.sessions, h.running, h.added, h.complete, h.pending, h.posted⟩

/-- The registry holds known sessions only. -/
theorem mem_registry : id ∈ s.registry ↔
    id < s.next_session_id_ ∧ ∃ session, s.sessions id = some session ∧
      session.registered = true := by
  rw [registry, List.mem_filter, List.mem_range, isRegistered, Option.any_eq_true]

theorem nodup_registry (s : TcpServer T K) : s.registry.Nodup :=
  List.nodup_range.filter _

theorem mem_receivers {registered : List SessionId} {session_id : SessionId} :
    id ∈ receivers registered session_id ↔
      id ∈ registered ∧ (session_id = kBroadcastSessionId ∨ session_id = id) := by
  unfold receivers
  split_ifs with broadcast found
  · simp [broadcast]
  · rw [List.mem_singleton]
    constructor
    · rintro rfl
      exact ⟨found, .inr rfl⟩
    · rintro ⟨-, all | rfl⟩
      · exact absurd all broadcast
      · rfl
  · refine iff_of_false List.not_mem_nil ?_
    rintro ⟨there, all | rfl⟩
    · exact broadcast all
    · exact found there

variable [DecidableEq T]

theorem Known.step (h : s.Known) (single : s.chain ≤ 1) (numbered : s.Numbered) {label : Label T}
    (hstep : s.step label = some t) : t.Known := by
  have alone {handler : Accepting} {others : List Accepting}
      (first : s.running = handler :: others) : s.running = [handler] ∧ others = [] := by
    simp only [chain, first, List.length_cons] at single
    obtain rfl := List.length_eq_zero_iff.mp (show others.length = 0 by omega)
    exact ⟨first, rfl⟩
  cases transition_of_step hstep with
  | acceptCompletion result finished first =>
    have popped : Known { s with finished := finished } :=
      ⟨h.sessions, h.running, h.added, h.complete, h.pending, h.posted⟩
    cases result with
    | error error =>
      cases error with
      | operation_aborted => exact popped
      | failed => exact popped.rearm
    | connected remote_address =>
      have none_running : s.running = [] := by
        simp only [chain, first, List.length_cons] at single
        exact List.length_eq_zero_iff.mp (by omega)
      have positive := numbered.positive
      have fresh : s.sessions s.next_session_id_ = none := by
        rw [Option.eq_none_iff_forall_ne_some]
        exact fun session known => Nat.lt_irrefl _ (h.sessions known).2
      simp only [onAccept, none_running, List.nil_append]
      refine ⟨fun known => ?_, ?_, ?_, ?_, h.pending, h.posted⟩
      · exact ⟨(h.sessions known).1, Nat.lt_succ_of_lt (h.sessions known).2⟩
      · intro handler hmem
        obtain rfl := List.mem_singleton.mp hmem
        exact ⟨Nat.ne_of_gt positive, Nat.lt_succ_self _⟩
      · intro handler hmem
        obtain rfl := List.mem_singleton.mp hmem
        exact iff_of_true rfl fresh
      · intro id hne hlt
        rcases Nat.lt_succ_iff_lt_or_eq.mp hlt with hlt | rfl
        · refine .inl ((h.complete id hne hlt).resolve_right ?_)
          rintro ⟨_, hmem, -⟩
          rw [none_running] at hmem
          cases hmem
        · exact .inr ⟨_, List.mem_singleton_self _, rfl⟩
  | addSession refuses handler others first stage =>
    obtain ⟨only, rfl⟩ := alone first
    have hmem : handler ∈ s.running := only ▸ List.mem_singleton_self handler
    have fresh := (h.added handler hmem).mp stage
    refine ⟨fun {id session} known => ?_, ?_, ?_, ?_, ?_, ?_⟩
    · rw [sessions_put] at known
      split_ifs at known with same
      · exact same ▸ h.running handler hmem
      · exact h.sessions known
    · intro other hother
      obtain rfl := List.mem_singleton.mp hother
      exact h.running handler hmem
    · intro other hother
      obtain rfl := List.mem_singleton.mp hother
      rw [sessions_put, if_pos rfl]
      exact iff_of_false (fun stage => by cases stage) (fun absent => by cases absent)
    · intro id hne hlt
      rcases h.complete id hne hlt with known | ⟨other, hother, rfl⟩
      · exact .inl (isSome_put known)
      · rw [only, List.mem_singleton] at hother
        subst hother
        exact .inr ⟨_, List.mem_singleton_self _, rfl⟩
    · exact fun thread call hcall => isSome_put (h.pending thread call hcall)
    · exact fun post hpost => isSome_put (h.posted post hpost)
  | keepSession refuses handler others first stage taken =>
    -- Nobody else has the number of a session that is being added.
    obtain ⟨only, rfl⟩ := alone first
    have fresh := (h.added handler (only ▸ List.mem_singleton_self handler)).mp stage
    rw [isRegistered, fresh] at taken
    cases taken
  | startSession refuses handler others session session' first stage known =>
    obtain ⟨only, rfl⟩ := alone first
    have later := h.advance .publish only (by simp [stage]) (by decide)
    exact later.put known session'
  | publish refuses handler others first stage =>
    obtain ⟨only, rfl⟩ := alone first
    cases refuses with
    | false =>
      have later := h.advance .done only (by simp [stage]) (by decide)
      exact ⟨later.sessions, later.running, later.added, later.complete, later.pending,
        later.posted⟩
    | true =>
      have later := h.finish only (by simp [stage])
      exact ⟨later.sessions, later.running, later.added, later.complete, later.pending,
        later.posted⟩
  | done refuses handler others first stage =>
    obtain ⟨only, rfl⟩ := alone first
    exact (h.finish only (by simp [stage])).rearm
  | session id label session session' runtime known => exact h.put known session'
  | sendPacketEvent thread session_id payload order idle perm =>
    refine ⟨h.sessions, h.running, h.added, h.complete, fun other call hcall => ?_, h.posted⟩
    dsimp only at hcall ⊢
    rw [Function.update_apply] at hcall
    split_ifs at hcall with same
    · obtain ⟨id, hid, rfl⟩ := List.mem_map.mp hcall
      obtain ⟨registered, -⟩ := mem_receivers.mp (perm.mem_iff.mp hid)
      obtain ⟨-, session, known, -⟩ := mem_registry.mp registered
      exact Option.isSome_iff_exists.mpr ⟨session, known⟩
    · exact h.pending other call hcall
  | send thread id payload rest session session' first known =>
    have later := h.put known session'
    refine ⟨later.sessions, later.running, later.added, later.complete, fun other call hcall => ?_,
      fun post hpost => ?_⟩
    · dsimp only at hcall ⊢
      rw [Function.update_apply] at hcall
      split_ifs at hcall with same
      · exact later.pending thread call (first ▸ List.mem_cons_of_mem _ hcall)
      · exact later.pending other call hcall
    · rcases List.mem_append.mp hpost with hpost | hpost
      · exact later.posted post hpost
      · rw [List.mem_singleton.mp hpost]
        exact isSome_put (Option.isSome_iff_exists.mpr ⟨session, known⟩)
  | start => exact ⟨h.sessions, h.running, h.added, h.complete, h.pending, h.posted⟩
  | stop => exact ⟨h.sessions, h.running, h.added, h.complete, h.pending, h.posted⟩
  | acceptFinishes => exact ⟨h.sessions, h.running, h.added, h.complete, h.pending, h.posted⟩

theorem known_of_run {labels : List (Label T)} (run : (machine T K).run labels = some s) :
    s.Known := by
  refine Machine.run_induction (motive := fun _ s => s.Known) ?_ ?_ run
  · refine ⟨fun known => (by cases known), fun _ h => (by cases h), fun _ h => (by cases h),
      fun id hne hlt => ?_, fun _ _ h => (by cases h), fun _ h => (by cases h)⟩
    exact absurd (Nat.lt_one_iff.mp hlt) hne
  · intro _ s label t hrun h hstep
    exact h.step (chained_of_run hrun).single (numbered_of_run hrun) hstep

/-! ### Each session makes a run of its own -/

/-- The step that a session makes in one of the server. -/
def offers (s : TcpServer T K) (id : SessionId) : Label T → Option Session.Label
  | .accept _ =>
    match s.running with
    | ⟨session_id, _, .start⟩ :: _ => if session_id = id then some .start else none
    | _ => none
  | .session session_id label => if session_id = id then some label else none
  | .send thread =>
    match s.sending thread with
    | (session_id, payload) :: _ => if session_id = id then some (.send payload) else none
    | [] => none
  | _ => none

omit [DecidableEq T] in
theorem offers_accept {handler : Accepting} {others : List Accepting}
    (first : s.running = handler :: others) (refuses : Bool) :
    s.offers id (.accept refuses) =
      if handler.stage = .start ∧ handler.session_id = id then some .start else none := by
  obtain ⟨session_id, remote_address, stage⟩ := handler
  rw [offers, first]
  cases stage with
  | start => simp
  | _ => rfl

omit [DecidableEq T] in
theorem put_known {other : SessionId} {session session' : Session K}
    (known' : (s.put other session).sessions id = some session') :
    other = id ∧ session = session' ∨ other ≠ id ∧ s.sessions id = some session' := by
  rw [sessions_put] at known'
  split_ifs at known' with same
  · exact .inl ⟨same.symm, Option.some.inj known'⟩
  · exact .inr ⟨fun h => same h.symm, known'⟩

/-- A session is created, stays as it was, or makes the step that is offered to it. -/
def Follows (id : SessionId) (before : Option (Session K)) (offer : Option Session.Label)
    (session' : Session K) : Prop :=
  (∀ own ∈ offer, ∃ session, before = some session ∧ session.step own = some session') ∧
    (offer = none → before = some session' ∨
      before = none ∧ session' = (Session.machine K id).init)

theorem follows_of_step (h : s.Known) {label : Label T} (hstep : s.step label = some t)
    {session' : Session K} (known' : t.sessions id = some session') :
    Follows id (s.sessions id) (s.offers id label) session' := by
  have stays (sessions : s.sessions id = some session') (silent : s.offers id label = none) :
      Follows id (s.sessions id) (s.offers id label) session' := by
    refine ⟨fun own hown => ?_, fun _ => .inl sessions⟩
    rw [silent] at hown
    cases hown
  have moved {other : SessionId} {before after : Session K} {own : Session.Label}
      (known : s.sessions other = some before) (answers : before.step own = some after)
      (offer : s.offers id label = if other = id then some own else none)
      (put : (s.put other after).sessions id = some session') :
      Follows id (s.sessions id) (s.offers id label) session' := by
    rcases put_known put with ⟨rfl, rfl⟩ | ⟨differs, same⟩
    · rw [if_pos rfl] at offer
      rw [offer]
      refine ⟨fun own' hown => ?_, fun silent => by cases silent⟩
      obtain rfl := Option.some.inj hown
      exact ⟨before, known, answers⟩
    · rw [if_neg differs] at offer
      exact stays same offer
  cases transition_of_step hstep with
  | addSession refuses handler others first stage fresh =>
    have silent : s.offers id (.accept refuses) = none := by
      rw [offers_accept first, if_neg fun start => by cases stage.symm.trans start.1]
    have absent := (h.added handler (first ▸ List.mem_cons_self)).mp stage
    rcases put_known known' with ⟨rfl, rfl⟩ | ⟨-, same⟩
    · refine ⟨fun own hown => ?_, fun _ => .inr ⟨absent, rfl⟩⟩
      rw [silent] at hown
      cases hown
    · exact stays same silent
  | startSession refuses handler others session after first stage known answers =>
    refine moved known answers ?_ known'
    rw [offers_accept first, stage]
    simp
  | session other label session after runtime known answers =>
    exact moved known answers rfl known'
  | send thread other payload rest session after first known answers =>
    refine moved known answers ?_ known'
    rw [offers, first]
  | acceptCompletion result finished first =>
    cases result with
    | error error =>
      cases error with
      | operation_aborted => exact stays known' rfl
      | failed =>
        rw [onAccept, rearm_eq] at known'
        exact stays known' rfl
    | connected remote_address => exact stays known' rfl
  | done refuses handler others first stage =>
    rw [rearm_eq] at known'
    refine stays known' ?_
    rw [offers_accept first, if_neg fun start => by cases stage.symm.trans start.1]
  | keepSession refuses handler others first stage =>
    refine stays known' ?_
    rw [offers_accept first, if_neg fun start => by cases stage.symm.trans start.1]
  | publish refuses handler others first stage =>
    refine stays known' ?_
    rw [offers_accept first, if_neg fun start => by cases stage.symm.trans start.1]
  | start => exact stays known' rfl
  | stop => exact stays known' rfl
  | acceptFinishes => exact stays known' rfl
  | sendPacketEvent => exact stays known' rfl

omit [DecidableEq T] in
/-- A session that is not there yet has not been sent anything. -/
theorem Known.told_nil (h : s.Known) (absent : s.sessions id = none) : s.told id = [] := by
  rw [told, List.map_eq_nil_iff, List.filter_eq_nil_iff]
  intro post hpost own
  have posted := h.posted post hpost
  rw [of_decide_eq_true own, absent] at posted
  cases posted

theorem told_of_step {label : Label T} (hstep : s.step label = some t) :
    t.told id = s.told id ++ ((s.offers id label).bind Session.Label.sent?).toList := by
  have silent (posts : t.posts = s.posts)
      (offer : (s.offers id label).bind Session.Label.sent? = none) :
      t.told id = s.told id ++ ((s.offers id label).bind Session.Label.sent?).toList := by
    rw [offer, Option.toList_none, List.append_nil, told, posts]
    rfl
  have mute {handler : Accepting} {others : List Accepting} {refuses : Bool}
      (first : s.running = handler :: others) :
      (s.offers id (.accept refuses)).bind Session.Label.sent? = none := by
    rw [offers_accept first]
    split_ifs <;> rfl
  cases transition_of_step hstep with
  | send thread other payload rest session after first known answers =>
    rw [told, told, List.filter_append, List.map_append, offers, first, List.filter_singleton]
    by_cases own : other = id <;> simp [own, Session.Label.sent?]
  | session other label session after runtime =>
    refine silent rfl ?_
    rw [offers]
    split_ifs
    · cases label with
      | send => cases runtime
      | _ => rfl
    · rfl
  | addSession refuses handler others first => exact silent rfl (mute first)
  | keepSession refuses handler others first => exact silent rfl (mute first)
  | startSession refuses handler others session after first => exact silent rfl (mute first)
  | publish refuses handler others first => exact silent rfl (mute first)
  | done refuses handler others first =>
    refine silent ?_ (mute first)
    rw [rearm_eq]
  | acceptCompletion result finished first =>
    cases result with
    | error error =>
      cases error with
      | operation_aborted => exact silent rfl rfl
      | failed =>
        refine silent ?_ rfl
        rw [onAccept, rearm_eq]
    | connected remote_address => exact silent rfl rfl
  | start => exact silent rfl rfl
  | stop => exact silent rfl rfl
  | acceptFinishes => exact silent rfl rfl
  | sendPacketEvent => exact silent rfl rfl

theorem moves_of_step (h : s.Known) {label : Label T} (hstep : s.step label = some t)
    {session' : Session K} (known' : t.sessions id = some session') :
    Machine.Moves (Session.machine K id) Session.Label.sent? (s.sessions id) (s.told id) session'
      (t.told id) := by
  obtain ⟨accepts, waits⟩ := follows_of_step h hstep known'
  refine Machine.moves_of_offer (s.offers id label) accepts (fun silent => ?_) (told_of_step hstep)
  exact (waits silent).imp_right fun ⟨absent, fresh⟩ => ⟨absent, fresh, h.told_nil absent⟩

/-- Every session of a server has made a run of its own, in which it was sent what the server
sent to it. -/
theorem ran_of_run {labels : List (Label T)} (run : (machine T K).run labels = some s)
    {session : Session K} (known : s.sessions id = some session) :
    Machine.Ran (Session.machine K id) Session.Label.sent? session (s.told id) := by
  refine Machine.ran_of_run (m := machine T K) TcpServer.sessions
    (fun _ id => Session.machine K id) told (fun _ => rfl) ?_
    (fun _ _ _ _ _ _ => rfl) run known
  rintro s label t ⟨before, hrun⟩ hstep id session' known'
  exact moves_of_step (known_of_run hrun) hstep known'

/-- In every run: the registry holds no session under the number that stands for all of them;
every number that was given out belongs to a session or to the accept handler on its way; an
open session is in the registry and one whose disconnect is published is not; and a session that
has no `close` left on its strand is in the registry exactly if it is open. -/
theorem registry_of_run {labels : List (Label T)} (run : (machine T K).run labels = some s) :
    kBroadcastSessionId ∉ s.registry ∧
      (∀ id ∈ List.range' 1 (s.next_session_id_ - 1),
        (s.sessions id).isSome ∨ ∃ handler ∈ s.running, handler.session_id = id) ∧
      ∀ id session, s.sessions id = some session →
        (session.closed_ = false → id ∈ s.registry) ∧
        (.ClientDisconnectedEvent id ∈ session.published → id ∉ s.registry) ∧
        (.close ∉ session.strand → (id ∈ s.registry ↔ session.closed_ = false)) := by
  have known := known_of_run run
  have entry {id : SessionId} {session : Session K} (hsession : s.sessions id = some session) :
      id ∈ s.registry ↔ session.registered = true := by
    rw [mem_registry]
    constructor
    · rintro ⟨-, other, hother, registered⟩
      obtain rfl := Option.some.inj (hother.symm.trans hsession)
      exact registered
    · exact fun registered => ⟨(known.sessions hsession).2, session, hsession, registered⟩
  refine ⟨fun hmem => ?_, fun id hid => ?_, fun id session hsession => ?_⟩
  · obtain ⟨-, session, hsession, -⟩ := mem_registry.mp hmem
    exact (known.sessions hsession).1 rfl
  · obtain ⟨positive, below⟩ := List.mem_range'_1.mp hid
    exact known.complete id (Nat.ne_of_gt positive) (by omega)
  · obtain ⟨own, hown, -⟩ := ran_of_run run hsession
    have enrolled := Session.enrolled_of_run hown
    refine ⟨fun hopen => ?_, fun published hmem => ?_, fun rest => ?_⟩
    · rw [entry hsession]
      by_contra gone
      rw [enrolled.kept (Bool.eq_false_of_not_eq_true gone)] at hopen
      cases hopen
    · rw [entry hsession, enrolled.erased published] at hmem
      cases hmem
    · rw [entry hsession]
      exact Session.registered_iff_of_run hown rest

theorem registry_oneAccepted : ∃ s : TcpServer Unit Unit,
    (machine Unit Unit).run oneAccepted = some s ∧ kBroadcastSessionId ∉ s.registry ∧
      1 ∈ s.registry := by
  have reached : ((machine Unit Unit).run oneAccepted).bind (fun s =>
      (s.sessions 1).map (·.closed_)) = some false := by
    decide
  obtain ⟨s, run, hopen⟩ := Option.bind_eq_some_iff.mp reached
  obtain ⟨session, known, hopen⟩ := Option.map_eq_some_iff.mp hopen
  obtain ⟨broadcast, -, entries⟩ := registry_of_run run
  exact ⟨s, run, broadcast, (entries 1 session known).1 hopen⟩

end TcpServer

end SpaceShooter.Server
