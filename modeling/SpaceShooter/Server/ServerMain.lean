/-
# The life of the server process

`main` starts the context and the world, waits for the operator, stops the context and waits for
its threads, and stops the world only then. Until it is stopped the tick loop always has a wait
pending or a handler to run, which keeps the threads in `run`.
-/

import SpaceShooter.Server.GracefulStop
import SpaceShooter.Server.TickLoop

namespace SpaceShooter.Server

open Library

/-! ### A worker that cannot leave -/

namespace NetworkContext

variable {ctx ctx' : NetworkContext} {i thread_count : ℕ}

/-- The work that is under way or waits for a thread. -/
def held (ctx : NetworkContext) : ℕ :=
  ctx.queue.length + ctx.operations + ctx.worker_threads_.countP (·.handler?.isSome)

/-- A worker is inside `run`, and nothing has told the `io_context` to stop. -/
structure Trapped (i : ℕ) (ctx : NetworkContext) : Prop where
  stopped : ctx.stopped = false
  worker : ∃ w, ctx.worker_threads_[i]? = some w ∧ w.inside = true ∧ w.owner ≠ .starter

theorem outstanding_ne_zero_of_held (h : ctx.held ≠ 0) : ctx.outstanding ≠ 0 := by
  rw [held] at h
  rw [outstanding]
  omega

theorem stopped_workFinished (busy : ctx.workFinished.outstanding ≠ 0) :
    ctx.workFinished.stopped = ctx.stopped := by
  rw [workFinished_eq] at busy ⊢
  have busy' : ctx.outstanding ≠ 0 := busy
  rw [decide_eq_false busy', Bool.or_false]

/-- A change that leaves a thread inside `run`. -/
theorem Trapped.modify (h : ctx.Trapped i) {f : Worker → Worker} {j : ℕ}
    (inside : ∀ w, w.inside = true → (f w).inside = true)
    (owner : ∀ w, w.owner ≠ .starter → (f w).owner ≠ .starter)
    (threads : ctx'.worker_threads_ = ctx.worker_threads_.modify j f)
    (stopped : ctx'.stopped = ctx.stopped) : ctx'.Trapped i := by
  obtain ⟨w, hw, hinside, howner⟩ := h.worker
  refine ⟨stopped.trans h.stopped, ?_⟩
  rw [threads, List.getElem?_modify, hw]
  by_cases same : j = i
  · exact ⟨f w, by simp [same], inside w hinside, owner w howner⟩
  · exact ⟨w, by simp [same], hinside, howner⟩

/-- Another thread goes on. -/
theorem Trapped.other (h : ctx.Trapped i) {j : ℕ} (other : j ≠ i)
    (moves : Moves ctx ctx' j) (stopped : ctx'.stopped = false) : ctx'.Trapped i := by
  obtain ⟨w, hw, hinside, howner⟩ := h.worker
  obtain ⟨position, threads⟩ := moves.threads
  refine ⟨stopped, w, ?_, hinside, howner⟩
  rw [threads, getElem?_place, if_neg other, hw]

/-- The thread itself goes on inside `run`. -/
theorem Trapped.place (h : ctx.Trapped i) (position : Position)
    (inside : Worker.inside { position := position } = true)
    (threads : ctx'.worker_threads_ = (ctx.place i position).worker_threads_)
    (stopped : ctx'.stopped = false) : ctx'.Trapped i := by
  obtain ⟨w, hw, -, howner⟩ := h.worker
  refine ⟨stopped, { w with position := position }, ?_, inside, howner⟩
  rw [threads, getElem?_place, if_pos rfl, hw]
  rfl

/-- While there is work a thread does not stop the context. -/
theorem calm_advance {j : ℕ} {w : Worker} (idle : ctx.outstanding ≠ 0)
    (busy : ctx'.outstanding ≠ 0) (h : ctx.advance j w = some ctx') :
    ctx'.stopped = ctx.stopped ∧ ctx'.waiting = ctx.waiting := by
  unfold advance at h
  split at h
  · obtain rfl := Option.some.inj h
    exact ⟨rfl, rfl⟩
  · rw [if_neg idle] at h
    obtain rfl := Option.some.inj h
    exact ⟨rfl, rfl⟩
  · split at h
    · obtain rfl := Option.some.inj h
      exact ⟨rfl, rfl⟩
    · split at h
      · cases h
      · obtain rfl := Option.some.inj h
        exact ⟨rfl, rfl⟩
  · obtain rfl := Option.some.inj h
    refine ⟨stopped_workFinished busy, ?_⟩
    rw [workFinished_eq]
    rfl
  · obtain rfl := Option.some.inj h
    exact ⟨rfl, rfl⟩
  · obtain rfl := Option.some.inj h
    exact ⟨rfl, rfl⟩
  · cases h

theorem Trapped.advance (h : ctx.Trapped i) {w : Worker}
    (thread : ctx.worker_threads_[i]? = some w) (idle : ctx.outstanding ≠ 0)
    (busy : ctx'.outstanding ≠ 0) (calm : ctx.throwsNext i = false)
    (hadvance : ctx.advance i w = some ctx') : ctx'.Trapped i := by
  have stopped := (calm_advance idle busy hadvance).1.trans h.stopped
  obtain ⟨_, hw, inside, -⟩ := h.worker
  obtain rfl := Option.some.inj (thread.symm.trans hw)
  rw [Worker.inside] at inside
  unfold NetworkContext.advance at hadvance
  split at hadvance
  · next position => simp [position] at inside
  · rw [if_neg idle] at hadvance
    obtain rfl := Option.some.inj hadvance
    exact h.place (.running 0) rfl rfl stopped
  · next n position =>
    rw [if_neg (by rw [h.stopped]; exact Bool.false_ne_true)] at hadvance
    split at hadvance
    · cases hadvance
    · next handler queue first =>
      obtain rfl := Option.some.inj hadvance
      exact h.place (.executing handler n) rfl rfl stopped
  · next handler n position =>
    have quiet : handler.throws = false := by
      rw [throwsNext, thread, Option.any_some, Worker.handler?, position] at calm
      exact calm
    obtain rfl := Option.some.inj hadvance
    refine h.place (.running (n + 1)) rfl ?_ stopped
    rw [quiet, workFinished_eq]
    rfl
  · next n position => simp [position] at inside
  · next position => simp [position] at inside
  · cases hadvance

/-- As long as there is work, and no handler throws in its thread, a worker inside `run` does not
get out of it, unless the context is stopped by force. -/
theorem Trapped.step (h : ctx.Trapped i) (idle : ctx.outstanding ≠ 0)
    (busy : ctx'.outstanding ≠ 0) {a : Label} (unforced : a ≠ .force_stop)
    (started : a ≠ .threadFails) (calm : a = .worker i → ctx.throwsNext i = false)
    (hstep : NetworkContext.step thread_count ctx a = some ctx') : ctx'.Trapped i := by
  cases steps_of_step hstep with
  | stop locked =>
    unfold NetworkContext.stop at busy ⊢
    split_ifs at busy ⊢
    · exact h
    · have stopped := stopped_workFinished busy
      refine ⟨stopped.trans h.stopped, ?_⟩
      rw [workFinished_eq]
      exact h.worker
  | force_stop => exact absurd rfl unforced
  | threadFails => exact absurd rfl started
  | threadStarts =>
    obtain ⟨w, hw, inside⟩ := h.worker
    refine ⟨h.stopped, w, ?_, inside⟩
    rw [List.getElem?_append_left (List.getElem?_eq_some_iff.mp hw).1, hw]
  | requestStop n =>
    refine h.modify (fun w inside => ?_) (fun w owner => ?_) rfl rfl
    · rw [Worker.inside, Worker.position_requestStop]
      exact inside
    · rw [Worker.requestStop]
      split_ifs
      · exact owner
      · exact owner
  | threadJoined j =>
    exact h.modify (f := fun w => { w with joined := true }) (fun _ inside => inside)
      (fun _ owner => owner) rfl rfl
  | join_workers =>
    obtain ⟨w, hw, inside, owner⟩ := h.worker
    refine ⟨h.stopped, w.moveTo .joiner, ?_, ?_, ?_⟩
    · rw [NetworkContext.join_workers, List.getElem?_map, hw]
      rfl
    · rw [Worker.inside, Worker.position_moveTo]
      exact inside
    · rw [Worker.moveTo]
      split_ifs
      · exact fun taken => by cases taken
      · exact owner
  | worker j w _ thread hadvance =>
    by_cases same : j = i
    · subst same
      exact h.advance thread idle busy (calm rfl) hadvance
    · exact h.other same (moves_advance hadvance)
        ((calm_advance idle busy hadvance).1.trans h.stopped)
  | _ => exact ⟨h.stopped, h.worker⟩

/-- Its join does not return. -/
theorem Trapped.not_done (h : ctx.Trapped i) (hlife : Lifecycle ctx) : ctx.join_flag_ ≠ .done := by
  intro done
  obtain ⟨w, hw, inside, owner⟩ := h.worker
  have joined : ctx.state_ = .Joined := hlife.flagged (by rw [done]; exact fun h => by cases h)
  have lawful := hlife.threads w (List.mem_of_getElem? hw)
  cases howner : w.owner with
  | context => exact lawful.taken joined howner
  | starter => exact owner howner
  | joiner =>
    have exited := lawful.exited (lawful.returned done howner)
    rw [Worker.inside, exited] at inside
    cases inside

/-- A context that nobody has told to stop or waited for. -/
structure Fresh (state : State) (ctx : NetworkContext) : Prop where
  state_ : ctx.state_ = state
  work_guard_ : ctx.work_guard_ = true
  stopped : ctx.stopped = false
  waiting : ctx.waiting = 0

theorem Fresh.step {state : State} (h : ctx.Fresh state)
    (early : state = .NotStarted ∨ state = .Started) {a : Label} (entered : a ≠ .start)
    (started : a ≠ .threadFails) (kept : a ≠ .stop) (unforced : a ≠ .force_stop)
    (hstep : NetworkContext.step thread_count ctx a = some ctx') : ctx'.Fresh state := by
  cases steps_of_step hstep with
  | start => exact absurd rfl entered
  | startAgain => exact absurd rfl entered
  | threadFails => exact absurd rfl started
  | stop => exact absurd rfl kept
  | force_stop => exact absurd rfl unforced
  | wait locked stopped =>
    rw [h.state_] at stopped
    exact absurd early (not_or.mpr stopped)
  | join_workers locked waiting => exact absurd h.waiting waiting
  | waitReturns waiting => exact absurd h.waiting waiting
  | worker j w _ thread hadvance =>
    have moves := moves_advance hadvance
    have guarded := moves.work_guard_.trans h.work_guard_
    obtain ⟨stopped, waiting⟩ := calm_advance (outstanding_ne_zero h.work_guard_)
      (outstanding_ne_zero guarded) hadvance
    exact ⟨moves.state_.trans h.state_, guarded, stopped.trans h.stopped, waiting.trans h.waiting⟩
  | _ => exact ⟨h.state_, h.work_guard_, h.stopped, h.waiting⟩

end NetworkContext

/-! ### A loop that is not stopped -/

namespace TickLoop

variable {σ Event Choice : Type} {sim : Simulation σ Event Choice} {loop loop' : TickLoop σ}

/-- The pending waits, and what is left for the strand to run. -/
def pending (loop : TickLoop σ) : ℕ :=
  loop.tick_timer_.waits + loop.completions.length + loop.posted.length

/-- A loop that runs and that nobody has stopped. -/
structure Alive (loop : TickLoop σ) : Prop where
  sound : Sound loop
  running : loop.state_ = .Running
  overtookStart : loop.overtookStart = false

theorem Alive.pending_ne_zero (h : Alive loop) : loop.pending ≠ 0 := by
  rw [pending]
  rcases h.sound.alive h.overtookStart h.running with success | waits
  · have := List.length_pos_of_mem success
    omega
  · omega

theorem overtookStart_doTick (loop : TickLoop σ) (choice : Choice) (result : WaitResult) :
    (doTick sim loop choice result).overtookStart = loop.overtookStart := by
  cases result with
  | operation_aborted => rfl
  | failed => rfl
  | success =>
    rcases loop.state_.stopped_or_running with stopped | running
    · rw [doTick_of_stopped sim loop stopped]
    · obtain ⟨deadline, tick⟩ := doTick_of_running sim loop running choice
      rw [tick]

/-- Only a `stop` overtakes a start. -/
theorem overtookStart_of_step {label : Label Event Choice} (kept : label ≠ .stop)
    (hstep : step sim loop label = some loop') : loop'.overtookStart = loop.overtookStart := by
  cases transition_of_step sim hstep with
  | stop => exact absurd rfl kept
  | doStart elapsed posted =>
    unfold TickLoop.doStart
    split_ifs <;> rfl
  | runCompletion index elapsed choice result => exact overtookStart_doTick _ choice result
  | _ => rfl

theorem Alive.step (h : Alive loop) {label : Label Event Choice} (kept : label ≠ .stop)
    (noError : label ≠ .waitFails) (hstep : step sim loop label = some loop') : Alive loop' := by
  refine ⟨h.sound.step sim noError hstep, ?_, (overtookStart_of_step kept hstep).trans
    h.overtookStart⟩
  cases transition_of_step sim hstep with
  | stop => exact absurd rfl kept
  | waitFails => exact absurd rfl noError
  | doStart elapsed posted =>
    rw [doStart_of_running
      { loop with posted := posted, clock := loop.clock + elapsed } h.running]
    exact h.running
  | runCompletion index elapsed choice result found =>
    cases result with
    | operation_aborted => exact h.running
    | failed => exact absurd (List.mem_of_getElem? found) h.sound.no_failure
    | success =>
      obtain ⟨deadline, tick⟩ := doTick_of_running sim { loop with
        completions := loop.completions.eraseIdx index
        clock := loop.clock + elapsed } h.running choice
      rw [tick]
      exact h.running
  | _ => exact h.running

end TickLoop

/-! ### The process -/

namespace ServerMain

/-- Where `main` stands. -/
inductive Stage
  | constructed
  | startingContext
  | contextStarted
  /-- The world is started, and the operator is waited for. -/
  | serving
  | stoppingContext
  | contextStopped
  | waiting
  | waited
  | worldStopped
  /-- The context could not be started. -/
  | failed
  deriving DecidableEq, Repr

/-- The calls of `main` on the context come in the order of the program; what other threads do
is not up to it. -/
def Stage.onContext (stage : Stage) : NetworkContext.Label → Option Stage
  | .start => if stage = .constructed then some .startingContext else none
  | .startReturns => if stage = .startingContext then some .contextStarted else none
  | .threadFails => if stage = .startingContext then some .failed else none
  | .stop => if stage = .serving then some .stoppingContext else none
  | .stopReturns => if stage = .stoppingContext then some .contextStopped else none
  | .wait => if stage = .contextStopped then some .waiting else none
  | .waitReturns => if stage = .waiting then some .waited else none
  | .force_stop => none
  | _ => some stage

def Stage.onWorld {Event Choice : Type} (stage : Stage) : TickLoop.Label Event Choice → Option Stage
  | .start => if stage = .contextStarted then some .serving else none
  | .stop => if stage = .waited then some .worldStopped else none
  | _ => some stage

/-- A step of the context, of the tick loop, or one of both. -/
structure Label (Event Choice : Type) where
  context : Option NetworkContext.Label := none
  world : Option (TickLoop.Label Event Choice) := none

end ServerMain

open ServerMain in
/-- The process of the server: its `main`, its threads and its world. -/
structure ServerMain (σ : Type) where
  stage : Stage := .constructed
  nc : NetworkContext := {}
  world : TickLoop σ

namespace ServerMain

variable {σ Event Choice : Type} {sim : Simulation σ Event Choice} {thread_count : ℕ}

def onContext (thread_count : ℕ) (s : ServerMain σ) :
    Option NetworkContext.Label → Option (ServerMain σ)
  | none => some s
  | some label => (s.stage.onContext label).bind fun stage =>
    (s.nc.step (max 1 thread_count) label).map fun nc => { s with stage := stage, nc := nc }

def onWorld (sim : Simulation σ Event Choice) (s : ServerMain σ) :
    Option (TickLoop.Label Event Choice) → Option (ServerMain σ)
  | none => some s
  | some label => (s.stage.onWorld label).bind fun stage =>
    (s.world.step sim label).map fun world => { s with stage := stage, world := world }

/-- The waits of the timer are operations of the context, and its handlers run on the threads of
the context: it holds at least as much work as the loop has pending. -/
def step (sim : Simulation σ Event Choice) (thread_count : ℕ) (s : ServerMain σ)
    (label : Label Event Choice) : Option (ServerMain σ) :=
  (s.onContext thread_count label.context).bind fun s =>
    (s.onWorld sim label.world).bind fun s =>
      if s.world.pending ≤ s.nc.held then some s else none

def machine (sim : Simulation σ Event Choice) (thread_count : ℕ) (world : σ) (interval : ℕ) :
    Machine (ServerMain σ) (Label Event Choice) where
  init := { world := { world := world, tick_interval_ := interval } }
  step := step sim thread_count

/-! ### What a step does -/

/-- The label of a step, with the guard that let it through. -/
theorem exists_of_step {s t : ServerMain σ} {label : Label Event Choice}
    (h : s.step sim thread_count label = some t) :
    ∃ u, s.onContext thread_count label.context = some u ∧ u.onWorld sim label.world = some t ∧
      t.world.pending ≤ t.nc.held := by
  obtain ⟨u, hcontext, h⟩ := Option.bind_eq_some_iff.mp h
  obtain ⟨v, hworld, h⟩ := Option.bind_eq_some_iff.mp h
  obtain ⟨held, heq⟩ := Option.ite_none_right_eq_some.mp h
  obtain rfl := Option.some.inj heq
  exact ⟨u, hcontext, hworld, held⟩

/-- A step of the context, if there is one. -/
inductive ContextMoves (thread_count : ℕ) (s : ServerMain σ) :
    Option NetworkContext.Label → ServerMain σ → Prop
  | rest : ContextMoves thread_count s none s
  | move (label : NetworkContext.Label) (stage : Stage) (nc : NetworkContext)
      (next : s.stage.onContext label = some stage)
      (answers : s.nc.step (max 1 thread_count) label = some nc) :
      ContextMoves thread_count s (some label) { s with stage := stage, nc := nc }

theorem moves_of_onContext {s t : ServerMain σ} {label : Option NetworkContext.Label}
    (h : s.onContext thread_count label = some t) : ContextMoves thread_count s label t := by
  cases label with
  | none => exact Option.some.inj h ▸ .rest
  | some label =>
    obtain ⟨stage, next, h⟩ := Option.bind_eq_some_iff.mp h
    obtain ⟨nc, answers, rfl⟩ := Option.map_eq_some_iff.mp h
    exact .move label stage nc next answers

/-- A step of the tick loop, if there is one. -/
inductive WorldMoves (sim : Simulation σ Event Choice) (s : ServerMain σ) :
    Option (TickLoop.Label Event Choice) → ServerMain σ → Prop
  | rest : WorldMoves sim s none s
  | move (label : TickLoop.Label Event Choice) (stage : Stage) (world : TickLoop σ)
      (next : s.stage.onWorld label = some stage) (answers : s.world.step sim label = some world) :
      WorldMoves sim s (some label) { s with stage := stage, world := world }

theorem moves_of_onWorld {s t : ServerMain σ} {label : Option (TickLoop.Label Event Choice)}
    (h : s.onWorld sim label = some t) : WorldMoves sim s label t := by
  cases label with
  | none => exact Option.some.inj h ▸ .rest
  | some label =>
    obtain ⟨stage, next, h⟩ := Option.bind_eq_some_iff.mp h
    obtain ⟨world, answers, rfl⟩ := Option.map_eq_some_iff.mp h
    exact .move label stage world next answers

/-! ### The invariant -/

/-- What the context is to be like before `main` stops it. -/
def Stage.expects : Stage → Option NetworkContext.State
  | .constructed => some .NotStarted
  | .startingContext => some .Started
  | .contextStarted => some .Started
  | .serving => some .Started
  | _ => none

structure Consistent (s : ServerMain σ) : Prop where
  lifecycle : NetworkContext.Lifecycle s.nc
  fresh : ∀ state ∈ s.stage.expects, s.nc.Fresh state
  sound : TickLoop.Sound s.world
  overtookStart : s.stage ≠ .worldStopped → s.world.overtookStart = false
  pending : s.world.pending ≤ s.nc.held

theorem Stage.early {stage : Stage} {state : NetworkContext.State} (h : state ∈ stage.expects) :
    state = .NotStarted ∨ state = .Started := by
  cases stage <;> cases h
  · exact .inl rfl
  · exact .inr rfl
  · exact .inr rfl
  · exact .inr rfl

/-- Where the calls of `main` on the context lead. -/
theorem Stage.onContext_eq {stage stage' : Stage} {label : NetworkContext.Label}
    (next : stage.onContext label = some stage') :
    (stage' = stage ∧ label ≠ .start ∧ label ≠ .threadFails ∧ label ≠ .stop ∧
        label ≠ .force_stop) ∨
      (stage = .constructed ∧ label = .start ∧ stage' = .startingContext) ∨
      (stage = .startingContext ∧ label = .startReturns ∧ stage' = .contextStarted) ∨
      (stage ≠ .worldStopped ∧ stage'.expects = none) := by
  cases label with
  | start =>
    obtain ⟨rfl, heq⟩ := Option.ite_none_right_eq_some.mp next
    exact .inr (.inl ⟨rfl, rfl, (Option.some.inj heq).symm⟩)
  | startReturns =>
    obtain ⟨rfl, heq⟩ := Option.ite_none_right_eq_some.mp next
    exact .inr (.inr (.inl ⟨rfl, rfl, (Option.some.inj heq).symm⟩))
  | force_stop => cases next
  | threadFails | stop | stopReturns | wait | waitReturns =>
    obtain ⟨rfl, heq⟩ := Option.ite_none_right_eq_some.mp next
    obtain rfl := Option.some.inj heq
    exact .inr (.inr (.inr ⟨fun h => (by cases h), rfl⟩))
  | _ =>
    obtain rfl := Option.some.inj next
    exact .inl ⟨rfl, fun h => (by cases h), fun h => (by cases h), fun h => (by cases h),
      fun h => (by cases h)⟩

theorem fresh_onContext {stage stage' : Stage} {nc nc' : NetworkContext}
    {label : NetworkContext.Label} (fresh : ∀ state ∈ stage.expects, nc.Fresh state)
    (next : stage.onContext label = some stage')
    (answers : nc.step (max 1 thread_count) label = some nc') :
    ∀ state ∈ stage'.expects, nc'.Fresh state := by
  intro state hstate
  rcases Stage.onContext_eq next with
    ⟨rfl, entered, started, kept, unforced⟩ | ⟨rfl, rfl, rfl⟩ | ⟨rfl, rfl, rfl⟩ | ⟨-, nothing⟩
  · exact (fresh state hstate).step (Stage.early hstate) entered started kept unforced answers
  · have before := fresh .NotStarted rfl
    cases NetworkContext.steps_of_step answers with
    | start =>
      cases hstate
      exact ⟨rfl, before.work_guard_, before.stopped, before.waiting⟩
    | startAgain locked other => exact absurd before.state_ other
  · exact (fresh state hstate).step (Stage.early hstate) (fun h => by cases h) (fun h => by cases h)
      (fun h => by cases h) (fun h => by cases h) answers
  · rw [nothing] at hstate
    cases hstate

/-- Where the calls of `main` on the world lead. -/
theorem Stage.onWorld_eq {stage stage' : Stage} {label : TickLoop.Label Event Choice}
    (next : stage.onWorld label = some stage') :
    (label ≠ .stop ∧ stage'.expects = stage.expects ∧
        (stage' ≠ .worldStopped → stage ≠ .worldStopped)) ∨
      (stage = .waited ∧ stage' = .worldStopped) := by
  cases label with
  | start =>
    obtain ⟨rfl, heq⟩ := Option.ite_none_right_eq_some.mp next
    obtain rfl := Option.some.inj heq
    exact .inl ⟨fun h => (by cases h), rfl, fun _ h => (by cases h)⟩
  | stop =>
    obtain ⟨rfl, heq⟩ := Option.ite_none_right_eq_some.mp next
    exact .inr ⟨rfl, (Option.some.inj heq).symm⟩
  | _ =>
    obtain rfl := Option.some.inj next
    exact .inl ⟨fun h => (by cases h), rfl, fun h => h⟩

theorem Consistent.step {s t : ServerMain σ} {label : Label Event Choice} (h : s.Consistent)
    (noError : label.world ≠ some .waitFails)
    (hstep : s.step sim thread_count label = some t) : t.Consistent := by
  obtain ⟨u, hcontext, hworld, held⟩ := exists_of_step hstep
  have context : NetworkContext.Lifecycle u.nc ∧ (∀ state ∈ u.stage.expects, u.nc.Fresh state) ∧
      u.world = s.world ∧ (u.stage ≠ .worldStopped → s.stage ≠ .worldStopped) := by
    generalize label.context = event at hcontext
    cases moves_of_onContext hcontext with
    | rest => exact ⟨h.lifecycle, h.fresh, rfl, fun hstage => hstage⟩
    | move label stage nc next answers =>
      refine ⟨h.lifecycle.step answers, fresh_onContext h.fresh next answers, rfl,
        fun hstage => ?_⟩
      rcases Stage.onContext_eq next with ⟨rfl, -⟩ | ⟨hs, -⟩ | ⟨hs, -⟩ | ⟨hs, -⟩
      · exact hstage
      · exact fun heq => by cases hs.symm.trans heq
      · exact fun heq => by cases hs.symm.trans heq
      · exact hs
  obtain ⟨lifecycle, fresh, same, later⟩ := context
  generalize hevent : label.world = event at hworld noError
  cases moves_of_onWorld hworld with
  | rest =>
    exact ⟨lifecycle, fresh, same ▸ h.sound, fun hstage => same ▸ h.overtookStart (later hstage),
      held⟩
  | move label stage world next answers =>
    rw [same] at answers
    have working : label ≠ .waitFails := fun heq => noError (congrArg some heq)
    refine ⟨lifecycle, ?_, h.sound.step sim working answers, fun hstage => ?_, held⟩
    · rcases Stage.onWorld_eq next with ⟨-, expects, -⟩ | ⟨-, rfl⟩
      · exact expects ▸ fresh
      · exact fun state hstate => by cases hstate
    · rcases Stage.onWorld_eq next with ⟨kept, -, before⟩ | ⟨-, rfl⟩
      · exact (TickLoop.overtookStart_of_step kept answers).trans
          (h.overtookStart (later (before hstage)))
      · exact absurd rfl hstage

/-- The timer works, and no handler throws in one thread. -/
def Calm (i : ℕ) (s : ServerMain σ) (label : Label Event Choice) : Prop :=
  label.world ≠ some .waitFails ∧ (label.context = some (.worker i) → s.nc.throwsNext i = false)

/-! ### The hang -/

/-- `main` serves, stops the context or waits for it. -/
def Stage.Waits (stage : Stage) : Prop :=
  stage = .serving ∨ stage = .stoppingContext ∨ stage = .contextStopped ∨ stage = .waiting

structure Hung (i : ℕ) (s : ServerMain σ) : Prop where
  consistent : s.Consistent
  waits : s.stage.Waits
  trapped : s.nc.Trapped i
  alive : TickLoop.Alive s.world

/-- A stage before the world is stopped is left only with the return of `wait`. -/
theorem Stage.Waits.onContext {stage stage' : Stage} {label : NetworkContext.Label}
    (h : stage.Waits) (next : stage.onContext label = some stage') (waits : label ≠ .waitReturns) :
    stage'.Waits ∧ label ≠ .force_stop ∧ label ≠ .threadFails := by
  cases label with
  | waitReturns => exact absurd rfl waits
  | force_stop => cases next
  | start | startReturns | threadFails =>
    obtain ⟨rfl, -⟩ := Option.ite_none_right_eq_some.mp next
    rcases h with h | h | h | h <;> cases h
  | stop =>
    obtain ⟨-, heq⟩ := Option.ite_none_right_eq_some.mp next
    obtain rfl := Option.some.inj heq
    exact ⟨.inr (.inl rfl), fun h => (by cases h), fun h => (by cases h)⟩
  | stopReturns =>
    obtain ⟨-, heq⟩ := Option.ite_none_right_eq_some.mp next
    obtain rfl := Option.some.inj heq
    exact ⟨.inr (.inr (.inl rfl)), fun h => (by cases h), fun h => (by cases h)⟩
  | wait =>
    obtain ⟨-, heq⟩ := Option.ite_none_right_eq_some.mp next
    obtain rfl := Option.some.inj heq
    exact ⟨.inr (.inr (.inr rfl)), fun h => (by cases h), fun h => (by cases h)⟩
  | _ =>
    obtain rfl := Option.some.inj next
    exact ⟨h, fun h => (by cases h), fun h => (by cases h)⟩

theorem Stage.Waits.onWorld {stage stage' : Stage} {label : TickLoop.Label Event Choice}
    (h : stage.Waits) (next : stage.onWorld label = some stage') :
    stage'.Waits ∧ label ≠ .stop := by
  cases label with
  | start | stop =>
    obtain ⟨rfl, -⟩ := Option.ite_none_right_eq_some.mp next
    rcases h with h | h | h | h <;> cases h
  | _ =>
    obtain rfl := Option.some.inj next
    exact ⟨h, fun h => by cases h⟩

theorem Hung.alive_onWorld {i : ℕ} {s u t : ServerMain σ} {label : Label Event Choice}
    (h : s.Hung i) (noError : label.world ≠ some .waitFails) (waits : u.stage.Waits)
    (same : u.world = s.world) (hworld : u.onWorld sim label.world = some t) :
    t.stage.Waits ∧ t.nc = u.nc ∧ TickLoop.Alive t.world := by
  generalize label.world = event at hworld noError
  cases moves_of_onWorld hworld with
  | rest => exact ⟨waits, rfl, same ▸ h.alive⟩
  | move label stage world next answers =>
    rw [same] at answers
    obtain ⟨waits', kept⟩ := waits.onWorld next
    exact ⟨waits', rfl, h.alive.step kept (fun heq => noError (congrArg some heq)) answers⟩

theorem Hung.step {i : ℕ} {s t : ServerMain σ} {label : Label Event Choice} (h : s.Hung i)
    (calm : Calm i s label) (hstep : s.step sim thread_count label = some t) : t.Hung i := by
  obtain ⟨u, hcontext, hworld, held⟩ := exists_of_step hstep
  have consistent := h.consistent.step calm.1 hstep
  have idle : s.nc.outstanding ≠ 0 := by
    have pending := h.alive.pending_ne_zero
    have held := h.consistent.pending
    exact NetworkContext.outstanding_ne_zero_of_held (by omega)
  have quiet := calm.2
  generalize label.context = event at hcontext quiet
  cases moves_of_onContext hcontext with
  | rest =>
    obtain ⟨waits, same, alive⟩ := h.alive_onWorld calm.1 h.waits rfl hworld
    exact ⟨consistent, waits, same ▸ h.trapped, alive⟩
  | move event stage nc next answers =>
    have unreturned : event ≠ .waitReturns := by
      rintro rfl
      cases NetworkContext.steps_of_step answers with
      | waitReturns waiting done => exact h.trapped.not_done h.consistent.lifecycle done
    obtain ⟨waits, unforced, started⟩ := h.waits.onContext next unreturned
    obtain ⟨waits', same, alive⟩ :=
      h.alive_onWorld (u := { s with stage := stage, nc := nc }) calm.1 waits rfl hworld
    have busy : nc.outstanding ≠ 0 := by
      have pending := alive.pending_ne_zero
      have held : t.world.pending ≤ nc.held := by
        rw [same] at held
        exact held
      exact NetworkContext.outstanding_ne_zero_of_held (by omega)
    refine ⟨consistent, waits', ?_, alive⟩
    rw [same]
    exact h.trapped.step idle busy unforced started (fun heq => quiet (congrArg some heq)) answers

/-! ### Runs -/

theorem consistent_of_run {world : σ} {interval i : ℕ} {labels : List (Label Event Choice)}
    {s : ServerMain σ} (meets : (machine sim thread_count world interval).Meets (Calm i) labels)
    (run : (machine sim thread_count world interval).run labels = some s) : s.Consistent := by
  refine Machine.guarded_induction (Calm i) (motive := fun _ s => s.Consistent) ?_ ?_ meets run
  · refine ⟨NetworkContext.lifecycle_init, fun state hstate => ?_, ?_, fun _ => rfl,
      Nat.zero_le _⟩
    · cases hstate
      exact ⟨rfl, rfl, rfl, rfl⟩
    · have constructed : (TickLoop.machine sim world interval).run [] =
          some { world := world, tick_interval_ := interval } := rfl
      exact TickLoop.sound_of_run sim constructed List.not_mem_nil
  · exact fun labels s label t _ _ h calm hstep => h.step calm.1 hstep

/-- Once the world runs and some thread is inside `run`, `main` never gets to stop the world: its
`wait` for the context does not return, as the tick loop goes on and keeps that thread busy. Only
a failing timer or a handler that throws in the thread could end this. -/
theorem never_waited_of_run {world : σ} {interval i : ℕ} {before after : List (Label Event Choice)}
    {s t : ServerMain σ}
    (meets : (machine sim thread_count world interval).Meets (Calm i) (before ++ after))
    (run : (machine sim thread_count world interval).run before = some s)
    (serving : s.stage = .serving) (running : s.world.state_ = .Running)
    (inside : ∃ w, s.nc.worker_threads_[i]? = some w ∧ w.inside = true)
    (later : (machine sim thread_count world interval).run (before ++ after) = some t) :
    t.stage ≠ .waited ∧ t.stage ≠ .worldStopped ∧ t.world.state_ = .Running ∧
      ∃ w, t.nc.worker_threads_[i]? = some w ∧ w.inside = true := by
  have hung : t.Hung i := by
    induction after using List.reverseRecOn generalizing t with
    | nil =>
      rw [List.append_nil, run] at later
      obtain rfl := Option.some.inj later
      have consistent := consistent_of_run meets.of_append run
      have fresh := consistent.fresh .Started (by rw [serving]; rfl)
      obtain ⟨w, hw, hinside⟩ := inside
      refine ⟨consistent, .inl serving, ⟨fresh.stopped, w, hw, hinside, fun rolledBack => ?_⟩,
        ⟨consistent.sound, running, consistent.overtookStart fun h => ?_⟩⟩
      · have lawful := consistent.lifecycle.threads w (List.mem_of_getElem? hw)
        rcases (lawful.rolledBack rolledBack).1 with stopped | joined
        · cases fresh.state_.symm.trans stopped
        · cases fresh.state_.symm.trans joined
      · cases serving.symm.trans h
    | append_singleton after label ih =>
      rw [← List.append_assoc] at meets later
      obtain ⟨u, hu, hstep⟩ := Machine.run_concat.mp later
      exact (ih meets.of_append hu).step (meets.last hu) hstep
  obtain ⟨w, hw, hinside, -⟩ := hung.trapped.worker
  refine ⟨fun h => ?_, fun h => ?_, hung.alive.running, w, hw, hinside⟩
  · rcases hung.waits with hs | hs | hs | hs <;> cases hs.symm.trans h
  · rcases hung.waits with hs | hs | hs | hs <;> cases hs.symm.trans h

deriving instance DecidableEq for TickLoop.Label

instance (s : ServerMain Unit) (label : Label Unit Unit) : Decidable (Calm 0 s label) :=
  inferInstanceAs (Decidable (label.world ≠ some .waitFails ∧
    (label.context = some (.worker 0) → s.nc.throwsNext 0 = false)))

/-- One thread takes up the handler that starts the world. -/
def servingOne : List (Label Unit Unit) :=
  [⟨some .start, none⟩, ⟨some .threadStarts, none⟩, ⟨some .startReturns, none⟩,
    ⟨some (.post false), some .start⟩, ⟨some (.worker 0), none⟩, ⟨some (.worker 0), none⟩,
    ⟨some (.worker 0), none⟩, ⟨some .operationStarts, some (.runPosted 0)⟩,
    ⟨some (.worker 0), none⟩]

/-- The operator stops the server; ticks go on while `main` waits. -/
def tickWhileWaiting : List (Label Unit Unit) :=
  [⟨some .stop, none⟩, ⟨some .requestStop, none⟩, ⟨some .stopReturns, none⟩,
    ⟨some .wait, none⟩, ⟨some .join_workers, none⟩, ⟨none, some (.clockAdvances 50000000)⟩,
    ⟨some (.operationCompletes false), some .waitElapses⟩, ⟨some (.worker 0), none⟩,
    ⟨some .operationStarts, some (.runCompletion 0 0 ())⟩, ⟨some (.worker 0), none⟩]

theorem never_waited_tickWhileWaiting : ∃ t : ServerMain Unit,
    (machine TickLoop.stillWorld 1 () 50000).run (servingOne ++ tickWhileWaiting) = some t ∧
      t.stage = .waiting ∧ t.world.current_tick_ = 1 ∧ t.world.state_ = .Running := by
  have meets : (machine TickLoop.stillWorld 1 () 50000).Meets (Calm 0)
      (servingOne ++ tickWhileWaiting) := Machine.meets_of_checks (by decide +kernel)
  have before : ∃ s ∈ (machine TickLoop.stillWorld 1 () 50000).run servingOne,
      s.stage = .serving ∧ s.world.state_ = .Running ∧
        ∃ w ∈ s.nc.worker_threads_[0]?, w.inside = true := by
    decide +kernel
  have after : ∃ t ∈ (machine TickLoop.stillWorld 1 () 50000).run
      (servingOne ++ tickWhileWaiting), t.stage = .waiting ∧ t.world.current_tick_ = 1 := by
    decide +kernel
  obtain ⟨s, run, serving, running, w, hw, inside⟩ := before
  obtain ⟨t, later, waiting, ticked⟩ := after
  obtain ⟨-, -, ticking, -⟩ :=
    never_waited_of_run meets run serving running ⟨w, hw, inside⟩ later
  exact ⟨t, later, waiting, ticked, ticking⟩

end ServerMain

end SpaceShooter.Server
