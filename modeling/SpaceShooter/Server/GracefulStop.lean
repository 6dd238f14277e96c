/-
# The graceful stop drains the queue

A handler that was posted is executed, queued or in the hands of a worker. After `stop` has
told the threads to stop, one that is outside of `run` never enters it again, so the queue is
drained as long as some worker is inside; a handler that throws takes its worker out.
-/

import SpaceShooter.Server.NetworkContext

namespace SpaceShooter.Server

open Library

namespace NetworkContext

/-- Every handler that was posted before `stop` has been executed. -/
def Drained (ctx : NetworkContext) : Prop :=
  ∀ handler ∈ ctx.posted_before_stop, handler ∈ ctx.executed

/-- No handler that was posted before `stop` waits for a worker. -/
def Exhausted (ctx : NetworkContext) : Prop :=
  ∀ handler ∈ ctx.queue, handler ∉ ctx.posted_before_stop

instance (ctx : NetworkContext) : Decidable ctx.Drained := by
  unfold Drained
  infer_instance

instance (ctx : NetworkContext) : Decidable ctx.Exhausted := by
  unfold Exhausted
  infer_instance

/-- The next step of this thread is a handler's exception. -/
def throwsNext (ctx : NetworkContext) (i : ℕ) : Bool :=
  (ctx.worker_threads_[i]?).any fun w => w.handler?.any Handler.throws

/-- When `stop` returns, and whenever a handler throws after it, nothing that was posted before
`stop` is left in the queue, or a worker is inside `run` to take it. -/
def KeepsDraining (ctx : NetworkContext) : Label → Prop
  | .stopReturns => ctx.Exhausted ∨ ctx.worker_threads_.any Worker.inside = true
  | .worker i => ctx.stopping = none → ctx.throwsNext i = true →
      ctx.Exhausted ∨ (ctx.worker_threads_.eraseIdx i).any Worker.inside = true
  | _ => True

instance (ctx : NetworkContext) (a : Label) : Decidable (ctx.KeepsDraining a) := by
  cases a <;> unfold KeepsDraining <;> infer_instance

/-- Every handler that was posted is accounted for. -/
def Conserved (ctx : NetworkContext) : Prop :=
  ∀ handler ∈ ctx.posted, handler ∈ ctx.executed ∨ handler ∈ ctx.queue ∨
    ∃ w ∈ ctx.worker_threads_, w.handler? = some handler

/-- The invariant of a context that no `force_stop` reaches. -/
structure Draining (ctx : NetworkContext) : Prop where
  guarded : ctx.state_ = .NotStarted ∨ ctx.state_ = .Started →
    ctx.work_guard_ = true ∧ ctx.stopped = false
  conserved : ctx.Conserved
  recorded : ∀ handler ∈ ctx.posted_before_stop, handler ∈ ctx.posted
  stopped : ctx.stopped = true → ctx.Drained
  manned : ctx.stopping = none → ctx.Drained ∨ ∃ w ∈ ctx.worker_threads_, w.inside = true

variable {ctx ctx' : NetworkContext} {thread_count : ℕ}

theorem draining_init : Draining {} where
  guarded := fun _ => ⟨rfl, rfl⟩
  conserved := fun _ h => by cases h
  recorded := fun _ h => by cases h
  stopped := fun h => by cases h
  manned := fun _ => .inl fun _ h => by cases h

theorem drained_of_none (h : ctx.posted_before_stop = []) : ctx.Drained := by
  intro handler hhandler
  rw [h] at hhandler
  cases hhandler

theorem Worker.inside_of_handler? {w : Worker} {handler : Handler}
    (h : w.handler? = some handler) : w.inside = true := by
  unfold Worker.handler? at h
  unfold Worker.inside
  split at h
  · next hposition => rw [hposition]
  · cases h

@[simp] theorem Worker.position_requestStop (w : Worker) :
    w.requestStop.position = w.position := by
  unfold Worker.requestStop
  split <;> rfl

@[simp] theorem Worker.position_moveTo (owner : Owner) (w : Worker) :
    (w.moveTo owner).position = w.position := by
  unfold Worker.moveTo
  split <;> rfl

/-- With nothing left in the queue, what is not executed is in the hands of a worker. -/
theorem drained_or_manned (hconserved : ctx.Conserved)
    (hrecorded : ∀ handler ∈ ctx.posted_before_stop, handler ∈ ctx.posted)
    (hexhausted : ctx.Exhausted) :
    ctx.Drained ∨ ∃ w ∈ ctx.worker_threads_, w.inside = true := by
  by_cases hdrained : ctx.Drained
  · exact .inl hdrained
  · obtain ⟨handler, hbefore, hexecuted⟩ := not_forall₂.mp hdrained
    rcases hconserved handler (hrecorded handler hbefore) with h | h | ⟨w, hw, hhandler⟩
    · exact absurd h hexecuted
    · exact absurd hbefore (hexhausted handler h)
    · exact .inr ⟨w, hw, Worker.inside_of_handler? hhandler⟩

/-- An `io_context` out of work has executed everything. -/
theorem drained_of_outstanding (hconserved : ctx.Conserved)
    (hrecorded : ∀ handler ∈ ctx.posted_before_stop, handler ∈ ctx.posted)
    (h : ctx.outstanding = 0) : ctx.Drained := by
  unfold outstanding at h
  have hqueue : ctx.queue = [] := List.eq_nil_of_length_eq_zero (by omega)
  have hworkers : ctx.worker_threads_.countP (·.handler?.isSome) = 0 := by omega
  rw [List.countP_eq_zero] at hworkers
  intro handler hbefore
  rcases hconserved handler (hrecorded handler hbefore) with hmem | hmem | ⟨w, hw, hhandler⟩
  · exact hmem
  · rw [hqueue] at hmem
    cases hmem
  · refine absurd ?_ (hworkers w hw)
    rw [hhandler]
    rfl

theorem outstanding_ne_zero (hguard : ctx.work_guard_ = true) : ctx.outstanding ≠ 0 := by
  rw [outstanding, if_pos hguard]
  omega

theorem Draining.workFinished (hdrain : Draining ctx) : Draining ctx.workFinished := by
  rw [workFinished_eq]
  refine ⟨fun h => ?_, hdrain.conserved, hdrain.recorded, fun h => ?_, hdrain.manned⟩
  · obtain ⟨hguard, hstopped⟩ := hdrain.guarded h
    refine ⟨hguard, ?_⟩
    rw [hstopped, Bool.false_or, decide_eq_false_iff_not]
    exact outstanding_ne_zero hguard
  · rcases Bool.or_eq_true_iff.mp h with h | h
    · exact hdrain.stopped h
    · exact drained_of_outstanding hdrain.conserved hdrain.recorded (of_decide_eq_true h)

/-- The threads are told or moved on, and no position changes. -/
theorem Draining.of_threads (hdrain : Draining ctx) {workers : List Worker}
    (h : workers.map Worker.position = ctx.worker_threads_.map Worker.position) :
    Draining { ctx with worker_threads_ := workers } := by
  have hkept : ∀ w ∈ ctx.worker_threads_, ∃ v ∈ workers, v.position = w.position := by
    intro w hw
    have := List.mem_map_of_mem (f := Worker.position) hw
    rw [← h] at this
    exact List.mem_map.mp this
  refine ⟨hdrain.guarded, fun handler hhandler => ?_, hdrain.recorded, hdrain.stopped,
    fun hstopping => ?_⟩
  · rcases hdrain.conserved handler hhandler with hmem | hmem | ⟨w, hw, hheld⟩
    · exact .inl hmem
    · exact .inr (.inl hmem)
    · obtain ⟨v, hv, hposition⟩ := hkept w hw
      refine .inr (.inr ⟨v, hv, ?_⟩)
      rw [← hheld, Worker.handler?, Worker.handler?, hposition]
  · rcases hdrain.manned hstopping with hdrained | ⟨w, hw, hinside⟩
    · exact .inl hdrained
    · obtain ⟨v, hv, hposition⟩ := hkept w hw
      refine .inr ⟨v, hv, ?_⟩
      rw [← hinside, Worker.inside, Worker.inside, hposition]

theorem map_position_modify (workers : List Worker) {f : Worker → Worker} (i : ℕ)
    (hf : ∀ w, (f w).position = w.position) :
    (workers.modify i f).map Worker.position = workers.map Worker.position := by
  refine List.ext_getElem? fun j => ?_
  rw [List.getElem?_map, List.getElem?_map, List.getElem?_modify]
  cases workers[j]? with
  | none => split_ifs <;> rfl
  | some w => split_ifs <;> simp [hf]

/-! ### Where a worker is placed -/

theorem mem_place_self {i : ℕ} {w : Worker} (hw : ctx.worker_threads_[i]? = some w)
    (position : Position) :
    { w with position := position } ∈ (ctx.place i position).worker_threads_ := by
  refine List.mem_of_getElem? (i := i) ?_
  rw [getElem?_place, if_pos rfl, hw]
  rfl

theorem mem_place_of_ne {i j : ℕ} {v : Worker} (hv : ctx.worker_threads_[j]? = some v)
    (hne : i ≠ j) (position : Position) : v ∈ (ctx.place i position).worker_threads_ := by
  refine List.mem_of_getElem? (i := j) ?_
  rw [getElem?_place, if_neg hne, hv]

/-- A thread is the one that was placed or still there. -/
theorem mem_place_or {i : ℕ} {v w : Worker} (hv : v ∈ ctx.worker_threads_)
    (hw : ctx.worker_threads_[i]? = some w) (position : Position) :
    v = w ∨ v ∈ (ctx.place i position).worker_threads_ := by
  obtain ⟨j, hj⟩ := List.mem_iff_getElem?.mp hv
  by_cases hij : i = j
  · obtain rfl := hij
    exact .inl (Option.some.inj (hj.symm.trans hw))
  · exact .inr (mem_place_of_ne hj hij position)

/-- The other workers are still inside. -/
theorem manned_of_eraseIdx {i : ℕ} {position : Position}
    (h : (ctx.worker_threads_.eraseIdx i).any Worker.inside = true) :
    ∃ w ∈ (ctx.place i position).worker_threads_, w.inside = true := by
  obtain ⟨w, hw, hinside⟩ := List.any_eq_true.mp h
  obtain ⟨j, hne, hj⟩ := List.mem_eraseIdx_iff_getElem?.mp hw
  exact ⟨w, mem_place_of_ne hj (Ne.symm hne) position, hinside⟩

/-- A worker outside of any handler moves, and stays inside if it was. -/
theorem Draining.place (hdrain : Draining ctx) {i : ℕ} {w : Worker} {position : Position}
    (hw : ctx.worker_threads_[i]? = some w) (hfree : w.handler? = none)
    (hinside : w.inside = true → ctx.Drained ∨
      ({ w with position := position } : Worker).inside = true) :
    Draining (ctx.place i position) := by
  refine ⟨hdrain.guarded, fun handler hhandler => ?_, hdrain.recorded, hdrain.stopped,
    fun hstopping => ?_⟩
  · rcases hdrain.conserved handler hhandler with hmem | hmem | ⟨v, hv, hheld⟩
    · exact .inl hmem
    · exact .inr (.inl hmem)
    · rcases mem_place_or hv hw position with rfl | hv
      · rw [hfree] at hheld
        cases hheld
      · exact .inr (.inr ⟨v, hv, hheld⟩)
  · rcases hdrain.manned hstopping with hdrained | ⟨v, hv, hin⟩
    · exact .inl hdrained
    · rcases mem_place_or hv hw position with rfl | hv
      · exact (hinside hin).imp_right fun h => ⟨_, mem_place_self hw position, h⟩
      · exact .inr ⟨v, hv, hin⟩

/-- A worker takes the first handler of the queue. -/
theorem Draining.take (hdrain : Draining ctx) {i n : ℕ} {w : Worker} {handler : Handler}
    {queue : List Handler} (hw : ctx.worker_threads_[i]? = some w)
    (hfree : w.handler? = none) (hqueue : ctx.queue = handler :: queue) :
    Draining ({ ctx with queue := queue }.place i (.executing handler n)) := by
  have hself := mem_place_self hw (.executing handler n)
  refine ⟨hdrain.guarded, fun posted hposted => ?_, hdrain.recorded, hdrain.stopped,
    fun _ => .inr ⟨_, hself, rfl⟩⟩
  rcases hdrain.conserved posted hposted with hmem | hmem | ⟨v, hv, hheld⟩
  · exact .inl hmem
  · rw [hqueue] at hmem
    rcases List.mem_cons.mp hmem with rfl | hmem
    · exact .inr (.inr ⟨_, hself, rfl⟩)
    · exact .inr (.inl hmem)
  · rcases mem_place_or hv hw (.executing handler n) with rfl | hv
    · rw [hfree] at hheld
      cases hheld
    · exact .inr (.inr ⟨v, hv, hheld⟩)

/-- A handler ends, and its worker stays inside or leaves with its exception. -/
theorem Draining.execute (hdrain : Draining ctx) {i n : ℕ} {w : Worker} {handler : Handler}
    (hw : ctx.worker_threads_[i]? = some w) (hposition : w.position = .executing handler n)
    (hkeeps : ctx.KeepsDraining (.worker i)) :
    Draining ({ ctx with executed := ctx.executed ++ [handler] }.place i
      (if handler.throws then .checking else .running (n + 1))) := by
  have hheld : w.handler? = some handler := by rw [Worker.handler?, hposition]
  generalize hplaced : { ctx with executed := ctx.executed ++ [handler] }.place i
    (if handler.throws then .checking else .running (n + 1)) = placed
  have hconserved : placed.Conserved := by
    subst hplaced
    intro posted hposted
    rcases hdrain.conserved posted hposted with hmem | hmem | ⟨v, hv, hheld'⟩
    · exact .inl (List.mem_append_left _ hmem)
    · exact .inr (.inl hmem)
    · rcases mem_place_or hv hw (if handler.throws then .checking else .running (n + 1))
        with rfl | hv
      · obtain rfl := Option.some.inj (hheld.symm.trans hheld')
        exact .inl (List.mem_append_right _ (List.mem_singleton_self _))
      · exact .inr (.inr ⟨v, hv, hheld'⟩)
  have hdrained : ctx.Drained → placed.Drained := by
    subst hplaced
    exact fun h posted hposted => List.mem_append_left _ (h posted hposted)
  have hrecorded : ∀ handler ∈ placed.posted_before_stop, handler ∈ placed.posted := by
    subst hplaced
    exact hdrain.recorded
  refine ⟨?_, hconserved, hrecorded, fun h => ?_, fun hstopping => ?_⟩
  · subst hplaced
    exact hdrain.guarded
  · subst hplaced
    exact hdrained (hdrain.stopped h)
  · by_cases hthrows : handler.throws = true
    · have hnext : ctx.throwsNext i = true := by
        rw [throwsNext, hw, Option.any_some, hheld, Option.any_some, hthrows]
      subst hplaced
      -- The worker leaves `run`, so the guard provides for the queue.
      rcases hkeeps hstopping hnext with hexhausted | hother
      · exact drained_or_manned hconserved hrecorded hexhausted
      · exact .inr (manned_of_eraseIdx hother)
    · subst hplaced
      refine .inr ⟨_, mem_place_self hw _, ?_⟩
      rw [if_neg hthrows]
      rfl

theorem Draining.advance (hdrain : Draining ctx) {i : ℕ} {w : Worker}
    (hw : ctx.worker_threads_[i]? = some w) (hkeeps : ctx.KeepsDraining (.worker i))
    (h : ctx.advance i w = some ctx') : Draining ctx' := by
  unfold NetworkContext.advance at h
  split at h
  · next hposition =>
    obtain rfl := Option.some.inj h
    refine hdrain.place hw ?_ fun hinside => ?_
    · rw [Worker.handler?, hposition]
    · rw [Worker.inside, hposition] at hinside
      cases hinside
  · next hposition =>
    have hfree : w.handler? = none := by rw [Worker.handler?, hposition]
    split at h
    · next hidle =>
      obtain rfl := Option.some.inj h
      -- Without outstanding work nothing is left in the queue or at work.
      have hdrained := drained_of_outstanding hdrain.conserved hdrain.recorded hidle
      have hstopped : Draining { ctx with stopped := true } :=
        ⟨fun hstate => absurd hidle (outstanding_ne_zero (hdrain.guarded hstate).1),
          hdrain.conserved, hdrain.recorded, fun _ => hdrained, hdrain.manned⟩
      exact hstopped.place hw hfree fun _ => .inl hdrained
    · obtain rfl := Option.some.inj h
      exact hdrain.place hw hfree fun _ => .inr rfl
  · next n hposition =>
    have hfree : w.handler? = none := by rw [Worker.handler?, hposition]
    split at h
    · next hstopped =>
      obtain rfl := Option.some.inj h
      exact hdrain.place hw hfree fun _ => .inl (hdrain.stopped hstopped)
    · split at h
      · cases h
      · next handler queue hqueue =>
        obtain rfl := Option.some.inj h
        exact hdrain.take hw hfree hqueue
  · next handler n hposition =>
    obtain rfl := Option.some.inj h
    -- The handler ends as executed, whether or not it throws.
    exact (hdrain.execute hw hposition hkeeps).workFinished
  · next n hposition =>
    obtain rfl := Option.some.inj h
    refine hdrain.place hw ?_ fun hinside => ?_
    · rw [Worker.handler?, hposition]
    · rw [Worker.inside, hposition] at hinside
      cases hinside
  · next hposition =>
    obtain rfl := Option.some.inj h
    refine hdrain.place hw ?_ fun hinside => ?_
    · rw [Worker.handler?, hposition]
    · rw [Worker.inside, hposition] at hinside
      cases hinside
  · cases h

theorem Draining.enqueue (hdrain : Draining ctx) (throws : Bool) :
    Draining (ctx.enqueue throws) := by
  refine ⟨hdrain.guarded, fun handler hhandler => ?_, fun handler hhandler => ?_,
    hdrain.stopped, hdrain.manned⟩
  · rcases List.mem_append.mp hhandler with hmem | hmem
    · rcases hdrain.conserved handler hmem with h | h | h
      · exact .inl h
      · exact .inr (.inl (List.mem_append_left _ h))
      · exact .inr (.inr h)
    · exact .inr (.inl (List.mem_append_right _ hmem))
  · exact List.mem_append_left _ (hdrain.recorded handler hhandler)

/-- From here on the handlers that have been posted are to be executed. -/
theorem Draining.stop (hdrain : Draining ctx) : Draining ctx.stop := by
  unfold NetworkContext.stop
  split
  · exact hdrain
  · next hstate =>
    obtain ⟨-, hstopped⟩ := hdrain.guarded (.inr (not_not.mp hstate))
    refine Draining.workFinished ⟨?_, hdrain.conserved, fun _ h => h, fun h => ?_,
      fun h => by cases h⟩
    · rintro (h | h) <;> cases h
    · rw [hstopped] at h
      cases h

/-- The pool gives up before anything could be recorded. -/
theorem Draining.rollBack (hdrain : Draining ctx) (hbefore : ctx.posted_before_stop = []) :
    Draining ctx.rollBack := by
  have hpositions : (ctx.worker_threads_.map fun w => w.requestStop.moveTo .starter).map
      Worker.position = ctx.worker_threads_.map Worker.position := by simp
  have hthreads := hdrain.of_threads hpositions
  have hdrained : ctx.Drained := drained_of_none hbefore
  refine ⟨?_, hthreads.conserved, hthreads.recorded, fun _ => hdrained, fun _ => .inl hdrained⟩
  rintro (h | h) <;> cases h

theorem Draining.step (hdrain : Draining ctx) (hlife : Lifecycle ctx) {a : Label}
    (hforce : a ≠ .force_stop) (hkeeps : ctx.KeepsDraining a)
    (h : NetworkContext.step thread_count ctx a = some ctx') : Draining ctx' := by
  cases steps_of_step h with
  | start locked hstate =>
    exact ⟨fun _ => hdrain.guarded (.inl hstate), hdrain.conserved, hdrain.recorded,
      hdrain.stopped, hdrain.manned⟩
  | startAgain => exact hdrain
  | threadStarts hstarting room =>
    have hdrained : ctx.Drained := drained_of_none (hlife.creating hstarting).2
    refine ⟨hdrain.guarded, fun handler hhandler => ?_, hdrain.recorded, hdrain.stopped,
      fun _ => .inl hdrained⟩
    rcases hdrain.conserved handler hhandler with hmem | hmem | ⟨w, hw, hheld⟩
    · exact .inl hmem
    · exact .inr (.inl hmem)
    · exact .inr (.inr ⟨w, List.mem_append_left _ hw, hheld⟩)
  | threadFails hstarting room => exact hdrain.rollBack (hlife.creating hstarting).2
  | stop => exact hdrain.stop
  | force_stop => exact absurd rfl hforce
  | requestStop n =>
    have hpositions := map_position_modify ctx.worker_threads_ n Worker.position_requestStop
    have htold := hdrain.of_threads hpositions
    exact ⟨htold.guarded, htold.conserved, htold.recorded, htold.stopped, fun h => by cases h⟩
  | stopReturns =>
    refine ⟨hdrain.guarded, hdrain.conserved, hdrain.recorded, hdrain.stopped, fun _ => ?_⟩
    -- The stop returns when the work is done, or with a worker in `run`.
    rcases hkeeps with hexhausted | hinside
    · exact drained_or_manned hdrain.conserved hdrain.recorded hexhausted
    · exact .inr (List.any_eq_true.mp hinside)
  | join_workers =>
    have hpositions : (ctx.worker_threads_.map (Worker.moveTo .joiner)).map Worker.position =
        ctx.worker_threads_.map Worker.position := by simp
    have hmoved := hdrain.of_threads hpositions
    refine ⟨?_, hmoved.conserved, hmoved.recorded, hmoved.stopped, hmoved.manned⟩
    rintro (h | h) <;> cases h
  | threadJoined i => exact hdrain.of_threads (map_position_modify _ i fun _ => rfl)
  | post throws => exact hdrain.enqueue throws
  | operationCompletes throws =>
    have hcompleted : Draining { ctx with operations := ctx.operations - 1 } :=
      ⟨hdrain.guarded, hdrain.conserved, hdrain.recorded, hdrain.stopped, hdrain.manned⟩
    exact hcompleted.enqueue throws
  | worker i w _ hw hadvance => exact hdrain.advance hw hkeeps hadvance
  | startReturns | wait | joinsReturn | waitReturns | operationStarts =>
    exact ⟨hdrain.guarded, hdrain.conserved, hdrain.recorded, hdrain.stopped, hdrain.manned⟩

/-! ### Runs -/

theorem draining_of_run {n : ℕ} {labels : List Label} (hforce : .force_stop ∉ labels)
    (hmeets : (machine n).Meets KeepsDraining labels)
    (hrun : (machine n).run labels = some ctx) : Draining ctx := by
  refine Machine.guarded_induction KeepsDraining
    (motive := fun labels ctx => .force_stop ∉ labels → Draining ctx)
    (fun _ => draining_init) ?_ hmeets hrun hforce
  intro labels s a t hs _ ih hkeeps hstep hforce
  rw [List.mem_append, List.mem_singleton, not_or] at hforce
  exact (ih hforce.1).step (lifecycle_of_run hs) (Ne.symm hforce.2) hkeeps hstep

/-- When `wait` returns, every thread is out of `run` or belonged to a failed `start`. -/
theorem Lifecycle.drained_of_returned (hlife : Lifecycle ctx) (hdrain : Draining ctx)
    (hdone : ctx.join_flag_ = .done) : ctx.Drained := by
  have hstate : ctx.state_ = .Joined := hlife.flagged (by rw [hdone]; decide)
  rcases hdrain.manned (hlife.untold hstate) with hdrained | ⟨w, hw, hinside⟩
  · exact hdrained
  · have hlawful := hlife.threads w hw
    cases howner : w.owner with
    | context => exact absurd howner (hlawful.taken hstate)
    | joiner =>
      have hexited := hlawful.exited (hlawful.returned hdone howner)
      rw [Worker.inside, hexited] at hinside
      cases hinside
    | starter => exact drained_of_none (hlawful.rolledBack howner).2

/-- Without `force_stop`, every handler posted before `stop` has been executed when `wait`
returns, in the runs that always leave a worker for the queue. -/
theorem drained_of_waitReturns {n : ℕ} {labels : List Label} (hforce : .force_stop ∉ labels)
    (hmeets : (machine n).Meets KeepsDraining labels)
    (hrun : (machine n).run (labels ++ [.waitReturns]) = some ctx) :
    ∀ handler ∈ ctx.posted_before_stop, handler ∈ ctx.executed := by
  obtain ⟨before, hbefore, hstep⟩ := Machine.run_concat.mp hrun
  simp only [machine, NetworkContext.step] at hstep
  split_ifs at hstep with hguard
  obtain rfl := Option.some.inj hstep
  exact (lifecycle_of_run hbefore).drained_of_returned
    (draining_of_run hforce hmeets hbefore) hguard.2

/-- A worker that is inside `run` when `stop` is called. -/
def promptWorker : List Label :=
  [.start, .threadStarts, .startReturns, .worker 0, .worker 0, .post false, .post true,
    .stop, .requestStop, .stopReturns, .worker 0, .worker 0, .worker 0, .worker 0, .worker 0,
    .wait, .join_workers, .threadJoined 0, .joinsReturn]

theorem drained_promptWorker :
    ∃ ctx, (machine 1).run (promptWorker ++ [.waitReturns]) = some ctx ∧
      ctx.posted_before_stop.length = 2 ∧
      ∀ handler ∈ ctx.posted_before_stop, handler ∈ ctx.executed :=
  ⟨_, rfl, rfl, @drained_of_waitReturns _ 1 promptWorker (by decide)
    (Machine.meets_of_checks (by decide)) rfl⟩

/-- A worker that is delayed before its loop until `stop` has told it to stop. -/
def delayedWorker : List Label :=
  [.start, .threadStarts, .startReturns, .post false, .stop, .requestStop, .stopReturns,
    .worker 0, .wait, .join_workers, .threadJoined 0, .joinsReturn]

theorem not_drained_delayedWorker :
    ¬ ∀ (n : ℕ) (labels : List Label) (ctx : NetworkContext), .force_stop ∉ labels →
      (machine n).run (labels ++ [.waitReturns]) = some ctx →
      ∀ handler ∈ ctx.posted_before_stop, handler ∈ ctx.executed := by
  intro h
  have := h 1 delayedWorker _ (by decide) rfl
  revert this
  decide

end NetworkContext

end SpaceShooter.Server
