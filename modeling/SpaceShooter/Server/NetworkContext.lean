/-
# The network context

An `io_context` served by a pool of threads. Any thread may call `start`, `stop`,
`force_stop` and `wait`, and a worker moves by single steps of its loop, so it may be
delayed at every point of it. A section under the mutex is one step, except for the loops
over the threads: `start` creates them and the two stops tell them one by one, while the
workers run.
-/

import SpaceShooter.Library.Machine

namespace SpaceShooter.Server

open Library

namespace NetworkContext

inductive State
  | NotStarted
  | Started
  | Stopped
  | Joined
  deriving DecidableEq, Repr

/-- A handler in the queue of the `io_context`: when it was posted and whether it throws. -/
structure Handler where
  ticket : ℕ
  throws : Bool
  deriving DecidableEq, Repr

/-- Where a worker stands in `worker_loop`. -/
inductive Position
  /-- At the test of the loop. -/
  | looping
  /-- About to call `run`. -/
  | entering
  /-- In `run`, after some handlers. -/
  | running (n : ℕ)
  | executing (handler : Handler) (n : ℕ)
  /-- Back from `run` with its result. -/
  | returned (n : ℕ)
  /-- At the test after `run` has returned or thrown. -/
  | checking
  | exited
  deriving DecidableEq, Repr

/-- Whose vector holds a thread: the context's, that of the thread in `join_workers`, or that
of a failed `start`. -/
inductive Owner
  | context
  | joiner
  | starter
  deriving DecidableEq, Repr

structure Worker where
  position : Position := .looping
  stop_requested : Bool := false
  owner : Owner := .context
  joined : Bool := false
  deriving DecidableEq, Repr

/-- The state of `join_flag_`. -/
inductive Once
  | idle
  | active
  | done
  deriving DecidableEq, Repr

/-- A worker past the test of its loop that has not come back from `run`. -/
def Worker.inside (w : Worker) : Bool :=
  match w.position with
  | .entering | .running _ | .executing _ _ => true
  | _ => false

def Worker.handler? (w : Worker) : Option Handler :=
  match w.position with
  | .executing handler _ => some handler
  | _ => none

/-- `request_stop` on the threads of the context's own vector. -/
def Worker.requestStop (w : Worker) : Worker :=
  if w.owner = .context then { w with stop_requested := true } else w

/-- Moving the threads out of the context's vector. -/
def Worker.moveTo (owner : Owner) (w : Worker) : Worker :=
  if w.owner = .context then { w with owner := owner } else w

end NetworkContext

open NetworkContext in
structure NetworkContext where
  state_ : State := .NotStarted
  /-- `start` holds the mutex and creates threads. -/
  starting : Bool := false
  /-- A stop holds the mutex and has told this many threads. -/
  stopping : Option ℕ := none
  worker_threads_ : List Worker := []
  work_guard_ : Bool := true
  /-- The `io_context` is stopped. -/
  stopped : Bool := false
  queue : List Handler := []
  /-- Asynchronous operations under way. -/
  operations : ℕ := 0
  join_flag_ : Once := .idle
  /-- Threads that passed the checks of `wait`. -/
  waiting : ℕ := 0
  /-- History: every handler that was posted. -/
  posted : List Handler := []
  /-- History: the handlers that had been posted when `stop` took effect. -/
  posted_before_stop : List Handler := []
  /-- History: the handlers that were run, in the order they ended. -/
  executed : List Handler := []
  deriving DecidableEq, Repr

namespace NetworkContext

inductive Label
  | start
  | threadStarts
  | threadFails
  | startReturns
  | stop
  | force_stop
  /-- A stop tells the next thread. -/
  | requestStop
  | stopReturns
  | wait
  /-- The locked section of `join_workers`. -/
  | join_workers
  | threadJoined (i : ℕ)
  | joinsReturn
  | waitReturns
  | post (throws : Bool)
  | operationStarts
  | operationCompletes (throws : Bool)
  | worker (i : ℕ)
  deriving DecidableEq, Repr

/-- What keeps `run` from returning. -/
def outstanding (ctx : NetworkContext) : ℕ :=
  (if ctx.work_guard_ then 1 else 0) + ctx.queue.length + ctx.operations +
    ctx.worker_threads_.countP (·.handler?.isSome)

/-- Work has finished: the `io_context` stops when there is none left. -/
def workFinished (ctx : NetworkContext) : NetworkContext :=
  if ctx.outstanding = 0 then { ctx with stopped := true } else ctx

def place (ctx : NetworkContext) (i : ℕ) (position : Position) : NetworkContext :=
  { ctx with
    worker_threads_ := ctx.worker_threads_.modify i fun w => { w with position := position } }

/-- Some thread is in a section under the mutex. -/
def locked (ctx : NetworkContext) : Bool :=
  ctx.starting || ctx.stopping.isSome

/-- `stop` up to its loop over the threads. -/
def stop (ctx : NetworkContext) : NetworkContext :=
  if ctx.state_ ≠ .Started then
    ctx
  else
    -- With nothing left to do, the reset of the guard stops the `io_context`.
    workFinished { ctx with
      state_ := .Stopped, work_guard_ := false, stopping := some 0
      posted_before_stop := ctx.posted }

/-- `force_stop` up to its loop over the threads. -/
def force_stop (ctx : NetworkContext) : NetworkContext :=
  if ctx.state_ = .NotStarted ∨ ctx.state_ = .Joined then
    ctx
  else
    { ctx with state_ := .Stopped, stopped := true, work_guard_ := false, stopping := some 0 }

/-- The rollback of a `start` that cannot create a thread. -/
def rollBack (ctx : NetworkContext) : NetworkContext :=
  { ctx with
    worker_threads_ :=
      ctx.worker_threads_.map fun w => w.requestStop.moveTo .starter
    stopped := true
    state_ := .Stopped
    starting := false }

/-- The locked section of `join_workers`. The threads have all been asked to stop by then, so
that their destructors only join them. -/
def join_workers (ctx : NetworkContext) : NetworkContext :=
  { ctx with
    worker_threads_ := ctx.worker_threads_.map (Worker.moveTo .joiner)
    state_ := .Joined
    join_flag_ := .active }

/-- A handler enters the queue. -/
def enqueue (ctx : NetworkContext) (throws : Bool) : NetworkContext :=
  let handler : Handler := ⟨ctx.posted.length, throws⟩
  { ctx with queue := ctx.queue ++ [handler], posted := ctx.posted ++ [handler] }

/-- The next step of a worker in `worker_loop`. -/
def advance (ctx : NetworkContext) (i : ℕ) (w : Worker) : Option NetworkContext :=
  match w.position with
  | .looping => some (ctx.place i (if w.stop_requested then .exited else .entering))
  | .entering =>
    -- `run` returns at once when there is no work.
    if ctx.outstanding = 0 then some ({ ctx with stopped := true }.place i (.returned 0))
    else some (ctx.place i (.running 0))
  | .running n =>
    if ctx.stopped then
      some (ctx.place i (.returned n))
    else
      match ctx.queue with
      | [] => none
      | handler :: queue => some ({ ctx with queue := queue }.place i (.executing handler n))
  | .executing handler n =>
    -- An exception leaves `run`; its handler counts as finished work all the same.
    some (workFinished ({ ctx with executed := ctx.executed ++ [handler] }.place i
      (if handler.throws then .checking else .running (n + 1))))
  | .returned n => some (ctx.place i (if n = 0 then .exited else .checking))
  | .checking =>
    some (ctx.place i (if ctx.stopped || w.stop_requested then .exited else .looping))
  | .exited => none

/-- One step; a label that cannot happen is refused. -/
def step (thread_count_ : ℕ) (ctx : NetworkContext) : Label → Option NetworkContext
  | .start =>
    if ctx.locked then none
    else if ctx.state_ = .NotStarted then some { ctx with state_ := .Started, starting := true }
    -- A running pool is left alone; after a stop the call throws.
    else some ctx
  | .threadStarts =>
    if ctx.starting ∧ ctx.worker_threads_.length < thread_count_ then
      some { ctx with worker_threads_ := ctx.worker_threads_ ++ [{}] }
    else none
  | .threadFails =>
    if ctx.starting ∧ ctx.worker_threads_.length < thread_count_ then some ctx.rollBack else none
  | .startReturns =>
    if ctx.starting ∧ ctx.worker_threads_.length = thread_count_ then
      some { ctx with starting := false }
    else none
  | .stop => if ctx.locked then none else some ctx.stop
  | .force_stop => if ctx.locked then none else some ctx.force_stop
  | .requestStop =>
    match ctx.stopping with
    | none => none
    | some n =>
      if n < ctx.worker_threads_.length then
        some { ctx with
          worker_threads_ := ctx.worker_threads_.modify n Worker.requestStop
          stopping := some (n + 1) }
      else none
  | .stopReturns =>
    if ctx.stopping = some ctx.worker_threads_.length then some { ctx with stopping := none }
    else none
  | .wait =>
    -- Before `stop` the call aborts the program.
    if ctx.locked ∨ ctx.state_ = .NotStarted ∨ ctx.state_ = .Started then none
    else some { ctx with waiting := ctx.waiting + 1 }
  | .join_workers =>
    if ctx.locked ∨ ctx.waiting = 0 ∨ ctx.join_flag_ ≠ .idle then none
    else some ctx.join_workers
  | .threadJoined i =>
    match ctx.worker_threads_[i]? with
    | none => none
    | some w =>
      if w.owner ≠ .context ∧ w.position = .exited then
        some { ctx with
          worker_threads_ := ctx.worker_threads_.modify i fun w => { w with joined := true } }
      else none
  | .joinsReturn =>
    if ctx.join_flag_ = .active ∧
        ∀ w ∈ ctx.worker_threads_, w.owner = .joiner → w.joined = true then
      some { ctx with join_flag_ := .done }
    else none
  | .waitReturns =>
    if ctx.waiting ≠ 0 ∧ ctx.join_flag_ = .done then
      some { ctx with waiting := ctx.waiting - 1 }
    else none
  | .post throws => some (ctx.enqueue throws)
  | .operationStarts => some { ctx with operations := ctx.operations + 1 }
  | .operationCompletes throws =>
    if ctx.operations = 0 then none
    else some ({ ctx with operations := ctx.operations - 1 }.enqueue throws)
  | .worker i =>
    match ctx.worker_threads_[i]? with
    | none => none
    | some w => ctx.advance i w

/-- A context with at least one thread, as its constructor makes it. -/
def machine (thread_count : ℕ) : Machine NetworkContext Label where
  init := {}
  step := step (max 1 thread_count)

/-! ### What the parts of a step do -/

/-- The step function as a relation: when a label happens and what it leaves. -/
inductive Steps (thread_count_ : ℕ) (ctx : NetworkContext) : Label → NetworkContext → Prop
  | start (locked : ctx.locked = false) (state : ctx.state_ = .NotStarted) :
      Steps thread_count_ ctx .start { ctx with state_ := .Started, starting := true }
  | startAgain (locked : ctx.locked = false) (state : ctx.state_ ≠ .NotStarted) :
      Steps thread_count_ ctx .start ctx
  | threadStarts (starting : ctx.starting = true)
      (room : ctx.worker_threads_.length < thread_count_) :
      Steps thread_count_ ctx .threadStarts
        { ctx with worker_threads_ := ctx.worker_threads_ ++ [{}] }
  | threadFails (starting : ctx.starting = true)
      (room : ctx.worker_threads_.length < thread_count_) :
      Steps thread_count_ ctx .threadFails ctx.rollBack
  | startReturns (starting : ctx.starting = true)
      (full : ctx.worker_threads_.length = thread_count_) :
      Steps thread_count_ ctx .startReturns { ctx with starting := false }
  | stop (locked : ctx.locked = false) : Steps thread_count_ ctx .stop ctx.stop
  | force_stop (locked : ctx.locked = false) : Steps thread_count_ ctx .force_stop ctx.force_stop
  | requestStop (n : ℕ) (stopping : ctx.stopping = some n)
      (next : n < ctx.worker_threads_.length) :
      Steps thread_count_ ctx .requestStop
        { ctx with
          worker_threads_ := ctx.worker_threads_.modify n Worker.requestStop
          stopping := some (n + 1) }
  | stopReturns (told : ctx.stopping = some ctx.worker_threads_.length) :
      Steps thread_count_ ctx .stopReturns { ctx with stopping := none }
  | wait (locked : ctx.locked = false) (state : ctx.state_ ≠ .NotStarted ∧ ctx.state_ ≠ .Started) :
      Steps thread_count_ ctx .wait { ctx with waiting := ctx.waiting + 1 }
  | join_workers (locked : ctx.locked = false) (waiting : ctx.waiting ≠ 0)
      (flag : ctx.join_flag_ = .idle) :
      Steps thread_count_ ctx .join_workers ctx.join_workers
  | threadJoined (i : ℕ) (w : Worker) (thread : ctx.worker_threads_[i]? = some w)
      (owner : w.owner ≠ .context) (exited : w.position = .exited) :
      Steps thread_count_ ctx (.threadJoined i)
        { ctx with
          worker_threads_ := ctx.worker_threads_.modify i fun w => { w with joined := true } }
  | joinsReturn (active : ctx.join_flag_ = .active)
      (joined : ∀ w ∈ ctx.worker_threads_, w.owner = .joiner → w.joined = true) :
      Steps thread_count_ ctx .joinsReturn { ctx with join_flag_ := .done }
  | waitReturns (waiting : ctx.waiting ≠ 0) (done : ctx.join_flag_ = .done) :
      Steps thread_count_ ctx .waitReturns { ctx with waiting := ctx.waiting - 1 }
  | post (throws : Bool) : Steps thread_count_ ctx (.post throws) (ctx.enqueue throws)
  | operationStarts :
      Steps thread_count_ ctx .operationStarts { ctx with operations := ctx.operations + 1 }
  | operationCompletes (throws : Bool) (underway : ctx.operations ≠ 0) :
      Steps thread_count_ ctx (.operationCompletes throws)
        ({ ctx with operations := ctx.operations - 1 }.enqueue throws)
  | worker (i : ℕ) (w : Worker) (ctx' : NetworkContext)
      (thread : ctx.worker_threads_[i]? = some w) (advance : ctx.advance i w = some ctx') :
      Steps thread_count_ ctx (.worker i) ctx'

theorem steps_of_step {thread_count_ : ℕ} {ctx ctx' : NetworkContext} {a : Label}
    (h : step thread_count_ ctx a = some ctx') : Steps thread_count_ ctx a ctx' := by
  cases a with
  | start =>
    simp only [step] at h
    split_ifs at h with hlocked hstate
    · exact Option.some.inj h ▸ .start (Bool.eq_false_iff.mpr hlocked) hstate
    · exact Option.some.inj h ▸ .startAgain (Bool.eq_false_iff.mpr hlocked) hstate
  | requestStop =>
    simp only [step] at h
    split at h
    · cases h
    · next n hstopping =>
      split_ifs at h with hnext
      exact Option.some.inj h ▸ .requestStop n hstopping hnext
  | wait =>
    simp only [step] at h
    split_ifs at h with hguard
    rw [not_or, not_or, Bool.not_eq_true] at hguard
    exact Option.some.inj h ▸ .wait hguard.1 hguard.2
  | join_workers =>
    simp only [step] at h
    split_ifs at h with hguard
    rw [not_or, not_or, Bool.not_eq_true, not_not] at hguard
    exact Option.some.inj h ▸ .join_workers hguard.1 hguard.2.1 hguard.2.2
  | threadJoined i =>
    simp only [step] at h
    split at h
    · cases h
    · next w hw =>
      split_ifs at h with hguard
      exact Option.some.inj h ▸ .threadJoined i w hw hguard.1 hguard.2
  | post throws => exact Option.some.inj h ▸ .post throws
  | operationStarts => exact Option.some.inj h ▸ .operationStarts
  | worker i =>
    simp only [step] at h
    split at h
    · cases h
    · next w hw => exact .worker i w ctx' hw h
  | threadStarts =>
    simp only [step] at h
    split_ifs at h with hguard
    exact Option.some.inj h ▸ .threadStarts hguard.1 hguard.2
  | threadFails =>
    simp only [step] at h
    split_ifs at h with hguard
    exact Option.some.inj h ▸ .threadFails hguard.1 hguard.2
  | startReturns =>
    simp only [step] at h
    split_ifs at h with hguard
    exact Option.some.inj h ▸ .startReturns hguard.1 hguard.2
  | stop =>
    simp only [step] at h
    split_ifs at h with hguard
    exact Option.some.inj h ▸ .stop (Bool.eq_false_iff.mpr hguard)
  | force_stop =>
    simp only [step] at h
    split_ifs at h with hguard
    exact Option.some.inj h ▸ .force_stop (Bool.eq_false_iff.mpr hguard)
  | stopReturns =>
    simp only [step] at h
    split_ifs at h with hguard
    exact Option.some.inj h ▸ .stopReturns hguard
  | joinsReturn =>
    simp only [step] at h
    split_ifs at h with hguard
    exact Option.some.inj h ▸ .joinsReturn hguard.1 hguard.2
  | waitReturns =>
    simp only [step] at h
    split_ifs at h with hguard
    exact Option.some.inj h ▸ .waitReturns hguard.1 hguard.2
  | operationCompletes throws =>
    simp only [step] at h
    split_ifs at h with hguard
    exact Option.some.inj h ▸ .operationCompletes throws hguard

theorem workFinished_eq (ctx : NetworkContext) :
    ctx.workFinished = { ctx with stopped := ctx.stopped || decide (ctx.outstanding = 0) } := by
  unfold workFinished
  split
  · next h => simp [h]
  · next h => simp [h]

/-- A thread after `place`: another one, or the one that was placed. -/
theorem getElem?_place (ctx : NetworkContext) (i j : ℕ) (position : Position) :
    (ctx.place i position).worker_threads_[j]? =
      if i = j then (ctx.worker_threads_[j]?).map fun w => { w with position := position }
      else ctx.worker_threads_[j]? := by
  unfold place
  rw [List.getElem?_modify]
  split_ifs
  · cases ctx.worker_threads_[j]? with
    | none => rfl
    | some w => rfl
  · cases ctx.worker_threads_[j]? with
    | none => rfl
    | some w => rfl

/-- A worker changes its position and leaves the life cycle alone. -/
structure Moves (ctx ctx' : NetworkContext) (i : ℕ) : Prop where
  state_ : ctx'.state_ = ctx.state_
  starting : ctx'.starting = ctx.starting
  stopping : ctx'.stopping = ctx.stopping
  work_guard_ : ctx'.work_guard_ = ctx.work_guard_
  join_flag_ : ctx'.join_flag_ = ctx.join_flag_
  posted : ctx'.posted = ctx.posted
  posted_before_stop : ctx'.posted_before_stop = ctx.posted_before_stop
  threads : ∃ position, ctx'.worker_threads_ = (ctx.place i position).worker_threads_

theorem moves_advance {ctx ctx' : NetworkContext} {i : ℕ} {w : Worker}
    (h : ctx.advance i w = some ctx') : Moves ctx ctx' i := by
  unfold advance at h
  split at h
  · obtain rfl := Option.some.inj h
    exact ⟨rfl, rfl, rfl, rfl, rfl, rfl, rfl, _, rfl⟩
  · split at h
    · obtain rfl := Option.some.inj h
      exact ⟨rfl, rfl, rfl, rfl, rfl, rfl, rfl, _, rfl⟩
    · obtain rfl := Option.some.inj h
      exact ⟨rfl, rfl, rfl, rfl, rfl, rfl, rfl, _, rfl⟩
  · split at h
    · obtain rfl := Option.some.inj h
      exact ⟨rfl, rfl, rfl, rfl, rfl, rfl, rfl, _, rfl⟩
    · split at h
      · cases h
      · obtain rfl := Option.some.inj h
        exact ⟨rfl, rfl, rfl, rfl, rfl, rfl, rfl, _, rfl⟩
  · obtain rfl := Option.some.inj h
    rw [workFinished_eq]
    exact ⟨rfl, rfl, rfl, rfl, rfl, rfl, rfl, _, rfl⟩
  · obtain rfl := Option.some.inj h
    exact ⟨rfl, rfl, rfl, rfl, rfl, rfl, rfl, _, rfl⟩
  · obtain rfl := Option.some.inj h
    exact ⟨rfl, rfl, rfl, rfl, rfl, rfl, rfl, _, rfl⟩
  · cases h

/-! ### The life cycle -/

/-- What holds of a thread in each phase of the life cycle. -/
structure Lawful (ctx : NetworkContext) (w : Worker) : Prop where
  exited : w.joined = true → w.position = .exited
  taken : ctx.state_ = .Joined → w.owner ≠ .context
  returned : ctx.join_flag_ = .done → w.owner = .joiner → w.joined = true
  rolledBack : w.owner = .starter →
    (ctx.state_ = .Stopped ∨ ctx.state_ = .Joined) ∧ ctx.posted_before_stop = []

/-- The invariant of the life cycle. -/
structure Lifecycle (ctx : NetworkContext) : Prop where
  fresh : ctx.state_ = .NotStarted → ctx.worker_threads_ = [] ∧ ctx.posted_before_stop = []
  creating : ctx.starting = true → ctx.state_ = .Started ∧ ctx.posted_before_stop = []
  untold : ctx.state_ = .Joined → ctx.stopping = none
  flagged : ctx.join_flag_ ≠ .idle → ctx.state_ = .Joined
  threads : ∀ w ∈ ctx.worker_threads_, Lawful ctx w

variable {ctx ctx' : NetworkContext} {thread_count : ℕ}

theorem lifecycle_init : Lifecycle {} where
  fresh := fun _ => ⟨rfl, rfl⟩
  creating := fun h => by cases h
  untold := fun h => by cases h
  flagged := fun h => absurd rfl h
  threads := fun _ hw => by cases hw

/-- What the threads and the life cycle do not depend on may change. -/
theorem Lifecycle.of_eq (hlife : Lifecycle ctx) (hstate : ctx'.state_ = ctx.state_)
    (hstarting : ctx'.starting = ctx.starting) (hstopping : ctx'.stopping = ctx.stopping)
    (hflag : ctx'.join_flag_ = ctx.join_flag_)
    (hbefore : ctx'.posted_before_stop = ctx.posted_before_stop)
    (hthreads : ctx'.worker_threads_ = ctx.worker_threads_) : Lifecycle ctx' where
  fresh := fun h => by
    rw [hstate] at h
    rw [hthreads, hbefore]
    exact hlife.fresh h
  creating := fun h => by
    rw [hstarting] at h
    rw [hstate, hbefore]
    exact hlife.creating h
  untold := fun h => by
    rw [hstate] at h
    rw [hstopping]
    exact hlife.untold h
  flagged := fun h => by
    rw [hflag] at h
    rw [hstate]
    exact hlife.flagged h
  threads := fun w hw => by
    rw [hthreads] at hw
    obtain ⟨hexited, htaken, hreturned, hrolled⟩ := hlife.threads w hw
    refine ⟨hexited, ?_, ?_, ?_⟩
    · rwa [hstate]
    · rwa [hflag]
    · rwa [hstate, hbefore]

/-- A thread that was only told or moved on keeps its place in the life cycle. -/
theorem Lifecycle.of_threads (hlife : Lifecycle ctx) {workers : List Worker}
    (hfresh : ctx.worker_threads_ = [] → workers = [])
    (hthreads : ∀ w ∈ workers, Lawful ctx w) :
    Lifecycle { ctx with worker_threads_ := workers } where
  fresh := fun h => ⟨hfresh (hlife.fresh h).1, (hlife.fresh h).2⟩
  creating := hlife.creating
  untold := hlife.untold
  flagged := hlife.flagged
  threads := fun w hw => by
    obtain ⟨hexited, htaken, hreturned, hrolled⟩ := hthreads w hw
    exact ⟨hexited, htaken, hreturned, hrolled⟩

/-- A list of threads after one of them has changed. -/
theorem lawful_modify {f : Worker → Worker} {i : ℕ}
    (hthreads : ∀ w ∈ ctx.worker_threads_, Lawful ctx w)
    (hf : ∀ w, ctx.worker_threads_[i]? = some w → Lawful ctx w → Lawful ctx (f w)) :
    ∀ w ∈ ctx.worker_threads_.modify i f, Lawful ctx w := by
  intro w hw
  obtain ⟨j, hj⟩ := List.mem_iff_getElem?.mp hw
  rw [List.getElem?_modify] at hj
  cases hget : ctx.worker_threads_[j]? with
  | none =>
    rw [hget] at hj
    split_ifs at hj <;> cases hj
  | some v =>
    have hv := hthreads v (List.mem_of_getElem? hget)
    rw [hget] at hj
    split_ifs at hj with heq
    · obtain rfl := heq
      obtain rfl := Option.some.inj hj
      exact hf v hget hv
    · obtain rfl := Option.some.inj hj
      exact hv

theorem Lifecycle.modify (hlife : Lifecycle ctx) {f : Worker → Worker} {i : ℕ}
    (hf : ∀ w, ctx.worker_threads_[i]? = some w → Lawful ctx w → Lawful ctx (f w)) :
    Lifecycle { ctx with worker_threads_ := ctx.worker_threads_.modify i f } := by
  refine hlife.of_threads (fun h => ?_) (lawful_modify hlife.threads hf)
  rw [h, List.modify_nil]

theorem Lawful.requestStop {w : Worker} (h : Lawful ctx w) : Lawful ctx w.requestStop := by
  unfold Worker.requestStop
  split
  · exact ⟨h.exited, h.taken, h.returned, h.rolledBack⟩
  · exact h

theorem unlocked_iff : ctx.locked = false ↔ ctx.starting = false ∧ ctx.stopping = none := by
  simp [locked]

theorem Lifecycle.stop (hlife : Lifecycle ctx) (hlocked : ctx.locked = false) :
    Lifecycle ctx.stop := by
  obtain ⟨hstarting, -⟩ := unlocked_iff.mp hlocked
  unfold NetworkContext.stop
  split
  · exact hlife
  · next hstate =>
    have hstarted : ctx.state_ = .Started := not_not.mp hstate
    rw [workFinished_eq]
    refine ⟨fun h => (nomatch h), fun h => ?_, fun h => (nomatch h), fun h => ?_,
      fun w hw => ?_⟩
    · rw [hstarting] at h
      cases h
    · have := hlife.flagged h
      rw [hstarted] at this
      cases this
    · obtain ⟨hexited, -, hreturned, hrolled⟩ := hlife.threads w hw
      refine ⟨hexited, fun h => (nomatch h), hreturned, fun h => ?_⟩
      obtain ⟨h | h, -⟩ := hrolled h
      · rw [hstarted] at h
        cases h
      · rw [hstarted] at h
        cases h

theorem Lifecycle.force_stop (hlife : Lifecycle ctx) (hlocked : ctx.locked = false) :
    Lifecycle ctx.force_stop := by
  obtain ⟨hstarting, -⟩ := unlocked_iff.mp hlocked
  unfold NetworkContext.force_stop
  split
  · exact hlife
  · next hstate =>
    refine ⟨fun h => (nomatch h), fun h => ?_, fun h => (nomatch h), fun h => ?_,
      fun w hw => ?_⟩
    · rw [hstarting] at h
      cases h
    · exact absurd (.inr (hlife.flagged h)) hstate
    · obtain ⟨hexited, -, hreturned, hrolled⟩ := hlife.threads w hw
      exact ⟨hexited, fun h => (nomatch h), hreturned, fun h => ⟨.inl rfl, (hrolled h).2⟩⟩

/-- Nobody joins the workers before the state says so. -/
theorem Lifecycle.idle (hlife : Lifecycle ctx) (hstate : ctx.state_ ≠ .Joined) :
    ctx.join_flag_ = .idle := by
  by_contra hflag
  exact hstate (hlife.flagged hflag)

theorem Lifecycle.rollBack (hlife : Lifecycle ctx) (hstarting : ctx.starting = true) :
    Lifecycle ctx.rollBack := by
  obtain ⟨hstarted, hbefore⟩ := hlife.creating hstarting
  have hflag : ctx.join_flag_ = .idle := hlife.idle (hstarted ▸ nofun)
  refine ⟨fun h => (nomatch h), fun h => (nomatch h), fun h => (nomatch h), fun h => ?_,
    fun v hv => ?_⟩
  · exact absurd hflag h
  · obtain ⟨w, hw, rfl⟩ := List.mem_map.mp hv
    obtain ⟨hexited, -, -, -⟩ := (hlife.threads w hw).requestStop
    have hreturned : ctx.join_flag_ = .done → (w.requestStop.moveTo .starter).owner = .joiner →
        (w.requestStop.moveTo .starter).joined = true := by
      intro h
      rw [hflag] at h
      cases h
    refine ⟨?_, fun h => (nomatch h), hreturned, fun _ => ⟨.inl rfl, hbefore⟩⟩
    unfold Worker.moveTo
    split
    · exact hexited
    · exact hexited

theorem Lifecycle.join_workers (hlife : Lifecycle ctx) (hlocked : ctx.locked = false) :
    Lifecycle ctx.join_workers := by
  obtain ⟨hstarting, hstopping⟩ := unlocked_iff.mp hlocked
  refine ⟨fun h => (nomatch h), fun h => ?_, fun _ => hstopping, fun _ => rfl, fun v hv => ?_⟩
  · rw [NetworkContext.join_workers, hstarting] at h
    cases h
  · obtain ⟨w, hw, rfl⟩ := List.mem_map.mp hv
    obtain ⟨hexited, -, -, hrolled⟩ := hlife.threads w hw
    unfold Worker.moveTo
    split
    · exact ⟨hexited, fun _ h => (nomatch h), fun h => (nomatch h), fun h => (nomatch h)⟩
    · next howner =>
      exact ⟨hexited, fun _ => howner, fun h => (nomatch h), fun h => ⟨.inr rfl, (hrolled h).2⟩⟩

theorem Lifecycle.advance (hlife : Lifecycle ctx) {i : ℕ} {w : Worker}
    (hw : ctx.worker_threads_[i]? = some w) (h : ctx.advance i w = some ctx') :
    Lifecycle ctx' := by
  obtain ⟨hstate, hstarting, hstopping, -, hflag, -, hbefore, position, hthreads⟩ :=
    moves_advance h
  have hplaced : Lifecycle (ctx.place i position) := by
    refine hlife.modify fun v hv hlawful => ?_
    obtain rfl := Option.some.inj (hw.symm.trans hv)
    refine ⟨fun hjoined => ?_, hlawful.taken, hlawful.returned, hlawful.rolledBack⟩
    -- A joined worker has left its loop.
    rw [NetworkContext.advance, hlawful.exited hjoined] at h
    cases h
  exact hplaced.of_eq hstate hstarting hstopping hflag hbefore hthreads

theorem Lifecycle.step (hlife : Lifecycle ctx) {a : Label}
    (h : NetworkContext.step thread_count ctx a = some ctx') : Lifecycle ctx' := by
  cases steps_of_step h with
  | start locked hstate =>
    obtain ⟨hthreads, hbefore⟩ := hlife.fresh hstate
    have hidle : ctx.join_flag_ = .idle := hlife.idle (hstate ▸ nofun)
    refine ⟨fun h => (nomatch h), fun _ => ⟨rfl, hbefore⟩, fun h => (nomatch h),
      fun h => absurd hidle h, fun w hw => ?_⟩
    rw [hthreads] at hw
    cases hw
  | startAgain => exact hlife
  | threadStarts hstarting room =>
    obtain ⟨hstarted, hbefore⟩ := hlife.creating hstarting
    refine ⟨fun h => ?_, hlife.creating, hlife.untold, hlife.flagged, fun w hw => ?_⟩
    · rw [hstarted] at h
      cases h
    · rcases List.mem_append.mp hw with hw | hw
      · obtain ⟨hexited, htaken, hreturned, hrolled⟩ := hlife.threads w hw
        exact ⟨hexited, htaken, hreturned, hrolled⟩
      · obtain rfl := List.mem_singleton.mp hw
        refine ⟨fun h => (nomatch h), fun h => ?_, fun _ h => (nomatch h), fun h => (nomatch h)⟩
        rw [hstarted] at h
        cases h
  | threadFails hstarting room => exact hlife.rollBack hstarting
  | startReturns =>
    refine ⟨hlife.fresh, fun h => (nomatch h), hlife.untold, hlife.flagged, fun w hw => ?_⟩
    obtain ⟨hexited, htaken, hreturned, hrolled⟩ := hlife.threads w hw
    exact ⟨hexited, htaken, hreturned, hrolled⟩
  | stop hlocked => exact hlife.stop hlocked
  | force_stop hlocked => exact hlife.force_stop hlocked
  | requestStop n hstopping next =>
    have htold := hlife.modify (i := n) fun w _ hw => hw.requestStop
    refine ⟨htold.fresh, htold.creating, fun h => ?_, htold.flagged, fun w hw => ?_⟩
    · have := hlife.untold h
      rw [hstopping] at this
      cases this
    · obtain ⟨hexited, htaken, hreturned, hrolled⟩ := htold.threads w hw
      exact ⟨hexited, htaken, hreturned, hrolled⟩
  | stopReturns =>
    refine ⟨hlife.fresh, hlife.creating, fun _ => rfl, hlife.flagged, fun w hw => ?_⟩
    obtain ⟨hexited, htaken, hreturned, hrolled⟩ := hlife.threads w hw
    exact ⟨hexited, htaken, hreturned, hrolled⟩
  | join_workers hlocked => exact hlife.join_workers hlocked
  | threadJoined i w hw owner hexited =>
    refine hlife.modify fun v hv hlawful => ?_
    obtain rfl := Option.some.inj (hw.symm.trans hv)
    exact ⟨fun _ => hexited, hlawful.taken, fun _ _ => rfl, hlawful.rolledBack⟩
  | joinsReturn hactive hjoined =>
    have hstate : ctx.state_ = .Joined := hlife.flagged (by rw [hactive]; decide)
    refine ⟨hlife.fresh, hlife.creating, hlife.untold, fun _ => hstate, fun w hw => ?_⟩
    obtain ⟨hexited, htaken, -, hrolled⟩ := hlife.threads w hw
    exact ⟨hexited, htaken, fun _ => hjoined w hw, hrolled⟩
  | worker i w _ hw hadvance => exact hlife.advance hw hadvance
  -- What is waited for and posted plays no part.
  | wait | waitReturns | post _ | operationStarts | operationCompletes _ =>
    exact hlife.of_eq rfl rfl rfl rfl rfl rfl

theorem lifecycle_of_run {n : ℕ} {labels : List Label}
    (h : (machine n).run labels = some ctx) : Lifecycle ctx :=
  Machine.run_induction (motive := fun _ ctx => Lifecycle ctx) lifecycle_init
    (fun _ _ _ _ _ hlife hstep => hlife.step hstep) h

/-! ### Escalation -/

theorem workFinished_state_ (ctx : NetworkContext) : ctx.workFinished.state_ = ctx.state_ := by
  rw [workFinished_eq]

/-- Only `join_workers` enters the last phase, and nothing leaves it. -/
theorem state_joined_step {a : Label}
    (h : NetworkContext.step thread_count ctx a = some ctx') (hlife : Lifecycle ctx) :
    ctx'.state_ = .Joined ↔ ctx.state_ = .Joined ∨ a = .join_workers := by
  cases steps_of_step h with
  | start locked hstate => simp [hstate]
  | threadFails hstarting room => simp [rollBack, (hlife.creating hstarting).1]
  | stop =>
    unfold NetworkContext.stop
    split
    · simp
    · next hstate => simp [workFinished_state_, not_not.mp hstate]
  | force_stop =>
    unfold NetworkContext.force_stop
    split
    · simp
    · next hstate => simp [(not_or.mp hstate).2]
  | join_workers => simp [NetworkContext.join_workers]
  | worker i w _ hw hadvance => simp [(moves_advance hadvance).state_]
  | post _ | operationCompletes _ => simp [enqueue]
  | startAgain | threadStarts | startReturns | requestStop | stopReturns | wait | threadJoined |
      joinsReturn | waitReturns | operationStarts => simp

theorem state_joined_iff {n : ℕ} {labels : List Label}
    (h : (machine n).run labels = some ctx) :
    ctx.state_ = .Joined ↔ Label.join_workers ∈ labels := by
  refine Machine.run_induction
    (motive := fun labels ctx => ctx.state_ = .Joined ↔ Label.join_workers ∈ labels)
    (by simp [machine]) ?_ h
  intro labels s a t hrun ih hstep
  rw [state_joined_step hstep (lifecycle_of_run hrun), ih, List.mem_append, List.mem_singleton,
    eq_comm (a := a)]

/-- While a thread is not joined yet, `force_stop` stops the `io_context` unless a `wait` has
already taken the threads: from then on the recorded state is that of a joined pool. -/
theorem stopped_force_stop_iff {n : ℕ} {labels : List Label}
    (hrun : (machine n).run labels = some ctx)
    (hworker : ∃ w ∈ ctx.worker_threads_, w.joined = false)
    (hstep : (machine n).step ctx .force_stop = some ctx') :
    ctx'.stopped = true ↔ Label.join_workers ∉ labels ∨ ctx.stopped = true := by
  have hstarted : ctx.state_ ≠ .NotStarted := by
    intro hstate
    obtain ⟨w, hw, -⟩ := hworker
    rw [((lifecycle_of_run hrun).fresh hstate).1] at hw
    cases hw
  simp only [machine, NetworkContext.step] at hstep
  split_ifs at hstep
  obtain rfl := Option.some.inj hstep
  rw [← state_joined_iff hrun, NetworkContext.force_stop]
  split
  · next hstate =>
    have hjoined : ctx.state_ = .Joined := hstate.resolve_left hstarted
    simp [hjoined]
  · next hstate => simp [(not_or.mp hstate).2]

/-- A stop whose worker stays in `run` with an operation that does not complete. -/
def hungStop : List Label :=
  [.start, .threadStarts, .startReturns, .operationStarts, .worker 0, .worker 0,
    .stop, .requestStop, .stopReturns]

theorem stopped_force_stop_hungStop :
    ∃ ctx ctx', (machine 1).run hungStop = some ctx ∧
      (machine 1).step ctx .force_stop = some ctx' ∧ ctx'.stopped = true := by
  refine ⟨_, _, rfl, rfl, ?_⟩
  exact (@stopped_force_stop_iff _ _ 1 hungStop rfl (by decide) rfl).mpr
    (.inl (by decide))

/-- The `wait` that hangs in its join is beyond the reach of `force_stop`. -/
theorem not_stopped_hungWait :
    ¬ ∀ (n : ℕ) (labels : List Label) (ctx ctx' : NetworkContext),
      (machine n).run labels = some ctx → (∃ w ∈ ctx.worker_threads_, w.joined = false) →
      (machine n).step ctx .force_stop = some ctx' → ctx'.stopped = true := by
  intro h
  have := h 1 (hungStop ++ [.wait, .join_workers]) _ _ rfl (by decide) rfl
  revert this
  decide

end NetworkContext

end SpaceShooter.Server
