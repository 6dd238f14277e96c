/-
# The tick loop

The life cycle of `WorldInstance`: an atomic state, a timer and a strand. `start` and
`stop` may be called from any thread; `stop` flips the state and cancels the timer at
once, everything else runs on the strand. What a tick does to the world is left to a
simulation, so the protocol is the same for every world.

The strand runs posted handlers in order. A completed wait may reach it late, so the
model lets a completion run at any later time.
-/

import Mathlib.Data.List.Basic
import SpaceShooter.Common.Config
import SpaceShooter.Library.Machine

namespace SpaceShooter.Server

open Library

/-- What the loop drives: the body of a tick, given the choices of its environment, the
tick interval and the tick's number; the clean-up that discards queued actions; and the
subscriptions. -/
structure Simulation (σ Event Choice : Type) where
  runTickStep : Choice → ℕ → UInt64 → σ → σ
  discardActions : σ → σ
  onEvent : Event → σ → σ

namespace TickLoop

inductive State
  | Stopped
  | Running
  deriving DecidableEq, Repr

theorem State.stopped_or_running (state : State) : state = .Stopped ∨ state = .Running := by
  cases state
  · exact Or.inl rfl
  · exact Or.inr rfl

/-- A handler posted to the strand. -/
inductive Posted
  | doStart
  | doStop
  deriving DecidableEq, Repr

/-- The error code a wait on the timer completes with. -/
inductive WaitResult
  | success
  | operation_aborted
  | failed
  deriving DecidableEq, Repr

/-- A call of the controlling thread. -/
inductive Call
  | start
  | stop
  deriving DecidableEq, Repr

/-- The steady timer: its expiry in nanoseconds and its pending waits. -/
structure Timer where
  expiry : ℤ := 0
  waits : ℕ := 0
  deriving DecidableEq, Repr

end TickLoop

open TickLoop in
structure TickLoop (σ : Type) where
  world : σ
  /-- Microseconds, at least one. -/
  tick_interval_ : ℕ
  state_ : State := .Stopped
  current_tick_ : UInt64 := 0
  tick_timer_ : Timer := {}
  posted : List Posted := []
  /-- Completed waits whose handlers have not run. -/
  completions : List WaitResult := []
  /-- Nanoseconds of the steady clock. -/
  clock : ℤ := 0
  /-- History: the last call of the controlling thread. -/
  lastCall : Option Call := none
  /-- History: that thread's last `stop` came while a `doStart` was posted. -/
  overtookStart : Bool := false
  deriving DecidableEq

namespace TickLoop

/-- What can happen next. A handler takes `elapsed` nanoseconds before it reads the
clock. -/
inductive Label (Event Choice : Type)
  | start
  | stop
  | event (event : Event)
  | clockAdvances (elapsed : ℕ)
  | waitElapses
  | waitFails
  | runPosted (elapsed : ℕ)
  | runCompletion (index : ℕ) (elapsed : ℕ) (choice : Choice)

variable {σ Event Choice : Type} (sim : Simulation σ Event Choice)

/-- `tick_timer_.cancel`: pending waits complete as aborted, completed ones stay. -/
def cancel (loop : TickLoop σ) : TickLoop σ :=
  { loop with
    tick_timer_ := { loop.tick_timer_ with waits := 0 }
    completions := loop.completions ++
      List.replicate loop.tick_timer_.waits .operation_aborted }

/-- Setting the expiry cancels the pending waits. -/
def expires_at (loop : TickLoop σ) (deadline : ℤ) : TickLoop σ :=
  let loop := loop.cancel
  { loop with tick_timer_ := { loop.tick_timer_ with expiry := deadline } }

def interval (loop : TickLoop σ) : ℤ := 1000 * loop.tick_interval_

def expires_after (loop : TickLoop σ) (interval : ℤ) : TickLoop σ :=
  loop.expires_at (loop.clock + interval)

def async_wait (loop : TickLoop σ) : TickLoop σ :=
  { loop with
    tick_timer_ := { loop.tick_timer_ with waits := loop.tick_timer_.waits + 1 } }

def start (loop : TickLoop σ) : TickLoop σ :=
  { loop with
    posted := loop.posted ++ [.doStart]
    lastCall := some .start }

def stop (loop : TickLoop σ) : TickLoop σ :=
  let loop := { loop with state_ := .Stopped }.cancel
  -- What is posted already stays posted, a `doStart` included.
  { loop with
    posted := loop.posted ++ [.doStop]
    lastCall := some .stop
    overtookStart := .doStart ∈ loop.posted }

def doStart (loop : TickLoop σ) : TickLoop σ :=
  -- The compare-and-exchange: a loop that runs is left alone.
  if loop.state_ = .Stopped then
    (({ loop with state_ := .Running }.expires_after loop.interval).async_wait)
  else
    loop

def shutdownTickLoop (loop : TickLoop σ) : TickLoop σ :=
  let loop := loop.cancel
  { loop with world := sim.discardActions loop.world }

def doStop (loop : TickLoop σ) : TickLoop σ := shutdownTickLoop sim loop

def scheduleNextTick (loop : TickLoop σ) : TickLoop σ :=
  if loop.state_ ≠ .Running then
    loop
  else
    let next_deadline := loop.tick_timer_.expiry + loop.interval
    -- Ticks that were missed are skipped, not caught up with.
    if next_deadline < loop.clock - loop.interval * World.kMaxMissedTicks then
      (loop.expires_after loop.interval).async_wait
    else
      (loop.expires_at next_deadline).async_wait

/-- The completion handler of a wait. The body of a tick swallows its exceptions, so
every tick that runs is counted. -/
def doTick (loop : TickLoop σ) (choice : Choice) : WaitResult → TickLoop σ
  | .operation_aborted => loop
  | .failed => shutdownTickLoop sim { loop with state_ := .Stopped }
  | .success =>
    if loop.state_ ≠ .Running then
      loop
    else
      -- The next wait is armed before the body of this tick runs.
      let loop := loop.scheduleNextTick
      { loop with
        world := sim.runTickStep choice loop.tick_interval_ loop.current_tick_ loop.world
        current_tick_ := loop.current_tick_ + 1 }

/-- Every pending wait completes with a result. -/
def completeWaits (loop : TickLoop σ) (result : WaitResult) : TickLoop σ :=
  { loop with
    tick_timer_ := { loop.tick_timer_ with waits := 0 }
    completions := loop.completions ++ List.replicate loop.tick_timer_.waits result }

def step (loop : TickLoop σ) : Label Event Choice → Option (TickLoop σ)
  | .start => some loop.start
  | .stop => some loop.stop
  | .event event => some { loop with world := sim.onEvent event loop.world }
  | .clockAdvances elapsed => some { loop with clock := loop.clock + elapsed }
  -- A steady timer never fires early.
  | .waitElapses =>
    if loop.tick_timer_.expiry ≤ loop.clock then some (loop.completeWaits .success) else none
  | .waitFails => some (loop.completeWaits .failed)
  | .runPosted elapsed =>
    match loop.posted with
    | [] => none
    | handler :: posted =>
      let loop := { loop with posted := posted, clock := loop.clock + elapsed }
      some (match handler with
        | .doStart => loop.doStart
        | .doStop => doStop sim loop)
  | .runCompletion index elapsed choice =>
    match loop.completions[index]? with
    | none => none
    | some result =>
      let loop := { loop with
        completions := loop.completions.eraseIdx index
        clock := loop.clock + elapsed }
      some (doTick sim loop choice result)

def machine (world : σ) (tick_interval : ℕ) : Machine (TickLoop σ) (Label Event Choice) where
  init := { world := world, tick_interval_ := tick_interval }
  step := step sim

/-! ### The protocol -/

/-- Nothing is left for the strand to run. -/
def Quiescent (loop : TickLoop σ) : Prop :=
  loop.posted = [] ∧ loop.completions = []

/-- Until `start` is called no tick runs. -/
def Idle (loop : TickLoop σ) : Prop :=
  ∀ labels later, (machine sim loop.world loop.tick_interval_).runFrom loop labels = some later →
    .start ∉ labels → later.current_tick_ = loop.current_tick_

/-- The loop is in the state its last call asks for: after `stop` it is stopped, no wait
is pending and no tick runs, and after `start` it is running on one pending wait. -/
def Obeys (loop : TickLoop σ) : Prop :=
  match loop.lastCall with
  | none => True
  | some .start => loop.state_ = .Running ∧ loop.tick_timer_.waits = 1
  | some .stop => loop.state_ = .Stopped ∧ loop.tick_timer_.waits = 0 ∧ Idle sim loop

/-! ### What the handlers do -/

/-- Arming the timer leaves exactly one wait, whatever was pending before. -/
theorem expires_at_async_wait (loop : TickLoop σ) (deadline : ℤ) :
    (loop.expires_at deadline).async_wait =
      { loop with
        tick_timer_ := ⟨deadline, 1⟩
        completions := loop.completions ++
          List.replicate loop.tick_timer_.waits .operation_aborted } := rfl

theorem doStart_of_stopped (loop : TickLoop σ) (h : loop.state_ = .Stopped) :
    ∃ deadline, loop.doStart =
      { loop with
        state_ := .Running
        tick_timer_ := ⟨deadline, 1⟩
        completions := loop.completions ++
          List.replicate loop.tick_timer_.waits .operation_aborted } :=
  ⟨_, by rw [doStart, if_pos h, expires_after, expires_at_async_wait]⟩

theorem doStart_of_running (loop : TickLoop σ) (h : loop.state_ = .Running) :
    loop.doStart = loop := by
  rw [doStart, if_neg]
  rw [h]
  nofun

theorem scheduleNextTick_of_running {loop : TickLoop σ} (h : loop.state_ = .Running) :
    ∃ deadline, loop.scheduleNextTick =
      { loop with
        tick_timer_ := ⟨deadline, 1⟩
        completions := loop.completions ++
          List.replicate loop.tick_timer_.waits .operation_aborted } := by
  unfold scheduleNextTick
  rw [if_neg (not_not.mpr h)]
  dsimp only
  split_ifs
  · exact ⟨_, expires_at_async_wait _ _⟩
  · exact ⟨_, expires_at_async_wait _ _⟩

/-- A successful completion of a running loop arms the timer and runs a tick. -/
theorem doTick_of_running (loop : TickLoop σ) (h : loop.state_ = .Running) (choice : Choice) :
    ∃ deadline, doTick sim loop choice .success =
      { loop with
        world := sim.runTickStep choice loop.tick_interval_ loop.current_tick_ loop.world
        current_tick_ := loop.current_tick_ + 1
        tick_timer_ := ⟨deadline, 1⟩
        completions := loop.completions ++
          List.replicate loop.tick_timer_.waits .operation_aborted } := by
  obtain ⟨deadline, hschedule⟩ := scheduleNextTick_of_running h
  refine ⟨deadline, ?_⟩
  rw [doTick, if_neg (not_not.mpr h)]
  dsimp only
  rw [hschedule]

theorem doTick_of_stopped (loop : TickLoop σ) (h : loop.state_ = .Stopped) (choice : Choice) :
    doTick sim loop choice .success = loop := by
  rw [doTick, if_pos]
  rw [h]
  nofun

/-! ### What a step does -/

/-- The label of a step, with the guard that let it through. -/
inductive Transition (loop : TickLoop σ) : Label Event Choice → TickLoop σ → Prop
  | start : Transition loop .start loop.start
  | stop : Transition loop .stop loop.stop
  | event (event : Event) :
      Transition loop (.event event) { loop with world := sim.onEvent event loop.world }
  | clockAdvances (elapsed : ℕ) :
      Transition loop (.clockAdvances elapsed) { loop with clock := loop.clock + elapsed }
  | waitElapses (elapsed : loop.tick_timer_.expiry ≤ loop.clock) :
      Transition loop .waitElapses (loop.completeWaits .success)
  | waitFails : Transition loop .waitFails (loop.completeWaits .failed)
  | doStart (elapsed : ℕ) (posted : List Posted) (first : loop.posted = .doStart :: posted) :
      Transition loop (.runPosted elapsed)
        { loop with posted := posted, clock := loop.clock + elapsed }.doStart
  | doStop (elapsed : ℕ) (posted : List Posted) (first : loop.posted = .doStop :: posted) :
      Transition loop (.runPosted elapsed)
        (doStop sim { loop with posted := posted, clock := loop.clock + elapsed })
  | runCompletion (index elapsed : ℕ) (choice : Choice) (result : WaitResult)
      (found : loop.completions[index]? = some result) :
      Transition loop (.runCompletion index elapsed choice)
        (doTick sim
          { loop with
            completions := loop.completions.eraseIdx index
            clock := loop.clock + elapsed } choice result)

theorem transition_of_step {loop loop' : TickLoop σ} {label : Label Event Choice}
    (h : step sim loop label = some loop') : Transition sim loop label loop' := by
  cases label with
  | start => exact Option.some.inj h ▸ .start
  | stop => exact Option.some.inj h ▸ .stop
  | event event => exact Option.some.inj h ▸ .event event
  | clockAdvances elapsed => exact Option.some.inj h ▸ .clockAdvances elapsed
  | waitElapses =>
    simp only [TickLoop.step] at h
    split_ifs at h with helapsed
    exact Option.some.inj h ▸ .waitElapses helapsed
  | waitFails => exact Option.some.inj h ▸ .waitFails
  | runPosted elapsed =>
    simp only [TickLoop.step] at h
    split at h
    · cases h
    · next handler posted hposted =>
      cases handler with
      | doStart => exact Option.some.inj h ▸ .doStart elapsed posted hposted
      | doStop => exact Option.some.inj h ▸ .doStop elapsed posted hposted
  | runCompletion index elapsed choice =>
    simp only [TickLoop.step] at h
    split at h
    · cases h
    · next result hresult =>
      exact Option.some.inj h ▸ .runCompletion index elapsed choice result hresult

/-! ### The invariant -/

/-- The handlers that are posted once the last `stop` overtook no `doStart`: those of
`stop` calls, then those of later `start` calls. -/
def InOrder (loop : TickLoop σ) : Prop :=
  ∃ stops starts,
    loop.posted = List.replicate stops .doStop ++ List.replicate starts .doStart ∧
      (stops ≠ 0 → loop.state_ = .Stopped) ∧
      (loop.lastCall = some .stop → starts = 0 ∧ loop.state_ = .Stopped) ∧
      (loop.lastCall = some .start → loop.state_ = .Running ∨ starts ≠ 0)

structure Sound (loop : TickLoop σ) : Prop where
  waits_le : loop.tick_timer_.waits ≤ 1
  no_failure : .failed ∉ loop.completions
  stopped : loop.state_ = .Stopped → loop.tick_timer_.waits = 0
  alive : loop.overtookStart = false → loop.state_ = .Running →
    .success ∈ loop.completions ∨ loop.tick_timer_.waits = 1
  in_order : loop.overtookStart = false → InOrder loop
  overtaken : loop.overtookStart = true → loop.state_ = .Running ∨ .doStart ∈ loop.posted

/-- The invariant does not look at the world and at times. -/
theorem Sound.congr {loop loop' : TickLoop σ} (h : Sound loop)
    (state : loop'.state_ = loop.state_)
    (waits : loop'.tick_timer_.waits = loop.tick_timer_.waits)
    (posted : loop'.posted = loop.posted) (completions : loop'.completions = loop.completions)
    (lastCall : loop'.lastCall = loop.lastCall)
    (overtook : loop'.overtookStart = loop.overtookStart) : Sound loop' := by
  constructor
  · rw [waits]; exact h.waits_le
  · rw [completions]; exact h.no_failure
  · rw [state, waits]; exact h.stopped
  · rw [overtook, state, completions, waits]; exact h.alive
  · rw [overtook, InOrder, posted, state, lastCall]; exact h.in_order
  · rw [overtook, state, posted]; exact h.overtaken

theorem not_mem_append_replicate {completions : List WaitResult} {waits : ℕ}
    {result other : WaitResult} (h : result ∉ completions) (hne : result ≠ other) :
    result ∉ completions ++ List.replicate waits other := by
  rw [List.mem_append, not_or]
  exact ⟨h, fun hmem => hne (List.eq_of_mem_replicate hmem)⟩

theorem Sound.start {loop : TickLoop σ} (h : Sound loop) : Sound loop.start where
  waits_le := h.waits_le
  no_failure := h.no_failure
  stopped := h.stopped
  alive := h.alive
  in_order overtook := by
    obtain ⟨stops, starts, hposted, hstops, -, -⟩ := h.in_order overtook
    refine ⟨stops, starts + 1, ?_, hstops, nofun, fun _ => Or.inr (Nat.succ_ne_zero _)⟩
    rw [TickLoop.start, hposted, List.append_assoc, List.replicate_succ']
  overtaken overtook := (h.overtaken overtook).imp_right (List.mem_append_left _)

theorem Sound.stop {loop : TickLoop σ} (h : Sound loop) : Sound loop.stop where
  waits_le := Nat.zero_le 1
  no_failure := not_mem_append_replicate h.no_failure nofun
  stopped _ := rfl
  alive _ := nofun
  in_order overtook := by
    have hnone : .doStart ∉ loop.posted := of_decide_eq_false overtook
    have hstops : loop.posted = List.replicate loop.posted.length .doStop := by
      rw [List.eq_replicate_iff]
      refine ⟨rfl, fun handler hmem => ?_⟩
      cases handler with
      | doStart => exact absurd hmem hnone
      | doStop => rfl
    refine ⟨loop.posted.length + 1, 0, ?_, fun _ => rfl, fun _ => ⟨rfl, rfl⟩, nofun⟩
    rw [List.replicate_succ', ← hstops, List.replicate_zero, List.append_nil]
    rfl
  overtaken overtook := Or.inr (List.mem_append_left _ (of_decide_eq_true overtook))

theorem Sound.waitElapses {loop : TickLoop σ} (h : Sound loop) :
    Sound (loop.completeWaits .success) where
  waits_le := Nat.zero_le 1
  no_failure := not_mem_append_replicate h.no_failure nofun
  stopped _ := rfl
  alive overtook running := by
    left
    rcases h.alive overtook running with hmem | hwait
    · exact List.mem_append_left _ hmem
    · refine List.mem_append_right _ ?_
      rw [hwait]
      exact List.mem_cons_self
  in_order := h.in_order
  overtaken := h.overtaken

/-- Running `doStart` as the first posted handler. -/
theorem Sound.doStart {loop : TickLoop σ} {posted : List Posted} (h : Sound loop)
    (hposted : loop.posted = .doStart :: posted) :
    Sound { loop with posted := posted }.doStart := by
  -- In order, nothing but `doStart` handlers is posted behind a `doStart`.
  have hstarts (overtook : loop.overtookStart = false) :
      loop.lastCall ≠ some .stop ∧ ∃ starts, posted = List.replicate starts .doStart := by
    obtain ⟨stops, starts, horder, -, hstop, -⟩ := h.in_order overtook
    rw [hposted] at horder
    cases stops with
    | succ stops => cases horder
    | zero =>
      cases starts with
      | zero => cases horder
      | succ starts =>
        exact ⟨fun hlast => absurd (hstop hlast).1 (Nat.succ_ne_zero starts), starts,
          (List.cons.inj horder).2⟩
  rcases loop.state_.stopped_or_running with hstate | hstate
  · obtain ⟨deadline, heq⟩ := doStart_of_stopped { loop with posted := posted } hstate
    rw [heq]
    refine ⟨Nat.le_refl 1, not_mem_append_replicate h.no_failure nofun, nofun,
      fun _ _ => Or.inr rfl, fun overtook => ?_, fun _ => Or.inl rfl⟩
    obtain ⟨hlast, starts, rfl⟩ := hstarts overtook
    exact ⟨0, starts, rfl, fun hne => absurd rfl hne, fun hstop => absurd hstop hlast,
      fun _ => Or.inl rfl⟩
  · rw [doStart_of_running { loop with posted := posted } hstate]
    refine ⟨h.waits_le, h.no_failure, h.stopped, h.alive, fun overtook => ?_,
      fun _ => Or.inl hstate⟩
    obtain ⟨hlast, starts, rfl⟩ := hstarts overtook
    exact ⟨0, starts, rfl, fun hne => absurd rfl hne, fun hstop => absurd hstop hlast,
      fun _ => Or.inl hstate⟩

/-- Running `doStop` as the first posted handler. -/
theorem Sound.doStop {loop : TickLoop σ} {posted : List Posted} (h : Sound loop)
    (hposted : loop.posted = .doStop :: posted) :
    Sound (doStop sim { loop with posted := posted }) where
  waits_le := Nat.zero_le 1
  no_failure := not_mem_append_replicate h.no_failure nofun
  stopped _ := rfl
  alive overtook running := by
    -- In order, a posted `doStop` means that the loop is stopped.
    obtain ⟨stops, starts, horder, hstops, -, -⟩ := h.in_order overtook
    rw [hposted] at horder
    cases stops with
    | zero => cases starts <;> cases horder
    | succ stops =>
      have hstopped := hstops (Nat.succ_ne_zero stops)
      rw [show loop.state_ = .Running from running] at hstopped
      cases hstopped
  in_order overtook := by
    obtain ⟨stops, starts, horder, hstops, hstop, hstart⟩ := h.in_order overtook
    rw [hposted] at horder
    cases stops with
    | zero => cases starts <;> cases horder
    | succ stops =>
      exact ⟨stops, starts, (List.cons.inj horder).2, fun _ => hstops (Nat.succ_ne_zero stops),
        hstop, hstart⟩
  overtaken overtook := by
    rcases h.overtaken overtook with hrunning | hmem
    · exact Or.inl hrunning
    · rw [hposted] at hmem
      exact Or.inr ((List.mem_cons.mp hmem).resolve_left nofun)

/-- Running the completion handler of a wait. -/
theorem Sound.doTick {loop : TickLoop σ} {index : ℕ} {result : WaitResult} (h : Sound loop)
    (hresult : loop.completions[index]? = some result) (choice : Choice) :
    Sound (doTick sim { loop with completions := loop.completions.eraseIdx index } choice
      result) := by
  have hfailed : .failed ∉ loop.completions.eraseIdx index :=
    fun hmem => h.no_failure (List.mem_of_mem_eraseIdx hmem)
  have hmem := List.mem_of_getElem? hresult
  cases result with
  | failed => exact absurd hmem h.no_failure
  | operation_aborted =>
    refine ⟨h.waits_le, hfailed, h.stopped, fun overtook running => ?_, h.in_order, h.overtaken⟩
    refine (h.alive overtook running).imp_left fun hsuccess => ?_
    obtain ⟨i, hi⟩ := List.mem_iff_getElem?.mp hsuccess
    refine List.mem_eraseIdx_iff_getElem?.mpr ⟨i, ?_, hi⟩
    rintro rfl
    rw [hresult] at hi
    cases hi
  | success =>
    rcases loop.state_.stopped_or_running with hstate | hstate
    · rw [doTick_of_stopped sim
        { loop with completions := loop.completions.eraseIdx index } hstate]
      exact ⟨h.waits_le, hfailed, h.stopped,
        fun _ running => (nomatch hstate.symm.trans running), h.in_order, h.overtaken⟩
    · obtain ⟨deadline, heq⟩ := doTick_of_running sim
        { loop with completions := loop.completions.eraseIdx index } hstate choice
      rw [heq]
      exact ⟨Nat.le_refl 1, not_mem_append_replicate hfailed nofun,
        fun hstopped => (nomatch hstate.symm.trans hstopped), fun _ _ => Or.inr rfl, h.in_order,
        h.overtaken⟩

/-! ### Runs -/

theorem Sound.step {loop loop' : TickLoop σ} {label : Label Event Choice} (h : Sound loop)
    (noError : label ≠ .waitFails) (hstep : step sim loop label = some loop') : Sound loop' := by
  have hclock (elapsed : ℕ) : Sound { loop with clock := loop.clock + elapsed } :=
    h.congr rfl rfl rfl rfl rfl rfl
  cases transition_of_step sim hstep with
  | start => exact h.start
  | stop => exact h.stop
  | event event => exact h.congr rfl rfl rfl rfl rfl rfl
  | clockAdvances elapsed => exact hclock elapsed
  | waitElapses => exact h.waitElapses
  | waitFails => exact absurd rfl noError
  | doStart elapsed posted hposted => exact (hclock elapsed).doStart hposted
  | doStop elapsed posted hposted => exact (hclock elapsed).doStop sim hposted
  | runCompletion index elapsed choice result hresult =>
    exact (hclock elapsed).doTick sim hresult choice

theorem sound_of_run {world : σ} {interval : ℕ} {labels : List (Label Event Choice)}
    {loop : TickLoop σ} (run : (machine sim world interval).run labels = some loop)
    (noError : .waitFails ∉ labels) : Sound loop := by
  refine Machine.run_induction
    (motive := fun labels loop => .waitFails ∉ labels → Sound loop) ?_ ?_ run noError
  · -- The loop is constructed stopped, with nothing posted.
    intro _
    exact ⟨Nat.zero_le 1, nofun, fun _ => rfl, fun _ => nofun,
      fun _ => ⟨0, 0, rfl, fun hne => absurd rfl hne, nofun, nofun⟩, nofun⟩
  · intro labels loop label loop' _ ih hstep hlabels
    rw [List.mem_append, List.mem_singleton, not_or] at hlabels
    exact (ih hlabels.1).step sim (Ne.symm hlabels.2) hstep

/-- A stopped loop that has nothing left to run but clean-ups. -/
structure Dormant (loop : TickLoop σ) : Prop where
  stopped : loop.state_ = .Stopped
  waits : loop.tick_timer_.waits = 0
  posted : .doStart ∉ loop.posted
  completions : loop.completions = []

/-- Without a `start` a dormant loop stays dormant and runs no tick. -/
theorem Dormant.step {loop loop' : TickLoop σ} {label : Label Event Choice}
    (h : Dormant loop) (noStart : label ≠ .start) (hstep : step sim loop label = some loop') :
    Dormant loop' ∧ loop'.current_tick_ = loop.current_tick_ := by
  -- There is no wait that could be cancelled.
  have hcancel (result : WaitResult) :
      loop.completions ++ List.replicate loop.tick_timer_.waits result = [] := by
    rw [h.completions, h.waits]
    rfl
  cases transition_of_step sim hstep with
  | start => exact absurd rfl noStart
  | stop =>
    refine ⟨⟨rfl, rfl, fun hmem => ?_, hcancel _⟩, rfl⟩
    rcases List.mem_append.mp hmem with hmem | hmem
    · exact h.posted hmem
    · cases List.mem_singleton.mp hmem
  | event event => exact ⟨⟨h.1, h.2, h.3, h.4⟩, rfl⟩
  | clockAdvances elapsed => exact ⟨⟨h.1, h.2, h.3, h.4⟩, rfl⟩
  | waitElapses => exact ⟨⟨h.1, rfl, h.3, hcancel _⟩, rfl⟩
  | waitFails => exact ⟨⟨h.1, rfl, h.3, hcancel _⟩, rfl⟩
  | doStart elapsed posted hposted =>
    have hnone := h.posted
    rw [hposted, List.mem_cons, not_or] at hnone
    exact absurd rfl hnone.1
  | doStop elapsed posted hposted =>
    have hnone := h.posted
    rw [hposted, List.mem_cons, not_or] at hnone
    exact ⟨⟨h.1, rfl, hnone.2, hcancel _⟩, rfl⟩
  | runCompletion index elapsed choice result hresult =>
    rw [h.completions, List.getElem?_nil] at hresult
    cases hresult

theorem Dormant.idle {loop : TickLoop σ} (h : Dormant loop) : Idle sim loop := by
  intro labels later run noStart
  refine (Machine.runFrom_induction
    (motive := fun later => Dormant later ∧ later.current_tick_ = loop.current_tick_) ?_
    ⟨h, rfl⟩ run).2
  rintro loop' label hlabel loop'' ⟨hdormant, htick⟩ hstep
  obtain ⟨hdormant', htick'⟩ :=
    hdormant.step sim (fun heq => noStart (heq ▸ hlabel)) hstep
  exact ⟨hdormant', htick'.trans htick⟩

/-- In every quiescent state of a run whose timer does not fail, the loop obeys the last
call of its controlling thread, unless the last `stop` came while a `doStart` was still
posted; after such a `stop` it does not obey. -/
theorem obeys_of_quiescent {world : σ} {interval : ℕ} {labels : List (Label Event Choice)}
    {loop : TickLoop σ} (run : (machine sim world interval).run labels = some loop)
    (noError : .waitFails ∉ labels) (quiescent : Quiescent loop) :
    (loop.overtookStart = false → Obeys sim loop) ∧
      (loop.lastCall = some .stop → Obeys sim loop → loop.overtookStart = false) := by
  have h := sound_of_run sim run noError
  obtain ⟨hposted, hcompletions⟩ := quiescent
  constructor
  · intro overtook
    obtain ⟨stops, starts, horder, -, hstop, hstart⟩ := h.in_order overtook
    rw [hposted] at horder
    -- Nothing is posted, so no `doStart` is left that the last `start` waits for.
    have hstarts : starts = 0 := by
      have hlength := congrArg List.length horder
      simp only [List.length_nil, List.length_append, List.length_replicate] at hlength
      omega
    unfold Obeys
    cases hlast : loop.lastCall with
    | none => trivial
    | some call =>
      cases call with
      | start =>
        have hrunning := (hstart hlast).resolve_right (not_not.mpr hstarts)
        refine ⟨hrunning, (h.alive overtook hrunning).resolve_left ?_⟩
        rw [hcompletions]
        exact List.not_mem_nil
      | stop =>
        have hstopped := (hstop hlast).2
        have hwaits := h.stopped hstopped
        refine ⟨hstopped, hwaits, Dormant.idle sim ⟨hstopped, hwaits, ?_, hcompletions⟩⟩
        rw [hposted]
        exact List.not_mem_nil
  · intro hlast hobeys
    rw [Obeys, hlast] at hobeys
    by_contra hovertook
    -- The overtaken `doStart` has run and set the loop running.
    rcases h.overtaken (Bool.eq_true_of_not_eq_false hovertook) with hrunning | hmem
    · exact nomatch hobeys.1.symm.trans hrunning
    · rw [hposted] at hmem
      cases hmem

/-! ### The world -/

/-- The event a label brings. -/
def Label.event? : Label Event Choice → Option Event
  | .event e => some e
  | _ => none

/-- What a label that brings no event can do to the world. -/
inductive Effect (loop loop' : TickLoop σ) : Prop
  | nothing (eq : loop'.world = loop.world)
  | discard (eq : loop'.world = sim.discardActions loop.world)
  | tick (choice : Choice) (eq : loop'.world =
      sim.runTickStep choice loop.tick_interval_ loop.current_tick_ loop.world)

/-- What a label can do to the world. -/
theorem step_world {loop loop' : TickLoop σ} {label : Label Event Choice}
    (hstep : step sim loop label = some loop') :
    loop'.tick_interval_ = loop.tick_interval_ ∧
      match label.event? with
      | some event => loop'.world = sim.onEvent event loop.world
      | none => Effect sim loop loop' := by
  cases transition_of_step sim hstep with
  | start => exact ⟨rfl, Effect.nothing rfl⟩
  | stop => exact ⟨rfl, Effect.nothing rfl⟩
  | event event => exact ⟨rfl, rfl⟩
  | clockAdvances elapsed => exact ⟨rfl, Effect.nothing rfl⟩
  | waitElapses => exact ⟨rfl, Effect.nothing rfl⟩
  | waitFails => exact ⟨rfl, Effect.nothing rfl⟩
  | doStart elapsed posted =>
    unfold TickLoop.doStart
    split_ifs
    · exact ⟨rfl, Effect.nothing rfl⟩
    · exact ⟨rfl, Effect.nothing rfl⟩
  | doStop elapsed posted => exact ⟨rfl, Effect.discard rfl⟩
  | runCompletion index elapsed choice result =>
    cases result with
    | operation_aborted => exact ⟨rfl, Effect.nothing rfl⟩
    | failed => exact ⟨rfl, Effect.discard rfl⟩
    | success =>
      -- Only a wait that ends in time makes a tick, and only of a running loop.
      rcases loop.state_.stopped_or_running with hstate | hstate
      · rw [doTick_of_stopped sim
          { loop with
            completions := loop.completions.eraseIdx index
            clock := loop.clock + elapsed } hstate]
        exact ⟨rfl, Effect.nothing rfl⟩
      · obtain ⟨deadline, heq⟩ := doTick_of_running sim
          { loop with
            completions := loop.completions.eraseIdx index
            clock := loop.clock + elapsed } hstate choice
        rw [heq]
        exact ⟨rfl, Effect.tick choice rfl⟩

/-! ### Starting and stopping -/

/-- A world in which nothing happens. -/
def stillWorld : Simulation Unit Unit Unit := ⟨fun _ _ _ world => world, id, fun _ => id⟩

/-- A loop that is started and stopped, handler by handler. -/
def startThenStop : List (Label Unit Unit) :=
  [.start, .runPosted 0, .stop, .runPosted 0, .runCompletion 0 0 ()]

/-- The same calls when `stop` comes before the first posted handler runs. -/
def stopOvertakesStart : List (Label Unit Unit) :=
  [.start, .stop, .runPosted 0, .runPosted 0, .runCompletion 0 0 ()]

theorem obeys_startThenStop :
    ∃ loop, (machine stillWorld () 16666).run startThenStop = some loop ∧
      loop.lastCall = some .stop ∧ Obeys stillWorld loop := by
  have hrun : ((machine stillWorld () 16666).run startThenStop).map
      (fun loop => (loop.posted, loop.completions, loop.lastCall, loop.overtookStart)) =
        some ([], [], some .stop, false) := by decide
  obtain ⟨loop, hloop, heq⟩ := Option.map_eq_some_iff.mp hrun
  simp only [Prod.mk.injEq] at heq
  obtain ⟨hposted, hcompletions, hlast, hovertook⟩ := heq
  exact ⟨loop, hloop, hlast, (obeys_of_quiescent stillWorld hloop (by simp [startThenStop])
    ⟨hposted, hcompletions⟩).1 hovertook⟩

/-- A `stop` that is called while the `doStart` of the last `start` is still posted
leaves the loop running on no wait. -/
theorem not_obeys_stopOvertakesStart :
    ¬ ∀ labels loop, (machine stillWorld () 16666).run labels = some loop →
      .waitFails ∉ labels → Quiescent loop → Obeys stillWorld loop := by
  intro hall
  have hrun : ((machine stillWorld () 16666).run stopOvertakesStart).map
      (fun loop => (loop.posted, loop.completions, loop.lastCall, loop.state_)) =
        some ([], [], some .stop, .Running) := by decide
  obtain ⟨loop, hloop, heq⟩ := Option.map_eq_some_iff.mp hrun
  simp only [Prod.mk.injEq] at heq
  obtain ⟨hposted, hcompletions, hlast, hstate⟩ := heq
  have hobeys := hall _ loop hloop (by simp [stopOvertakesStart]) ⟨hposted, hcompletions⟩
  rw [Obeys, hlast] at hobeys
  exact nomatch hobeys.1.symm.trans hstate

end TickLoop

end SpaceShooter.Server
