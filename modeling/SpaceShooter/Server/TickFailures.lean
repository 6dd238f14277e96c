/-
# Failing ticks

The handler of a tick with its two layers of exception handling. The declarations promise
that an exception of any stage reaches the outer layer, which stops the loop and does not
count the tick. The inner layer swallows it, so the outer one never sees a failed stage:
the tick is counted and the loop, whose timer is armed already, goes on.
-/

import SpaceShooter.Library.Outcome
import SpaceShooter.Server.WorldInvariant

namespace SpaceShooter.Server

open Scalar Library Library.Outcome Snapshot

namespace TickLoop

/-! ### The handler -/

/-- The stages of a tick, any of which may throw and then leaves what it has done. -/
structure Stages (σ ε Choice Join Picture : Type) where
  processInputQueue : Choice → EStateM ε σ (List Join)
  updatePhysics : ℕ → EStateM ε σ PUnit
  resolveCollisions : Choice → EStateM ε σ PUnit
  maintainAsteroidPopulation : Choice → EStateM ε σ PUnit
  spawnShips : List Join → EStateM ε σ PUnit
  buildGameSnapshot : UInt64 → EStateM ε σ Picture
  broadcastSnapshot : Choice → Picture → EStateM ε σ PUnit

variable {σ ε Event Choice Join Picture : Type}

namespace Stages

variable (stages : Stages σ ε Choice Join Picture)

/-- The stages in their order. -/
def body (choice : Choice) (tick_interval : ℕ) (current_tick : UInt64) : EStateM ε σ PUnit := do
  let new_players ← stages.processInputQueue choice
  stages.updatePhysics tick_interval
  stages.resolveCollisions choice
  stages.maintainAsteroidPopulation choice
  stages.spawnShips new_players
  let snapshot ← stages.buildGameSnapshot current_tick
  stages.broadcastSnapshot choice snapshot

/-- The exceptions of the stages are logged. -/
def runTickStep (choice : Choice) (tick_interval : ℕ) (current_tick : UInt64) :
    EStateM ε σ PUnit :=
  tryCatch (stages.body choice tick_interval current_tick) fun _ => pure ()

/-- A stage of the tick throws. -/
def Throws (choice : Choice) (tick_interval : ℕ) (current_tick : UInt64) (world : σ) : Prop :=
  ∃ e world', stages.body choice tick_interval current_tick world = .error e world'

/-- What the loop drives. -/
def simulation (discardActions : σ → σ) (onEvent : Event → σ → σ) :
    Simulation σ Event Choice where
  runTickStep choice tick_interval current_tick world :=
    resultState (stages.body choice tick_interval current_tick world)
  discardActions := discardActions
  onEvent := onEvent

end Stages

/-- A computation on the world of the loop. -/
def onWorld (program : EStateM ε σ PUnit) : EStateM ε (TickLoop σ) PUnit := fun loop =>
  match program loop.world with
  | .ok _ world => .ok ⟨⟩ { loop with world := world }
  | .error e world => .error e { loop with world := world }

/-- What the completion handler of a wait tries to do. -/
def tryTick (stages : Stages σ ε Choice Join Picture) (sim : Simulation σ Event Choice)
    (choice : Choice) : WaitResult → EStateM ε (TickLoop σ) PUnit
  | .operation_aborted => pure ()
  | .failed => modify fun loop => shutdownTickLoop sim { loop with state_ := .Stopped }
  | .success => do
    let loop ← get
    if loop.state_ ≠ .Running then
      pure ()
    else
      modify scheduleNextTick
      onWorld (stages.runTickStep choice loop.tick_interval_ loop.current_tick_)
      modify fun loop => { loop with current_tick_ := loop.current_tick_ + 1 }

/-- The completion handler of a wait. -/
def handleTick (stages : Stages σ ε Choice Join Picture) (sim : Simulation σ Event Choice)
    (choice : Choice) (result : WaitResult) : EStateM ε (TickLoop σ) PUnit :=
  tryCatch (tryTick stages sim choice result) fun _ =>
    modify fun loop => shutdownTickLoop sim { loop with state_ := .Stopped }

/-- Nothing that a stage throws gets out of `runTickStep`. -/
theorem runTickStep_apply (stages : Stages σ ε Choice Join Picture) (choice : Choice)
    (tick_interval : ℕ) (current_tick : UInt64) (world : σ) :
    stages.runTickStep choice tick_interval current_tick world =
      .ok ⟨⟩ (resultState (stages.body choice tick_interval current_tick world)) := by
  change EStateM.tryCatch _ _ world = _
  unfold EStateM.tryCatch
  cases stages.body choice tick_interval current_tick world with
  | ok _ world' => rfl
  | error e world' => rfl

/-- No exception reaches the outer layer, and the handler does what the loop's does. -/
theorem tryTick_apply (stages : Stages σ ε Choice Join Picture) (discardActions : σ → σ)
    (onEvent : Event → σ → σ) (choice : Choice) (result : WaitResult) (loop : TickLoop σ) :
    tryTick stages (stages.simulation discardActions onEvent) choice result loop =
      .ok ⟨⟩ (doTick (stages.simulation discardActions onEvent) loop choice result) := by
  cases result with
  | operation_aborted => rfl
  | failed => rfl
  | success =>
    change (if loop.state_ ≠ .Running then (pure ⟨⟩ : EStateM ε (TickLoop σ) PUnit) else _) loop = _
    by_cases hstopped : loop.state_ ≠ .Running
    · rw [if_pos hstopped, doTick, if_pos hstopped]
      rfl
    · rw [if_neg hstopped, doTick, if_neg hstopped]
      obtain ⟨deadline, hschedule⟩ := scheduleNextTick_of_running (not_not.mp hstopped)
      rw [bind_apply]
      change (onWorld _ >>= _) loop.scheduleNextTick = _
      rw [bind_apply, onWorld, runTickStep_apply, hschedule]
      rfl

theorem handleTick_apply (stages : Stages σ ε Choice Join Picture) (discardActions : σ → σ)
    (onEvent : Event → σ → σ) (choice : Choice) (result : WaitResult) (loop : TickLoop σ) :
    handleTick stages (stages.simulation discardActions onEvent) choice result loop =
      .ok ⟨⟩ (doTick (stages.simulation discardActions onEvent) loop choice result) := by
  change EStateM.tryCatch _ _ loop = _
  unfold EStateM.tryCatch
  rw [tryTick_apply]

/-! ### After a failure -/

/-- What the declarations promise of a tick that fails. -/
structure StopsUncounted (sim : Simulation σ Event Choice) (loop loop' : TickLoop σ) : Prop where
  uncounted : loop'.current_tick_ = loop.current_tick_
  stopped : loop'.state_ = .Stopped
  idle : Idle sim loop'

/-- A running loop with a wait ticks again without a further call. -/
theorem exists_tick (sim : Simulation σ Event Choice) {loop : TickLoop σ}
    (hrunning : loop.state_ = .Running) (hwait : loop.tick_timer_.waits = 1) (choice : Choice) :
    ∃ elapsed index later,
      (machine sim loop.world loop.tick_interval_).runFrom loop
        [.clockAdvances elapsed, .waitElapses, .runCompletion index 0 choice] = some later ∧
      later.current_tick_ = loop.current_tick_ + 1 ∧
      later.world = sim.runTickStep choice loop.tick_interval_ loop.current_tick_ loop.world := by
  let elapsed := (loop.tick_timer_.expiry - loop.clock).toNat
  let due : TickLoop σ := { loop with clock := loop.clock + elapsed }
  let completed : TickLoop σ := due.completeWaits .success
  let ready : TickLoop σ := { completed with
    completions := completed.completions.eraseIdx loop.completions.length
    clock := completed.clock + (0 : ℕ) }
  have hdue : due.tick_timer_.expiry ≤ due.clock := by
    change loop.tick_timer_.expiry ≤ loop.clock + elapsed
    omega
  have hlast : completed.completions[loop.completions.length]? = some .success := by
    change (loop.completions ++ List.replicate loop.tick_timer_.waits .success)[_]? = _
    rw [hwait, List.replicate_one, List.getElem?_concat_length]
  have hstep : step sim completed (.runCompletion loop.completions.length 0 choice) =
      some (doTick sim ready choice .success) := by
    rw [step, hlast]
  obtain ⟨deadline, htick⟩ := doTick_of_running sim ready hrunning choice
  refine ⟨elapsed, loop.completions.length, doTick sim ready choice .success, ?_, ?_, ?_⟩
  · exact Machine.runFrom_cons.mpr ⟨due, rfl, Machine.runFrom_cons.mpr ⟨completed, if_pos hdue,
      Machine.runFrom_cons.mpr ⟨_, hstep, rfl⟩⟩⟩
  · exact congrArg current_tick_ htick
  · exact congrArg world htick

theorem ne_add_one (tick : UInt64) : tick ≠ tick + 1 := by
  intro h
  have hnat := congrArg UInt64.toNat h
  have hlt := tick.toNat_lt
  rw [UInt64.toNat_add, UInt64.toNat_one] at hnat
  omega

/-- Where a stage of a tick throws, nothing that is promised holds: the tick is counted, the
loop is running on the world that the stage has left, and it ticks again without a further call.
The loop does not see the failure. -/
theorem counted_of_throws (stages : Stages σ ε Choice Join Picture) (discardActions : σ → σ)
    (onEvent : Event → σ → σ) {loop loop' : TickLoop σ} {choice : Choice}
    (hrunning : loop.state_ = .Running)
    (hthrows : stages.Throws choice loop.tick_interval_ loop.current_tick_ loop.world)
    (hhandled : handleTick stages (stages.simulation discardActions onEvent) choice .success loop =
      .ok ⟨⟩ loop') :
    ¬ StopsUncounted (stages.simulation discardActions onEvent) loop loop' ∧
      loop'.current_tick_ = loop.current_tick_ + 1 ∧ loop'.state_ = .Running ∧
      ¬ Idle (stages.simulation discardActions onEvent) loop' ∧
      ∃ e, stages.body choice loop.tick_interval_ loop.current_tick_ loop.world =
        .error e loop'.world := by
  rw [handleTick_apply] at hhandled
  obtain ⟨deadline, htick⟩ :=
    doTick_of_running (stages.simulation discardActions onEvent) loop hrunning choice
  have heq := htick.symm.trans (EStateM.Result.ok.inj hhandled).2
  have hcurrent : loop'.current_tick_ = loop.current_tick_ + 1 := by rw [← heq]
  have hstate : loop'.state_ = .Running := by rw [← heq, hrunning]
  have hwaits : loop'.tick_timer_.waits = 1 := by rw [← heq]
  have hworld : loop'.world =
      resultState (stages.body choice loop.tick_interval_ loop.current_tick_ loop.world) := by
    rw [← heq]
    rfl
  refine ⟨fun h => ?_, hcurrent, hstate, fun hidle => ?_, ?_⟩
  · cases h.stopped.symm.trans hstate
  · obtain ⟨elapsed, index, later, hrun, hcounted, -⟩ :=
      exists_tick (stages.simulation discardActions onEvent) hstate hwaits choice
    have hsame := hidle _ later hrun (by simp)
    exact ne_add_one _ (hsame.symm.trans hcounted)
  · obtain ⟨e, world', hbody⟩ := hthrows
    rw [hbody] at hworld
    exact ⟨e, hworld ▸ hbody⟩

end TickLoop

/-! ### The stages of the world -/

namespace World

variable {K : Type} [Scalar K] (ext : Externals K)

open TickLoop

def stages :
    TickLoop.Stages (World K) StdException (TickChoice K) PendingJoin (GameSnapshot K) where
  processInputQueue _ := do
    let world ← get
    let (world, new_players) := world.processInputQueue []
    set world
    return new_players
  updatePhysics tick_interval := modify fun world =>
    world.updatePhysics (secondsOfMicros tick_interval)
  resolveCollisions := resolveCollisions
  maintainAsteroidPopulation choice := modify fun world =>
    world.maintainAsteroidPopulation choice
  spawnShips new_players := modify fun world => world.spawnShips new_players
  buildGameSnapshot current_tick := do
    let world ← get
    return world.buildGameSnapshot ext current_tick
  broadcastSnapshot := broadcastSnapshot ext

/-- The stages one by one are the tick of the world. -/
theorem body_stages (choice : TickChoice K) (tick_interval : ℕ) (current_tick : UInt64)
    (world : World K) :
    (stages ext).body choice tick_interval current_tick world =
      runTickStages ext choice tick_interval current_tick world := by
  rw [runTickStages_eq, simulateTick_eq]
  change (resolveCollisions choice >>= fun _ => _)
    ((world.processInputQueue []).1.updatePhysics (secondsOfMicros tick_interval)) = _
  rw [bind_apply]
  cases resolveCollisions choice
      ((world.processInputQueue []).1.updatePhysics (secondsOfMicros tick_interval)) with
  | ok _ mid => rfl
  | error e mid => rfl

theorem simulation_stages : (stages ext).simulation discardActions onEvent = simulation ext := by
  unfold TickLoop.Stages.simulation simulation runTickStep
  congr 1
  funext choice tick_interval current_tick world
  rw [body_stages]

section Exact

attribute [local instance] RationalScalar.rational

/-- Whatever is published, its subscriber throws; an empty world only broadcasts. -/
def refusingChoice : TickChoice ℚ where
  uniform _ low _ := low
  refuses _ := some (.runtime_error "subscriber")
  order sessions := sessions
  order_perm := List.Perm.refl

/-- The first tick is due. -/
def firstTick : List (Label (NetworkEvent ℚ) (TickChoice ℚ)) :=
  [.start, .runPosted 0, .clockAdvances 16666000, .waitElapses]

def exactLoop : Machine (TickLoop (World ℚ)) (Label (NetworkEvent ℚ) (TickChoice ℚ)) :=
  TickLoop.machine (simulation exactExternals) (empty World.kDefaultWidth World.kDefaultHeight)
    16666

/-- The loop is running, and its tick fails when it broadcasts. -/
theorem throws_firstTick : ∃ loop, exactLoop.run firstTick = some loop ∧
    loop.state_ = .Running ∧ (stages exactExternals).Throws refusingChoice loop.tick_interval_
      loop.current_tick_ loop.world := by
  have hend : ∃ loop ∈ exactLoop.run firstTick, loop.state_ = .Running ∧
      (match runTickStages exactExternals refusingChoice loop.tick_interval_ loop.current_tick_
        loop.world with
      | .ok _ _ => false
      | .error _ _ => true) = true := by decide +kernel
  obtain ⟨loop, hrun, hrunning, hfails⟩ := hend
  refine ⟨loop, hrun, hrunning, ?_⟩
  rw [TickLoop.Stages.Throws, body_stages]
  cases hresult : runTickStages exactExternals refusingChoice loop.tick_interval_
      loop.current_tick_ loop.world with
  | ok _ world => rw [hresult] at hfails; cases hfails
  | error e world => exact ⟨e, world, rfl⟩

theorem counted_firstTick :
    ∃ loop loop', exactLoop.run firstTick = some loop ∧
      handleTick (stages exactExternals) (simulation exactExternals) refusingChoice .success loop =
        .ok ⟨⟩ loop' ∧
      ¬ StopsUncounted (simulation exactExternals) loop loop' ∧ loop'.state_ = .Running := by
  obtain ⟨loop, hrun, hrunning, hthrows⟩ := throws_firstTick
  rw [← simulation_stages]
  obtain ⟨hnot, -, hstate, -⟩ := counted_of_throws (stages exactExternals) discardActions onEvent
    hrunning hthrows (handleTick_apply _ _ _ _ _ _)
  exact ⟨loop, _, hrun, handleTick_apply _ _ _ _ _ _, hnot, hstate⟩

/-- A tick that fails in its broadcast is counted, and the loop runs on. -/
theorem not_stopsUncounted_firstTick :
    ¬ ∀ labels loop loop', exactLoop.run labels = some loop → loop.state_ = .Running →
      (stages exactExternals).Throws refusingChoice loop.tick_interval_ loop.current_tick_
        loop.world →
      handleTick (stages exactExternals) (simulation exactExternals) refusingChoice .success loop =
        .ok ⟨⟩ loop' →
      StopsUncounted (simulation exactExternals) loop loop' := by
  intro hall
  obtain ⟨loop, hrun, hrunning, hthrows⟩ := throws_firstTick
  have hhandled := handleTick_apply (stages exactExternals) discardActions onEvent refusingChoice
    .success loop
  rw [simulation_stages] at hhandled
  have hstopped := (hall firstTick loop _ hrun hrunning hthrows hhandled).stopped
  obtain ⟨deadline, htick⟩ :=
    doTick_of_running (simulation exactExternals) loop hrunning refusingChoice
  rw [htick] at hstopped
  cases hstopped.symm.trans hrunning

end Exact

end World

end SpaceShooter.Server
