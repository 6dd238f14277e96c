/-
# Commands across a restart

The clean-up that `stop` posts empties the input queue, so that commands that have piled up
do not come alive when the loop is started again. It runs once, at its place on the strand:
a command that is enqueued behind it and before the restart stays in the queue, and the
first tick after the restart applies it. The same happens to a command that comes after a
`stop` in the middle of a tick. Nothing else revives a command.

A tick is taken apart here, since other threads may call `stop` and enqueue actions between
the check that the loop is running and the drain of the queue.
-/

import SpaceShooter.Server.Departures
import SpaceShooter.Server.TickFailures

namespace SpaceShooter.Server

open Scalar Library

variable {K : Type}

/-- How far the handler of a tick has come. -/
inductive Restarting.Phase
  | idle
  | checked
  | scheduled
  deriving DecidableEq, Repr

/-- A loop, the handler of a tick on its strand, and the history of its queue. -/
structure Restarting (K : Type) where
  loop : TickLoop (World K)
  phase : Restarting.Phase := .idle
  /-- History: `stop` has been called, and no `doStart` has restarted the loop since. -/
  halted : Bool := false
  /-- History: the actions in the queue, and whether they came while the loop was halted. -/
  queued : List (ActionEvent K × Bool) := []
  /-- History: the actions that ticks have drained. -/
  applied : List (ActionEvent K × Bool) := []

namespace Restarting

/-- What can happen next. -/
inductive Label (K : Type)
  /-- A label of the loop, other than the handler of a wait. -/
  | loop (label : TickLoop.Label (ActionEvent K) (World.TickChoice K))
  /-- The handler of a wait runs up to the check that the loop is running. -/
  | runCompletion (index elapsed : ℕ)
  | scheduleNextTick
  | runTickStep (choice : World.TickChoice K)

/-- Whether the next posted handler restarts the loop. -/
def restarts (r : Restarting K) : Prop :=
  r.loop.posted.head? = some .doStart ∧ r.loop.state_ = .Stopped

instance (r : Restarting K) : Decidable r.restarts :=
  inferInstanceAs (Decidable (_ ∧ _))

/-- What a label of the loop adds to the history. -/
def record (r : Restarting K) : TickLoop.Label (ActionEvent K) (World.TickChoice K) → Restarting K
  | .stop => { r with halted := true }
  | .event action => { r with queued := r.queued ++ [(action, r.halted)] }
  | .runPosted _ =>
    if r.restarts then { r with halted := false }
    else if r.loop.posted.head? = some .doStop then { r with queued := [] }
    else r
  | _ => r

/-- No action is enqueued between a `stop` in the middle of a tick and the drain of that
tick, and a restart finds no action that came while the loop was halted. -/
def Swept (r : Restarting K) : Label K → Prop
  | .loop (.event _) => r.halted = true → r.phase = .idle
  | .loop (.runPosted _) => r.restarts → ∀ entry ∈ r.queued, entry.2 = false
  | _ => True

instance (r : Restarting K) (label : Label K) : Decidable (r.Swept label) := by
  unfold Swept
  split <;> infer_instance

/-! ### The queue and its history -/

/-- The history agrees with the queue, and what came while the loop was halted is there only
as long as the loop is halted and no tick is on its way. -/
structure Fresh (r : Restarting K) : Prop where
  sound : r.loop.world.Sound
  recorded : r.queued.map Prod.fst = r.loop.world.action_queue_
  halted : r.halted = true → r.loop.state_ = .Stopped
  queued : ∀ entry ∈ r.queued, entry.2 = true → r.halted = true ∧ r.phase = .idle
  applied : ∀ entry ∈ r.applied, entry.2 = false

variable {r r' : Restarting K}

theorem Fresh.enqueue (h : Fresh r) {action : ActionEvent K}
    (hswept : r.halted = true → r.phase = .idle) :
    Fresh { r with
      loop := { r.loop with world := r.loop.world.enqueueAction action }
      queued := r.queued ++ [(action, r.halted)] } where
  sound := h.sound.congr rfl rfl rfl
  recorded := by
    rw [List.map_append, h.recorded]
    rfl
  halted := h.halted
  queued entry hmem hstale := by
    rcases List.mem_append.mp hmem with hold | hnew
    · exact h.queued entry hold hstale
    · obtain rfl := List.mem_singleton.mp hnew
      exact ⟨hstale, hswept hstale⟩
  applied := h.applied

/-- What does not touch the queue. -/
theorem Fresh.congr (h : Fresh r) {loop : TickLoop (World K)} (world : loop.world = r.loop.world)
    (state : r.halted = true → loop.state_ = .Stopped) : Fresh { r with loop := loop } where
  sound := by rw [world]; exact h.sound
  recorded := by rw [world]; exact h.recorded
  halted := state
  queued := h.queued
  applied := h.applied

theorem scheduleNextTick_frame (loop : TickLoop (World K)) :
    loop.scheduleNextTick.world = loop.world ∧ loop.scheduleNextTick.state_ = loop.state_ := by
  rcases loop.state_.stopped_or_running with hstate | hstate
  · rw [TickLoop.scheduleNextTick, if_pos (by rw [hstate]; exact fun h => by cases h)]
    exact ⟨rfl, rfl⟩
  · obtain ⟨deadline, hschedule⟩ := TickLoop.scheduleNextTick_of_running hstate
    rw [hschedule]
    exact ⟨rfl, rfl⟩

/-- The clean-up. -/
theorem Fresh.discard (h : Fresh r) {loop : TickLoop (World K)}
    (world : loop.world = r.loop.world.discardActions)
    (state : r.halted = true → loop.state_ = .Stopped) :
    Fresh { r with loop := loop, queued := [] } where
  sound := by rw [world]; exact h.sound.congr rfl rfl rfl
  recorded := by rw [world]; rfl
  halted := state
  queued _ hmem := by cases hmem
  applied := h.applied

/-- Once the loop has been found running, or a tick is on its way, nothing in the queue is
stale. -/
theorem Fresh.queue_fresh (h : Fresh r) (hbusy : r.loop.state_ = .Running ∨ r.phase ≠ .idle)
    {entry : ActionEvent K × Bool} (hmem : entry ∈ r.queued) : entry.2 = false := by
  by_contra hstale
  obtain ⟨hhalted, hidle⟩ := h.queued entry hmem (Bool.eq_true_of_not_eq_false hstale)
  rcases hbusy with hrunning | hphase
  · cases hrunning.symm.trans (h.halted hhalted)
  · exact hphase hidle

/-! ### The machine -/

variable [Scalar K] (ext : Externals K)

/-- The world of a loop into whose queue any action may be put. -/
def commanded : Simulation (World K) (ActionEvent K) (World.TickChoice K) where
  runTickStep := World.runTickStep ext
  discardActions := World.discardActions
  onEvent action world := world.enqueueAction action

def step (r : Restarting K) : Label K → Option (Restarting K)
  | .loop label =>
    match label with
    | .runCompletion _ _ _ => none
    | .runPosted elapsed =>
      -- The strand runs one handler at a time.
      if r.phase = .idle then
        (TickLoop.step (commanded ext) r.loop (.runPosted elapsed)).map fun loop =>
          { r.record (.runPosted elapsed) with loop := loop }
      else none
    | label =>
      (TickLoop.step (commanded ext) r.loop label).map fun loop =>
        { r.record label with loop := loop }
  | .runCompletion index elapsed =>
    if r.phase = .idle then
      match r.loop.completions[index]? with
      | none => none
      | some result =>
        let loop := { r.loop with
          completions := r.loop.completions.eraseIdx index
          clock := r.loop.clock + elapsed }
        match result with
        | .operation_aborted => some { r with loop := loop }
        | .failed =>
          some { r with
            loop := TickLoop.shutdownTickLoop (commanded ext) { loop with state_ := .Stopped }
            queued := [] }
        | .success =>
          some { r with
            loop := loop
            phase := if loop.state_ ≠ .Running then .idle else .checked }
    else none
  | .scheduleNextTick =>
    if r.phase = .checked then
      some { r with loop := r.loop.scheduleNextTick, phase := .scheduled }
    else none
  | .runTickStep choice =>
    if r.phase = .scheduled then
      some { r with
        loop := { r.loop with
          world := World.runTickStep ext choice r.loop.tick_interval_ r.loop.current_tick_
            r.loop.world
          current_tick_ := r.loop.current_tick_ + 1 }
        phase := .idle
        queued := []
        applied := r.applied ++ r.queued }
    else none

def machine (world_width world_height : K) (tick_interval : ℕ) :
    Machine (Restarting K) (Label K) where
  init :=
    { loop := { world := World.empty world_width world_height, tick_interval_ := tick_interval } }
  step := step ext

/-! ### A tick without interruption -/

variable {ext}

/-- A label of the loop does to the loop what it does, and posted handlers wait for the end of
the tick. -/
theorem step_loop {r r' : Restarting K}
    {label : TickLoop.Label (ActionEvent K) (World.TickChoice K)}
    (hstep : step ext r (.loop label) = some r') :
    ∃ loop, TickLoop.step (commanded ext) r.loop label = some loop ∧
      r' = { r.record label with loop := loop } ∧
      (∀ elapsed, label = .runPosted elapsed → r.phase = .idle) ∧
      ∀ index elapsed choice, label ≠ .runCompletion index elapsed choice := by
  cases label with
  | runCompletion index elapsed choice => cases hstep
  | runPosted elapsed =>
    by_cases hidle : r.phase = .idle
    · rw [step, if_pos hidle] at hstep
      obtain ⟨loop, hloop, heq⟩ := Option.map_eq_some_iff.mp hstep
      exact ⟨loop, hloop, heq.symm, fun _ _ => hidle, fun _ _ _ h => (by cases h)⟩
    · rw [step, if_neg hidle] at hstep
      cases hstep
  | _ =>
    simp only [step] at hstep
    obtain ⟨loop, hloop, heq⟩ := Option.map_eq_some_iff.mp hstep
    exact ⟨loop, hloop, heq.symm, fun _ h => (by cases h), fun _ _ _ h => (by cases h)⟩

/-- The phases of a handler, one right after the other, are the handler. -/
theorem exists_phases {world_width world_height : K} {tick_interval : ℕ} {r : Restarting K}
    {index elapsed : ℕ} {choice : World.TickChoice K} {loop : TickLoop (World K)}
    (hidle : r.phase = .idle)
    (hstep : TickLoop.step (commanded ext) r.loop (.runCompletion index elapsed choice) =
      some loop) :
    ∃ labels r', (machine ext world_width world_height tick_interval).runFrom r labels = some r' ∧
      r'.loop = loop ∧ r'.phase = .idle := by
  cases TickLoop.transition_of_step (commanded ext) hstep with
  | runCompletion _ _ _ result hresult =>
    -- Every completion begins with the phase that checks its result.
    have hbegin (r' : Restarting K) (h : step ext r (.runCompletion index elapsed) = some r') :
        (machine ext world_width world_height tick_interval).runFrom r
          [.runCompletion index elapsed] = some r' :=
      Machine.runFrom_cons.mpr ⟨r', h, rfl⟩
    cases result with
    | operation_aborted =>
      have hready : step ext r (.runCompletion index elapsed) = some { r with
          loop := { r.loop with
            completions := r.loop.completions.eraseIdx index
            clock := r.loop.clock + elapsed } } := by
        rw [step, if_pos hidle, hresult]
      exact ⟨_, _, hbegin _ hready, rfl, hidle⟩
    | failed =>
      have hready : step ext r (.runCompletion index elapsed) = some { r with
          loop := TickLoop.shutdownTickLoop (commanded ext) { r.loop with
            completions := r.loop.completions.eraseIdx index
            clock := r.loop.clock + elapsed
            state_ := .Stopped }
          queued := [] } := by
        rw [step, if_pos hidle, hresult]
      exact ⟨_, _, hbegin _ hready, rfl, hidle⟩
    | success =>
      let ready : TickLoop (World K) := { r.loop with
        completions := r.loop.completions.eraseIdx index
        clock := r.loop.clock + elapsed }
      have hready : step ext r (.runCompletion index elapsed) = some { r with
          loop := ready
          phase := if ready.state_ ≠ .Running then .idle else .checked } := by
        rw [step, if_pos hidle, hresult]
      -- A running loop goes through all phases, a stopped one ends at the first.
      by_cases hstopped : ready.state_ ≠ .Running
      · rw [if_pos hstopped] at hready
        refine ⟨_, _, hbegin _ hready, ?_, rfl⟩
        exact (if_pos hstopped).symm
      · rw [if_neg hstopped] at hready
        refine ⟨[.runCompletion index elapsed, .scheduleNextTick, .runTickStep choice], _,
          Machine.runFrom_cons.mpr ⟨_, hready, rfl⟩, ?_, rfl⟩
        exact (if_neg hstopped).symm

/-! ### Runs -/

theorem fresh_init (world_width world_height : K) (tick_interval : ℕ) :
    Fresh (machine ext world_width world_height tick_interval).init where
  sound := World.sound_empty world_width world_height
  recorded := rfl
  halted h := by cases h
  queued _ h := by cases h
  applied _ h := by cases h

theorem Fresh.runPosted (h : Fresh r) {elapsed : ℕ}
    (hswept : r.Swept (.loop (.runPosted elapsed))) {loop : TickLoop (World K)}
    (hloop : TickLoop.step (commanded ext) r.loop (.runPosted elapsed) = some loop) :
    Fresh { r.record (.runPosted elapsed) with loop := loop } := by
  cases TickLoop.transition_of_step (commanded ext) hloop with
  | doStop _ posted hposted =>
    have hhead : r.loop.posted.head? = some .doStop := by rw [hposted]; rfl
    have hkeeps : ¬ r.restarts := fun hrestarts => by cases hhead.symm.trans hrestarts.1
    rw [record, if_neg hkeeps, if_pos hhead]
    exact h.discard rfl h.halted
  | doStart _ posted hposted =>
    have hhead : r.loop.posted.head? = some .doStart := by rw [hposted]; rfl
    rcases r.loop.state_.stopped_or_running with hstate | hstate
    · rw [record, if_pos ⟨hhead, hstate⟩]
      obtain ⟨deadline, hstart⟩ := TickLoop.doStart_of_stopped { r.loop with
        posted := posted, clock := r.loop.clock + elapsed } hstate
      have hfresh := hswept ⟨hhead, hstate⟩
      rw [hstart]
      refine ⟨h.sound, h.recorded, fun hhalted => (by cases hhalted),
        fun entry hmem hstale => ?_, h.applied⟩
      cases (hfresh entry hmem).symm.trans hstale
    · have hkeeps : ¬ r.restarts := fun hrestarts => by cases hstate.symm.trans hrestarts.2
      have hother : r.loop.posted.head? ≠ some .doStop := fun hstop => by
        cases hhead.symm.trans hstop
      rw [record, if_neg hkeeps, if_neg hother,
        TickLoop.doStart_of_running { r.loop with
          posted := posted, clock := r.loop.clock + elapsed } hstate]
      exact h.congr rfl h.halted

theorem Fresh.loop (h : Fresh r) {label : TickLoop.Label (ActionEvent K) (World.TickChoice K)}
    (hswept : r.Swept (.loop label)) (hstep : step ext r (.loop label) = some r') : Fresh r' := by
  obtain ⟨loop, hloop, rfl, -, hother⟩ := step_loop hstep
  cases TickLoop.transition_of_step (commanded ext) hloop with
  | start => exact h.congr rfl h.halted
  | stop =>
    refine ⟨h.sound, h.recorded, fun _ => rfl, fun entry hmem hstale => ?_, h.applied⟩
    exact ⟨rfl, (h.queued entry hmem hstale).2⟩
  | event action => exact h.enqueue hswept
  | clockAdvances elapsed => exact h.congr rfl h.halted
  | waitElapses => exact h.congr rfl h.halted
  | waitFails => exact h.congr rfl h.halted
  | doStart elapsed => exact h.runPosted hswept hloop
  | doStop elapsed => exact h.runPosted hswept hloop
  | runCompletion index elapsed choice => exact absurd rfl (hother index elapsed choice)

theorem Fresh.runCompletion (h : Fresh r) {index elapsed : ℕ}
    (hstep : step ext r (.runCompletion index elapsed) = some r') : Fresh r' := by
  by_cases hidle : r.phase = .idle
  · rw [step, if_pos hidle] at hstep
    cases hresult : r.loop.completions[index]? with
    | none => rw [hresult] at hstep; cases hstep
    | some result =>
      rw [hresult] at hstep
      cases result with
      | operation_aborted => exact Option.some.inj hstep ▸ h.congr rfl h.halted
      | failed => exact Option.some.inj hstep ▸ h.discard rfl fun _ => rfl
      | success =>
        obtain rfl := Option.some.inj hstep
        refine ⟨h.sound, h.recorded, h.halted, fun entry hmem hstale => ?_, h.applied⟩
        have hstopped : r.loop.state_ ≠ .Running := fun hrunning => by
          cases (h.queue_fresh (.inl hrunning) hmem).symm.trans hstale
        exact ⟨(h.queued entry hmem hstale).1, if_pos hstopped⟩
  · rw [step, if_neg hidle] at hstep
    cases hstep

theorem Fresh.step (h : Fresh r) {label : Label K} (hswept : r.Swept label)
    (hstep : Restarting.step ext r label = some r') : Fresh r' := by
  cases label with
  | loop label => exact h.loop hswept hstep
  | runCompletion index elapsed => exact h.runCompletion hstep
  | scheduleNextTick =>
    by_cases hphase : r.phase = .checked
    · rw [Restarting.step, if_pos hphase] at hstep
      obtain rfl := Option.some.inj hstep
      have hbusy : r.phase ≠ .idle := by rw [hphase]; exact fun h => by cases h
      obtain ⟨world, state⟩ := scheduleNextTick_frame r.loop
      refine ⟨?_, ?_, ?_, fun entry hmem hstale => ?_, h.applied⟩
      · rw [world]; exact h.sound
      · rw [world]; exact h.recorded
      · rw [state]; exact h.halted
      · cases (h.queue_fresh (.inr hbusy) hmem).symm.trans hstale
    · rw [Restarting.step, if_neg hphase] at hstep
      cases hstep
  | runTickStep choice =>
    by_cases hphase : r.phase = .scheduled
    · rw [Restarting.step, if_pos hphase] at hstep
      obtain rfl := Option.some.inj hstep
      have hbusy : r.phase ≠ .idle := by rw [hphase]; exact fun h => by cases h
      refine ⟨?_, ?_, h.halted, fun _ hmem => (by cases hmem), fun entry hmem => ?_⟩
      · exact h.sound.step ext (.tick choice r.loop.current_tick_)
      · exact (World.queue_runTickStep ext h.sound choice _ _).symm
      · rcases List.mem_append.mp hmem with hold | hnew
        · exact h.applied entry hold
        · exact h.queue_fresh (.inr hbusy) hnew
    · rw [Restarting.step, if_neg hphase] at hstep
      cases hstep

/-- In a run that meets the condition, no action that came between a `stop` and the restart
is ever applied. -/
theorem never_revived {world_width world_height : K} {tick_interval : ℕ} {labels : List (Label K)}
    (hrun : (machine ext world_width world_height tick_interval).run labels = some r)
    (hswept : (machine ext world_width world_height tick_interval).Meets Swept labels) :
    (∀ entry ∈ r.applied, entry.2 = false) ∧
      r.queued.map Prod.fst = r.loop.world.action_queue_ := by
  have hfresh : Fresh r := by
    refine Machine.guarded_induction
      (m := machine ext world_width world_height tick_interval) Swept
      (motive := fun _ r => Fresh r) ?_ ?_ hswept hrun
    · exact fresh_init world_width world_height tick_interval
    · rintro _ r label r' - - ih hguard hstep
      exact ih.step hguard hstep
  exact ⟨hfresh.applied, hfresh.recorded⟩

/-! ### Starting again -/

section Exact

attribute [local instance] RationalScalar.rational

/-- A tick of the running loop, whose completed wait stands behind some others. -/
def exactTick (index : ℕ) : List (Label ℚ) :=
  [.loop (.clockAdvances 16666000), .loop .waitElapses, .runCompletion index 0,
    .scheduleNextTick, .runTickStep World.exactChoice]

/-- The loop is stopped, a command comes, and the loop is started again before the clean-up
runs. -/
def sweptRestart : List (Label ℚ) :=
  [.loop .start, .loop (.runPosted 0), .loop .stop, .loop (.event (World.shotAction 7)),
    .loop .start, .loop (.runPosted 0), .loop (.runPosted 0),
    .loop (.event (World.shotAction 7))] ++ exactTick 1

/-- The command comes behind the clean-up. -/
def unsweptRestart : List (Label ℚ) :=
  [.loop .start, .loop (.runPosted 0), .loop .stop, .loop (.runPosted 0),
    .loop (.event (World.shotAction 7)), .loop .start, .loop (.runPosted 0)] ++ exactTick 1

def exactMachine : Machine (Restarting ℚ) (Label ℚ) :=
  machine World.exactExternals World.kDefaultWidth World.kDefaultHeight 16666

/-- Of two commands the one that came while the loop was halted is dropped. -/
theorem never_revived_sweptRestart : ∃ r, exactMachine.run sweptRestart = some r ∧
    r.applied.length = 1 ∧ ∀ entry ∈ r.applied, entry.2 = false := by
  have hend : ∃ r ∈ exactMachine.run sweptRestart, r.applied.length = 1 := by decide +kernel
  have hswept : exactMachine.Meets Swept sweptRestart :=
    Machine.meets_of_checks (by decide +kernel)
  obtain ⟨r, hrun, hlength⟩ := hend
  exact ⟨r, hrun, hlength, (never_revived hrun hswept).1⟩

/-- A command that comes between the clean-up and the restart is applied. -/
theorem revived_unsweptRestart :
    ¬ ∀ labels r, exactMachine.run labels = some r → ∀ entry ∈ r.applied, entry.2 = false := by
  intro hall
  have hend : ∃ r ∈ exactMachine.run unsweptRestart, ∃ entry ∈ r.applied, entry.2 = true := by
    decide +kernel
  obtain ⟨r, hrun, entry, hmem, hstale⟩ := hend
  cases hstale.symm.trans (hall unsweptRestart r hrun entry hmem)

end Exact

end Restarting

end SpaceShooter.Server
