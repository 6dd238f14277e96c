/-
# The cadence of ticks

Deadlines follow each other at the tick interval, and when they have fallen behind the clock
by more than an interval the cadence is set anew from the clock. However late handlers start
and however long ticks take, no window of time sees more ticks start than its length allows,
and three: nothing that was missed is caught up with.

Here the clock is read twice when the cadence is set anew, by the comparison and by the timer.
-/

import Mathlib.Tactic.Linarith
import SpaceShooter.Server.TickLoop

namespace SpaceShooter.Server

open Library

namespace TickLoop

variable {σ Event Choice : Type} (sim : Simulation σ Event Choice)

/-- `scheduleNextTick` when `expires_after` reads the clock `later` nanoseconds after the
comparison. -/
def scheduleNextTickAfter (loop : TickLoop σ) (later : ℕ) : TickLoop σ :=
  if loop.state_ ≠ .Running then
    loop
  else
    let next_deadline := loop.tick_timer_.expiry + loop.interval
    if next_deadline < loop.clock - loop.interval * World.kMaxMissedTicks then
      ({ loop with clock := loop.clock + later }.expires_after loop.interval).async_wait
    else
      (loop.expires_at next_deadline).async_wait

/-- `doTick` with the second reading of the clock. -/
def doTickAfter (loop : TickLoop σ) (choice : Choice) (later : ℕ) : WaitResult → TickLoop σ
  | .success =>
    if loop.state_ ≠ .Running then
      loop
    else
      let loop := loop.scheduleNextTickAfter later
      { loop with
        world := sim.runTickStep choice loop.tick_interval_ loop.current_tick_ loop.world
        current_tick_ := loop.current_tick_ + 1 }
  | result => doTick sim loop choice result

theorem doTickAfter_zero (loop : TickLoop σ) (choice : Choice) (result : WaitResult) :
    doTickAfter sim loop choice 0 result = doTick sim loop choice result := by
  have hschedule : loop.scheduleNextTickAfter 0 = loop.scheduleNextTick := by
    unfold scheduleNextTickAfter scheduleNextTick
    simp only [Nat.cast_zero, add_zero]
  cases result with
  | success => simp only [doTickAfter, doTick, hschedule]
  | operation_aborted => rfl
  | failed => rfl

end TickLoop

/-- A tick that started: the deadline that was armed for it, and when its handler started. -/
structure Tick where
  deadline : ℤ
  start : ℤ
  deriving DecidableEq, Repr

/-- The loop, and the ticks it has started, the last one at the end. -/
structure Cadence (σ : Type) where
  loop : TickLoop σ
  ticks : List Tick := []

namespace Cadence

variable {σ Event Choice : Type} (sim : Simulation σ Event Choice)

/-- A step of the loop; where the clock is read a second time, `later` nanoseconds pass. -/
def step (c : Cadence σ) : TickLoop.Label Event Choice × ℕ → Option (Cadence σ)
  | (.runCompletion index elapsed choice, later) =>
    match c.loop.completions[index]? with
    | none => none
    | some result =>
      let loop := { c.loop with
        completions := c.loop.completions.eraseIdx index
        clock := c.loop.clock + elapsed }
      some
        { loop := TickLoop.doTickAfter sim loop choice later result
          ticks :=
            if result = .success ∧ loop.state_ = .Running then
              c.ticks ++ [⟨c.loop.tick_timer_.expiry, c.loop.clock⟩]
            else
              c.ticks }
  | (label, _) => (TickLoop.step sim c.loop label).map fun loop => { c with loop := loop }

def machine (loop : TickLoop σ) : Machine (Cadence σ) (TickLoop.Label Event Choice × ℕ) where
  init := { loop := loop }
  step := step sim

/-- The deadlines of the ticks, and the one that is armed. -/
def deadlines (c : Cadence σ) : List ℤ :=
  c.ticks.map Tick.deadline ++ [c.loop.tick_timer_.expiry]

/-- The number of ticks that started in a window of time. -/
def startedWithin (c : Cadence σ) (start length : ℤ) : ℕ :=
  c.ticks.countP fun tick => start ≤ tick.start ∧ tick.start ≤ start + length

/-- A step that neither stops the loop nor hands an error to a handler; a tick that it starts
starts at the armed deadline or after it. -/
def Undisturbed (c : Cadence σ) (label : TickLoop.Label Event Choice × ℕ) : Prop :=
  label.1 ≠ .stop ∧
    ∀ index elapsed choice, label.1 = .runCompletion index elapsed choice →
      c.loop.completions[index]? ≠ some .failed ∧
        (c.loop.completions[index]? = some .success → c.loop.state_ = .Running →
          c.loop.tick_timer_.expiry ≤ c.loop.clock)

/-- A deadline keeps its distance from an earlier tick. -/
def Spaced (interval : ℤ) (tick : Tick) (deadline : ℤ) : Prop :=
  tick.deadline + interval ≤ deadline ∧
    tick.start - World.kMaxMissedTicks * interval ≤ deadline

/-- A step runs a completion handler, or is a step of the loop that starts no tick. -/
theorem step_cases {c c' : Cadence σ} {label : TickLoop.Label Event Choice} {later : ℕ}
    (hstep : step sim c (label, later) = some c') :
    (∃ index elapsed choice result, label = .runCompletion index elapsed choice ∧
      c.loop.completions[index]? = some result ∧
      c' =
        { loop := TickLoop.doTickAfter sim
            { c.loop with
              completions := c.loop.completions.eraseIdx index
              clock := c.loop.clock + elapsed } choice later result
          ticks :=
            if result = .success ∧ c.loop.state_ = .Running then
              c.ticks ++ [⟨c.loop.tick_timer_.expiry, c.loop.clock⟩]
            else
              c.ticks }) ∨
    ((∀ index elapsed choice, label ≠ .runCompletion index elapsed choice) ∧
      ∃ loop, TickLoop.step sim c.loop label = some loop ∧ c' = { c with loop := loop }) := by
  have hother (hloop : (TickLoop.step sim c.loop label).map
      (fun loop => { c with loop := loop }) = some c') :
      ∃ loop, TickLoop.step sim c.loop label = some loop ∧ c' = { c with loop := loop } := by
    obtain ⟨loop, hsome, rfl⟩ := Option.map_eq_some_iff.mp hloop
    exact ⟨loop, hsome, rfl⟩
  cases label with
  | runCompletion index elapsed choice =>
    left
    simp only [Cadence.step] at hstep
    split at hstep
    · cases hstep
    · next result hresult =>
      exact ⟨index, elapsed, choice, result, rfl, hresult, (Option.some.inj hstep).symm⟩
  | _ => exact Or.inr ⟨nofun, hother hstep⟩

/-! ### Windows of time -/

/-- Ticks that keep their distance and start by their deadlines are late by so much. -/
theorem deadline_ge_of_pairwise {interval : ℤ} {tick : Tick} {ticks : List Tick}
    (spaced : (tick :: ticks).Pairwise fun a b => Spaced interval a b.deadline)
    {place : ℕ} {last : Tick} (hlast : ticks[place]? = some last) :
    tick.start - World.kMaxMissedTicks * interval + place * interval ≤ last.deadline := by
  rw [List.pairwise_cons] at spaced
  -- On the place of the last tick: one step further costs one more interval.
  induction place generalizing last with
  | zero =>
    have hmem := List.mem_of_getElem? hlast
    simpa using (spaced.1 last hmem).2
  | succ place ih =>
    obtain ⟨hlt, rfl⟩ := List.getElem?_eq_some_iff.mp hlast
    have hprevious : ticks[place]? = some ticks[place] := List.getElem?_eq_getElem _
    have hstep := (List.pairwise_iff_getElem.mp spaced.2 place (place + 1) (by omega) hlt
      (Nat.lt_succ_self _)).1
    have hle := ih hprevious
    push_cast
    linarith

/-- So many of them fit into a window of time. -/
theorem length_le_of_pairwise {interval length : ℤ} (start : ℤ) (hinterval : 0 < interval)
    (hlength : 0 ≤ length) {ticks : List Tick}
    (spaced : ticks.Pairwise fun a b => Spaced interval a b.deadline)
    (started : ∀ tick ∈ ticks, tick.deadline ≤ tick.start)
    (within : ∀ tick ∈ ticks, start ≤ tick.start ∧ tick.start ≤ start + length) :
    (ticks.length : ℤ) ≤ length / interval + 3 := by
  have hquotient : 0 ≤ length / interval := Int.ediv_nonneg hlength hinterval.le
  cases ticks with
  | nil => simp; omega
  | cons tick ticks =>
    cases hlast : ticks.getLast? with
    | none =>
      rw [List.getLast?_eq_none_iff.mp hlast]
      simp
      omega
    | some last =>
      rw [List.getLast?_eq_getElem?] at hlast
      have hmem := List.mem_of_getElem? hlast
      have hpos := List.length_pos_of_mem hmem
      have hdeadline := deadline_ge_of_pairwise spaced hlast
      have hfirst := (within tick List.mem_cons_self).1
      have hstart := started last (List.mem_cons_of_mem _ hmem)
      have hend := (within last (List.mem_cons_of_mem _ hmem)).2
      -- The last deadline is behind the first start, but for the ticks that may be missed.
      have hle : ((ticks.length : ℤ) - 2) * interval ≤ length := by
        rw [Nat.cast_sub (by omega), World.kMaxMissedTicks] at hdeadline
        push_cast at hdeadline
        linarith
      have hcount := (Int.le_ediv_iff_mul_le hinterval).mpr hle
      simp
      omega

/-! ### Steps of the loop -/

/-- Outside of completion handlers the armed deadline of a running loop stays. -/
theorem running_of_step {loop loop' : TickLoop σ} {label : TickLoop.Label Event Choice}
    (stop : label ≠ .stop)
    (runCompletion : ∀ index elapsed choice, label ≠ .runCompletion index elapsed choice)
    (hstep : TickLoop.step sim loop label = some loop') (hrunning : loop.state_ = .Running) :
    loop'.state_ = .Running ∧ loop'.tick_timer_.expiry = loop.tick_timer_.expiry := by
  cases TickLoop.transition_of_step sim hstep with
  | start => exact ⟨hrunning, rfl⟩
  | stop => exact absurd rfl stop
  | event event => exact ⟨hrunning, rfl⟩
  | clockAdvances elapsed => exact ⟨hrunning, rfl⟩
  | waitElapses => exact ⟨hrunning, rfl⟩
  | waitFails => exact ⟨hrunning, rfl⟩
  | doStart elapsed posted =>
    rw [TickLoop.doStart_of_running
      { loop with posted := posted, clock := loop.clock + elapsed } hrunning]
    exact ⟨hrunning, rfl⟩
  | doStop elapsed posted => exact ⟨hrunning, rfl⟩
  | runCompletion index elapsed choice => exact absurd rfl (runCompletion index elapsed choice)

/-- The next deadline keeps its distance from the tick whose handler arms it. -/
theorem spaced_scheduleNextTickAfter (loop : TickLoop σ) (hrunning : loop.state_ = .Running)
    {start : ℤ} (hexpiry : loop.tick_timer_.expiry ≤ start) (hstart : start ≤ loop.clock)
    (later : ℕ) :
    Spaced loop.interval ⟨loop.tick_timer_.expiry, start⟩
      (loop.scheduleNextTickAfter later).tick_timer_.expiry := by
  have hinterval : 0 ≤ loop.interval := by
    unfold TickLoop.interval
    positivity
  unfold TickLoop.scheduleNextTickAfter Spaced
  rw [if_neg (not_not.mpr hrunning)]
  dsimp only
  split_ifs with hlate
  · -- The cadence is set anew: the clock is past the start, which is past the deadline.
    change _ ≤ loop.clock + later + loop.interval ∧ _ ≤ loop.clock + later + loop.interval
    rw [World.kMaxMissedTicks]
    constructor <;> linarith [Int.natCast_nonneg later]
  · change _ ≤ loop.tick_timer_.expiry + loop.interval ∧
      _ ≤ loop.tick_timer_.expiry + loop.interval
    rw [World.kMaxMissedTicks] at hlate ⊢
    constructor <;> linarith

theorem scheduleNextTickAfter_of_running (loop : TickLoop σ) (hrunning : loop.state_ = .Running)
    (later : ℕ) :
    ∃ clock, loop.clock ≤ clock ∧ loop.scheduleNextTickAfter later =
      { loop with
        clock := clock
        tick_timer_ := ⟨(loop.scheduleNextTickAfter later).tick_timer_.expiry, 1⟩
        completions := loop.completions ++
          List.replicate loop.tick_timer_.waits .operation_aborted } := by
  unfold TickLoop.scheduleNextTickAfter
  rw [if_neg (not_not.mpr hrunning)]
  dsimp only
  split_ifs with hlate
  · exact ⟨loop.clock + later, Int.le_add_of_nonneg_right (Int.natCast_nonneg _), rfl⟩
  · exact ⟨loop.clock, le_refl _, rfl⟩

/-- A tick of a running loop arms the next wait. -/
theorem doTickAfter_of_running (loop : TickLoop σ) (hrunning : loop.state_ = .Running)
    (choice : Choice) (later : ℕ) :
    ∃ clock, loop.clock ≤ clock ∧ TickLoop.doTickAfter sim loop choice later .success =
      { loop with
        world := sim.runTickStep choice loop.tick_interval_ loop.current_tick_ loop.world
        current_tick_ := loop.current_tick_ + 1
        clock := clock
        tick_timer_ := ⟨(loop.scheduleNextTickAfter later).tick_timer_.expiry, 1⟩
        completions := loop.completions ++
          List.replicate loop.tick_timer_.waits .operation_aborted } := by
  obtain ⟨clock, hclock, hschedule⟩ := scheduleNextTickAfter_of_running loop hrunning later
  refine ⟨clock, hclock, ?_⟩
  rw [TickLoop.doTickAfter, if_neg (not_not.mpr hrunning)]
  dsimp only
  rw [hschedule]

theorem doTickAfter_of_stopped (loop : TickLoop σ) (hstopped : loop.state_ = .Stopped)
    (choice : Choice) (later : ℕ) :
    TickLoop.doTickAfter sim loop choice later .success = loop := by
  rw [TickLoop.doTickAfter, if_pos]
  rw [hstopped]
  nofun

/-! ### The timer

Without stops and failures of the timer no step disturbs a run: a wait that has elapsed is past
its deadline, and no second one is armed before it is handled. -/

/-- At most one wait is armed, or has elapsed and is still to be handled; none if the loop is
stopped. -/
structure Armed (loop : TickLoop σ) : Prop where
  waits_le : loop.tick_timer_.waits + loop.completions.count .success ≤ 1
  elapsed : .success ∈ loop.completions → loop.tick_timer_.expiry ≤ loop.clock
  stopped : loop.state_ = .Stopped →
    loop.tick_timer_.waits + loop.completions.count .success = 0
  no_failure : .failed ∉ loop.completions

theorem count_eraseIdx {loop : TickLoop σ} {index : ℕ} {result : TickLoop.WaitResult}
    (hresult : loop.completions[index]? = some result) :
    loop.completions.count .success =
      (loop.completions.eraseIdx index).count .success + if result = .success then 1 else 0 := by
  obtain ⟨hlt, rfl⟩ := List.getElem?_eq_some_iff.mp hresult
  rw [← (List.getElem_cons_eraseIdx_perm hlt).count_eq, List.count_cons]
  simp

theorem count_cancel (loop : TickLoop σ) :
    loop.cancel.completions.count .success = loop.completions.count .success := by
  simp [TickLoop.cancel, List.count_replicate]

theorem Armed.step {loop loop' : TickLoop σ} {label : TickLoop.Label Event Choice}
    (h : Armed loop) (stop : label ≠ .stop) (waitFails : label ≠ .waitFails)
    (runCompletion : ∀ index elapsed choice, label ≠ .runCompletion index elapsed choice)
    (hstep : TickLoop.step sim loop label = some loop') :
    Armed loop' := by
  have hlater (elapsed : ℕ) : Armed { loop with clock := loop.clock + elapsed } := by
    refine ⟨h.waits_le, fun hmem => ?_, h.stopped, h.no_failure⟩
    exact (h.elapsed hmem).trans (Int.le_add_of_nonneg_right (Int.natCast_nonneg _))
  have hcancelled (posted : List TickLoop.Posted) (elapsed : ℕ) :=
    count_cancel { loop with posted := posted, clock := loop.clock + elapsed }
  have hno : .failed ∉ loop.completions ++ List.replicate loop.tick_timer_.waits
      TickLoop.WaitResult.operation_aborted :=
    TickLoop.not_mem_append_replicate h.no_failure (by decide)
  cases TickLoop.transition_of_step sim hstep with
  | start => exact ⟨h.waits_le, h.elapsed, h.stopped, h.no_failure⟩
  | stop => exact absurd rfl stop
  | event event => exact ⟨h.waits_le, h.elapsed, h.stopped, h.no_failure⟩
  | clockAdvances elapsed => exact hlater elapsed
  | waitElapses helapsed =>
    -- The armed waits turn into elapsed ones; their number stays.
    have hcount : (loop.completeWaits .success).completions.count .success =
        loop.completions.count .success + loop.tick_timer_.waits := by
      rw [TickLoop.completeWaits, List.count_append, List.count_replicate_self]
    refine ⟨?_, fun _ => helapsed, fun hstopped => ?_, ?_⟩
    · have hle := h.waits_le
      rw [hcount]
      change 0 + _ ≤ 1
      omega
    · have hnone := h.stopped hstopped
      rw [hcount]
      change 0 + _ = 0
      omega
    · exact TickLoop.not_mem_append_replicate h.no_failure (by decide)
  | waitFails => exact absurd rfl waitFails
  | doStart elapsed posted hposted =>
    have hbase := hlater elapsed
    rcases loop.state_.stopped_or_running with hstate | hstate
    · obtain ⟨deadline, heq⟩ := TickLoop.doStart_of_stopped
        { loop with posted := posted, clock := loop.clock + elapsed } hstate
      have hnone := h.stopped hstate
      rw [heq]
      -- Nothing was armed, so the wait that is armed now is the only one.
      refine ⟨?_, fun hmem => ?_, fun hstopped => by contradiction, hno⟩
      · refine (congrArg (1 + ·) (hcancelled posted elapsed)).trans_le ?_
        dsimp only
        omega
      · have hpos := List.count_pos_iff.mpr hmem
        exact absurd ((hcancelled posted elapsed).symm.trans_gt hpos) (by dsimp only; omega)
    · rw [TickLoop.doStart_of_running
        { loop with posted := posted, clock := loop.clock + elapsed } hstate]
      exact ⟨hbase.waits_le, hbase.elapsed, hbase.stopped, hbase.no_failure⟩
  | doStop elapsed posted hposted =>
    refine ⟨?_, fun hmem => ?_, fun hstopped => ?_, hno⟩
    · have hle := h.waits_le
      refine (congrArg (0 + ·) (hcancelled posted elapsed)).trans_le ?_
      dsimp only
      omega
    · refine (hlater elapsed).elapsed ((List.mem_append.mp hmem).resolve_right fun hnew => ?_)
      cases List.eq_of_mem_replicate hnew
    · have hnone := h.stopped hstopped
      refine (congrArg (0 + ·) (hcancelled posted elapsed)).trans ?_
      dsimp only
      omega
  | runCompletion index elapsed choice => exact absurd rfl (runCompletion index elapsed choice)

/-- A completion handler starts a tick, or the wait had been aborted. -/
theorem Armed.runCompletion {loop : TickLoop σ} (h : Armed loop) {index : ℕ}
    {result : TickLoop.WaitResult} (hresult : loop.completions[index]? = some result)
    (elapsed : ℕ) (choice : Choice) (later : ℕ) :
    Armed (TickLoop.doTickAfter sim
      { loop with
        completions := loop.completions.eraseIdx index
        clock := loop.clock + elapsed } choice later result) := by
  have hcount := count_eraseIdx hresult
  have hle := h.waits_le
  have hno : .failed ∉ loop.completions.eraseIdx index :=
    fun hmem => h.no_failure (List.mem_of_mem_eraseIdx hmem)
  cases result with
  | failed => exact absurd (List.mem_of_getElem? hresult) h.no_failure
  | operation_aborted =>
    rw [if_neg nofun, Nat.add_zero] at hcount
    refine ⟨?_, fun hmem => ?_, fun hstopped => ?_, hno⟩
    · change loop.tick_timer_.waits + (loop.completions.eraseIdx index).count .success ≤ 1
      omega
    · have hle := h.elapsed (List.mem_of_mem_eraseIdx hmem)
      exact hle.trans (Int.le_add_of_nonneg_right (Int.natCast_nonneg _))
    · have hnone := h.stopped hstopped
      change loop.tick_timer_.waits + (loop.completions.eraseIdx index).count .success = 0
      omega
  | success =>
    rw [if_pos rfl] at hcount
    rcases loop.state_.stopped_or_running with hstate | hstate
    · -- A stopped loop has no wait that has elapsed.
      have hnone := h.stopped hstate
      omega
    · obtain ⟨clock, _, heq⟩ := doTickAfter_of_running sim
        { loop with
          completions := loop.completions.eraseIdx index
          clock := loop.clock + elapsed } hstate choice later
      -- The wait that is handled was the only one, and the tick arms the next.
      have hnone : (loop.completions.eraseIdx index ++ List.replicate loop.tick_timer_.waits
          TickLoop.WaitResult.operation_aborted).count .success = 0 := by
        rw [List.count_append, List.count_replicate, if_neg (by decide)]
        omega
      rw [heq]
      refine ⟨?_, fun hmem => ?_, fun hstopped => ?_, ?_⟩
      · exact (congrArg (1 + ·) hnone).le
      · exact absurd hmem (List.count_eq_zero.mp hnone)
      · exact nomatch hstate.symm.trans hstopped
      · exact TickLoop.not_mem_append_replicate hno nofun

/-- Without stops and failures of the timer, every tick starts at its deadline or after it. -/
theorem undisturbed_of_armed {loop : TickLoop σ} (armed : Armed loop)
    {labels : List (TickLoop.Label Event Choice × ℕ)}
    (noStop : ∀ label ∈ labels, label.1 ≠ .stop)
    (noError : ∀ label ∈ labels, label.1 ≠ .waitFails) :
    (machine sim loop).Meets Undisturbed labels := by
  rintro before label after rfl c run
  have harmed : Armed c.loop := by
    refine Machine.runFrom_induction (motive := fun c => Armed c.loop) ?_ armed run
    rintro c ⟨label, later⟩ hmem c' harmed hstep
    have hstop := noStop _ (List.mem_append_left _ hmem)
    have herror := noError _ (List.mem_append_left _ hmem)
    rcases step_cases sim hstep with ⟨index, elapsed, choice, result, rfl, hresult, rfl⟩ |
      ⟨hlabel, loop, hloop, rfl⟩
    · exact harmed.runCompletion sim hresult elapsed choice later
    · exact harmed.step sim hstop herror hlabel hloop
  refine ⟨noStop label (List.mem_append_right _ List.mem_cons_self), ?_⟩
  intro index elapsed choice _
  refine ⟨fun hfailed => harmed.no_failure (List.mem_of_getElem? hfailed), fun hsuccess _ => ?_⟩
  exact harmed.elapsed (List.mem_of_getElem? hsuccess)

/-- The loop is constructed stopped, with nothing armed. -/
theorem armed_init (world : σ) (tick_interval : ℕ) :
    Armed (TickLoop.machine sim world tick_interval).init :=
  ⟨Nat.zero_le 1, nofun, fun _ => rfl, nofun⟩

/-- With both readings of the clock the same, the loop takes the steps it takes. -/
theorem map_loop_step_zero (c : Cadence σ) (label : TickLoop.Label Event Choice) :
    (step sim c (label, 0)).map Cadence.loop = TickLoop.step sim c.loop label := by
  cases label with
  | runCompletion index elapsed choice =>
    simp only [Cadence.step, TickLoop.step]
    cases c.loop.completions[index]? with
    | none => rfl
    | some result => simp only [Option.map_some, TickLoop.doTickAfter_zero]
  | _ =>
    simp only [Cadence.step, Option.map_map]
    exact congrFun Option.map_id _

/-! ### Runs -/

/-- What a run that nothing disturbs keeps: every tick keeps its distance to the ticks behind it
and to the armed deadline. -/
structure Paced (interval : ℤ) (c : Cadence σ) : Prop where
  interval_eq : c.loop.interval = interval
  fresh : c.loop.state_ = .Stopped → c.ticks = []
  started : ∀ tick ∈ c.ticks, tick.deadline ≤ tick.start
  spaced : c.ticks.Pairwise fun a b => Spaced interval a b.deadline
  next : ∀ tick ∈ c.ticks, Spaced interval tick c.loop.tick_timer_.expiry

/-- What keeps its distance to a deadline does to a later one. -/
theorem Spaced.trans_le {interval deadline later : ℤ} {tick : Tick}
    (h : Spaced interval tick deadline) (hle : deadline ≤ later) : Spaced interval tick later :=
  ⟨h.1.trans hle, h.2.trans hle⟩

/-- A tick of a running loop. -/
theorem Paced.tick {interval : ℤ} {c : Cadence σ} (h : Paced interval c) (loop : TickLoop σ)
    (hrunning : loop.state_ = .Running) (hinterval : loop.interval = interval)
    (hexpiry : loop.tick_timer_.expiry = c.loop.tick_timer_.expiry)
    (hclock : c.loop.clock ≤ loop.clock)
    (hstarted : c.loop.tick_timer_.expiry ≤ c.loop.clock) (choice : Choice) (later : ℕ) :
    Paced interval
      { loop := TickLoop.doTickAfter sim loop choice later .success
        ticks := c.ticks ++ [⟨c.loop.tick_timer_.expiry, c.loop.clock⟩] } := by
  have hspaced := spaced_scheduleNextTickAfter loop hrunning (hexpiry.trans_le hstarted) hclock
    later
  rw [hinterval, hexpiry] at hspaced
  -- The next deadline is no earlier, so the earlier ticks keep their distance.
  have hadvances : c.loop.tick_timer_.expiry ≤
      (loop.scheduleNextTickAfter later).tick_timer_.expiry := by
    have hstep := hspaced.1
    have hpositive : 0 ≤ interval := by
      rw [← hinterval, TickLoop.interval]
      positivity
    dsimp only at hstep
    linarith
  obtain ⟨clock, _, heq⟩ := doTickAfter_of_running sim loop hrunning choice later
  rw [heq]
  refine ⟨hinterval, fun hstopped => ?_, fun tick hmem => ?_, ?_, fun tick hmem => ?_⟩
  · exact nomatch hrunning.symm.trans hstopped
  · rcases List.mem_append.mp hmem with hmem | hmem
    · exact h.started tick hmem
    · rw [List.mem_singleton.mp hmem]
      exact hstarted
  · refine List.pairwise_append.mpr ⟨h.spaced, List.pairwise_singleton _ _, ?_⟩
    intro tick hmem new hnew
    rw [List.mem_singleton.mp hnew]
    exact h.next tick hmem
  · rcases List.mem_append.mp hmem with hmem | hmem
    · exact (h.next tick hmem).trans_le hadvances
    · rw [List.mem_singleton.mp hmem]
      exact hspaced

/-- A step of a run that nothing disturbs. Only completion handlers start ticks and move the
armed deadline of a running loop. -/
theorem Paced.step {interval : ℤ} {c c' : Cadence σ} (h : Paced interval c)
    {label : TickLoop.Label Event Choice × ℕ} (undisturbed : Undisturbed c label)
    (hstep : step sim c label = some c') : Paced interval c' := by
  obtain ⟨label, later⟩ := label
  rcases step_cases sim hstep with ⟨index, elapsed, choice, result, rfl, hresult, rfl⟩ |
    ⟨hlabel, loop, hloop, rfl⟩
  · obtain ⟨hfailed, hstarted⟩ := undisturbed.2 index elapsed choice rfl
    cases result with
    | failed => exact absurd hresult hfailed
    | operation_aborted =>
      rw [if_neg fun hand => nomatch hand.1]
      exact ⟨h.interval_eq, h.fresh, h.started, h.spaced, h.next⟩
    | success =>
      rcases c.loop.state_.stopped_or_running with hstate | hstate
      · -- A handler that finds the loop stopped starts no tick.
        have hnone : ¬(TickLoop.WaitResult.success = .success ∧ c.loop.state_ = .Running) :=
          fun hand => nomatch hstate.symm.trans hand.2
        rw [if_neg hnone, doTickAfter_of_stopped sim
          { c.loop with
            completions := c.loop.completions.eraseIdx index
            clock := c.loop.clock + elapsed } hstate]
        exact ⟨h.interval_eq, h.fresh, h.started, h.spaced, h.next⟩
      · -- The wait was for the deadline, so the tick is due.
        rw [if_pos ⟨rfl, hstate⟩]
        exact h.tick sim
          { c.loop with
            completions := c.loop.completions.eraseIdx index
            clock := c.loop.clock + elapsed }
          hstate h.interval_eq rfl (Int.le_add_of_nonneg_right (Int.natCast_nonneg _))
          (hstarted hresult hstate) choice later
  · have hequal : loop.interval = interval := by
      rw [← h.interval_eq, TickLoop.interval, TickLoop.interval,
        (TickLoop.step_world sim hloop).1]
    rcases c.loop.state_.stopped_or_running with hstate | hstate
    · -- The step may start the loop, but there are no ticks yet.
      have hnone := h.fresh hstate
      refine ⟨hequal, fun _ => hnone, h.started, h.spaced, fun tick hmem => ?_⟩
      change tick ∈ c.ticks at hmem
      rw [hnone] at hmem
      cases hmem
    · obtain ⟨hrunning, hexpiry⟩ := running_of_step sim undisturbed.1 hlabel hloop hstate
      refine ⟨hequal, fun hstopped => ?_, h.started, h.spaced, fun tick hmem => ?_⟩
      · exact nomatch hrunning.symm.trans hstopped
      · exact (h.next tick hmem).trans_le hexpiry.ge

theorem paced_of_run {loop : TickLoop σ} {labels : List (TickLoop.Label Event Choice × ℕ)}
    {c : Cadence σ} (run : (machine sim loop).run labels = some c)
    (undisturbed : (machine sim loop).Meets Undisturbed labels) : Paced loop.interval c := by
  refine Machine.guarded_induction Undisturbed (motive := fun _ c => Paced loop.interval c)
    ?_ ?_ undisturbed run
  · exact ⟨rfl, fun _ => rfl, nofun, List.Pairwise.nil, nofun⟩
  · intro labels c label c' _ _ hpaced hlabel hstep
    exact hpaced.step sim hlabel hstep

/-- Each deadline behind a tick keeps its distance from the tick. -/
theorem Paced.spaced_getElem? {interval : ℤ} {c : Cadence σ} (h : Paced interval c) {k : ℕ}
    {tick : Tick} {deadline : ℤ} (htick : c.ticks[k]? = some tick)
    (hdeadline : c.deadlines[k + 1]? = some deadline) : Spaced interval tick deadline := by
  rw [deadlines, List.getElem?_append, List.length_map] at hdeadline
  split_ifs at hdeadline with hlt
  · obtain ⟨hk, rfl⟩ := List.getElem?_eq_some_iff.mp htick
    rw [List.getElem?_map, List.getElem?_eq_getElem hlt] at hdeadline
    obtain rfl := Option.some.inj hdeadline
    exact List.pairwise_iff_getElem.mp h.spaced k (k + 1) hk hlt (Nat.lt_succ_self k)
  · have hmem := List.mem_of_getElem? hdeadline
    rw [List.mem_singleton.mp hmem]
    exact h.next tick (List.mem_of_getElem? htick)

theorem Paced.deadlines_lt {interval : ℤ} {c : Cadence σ} (h : Paced interval c)
    (hinterval : 0 < interval) : c.deadlines.Pairwise (· < ·) := by
  have hlt {tick : Tick} {deadline : ℤ} (hspaced : Spaced interval tick deadline) :
      tick.deadline < deadline := by
    have hstep := hspaced.1
    linarith
  refine List.pairwise_append.mpr ⟨?_, List.pairwise_singleton _ _, ?_⟩
  · rw [List.pairwise_map]
    exact h.spaced.imp hlt
  · intro deadline hmem next hnext
    obtain ⟨tick, htick, rfl⟩ := List.mem_map.mp hmem
    rw [List.mem_singleton.mp hnext]
    exact hlt (h.next tick htick)

theorem Paced.startedWithin_le {interval : ℤ} {c : Cadence σ} (h : Paced interval c)
    (hinterval : 0 < interval) (start : ℤ) {length : ℤ} (hlength : 0 ≤ length) :
    (c.startedWithin start length : ℤ) ≤ length / interval + 3 := by
  rw [startedWithin, List.countP_eq_length_filter]
  refine length_le_of_pairwise start hinterval hlength ?_ ?_ ?_
  · exact h.spaced.filter _
  · intro tick hmem
    exact h.started tick (List.mem_filter.mp hmem).1
  · intro tick hmem
    exact of_decide_eq_true (List.mem_filter.mp hmem).2

/-- However late handlers start and however long ticks take: deadlines strictly increase, each
keeps the distance of an interval from the one before it and falls behind the start of its tick
by no more than the ticks that may be missed, and in no window of time more ticks start than its
length allows, and three. -/
theorem spaced_of_undisturbed {loop : TickLoop σ} (interval : 0 < loop.tick_interval_)
    {labels : List (TickLoop.Label Event Choice × ℕ)} {c : Cadence σ}
    (run : (machine sim loop).run labels = some c)
    (undisturbed : (machine sim loop).Meets Undisturbed labels) :
    c.deadlines.Pairwise (· < ·) ∧
      (∀ k tick deadline, c.ticks[k]? = some tick → c.deadlines[k + 1]? = some deadline →
        tick.deadline + loop.interval ≤ deadline ∧
          tick.start - World.kMaxMissedTicks * loop.interval ≤ deadline) ∧
      ∀ start length, 0 ≤ length →
        (c.startedWithin start length : ℤ) ≤ length / loop.interval + 3 := by
  have h := paced_of_run sim run undisturbed
  have hpositive : 0 < loop.interval := by
    rw [TickLoop.interval]
    positivity
  refine ⟨h.deadlines_lt hpositive, fun k tick deadline htick hdeadline => ?_, ?_⟩
  · exact h.spaced_getElem? htick hdeadline
  · intro start length hlength
    exact h.startedWithin_le hpositive start hlength

def slowLoop : TickLoop Unit := { world := (), tick_interval_ := 16666 }

/-- Ticks of 16666 microseconds: the handler of the first one takes three intervals, so that the
cadence is set anew; the second one starts late. -/
def slowTicks : List (TickLoop.Label Unit Unit × ℕ) :=
  [(.start, 0), (.runPosted 0, 0), (.clockAdvances 16666000, 0), (.waitElapses, 0),
    (.runCompletion 0 49998000 (), 7), (.clockAdvances 20000000, 0), (.waitElapses, 0),
    (.runCompletion 0 0 (), 0)]

theorem spaced_slowTicks :
    ∃ c, (machine TickLoop.stillWorld slowLoop).run slowTicks = some c ∧
      c.startedWithin 0 100000000 = 2 ∧ c.deadlines.Pairwise (· < ·) := by
  have hrun : ((machine TickLoop.stillWorld slowLoop).run slowTicks).map
      (fun c => c.startedWithin 0 100000000) = some 2 := by decide
  obtain ⟨c, hc, hcount⟩ := Option.map_eq_some_iff.mp hrun
  have hmeets : (machine TickLoop.stillWorld slowLoop).Meets Undisturbed slowTicks := by
    refine undisturbed_of_armed TickLoop.stillWorld
      (armed_init TickLoop.stillWorld () 16666) ?_ ?_
    · simp [slowTicks]
    · simp [slowTicks]
  exact ⟨c, hc, hcount,
    (spaced_of_undisturbed TickLoop.stillWorld (by decide) hc hmeets).1⟩

end Cadence

end SpaceShooter.Server
