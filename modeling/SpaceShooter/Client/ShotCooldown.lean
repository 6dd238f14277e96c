/-
# The cooldown of shots

A controller that has not shot yet keeps the least time there is as the time of its last shot. The
difference to it overflows whenever the clock is not negative, and comes out below every cooldown:
no request is ever sent.
-/

import SpaceShooter.Client.GameController

namespace SpaceShooter.Client

open Library Protocol

namespace ControllerStrand

/-- A request that the strand handles in the game while its own ship is alive. -/
structure Shot where
  now : Int64
  last_shot_time_ : Int64
  sent : Bool
  deriving DecidableEq, Repr

/-- The subtraction of the times does not overflow. -/
def Shot.Exact (shot : Shot) : Prop :=
  (shot.now - shot.last_shot_time_).toInt = shot.now.toInt - shot.last_shot_time_.toInt

/-- The request that a step handles. -/
def shotOf (c : ControllerStrand) : Label → Option Shot
  | .runHandler now myPlayerAlive =>
    if c.strand.head? = some .doShoot ∧ c.controller.state_ = .InGame ∧ myPlayerAlive = true then
      some
        { now := now
          last_shot_time_ := c.controller.last_shot_time_
          sent := (c.controller.doShoot now myPlayerAlive).tcpCalls =
            c.controller.tcpCalls ++ [.send c.controller.connectGen_ encodeShoot] }
    else
      none
  | _ => none

/-- The requests that a run handles, in their order. -/
def shots : ControllerStrand → List Label → List Shot
  | _, [] => []
  | c, label :: labels =>
    match step c label with
    | none => []
    | some c' => (shotOf c label).toList ++ shots c' labels

/-- No subtraction overflows, and a request is sent if none was before it, or the cooldown has
passed since the last one that was sent. -/
def Cooled : Option Int64 → List Shot → Prop
  | _, [] => True
  | lastSent, shot :: shots =>
    shot.Exact ∧
      (shot.sent = true ↔ ∀ sent ∈ lastSent,
        GameController.kShootCooldown.toInt ≤ shot.now.toInt - sent.toInt) ∧
      Cooled (if shot.sent then some shot.now else lastSent) shots

/-- The clock does not read negative times. -/
def Timed (label : Label) : Prop :=
  ∀ now myPlayerAlive, label = .runHandler now myPlayerAlive → 0 ≤ now

/-! ### The least time -/

/-- The difference of a time and the least one is no difference of times. -/
theorem toInt_sub_minValue {now : Int64} (hnow : 0 ≤ now) :
    (now - Int64.minValue).toInt = now.toInt + Int64.minValue.toInt := by
  have hpos : 0 ≤ now.toInt := Int64.le_iff_toInt_le.mp hnow
  have hlt := Int64.toInt_lt now
  -- The difference exceeds the largest time and wraps around once.
  rw [Int64.toInt_sub, Int64.toInt_minValue, Int.bmod_def]
  omega

theorem not_exact_of_minValue {shot : Shot} (hnow : 0 ≤ shot.now)
    (hlast : shot.last_shot_time_ = Int64.minValue) : ¬ shot.Exact := by
  rw [Shot.Exact, hlast, toInt_sub_minValue hnow, Int64.toInt_minValue]
  omega

/-- Whatever the clock reads, a first shot is refused. -/
theorem doShoot_of_minValue {c : GameController} (hlast : c.last_shot_time_ = Int64.minValue)
    {now : Int64} (hnow : 0 ≤ now) (alive : Bool) : c.doShoot now alive = c := by
  unfold GameController.doShoot
  split_ifs with hstate halive hcool
  · rfl
  · rfl
  · rfl
  · -- The wrapped difference is negative, far below the cooldown.
    have hlt := Int64.toInt_lt now
    rw [hlast, Int64.lt_iff_toInt_lt, toInt_sub_minValue hnow, Int64.toInt_minValue] at hcool
    have hcooldown : GameController.kShootCooldown.toInt = 50000000 := by decide
    omega

/-! ### Runs -/

/-- No handler sets the time of a first shot. -/
theorem last_shot_time_handle {c : GameController} (hlast : c.last_shot_time_ = Int64.minValue)
    {now : Int64} (hnow : 0 ≤ now) (alive : Bool) (handler : Post) :
    (handle c now alive handler).last_shot_time_ = Int64.minValue := by
  have hstart (c : GameController) (host : Bytes) (port : UInt16) (name : Bytes) :
      (c.doStart host port name).last_shot_time_ = c.last_shot_time_ := by
    rcases doStart_cases c host port name with h | ⟨-, h⟩
    · rw [h]
    · rw [h]
  have hshutdown : c.doShutdown.last_shot_time_ = c.last_shot_time_ := by
    rw [doShutdown_eq]
  -- Only a shot that is allowed would set the time, and none is.
  cases handler with
  | doStart host port name => exact (hstart c host port name).trans hlast
  | doShutdown => exact hshutdown.trans hlast
  | rejoin host port name =>
    exact (hstart c.doShutdown host port name).trans (hshutdown.trans hlast)
  | doShoot =>
    rw [handle, doShoot_of_minValue hlast hnow]
    exact hlast
  | connectResult gen ok =>
    rw [handle]
    rcases onConnectResult_cases c gen ok with ⟨h, -⟩ | ⟨-, -, h⟩
    · rw [h]
      exact hlast
    · rw [h]
      split_ifs
      · exact hlast
      · exact hlast
  | disconnected =>
    rw [handle]
    rcases onDisconnect_cases c with h | h
    · rw [h]
      exact hlast
    · rw [h]
      exact hlast
  | message connection payload =>
    rw [handle]
    rcases onMessageOnStrand_cases c connection payload with h | h | ⟨-, -, h⟩ | ⟨-, -, -, h⟩
    · rw [h]
      exact hlast
    · rw [h]
      exact hshutdown.trans hlast
    · rw [h]
      exact hlast
    · rw [h]
      exact hlast

theorem last_shot_time_step {c c' : ControllerStrand} {label : Label}
    (hlast : c.controller.last_shot_time_ = Int64.minValue) (timed : Timed label)
    (hstep : step c label = some c') : c'.controller.last_shot_time_ = Int64.minValue := by
  cases label with
  | start host port name =>
    obtain rfl := Option.some.inj hstep
    split_ifs
    · exact hlast
    · exact hlast
  | rejoin host port name =>
    obtain rfl := Option.some.inj hstep
    split_ifs
    · exact hlast
    · exact hlast
  | shutdown => exact Option.some.inj hstep ▸ hlast
  | shoot => exact Option.some.inj hstep ▸ hlast
  | tcpConnectResult gen ok =>
    obtain ⟨-, hstep⟩ := Option.ite_none_right_eq_some.mp hstep
    exact Option.some.inj hstep ▸ hlast
  | tcpDisconnect => exact Option.some.inj hstep ▸ hlast
  | tcpMessage connection payload =>
    obtain ⟨-, hstep⟩ := Option.ite_none_right_eq_some.mp hstep
    exact Option.some.inj hstep ▸ hlast
  | runHandler now alive =>
    simp only [step] at hstep
    split at hstep
    · cases hstep
    · next handler strand _ =>
      obtain rfl := Option.some.inj hstep
      exact last_shot_time_handle hlast (timed now alive rfl) alive handler

/-- Every request of a run finds the least time, and is refused. -/
theorem refused_of_mem_shots {labels : List Label} (timed : ∀ label ∈ labels, Timed label)
    {c : ControllerStrand} (hlast : c.controller.last_shot_time_ = Int64.minValue) :
    ∀ shot ∈ shots c labels,
      0 ≤ shot.now ∧ shot.last_shot_time_ = Int64.minValue ∧ shot.sent = false := by
  induction labels generalizing c with
  | nil => exact nofun
  | cons label labels ih =>
    obtain ⟨hlabel, hrest⟩ := List.forall_mem_cons.mp timed
    unfold shots
    cases hstep : step c label with
    | none => exact nofun
    | some c' =>
      intro shot hmem
      rcases List.mem_append.mp hmem with hmem | hmem
      · have hshot := Option.mem_toList.mp hmem
        cases label with
        | runHandler now alive =>
          simp only [shotOf] at hshot
          split_ifs at hshot
          obtain rfl := Option.some.inj hshot
          have hnow := hlabel now alive rfl
          refine ⟨hnow, hlast, ?_⟩
          dsimp only
          rw [doShoot_of_minValue hlast hnow]
          simp
        | _ => cases hshot
      · exact ih hrest (last_shot_time_step hlast hlabel hstep) shot hmem

/-- **The cooldown of shots.** In every run whose clock does not read negative times, the cooldown
works as it should if and only if no request is handled in the game with the own ship alive. -/
theorem cooled_iff {labels : List Label} (timed : ∀ label ∈ labels, Timed label) :
    Cooled none (shots machine.init labels) ↔ shots machine.init labels = [] := by
  constructor
  · intro hcooled
    cases hshots : shots machine.init labels with
    | nil => rfl
    | cons shot rest =>
      -- Already the first request sees the least time.
      have hmem : shot ∈ shots machine.init labels := hshots ▸ List.mem_cons_self
      obtain ⟨hnow, hlast, -⟩ := refused_of_mem_shots timed rfl shot hmem
      rw [hshots] at hcooled
      exact absurd hcooled.1 (not_exact_of_minValue hnow hlast)
  · intro hnone
    rw [hnone]
    trivial

/-- A session that is accepted and shoots one second after the clock's epoch. -/
def shootingSession : List Label := acceptedSession ++ [.shoot, .runHandler 1000000000 true]

theorem shots_shootingSession :
    shots machine.init shootingSession = [⟨1000000000, Int64.minValue, false⟩] := by decide

theorem timed_shootingSession : ∀ label ∈ shootingSession, Timed label := by
  rintro label hmem now alive rfl
  simp only [shootingSession, acceptedSession, List.cons_append, List.nil_append, List.mem_cons,
    Label.runHandler.injEq, reduceCtorEq, List.not_mem_nil, false_or, or_false] at hmem
  rcases hmem with ⟨rfl, -⟩ | ⟨rfl, -⟩ | ⟨rfl, -⟩ | ⟨rfl, -⟩
  · decide
  · decide
  · decide
  · decide

/-- Before the reply arrives, no request is handled. -/
theorem cooled_iff_acceptedSession :
    (Cooled none (shots machine.init shootingSession) ↔
      shots machine.init shootingSession = []) ∧
      Cooled none (shots machine.init acceptedSession) := by
  have hnone : shots machine.init acceptedSession = [] := by decide
  refine ⟨cooled_iff timed_shootingSession, (cooled_iff fun label hmem => ?_).mpr hnone⟩
  exact timed_shootingSession label (List.mem_append_left _ hmem)

/-- The first shot of a session is refused: its difference to the least time overflows. -/
theorem not_cooled_shootingSession :
    (∀ label ∈ shootingSession, Timed label) ∧
      ¬ Cooled none (shots machine.init shootingSession) := by
  refine ⟨timed_shootingSession, fun hcooled => ?_⟩
  rw [shots_shootingSession] at hcooled
  exact not_exact_of_minValue (by decide) rfl hcooled.1

end ControllerStrand

end SpaceShooter.Client
