/-
# Ticks of the world

One tick drains the input queue, moves the entities, resolves collisions, keeps up the
asteroids, spawns the ships of new players, and broadcasts a snapshot of the result.
What a tick calls from other libraries is a parameter.
-/

import SpaceShooter.Common.GameSnapshot
import SpaceShooter.Library.PartialSort
import SpaceShooter.Server.AsteroidFactory
import SpaceShooter.Server.EntityUtils
import SpaceShooter.Server.NetworkResponseRouter
import SpaceShooter.Server.TickLoop
import SpaceShooter.Server.WorldCollisions

namespace SpaceShooter.Server

open Scalar Domain Library Snapshot

/-- What ticks call from outside: the FlatBuffers of entities and `std::partial_sort`. -/
structure Externals (K : Type) where
  wire : EntityWire K
  partial_sort : (LeaderboardEntry → LeaderboardEntry → Bool) → ℕ → List LeaderboardEntry →
    List LeaderboardEntry

namespace World

variable {K : Type} [Scalar K]

/-! ### Stages -/

def updatePhysics (world : World K) (dt : K) : World K :=
  { world with
    entities_ :=
      updateMovementAndBounds world.entities_ dt world.world_width_ world.world_height_ }

def maintainAsteroidPopulation (world : World K) (choice : TickChoice K) : World K :=
  { world with
    entities_ := AsteroidFactory.update choice.uniform world.freePosition world.entities_ }

/-- The leaderboard entry of a live player. -/
def leaderboardEntry (entity : Entity K) : Option LeaderboardEntry :=
  match entity.ship, entity.health with
  | some ship, some health =>
    if entity.type = .Ship && decide (0 < health.current) && !entity.isDestroyed then
      some ⟨untilNul ship.name.val, ship.score⟩
    else
      none
  | _, _ => none

def higherScore (a b : LeaderboardEntry) : Bool := decide (b.score < a.score)

variable (ext : Externals K)

def buildLeaderboard (world : World K) : List LeaderboardEntry :=
  let top_players := world.entities_.storage_.reduceOption.filterMap leaderboardEntry
  let top_count := min World.kMaxLeaderboardSize top_players.length
  -- Behind the first `top_count` entries the order is unspecified; they are dropped.
  (ext.partial_sort higherScore top_count top_players).take top_count

def buildGameSnapshot (world : World K) (current_tick : UInt64) : GameSnapshot K :=
  ⟨buildEntitySnapshots world.entities_, world.buildLeaderboard ext, current_tick.toUInt32⟩

def broadcastSnapshot (choice : TickChoice K) (snapshot : GameSnapshot K) :
    Action K PUnit := do
  match snapshot.Serialize ext.wire with
  | .error e => throw e
  | .ok payload =>
    publish choice (.SendPacketEvent NetworkResponseRouter.kBroadcastSessionId payload)
    -- What this tick flagged went with the collisions; nothing flagged is left by now.
    recycleDestroyed

/-- `runTickStep` up to the snapshot. -/
def simulateTick (choice : TickChoice K) (tick_interval : ℕ) : Action K PUnit := do
  let world ← get
  let (world, new_players) := world.processInputQueue []
  set (world.updatePhysics (secondsOfMicros tick_interval))
  resolveCollisions choice
  -- The ships of new players take no part in this tick's movement and collisions.
  modify fun world => (world.maintainAsteroidPopulation choice).spawnShips new_players

/-- The stages of `runTickStep`. -/
def runTickStages (choice : TickChoice K) (tick_interval : ℕ) (current_tick : UInt64) :
    Action K PUnit := do
  simulateTick choice tick_interval
  let world ← get
  broadcastSnapshot ext choice (world.buildGameSnapshot ext current_tick)

/-- The tick loop swallows the exceptions of the stages and keeps what they did. -/
def runTickStep (choice : TickChoice K) (tick_interval : ℕ) (current_tick : UInt64)
    (world : World K) : World K :=
  Outcome.resultState (runTickStages ext choice tick_interval current_tick world)

/-- The world as the tick loop drives it. -/
def simulation : Simulation (World K) (NetworkEvent K) (TickChoice K) where
  runTickStep := runTickStep ext
  discardActions := discardActions
  onEvent := onEvent

/-! ### Runs -/

/-- What can happen to a world: an event, a tick of its loop, and the clean-up that
follows a stop. -/
inductive Op (K : Type)
  | event (event : NetworkEvent K)
  | tick (choice : TickChoice K) (current_tick : UInt64)
  | discardActions

/-- The event an operation brings. -/
def Op.event? : Op K → Option (NetworkEvent K)
  | .event e => some e
  | _ => none

def step (tick_interval : ℕ) (world : World K) : Op K → World K
  | .event event => onEvent event world
  | .tick choice current_tick => runTickStep ext choice tick_interval current_tick world
  | .discardActions => world.discardActions

/-- A world without entities. -/
def empty (world_width world_height : K) : World K :=
  { world_width_ := world_width, world_height_ := world_height }

def machine (world_width world_height : K) (tick_interval : ℕ) : Machine (World K) (Op K) where
  init := empty world_width world_height
  step world op := some (step ext tick_interval world op)

/-- All stages of a tick finish. -/
def Completes (tick_interval : ℕ) (world : World K) : Op K → Prop
  | .tick choice current_tick =>
    ∃ world', runTickStages ext choice tick_interval current_tick world = .ok ⟨⟩ world'
  | _ => True

instance (tick_interval : ℕ) (world : World K) (op : Op K) :
    Decidable (Completes ext tick_interval world op) :=
  match op with
  | .event _ => isTrue trivial
  | .tick choice current_tick =>
    match h : runTickStages ext choice tick_interval current_tick world with
    | .ok _ world' => isTrue ⟨world', h⟩
    | .error _ _ => isFalse fun ⟨_, hok⟩ => nomatch h.symm.trans hok
  | .discardActions => isTrue trivial

/-- Every list of operations is a run. -/
theorem run_machine (world_width world_height : K) (tick_interval : ℕ) (ops : List (Op K)) :
    (machine ext world_width world_height tick_interval).run ops =
      some (ops.foldl (step ext tick_interval) (empty world_width world_height)) := by
  have hrun (world : World K) :
      (machine ext world_width world_height tick_interval).runFrom world ops =
        some (ops.foldl (step ext tick_interval) world) := by
    induction ops generalizing world with
    | nil => rfl
    | cons op ops ih => exact ih _
  exact hrun _

/-- What reaches a world from outside its server: payloads of sessions, their ends, and the
ticks of its loop. -/
inductive Input (K : Type)
  | payload (session_id : SessionId) (msg : Bytes)
  | disconnected (session_id : SessionId)
  | tick (choice : TickChoice K) (current_tick : UInt64)

/-- What an input does to the world; payloads arrive as the events the router publishes. -/
def Input.ops (handlerSet : Bool) : Input K → List (Op K)
  | .payload session_id msg =>
    (NetworkResponseRouter.onMessageReceived handlerSet session_id msg).filterMap fun
      | .publish event => some (.event event)
      | _ => none
  | .disconnected session_id => [.event (.ClientDisconnectedEvent session_id)]
  | .tick choice current_tick => [.tick choice current_tick]

/-- A tick among the operations of some inputs is one of the inputs. -/
theorem mem_inputs_of_tick {handlerSet : Bool} {inputs : List (Input K)} {choice : TickChoice K}
    {current_tick : UInt64}
    (h : Op.tick choice current_tick ∈ inputs.flatMap (Input.ops handlerSet)) :
    Input.tick choice current_tick ∈ inputs := by
  obtain ⟨input, hinput, hop⟩ := List.mem_flatMap.mp h
  cases input with
  | payload session_id msg =>
    obtain ⟨effect, -, heffect⟩ := List.mem_filterMap.mp hop
    split at heffect
    · cases heffect
    · cases heffect
  | disconnected session_id =>
    cases List.mem_singleton.mp hop
  | tick choice' current_tick' =>
    cases List.mem_singleton.mp hop
    exact hinput

/-! ### Exact arithmetic -/

section Exact

attribute [local instance] RationalScalar.rational

/-- Externals for runs in exact arithmetic: entities travel as their identifiers. -/
def exactExternals : Externals ℚ where
  wire := ⟨fun entity => [UInt8.ofNat entity.id], fun _ => none⟩
  partial_sort lt _ entries := entries.insertionSort fun a b => lt b a = false

/-- Draws are the least possible, no subscriber throws, and the map iterates in order. -/
def exactChoice : TickChoice ℚ := ⟨fun _ low _ => low, fun _ => none, id, fun _ => .rfl⟩

/-- A completed tick of an exact run. -/
def exactTick : Op ℚ := .tick exactChoice 0

/-- The machine of the default world in exact arithmetic. -/
def exactMachine : Machine (World ℚ) (Op ℚ) :=
  machine exactExternals World.kDefaultWidth World.kDefaultHeight 16666

/-- The default world after some operations. -/
def exactWorld (ops : List (Op ℚ)) : World ℚ :=
  ops.foldl (step exactExternals 16666) (empty World.kDefaultWidth World.kDefaultHeight)

theorem run_exactMachine (ops : List (Op ℚ)) : exactMachine.run ops = some (exactWorld ops) :=
  run_machine _ _ _ _ _

end Exact

end World

end SpaceShooter.Server
