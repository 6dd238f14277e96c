/-
# Snapshots on the message channel

Snapshots and text commands reach the client over one channel and carry no tag. They cannot
be confused: behind the tick number a snapshot has the number of its leaderboard entries,
which is small, so its fifth byte is zero, and no keyword of the protocol has a zero there.
-/

import SpaceShooter.Client.GameController
import SpaceShooter.Common.SnapshotFormat
import SpaceShooter.Server.BroadcastSize

namespace SpaceShooter.Client

open Library Protocol Snapshot Server

variable {K : Type}

/-! ### The fifth byte -/

/-- A keyword is the front of the text that it is found in. -/
theorem getElem?_of_keyword {text keyword : Bytes} {p : UInt8 → Bool}
    (h : text.takeWhile p = keyword) {i : ℕ} (hi : i < keyword.length) :
    text[i]? = keyword[i]? := by
  have hprefix := List.takeWhile_prefix p (l := text)
  rw [h] at hprefix
  obtain ⟨rest, rfl⟩ := hprefix
  rw [List.getElem?_append_left hi]

/-- No keyword has a zero as its fifth byte. -/
theorem decode_of_fifth {text : Bytes} (h : text[4]? = some 0) :
    (decode text).type = .Unknown := by
  have hkeyword (keyword : Bytes) (hlength : 4 < keyword.length) (hfifth : keyword[4]? ≠ some 0) :
      text.takeWhile (· ≠ 0x20) ≠ keyword := by
    intro heq
    rw [getElem?_of_keyword heq hlength] at h
    exact hfifth h
  unfold decode
  dsimp only
  rw [if_neg (hkeyword (bytesOf "ACCEPT") (by decide) (by decide)),
    if_neg (hkeyword (bytesOf "REJECT") (by decide) (by decide)),
    if_neg (hkeyword (bytesOf "GAME_END") (by decide) (by decide))]

/-- The first byte of a small number is zero. -/
theorem writeU32_small {count : ℕ} (h : count ≤ World.kMaxLeaderboardSize) :
    ∃ tail, GameSnapshot.writeU32 (UInt32.ofNat count) = 0 :: tail := by
  have hfirst : ∀ count < 11, (GameSnapshot.writeU32 (UInt32.ofNat count)).head? = some 0 := by
    decide
  exact List.head?_eq_some_iff.mp (hfirst count (Nat.lt_succ_of_le h))

theorem fifth_of_count {tick_number : UInt32} {count : ℕ} (h : count ≤ World.kMaxLeaderboardSize)
    (tail : Bytes) :
    (GameSnapshot.writeU32 tick_number ++
      (GameSnapshot.writeU32 (UInt32.ofNat count) ++ tail))[4]? = some 0 := by
  obtain ⟨bytes, hbytes⟩ := writeU32_small h
  rw [hbytes]
  rfl

/-! ### Snapshots change nothing -/

/-- A message that is no command is dropped. -/
theorem onMessageOnStrand_of_unknown {payload : Bytes} (h : (decode payload).type = .Unknown)
    (controller : GameController) (connection : ℕ) :
    controller.onMessageOnStrand connection payload = controller := by
  rw [GameController.onMessageOnStrand, h]
  exact ite_self controller

/-- A well-formed encoding is no command. -/
theorem decode_encoding {wire : EntityWire K} (e : Encoding wire) :
    (decode e.bytes).type = .Unknown := by
  refine decode_of_fifth ?_
  rw [Encoding.bytes, List.append_assoc]
  exact fifth_of_count e.length_entries _

variable [Scalar K] {ext : Server.Externals K} {tick_interval : ℕ}

/-- What the server broadcasts is no command. -/
theorem decode_broadcast {world_width world_height : K} {ops : List (Server.World.Op K)}
    {world : Server.World K}
    (hrun : (Server.World.machine ext world_width world_height tick_interval).run ops = some world)
    {payload : Bytes}
    (h : .SendPacketEvent NetworkResponseRouter.kBroadcastSessionId payload ∈ world.published) :
    (decode payload).type = .Unknown := by
  refine Machine.run_induction
    (motive := fun _ world =>
      .SendPacketEvent NetworkResponseRouter.kBroadcastSessionId payload ∈ world.published →
        (decode payload).type = .Unknown)
    (fun h => by cases h) ?_ hrun h
  intro ops before op after _ ih hstep hmem
  obtain rfl := Option.some.inj hstep
  rcases Server.World.broadcast_of_step hmem with hmem | ⟨choice, tick, mid, -, -, hserialize⟩
  · exact ih hmem
  · obtain ⟨-, -, -, rfl⟩ := GameSnapshot.Serialize_eq_ok hserialize
    refine decode_of_fifth ?_
    rw [List.append_assoc, List.append_assoc]
    exact fifth_of_count (Server.World.length_buildLeaderboard_le mid) _

/-- No byte string is both a snapshot and a command, and no snapshot that the server
broadcasts in any run changes anything at a client. -/
theorem snapshots_are_no_commands (ext : Server.Externals K) (world_width world_height : K)
    (tick_interval : ℕ) :
    (∀ (wire : EntityWire K) (bytes : Bytes) (s : GameSnapshot K),
      ByteReader.Deserialize wire bytes = .ok s → (decode bytes).type = .Unknown) ∧
    (∀ ops world payload,
      (Server.World.machine ext world_width world_height tick_interval).run ops = some world →
      .SendPacketEvent NetworkResponseRouter.kBroadcastSessionId payload ∈ world.published →
      ∀ (controller : GameController) (connection : ℕ),
        controller.onMessageOnStrand connection payload = controller) := by
  refine ⟨fun wire bytes s h => ?_, fun ops world payload hrun hmem controller connection => ?_⟩
  · obtain ⟨e, rfl, -⟩ := ((accepts_encodings wire bytes).2.1 s).mp h
    exact decode_encoding e
  · exact onMessageOnStrand_of_unknown (decode_broadcast hrun hmem) controller connection

section Exact

attribute [local instance] RationalScalar.rational

open Server.World in
/-- The broadcast of the tick in which a session joined. -/
theorem unchanged_by_joinedPayload :
    ∃ payload, .SendPacketEvent NetworkResponseRouter.kBroadcastSessionId payload ∈
      joinedWorld.published ∧ ∀ (controller : GameController) (connection : ℕ),
        controller.onMessageOnStrand connection payload = controller := by
  have hmem : .SendPacketEvent NetworkResponseRouter.kBroadcastSessionId joinedPayload ∈
      joinedWorld.published := by
    rw [published_joinedWorld]
    exact List.mem_singleton_self _
  obtain ⟨-, hunchanged⟩ :=
    snapshots_are_no_commands exactExternals World.kDefaultWidth World.kDefaultHeight 16666
  exact ⟨joinedPayload, hmem, hunchanged _ joinedWorld joinedPayload (run_exactMachine _) hmem⟩

end Exact

end SpaceShooter.Client
