/-
# The display of the client

What the client shows of the last snapshot: its own score, the leaderboard, and the screen of a
player who has died. The score keeps its text until the score changes; a line of the leaderboard
passes through a buffer of fixed size.
-/

import Mathlib.Data.List.Nodup
import Mathlib.Tactic.Ring
import SpaceShooter.Common.SnapshotFormat
import SpaceShooter.Library.Machine

namespace SpaceShooter.Client

open Library Snapshot

/-- A call of `drawText`. -/
structure DrawText where
  text : Bytes
  x : ℤ
  y : ℤ
  deriving DecidableEq, Repr

/-- The decimal text of a number. -/
def formatUnsigned (n : ℕ) : Bytes := (Nat.toDigits 10 n).map fun digit => UInt8.ofNat digit.toNat

def formatInt (n : Int32) : Bytes :=
  if n.toInt < 0 then bytesOf "-" ++ formatUnsigned n.toInt.natAbs
  else formatUnsigned n.toInt.natAbs

theorem length_formatUnsigned {n k : ℕ} (hk : 0 < k) :
    (formatUnsigned n).length ≤ k ↔ n < 10 ^ k := by
  rw [formatUnsigned, List.length_map]
  exact Nat.length_toDigits_le_iff (by decide) hk

/-! ### Entities by identifier -/

structure EntityMap (K : Type) where
  entries : List (EntitySnapshot K)
  distinct : (entries.map fun entity => entity.id).Nodup

namespace EntityMap

variable {K : Type}

def empty : EntityMap K := ⟨[], List.nodup_nil⟩

def find (map : EntityMap K) (id : EntityId) : Option (EntitySnapshot K) :=
  map.entries.find? fun entity => entity.id = id

/-- An identifier that is taken keeps its entity. -/
def emplace (map : EntityMap K) (entity : EntitySnapshot K) : EntityMap K :=
  if taken : entity.id ∈ map.entries.map fun entity => entity.id then map
  else
    { entries := map.entries ++ [entity]
      distinct := by
        rw [List.map_append, List.map_singleton]
        exact List.Nodup.append map.distinct (List.nodup_singleton _)
          (List.disjoint_singleton.mpr taken) }

end EntityMap

/-! ### The world of the client -/

/-- What the client knows of the world. -/
structure ClientWorld (K : Type) where
  my_player_id_ : EntityId := 0
  entities_ : EntityMap K := .empty
  leaderboard_ : List LeaderboardEntry := []

/-- Shown while the player is dead. -/
structure DeathScreen where
  is_active_ : Bool := false
  deriving DecidableEq, Repr

namespace DeathScreen

def setActive (_screen : DeathScreen) (active : Bool) : DeathScreen := ⟨active⟩

def kStartX : ℤ := 400
def kTitleY : ℤ := 300
def kStatsY : ℤ := 330

def render (screen : DeathScreen) (finalScore place : Int32) : List DrawText :=
  if !screen.is_active_ then []
  else
    let stats := bytesOf "Score: " ++ formatInt finalScore ++ bytesOf " | Place: " ++
      formatInt place
    [⟨bytesOf "YOU DIED", kStartX, kTitleY⟩, ⟨stats, kStartX, kStatsY⟩]

end DeathScreen

namespace ClientWorld

variable {K : Type}

def updateSnapshot (world : ClientWorld K) (game_snapshot : GameSnapshot K)
    (my_player_id : EntityId) : ClientWorld K :=
  { world with
    my_player_id_ := my_player_id
    leaderboard_ := game_snapshot.leaderboard_
    entities_ := game_snapshot.snapshots_.foldl EntityMap.emplace .empty }

def isMyPlayerAlive (world : ClientWorld K) : Bool :=
  match world.entities_.find world.my_player_id_ with
  | none => false
  | some entity => !entity.is_destroyed

def updateDeathScreen (world : ClientWorld K) (death_screen : DeathScreen) : DeathScreen :=
  death_screen.setActive (!world.isMyPlayerAlive)

/-- The score of the own ship; none counts as zero. -/
def myScore (world : ClientWorld K) : UInt32 :=
  match world.entities_.find world.my_player_id_ with
  | none => 0
  | some entity =>
    match entity.ship with
    | none => 0
    | some ship => ship.score

end ClientWorld

/-! ### The score -/

/-- The text of the last score that was drawn. -/
structure ScoreView where
  last_score_ : UInt32 := 0
  cached_text_ : Bytes := []
  is_initialized_ : Bool := false
  deriving DecidableEq, Repr

namespace ScoreView

variable {K : Type}

def scoreText (score : UInt32) : Bytes := bytesOf "Score: " ++ formatUnsigned score.toNat

def render (view : ScoreView) (world : ClientWorld K) : ScoreView × DrawText :=
  let current_score := world.myScore
  let view :=
    if !view.is_initialized_ || current_score ≠ view.last_score_ then
      { cached_text_ := scoreText current_score
        last_score_ := current_score
        is_initialized_ := true }
    else view
  (view, ⟨view.cached_text_, 10, 10⟩)

/-- What is kept is the text of the score that is kept. -/
def Fresh (view : ScoreView) : Prop :=
  view.is_initialized_ = true → view.cached_text_ = scoreText view.last_score_

/-- With what it keeps the view draws what it would draw without. -/
theorem Fresh.render {view : ScoreView} (h : view.Fresh) (world : ClientWorld K) :
    (view.render world).1.Fresh ∧
      (view.render world).2 = ⟨scoreText world.myScore, 10, 10⟩ := by
  rw [ScoreView.render]
  dsimp only
  split_ifs with hstale
  · exact ⟨fun _ => rfl, rfl⟩
  · obtain ⟨hinitialized, hsame⟩ : view.is_initialized_ = true ∧
        world.myScore = view.last_score_ := by
      simpa using hstale
    refine ⟨h, ?_⟩
    rw [h hinitialized, hsame]

end ScoreView

/-! ### The leaderboard -/

namespace LeaderboardView

variable {K : Type}

def kStartX : ℤ := 500
def kStartY : ℤ := 50
def kLineHeight : ℤ := 25

/-- `sizeof(buffer)`. -/
def kBufferSize : ℕ := 128

/-- `"{}. {} - {}"`. -/
def lineText (i : ℕ) (entry : LeaderboardEntry) : Bytes :=
  formatUnsigned (i + 1) ++ bytesOf ". " ++ entry.name ++ bytesOf " - " ++
    formatUnsigned entry.score.toNat

/-- The string made of the buffer: the count is that of the text before it was cut to the buffer.
There is none where it would be read past its end. -/
def throughBuffer (text : Bytes) : Option Bytes :=
  let buffer := text.take (kBufferSize - 1) ++ [0]
  let count := text.length
  if count ≤ kBufferSize then some (buffer.take count) else none

/-- The lines from one on; none where one of them overruns the buffer. -/
def renderFrom (i : ℕ) (current_y : ℤ) : List LeaderboardEntry → Option (List DrawText)
  | [] => some []
  | entry :: top => do
    let text ← throughBuffer (lineText i entry)
    let texts ← renderFrom (i + 1) (current_y + kLineHeight) top
    some (⟨text, kStartX, current_y⟩ :: texts)

def render (world : ClientWorld K) : Option (List DrawText) :=
  renderFrom 0 kStartY world.leaderboard_

theorem throughBuffer_of_fits {text : Bytes} (h : text.length < kBufferSize) :
    throughBuffer text = some text := by
  have hcut : text.take (kBufferSize - 1) = text := List.take_of_length_le (Nat.le_pred_of_lt h)
  rw [throughBuffer, if_pos h.le, hcut, List.take_left]

theorem throughBuffer_eq_none {text : Bytes} :
    throughBuffer text = none ↔ kBufferSize < text.length := by
  rw [throughBuffer]
  split_ifs with hfits
  · exact iff_of_false (fun h => by cases h) (Nat.not_lt.mpr hfits)
  · exact iff_of_true rfl (Nat.lt_of_not_le hfits)

/-- The line of an entry, in its place. -/
def drawn (k : ℕ) (entry : LeaderboardEntry) : DrawText :=
  ⟨lineText k entry, kStartX, kStartY + k * kLineHeight⟩

theorem renderFrom_of_fits {top : List LeaderboardEntry} (i : ℕ)
    (h : ∀ k entry, top[k]? = some entry → (lineText (i + k) entry).length < kBufferSize) :
    renderFrom i (kStartY + i * kLineHeight) top =
      some (top.mapIdx fun k entry => drawn (i + k) entry) := by
  induction top generalizing i with
  | nil => rfl
  | cons entry top ih =>
    have hnext : kStartY + (i : ℤ) * kLineHeight + kLineHeight =
        kStartY + ((i + 1 : ℕ) : ℤ) * kLineHeight := by
      push_cast
      ring
    have hrest := ih (i + 1) fun k other hother => by
      rw [Nat.add_assoc, Nat.add_comm 1 k]
      exact h (k + 1) other hother
    have hfirst : (lineText i entry).length < kBufferSize := h 0 entry rfl
    rw [renderFrom, throughBuffer_of_fits hfirst, hnext, hrest, List.mapIdx_cons]
    simp [drawn, Nat.add_assoc, Nat.add_comm 1]

theorem renderFrom_eq_none {top : List LeaderboardEntry} (i : ℕ) (current_y : ℤ) :
    renderFrom i current_y top = none ↔
      ∃ k entry, top[k]? = some entry ∧ kBufferSize < (lineText (i + k) entry).length := by
  induction top generalizing i current_y with
  | nil => simp [renderFrom]
  | cons entry top ih =>
    rw [renderFrom]
    cases hline : throughBuffer (lineText i entry) with
    | none => exact iff_of_true rfl ⟨0, entry, rfl, throughBuffer_eq_none.mp hline⟩
    | some text =>
      have hfits : ¬ kBufferSize < (lineText i entry).length := fun hlong => by
        rw [throughBuffer_eq_none.mpr hlong] at hline
        cases hline
      have hrest : ((do
          let texts ← renderFrom (i + 1) (current_y + kLineHeight) top
          some (DrawText.mk text kStartX current_y :: texts)) = none) ↔
            renderFrom (i + 1) (current_y + kLineHeight) top = none := by
        cases renderFrom (i + 1) (current_y + kLineHeight) top <;> simp
      refine hrest.trans ((ih (i + 1) _).trans ⟨?_, ?_⟩)
      · rintro ⟨k, other, hother, hlong⟩
        exact ⟨k + 1, other, hother, by rwa [Nat.add_comm k 1, ← Nat.add_assoc]⟩
      · rintro ⟨k, other, hother, hlong⟩
        cases k with
        | zero =>
          obtain rfl := Option.some.inj hother
          exact absurd hlong hfits
        | succ k => exact ⟨k, other, hother, by rwa [Nat.add_assoc, Nat.add_comm 1 k]⟩

theorem render_eq_none {world : ClientWorld K} : render world = none ↔
    ∃ k entry, world.leaderboard_[k]? = some entry ∧ kBufferSize < (lineText k entry).length := by
  rw [render, renderFrom_eq_none]
  simp only [Nat.zero_add]

/-- A leaderboard that came over the wire leaves room in the buffer. -/
theorem lineText_fits (e : EntryRecord) {k : ℕ} (hk : k < World.kMaxLeaderboardSize) :
    (lineText k e.entry).length < kBufferSize := by
  have hplace : (formatUnsigned (k + 1)).length ≤ 2 := by
    refine (length_formatUnsigned (by decide)).mpr ?_
    rw [World.kMaxLeaderboardSize] at hk
    omega
  have hname : (untilNul e.name).length ≤ 32 :=
    (GameSnapshot.length_untilNul_le e.name).trans e.length_name.le
  have hscore : (formatUnsigned e.score.toNat).length ≤ 10 := by
    refine (length_formatUnsigned (by decide)).mpr (e.score.toNat_lt.trans ?_)
    norm_num
  have hdot : (bytesOf ". ").length = 2 := rfl
  have hdash : (bytesOf " - ").length = 3 := rfl
  rw [lineText, EntryRecord.entry, kBufferSize]
  simp only [List.length_append]
  omega

theorem render_of_decoded {wire : EntityWire K} {buffer : Bytes} {game_snapshot : GameSnapshot K}
    (h : ByteReader.Deserialize wire buffer = .ok game_snapshot) (world : ClientWorld K)
    (my_player_id : EntityId) :
    render (world.updateSnapshot game_snapshot my_player_id) =
      some (game_snapshot.leaderboard_.mapIdx drawn) := by
  obtain ⟨e, -, rfl⟩ := ByteReader.Deserialize_eq_ok_iff.mp h
  have hfits : ∀ k entry, e.snapshot.leaderboard_[k]? = some entry →
      (lineText (0 + k) entry).length < kBufferSize := by
    intro k entry hentry
    obtain ⟨record, hrecord, rfl⟩ := Option.map_eq_some_iff.mp
      ((List.getElem?_map ..).symm.trans hentry)
    rw [Nat.zero_add]
    exact lineText_fits record
      ((List.getElem?_eq_some_iff.mp hrecord).1.trans_le e.length_entries)
  have hlines := renderFrom_of_fits 0 hfits
  simp only [Nat.zero_add, Nat.cast_zero, zero_mul, add_zero] at hlines
  exact hlines

/-- Rendering reads past the end of its buffer for exactly the leaderboards with an entry of more
than 128 characters in its line; so it does for no snapshot that any buffer of bytes is decoded to,
and then it draws, for each entry in its order, its place, name and score, one line below the
other. -/
theorem leaderboard_of_decoded {wire : EntityWire K} {buffer : Bytes}
    {game_snapshot : GameSnapshot K}
    (decoded : ByteReader.Deserialize wire buffer = .ok game_snapshot) (world : ClientWorld K)
    (my_player_id : EntityId) :
    render (world.updateSnapshot game_snapshot my_player_id) =
        some (game_snapshot.leaderboard_.mapIdx fun k entry =>
          ⟨lineText k entry, kStartX, kStartY + k * kLineHeight⟩) ∧
      ∀ other : ClientWorld K, render other = none ↔
        ∃ k entry, other.leaderboard_[k]? = some entry ∧
          kBufferSize < (lineText k entry).length :=
  ⟨render_of_decoded decoded world my_player_id, fun _ => render_eq_none⟩

/-- A snapshot with one entry, whose name fills its field. -/
def longName : Encoding bareWire where
  tick_number := 5
  entries := [⟨List.replicate 32 65, 4294967295, rfl⟩]
  entities := []
  length_entries := by decide
  length_entities := by decide

theorem leaderboard_longName :
    ByteReader.Deserialize bareWire longName.bytes = .ok longName.snapshot ∧
    render (({} : ClientWorld ℚ).updateSnapshot longName.snapshot 1) =
      some [⟨bytesOf "1. AAAAAAAAAAAAAAAAAAAAAAAAAAAAAAAA - 4294967295", 500, 50⟩] := by
  have decoded : ByteReader.Deserialize bareWire longName.bytes = .ok longName.snapshot :=
    ByteReader.Deserialize_eq_ok_iff.mpr ⟨longName, rfl, rfl⟩
  refine ⟨decoded, ?_⟩
  rw [(leaderboard_of_decoded decoded {} 1).1]
  decide +kernel

end LeaderboardView

/-! ### Runs -/

/-- The parts of the client that show the world. -/
structure Display (K : Type) where
  world : ClientWorld K := {}
  death_screen : DeathScreen := {}
  score_view : ScoreView := {}

namespace Display

variable {K : Type} {d d' : Display K}

/-- What can happen next. -/
inductive Label (K : Type)
  | updateSnapshot (game_snapshot : GameSnapshot K) (my_player_id : EntityId)
  | updateDeathScreen
  | setActive (active : Bool)
  | renderScore

def step (d : Display K) : Label K → Option (Display K)
  | .updateSnapshot game_snapshot my_player_id =>
    some { d with world := d.world.updateSnapshot game_snapshot my_player_id }
  | .updateDeathScreen =>
    some { d with death_screen := d.world.updateDeathScreen d.death_screen }
  | .setActive active => some { d with death_screen := d.death_screen.setActive active }
  | .renderScore => some { d with score_view := (d.score_view.render d.world).1 }

def machine (K : Type) : Machine (Display K) (Label K) where
  init := {}
  step := step

end Display

end SpaceShooter.Client
