/-
# The frame codec

The stream framing shared by client and server: a four-byte magic, a four-byte
big-endian length, then the payload. The scanner walks a snapshot of the receive
buffer, hands every complete frame to a handler and skips one byte whenever the
front cannot start an admissible frame.

The scanner is an incremental decoder: whatever it decides on the front of the
buffer needs only bytes that are already there, so later bytes never change it.
Chunking invariance and the round trip are instances of the library's results.
-/

import SpaceShooter.Common.Types
import SpaceShooter.Library.BigEndian
import SpaceShooter.Library.Incremental

namespace SpaceShooter.Network

open Library Library.Incremental

/-- A view of payload bytes, valid inside the handler call. -/
abbrev PayloadView := Bytes

namespace FrameCodec

def kMagic : UInt32 := 0xDEADBEEF

def kMagicLength : ℕ := 4

def kSizeLength : ℕ := 4

def kHeaderLength : ℕ := kMagicLength + kSizeLength

/-- Maximum allowed payload size, for encoding and decoding alike. -/
def kMaxMessageSize : ℕ := 16 * 1024 * 1024

/-- Outbound frame: header and payload, in the sizes the encoder admits. -/
structure Frame where
  header : Bytes
  payload : Bytes
  header_size : header.length = kHeaderLength
  payload_fits : payload.length ≤ kMaxMessageSize
  deriving DecidableEq

/-- The two-buffer sequence of a frame, as the socket sends it. -/
def Frame.buffers (frame : Frame) : Bytes := frame.header ++ frame.payload

/-- Wrap a payload in a frame ready to send. -/
def encode (payload : Bytes) : Except StdException Frame :=
  if large : payload.length > kMaxMessageSize then
    .error (.length_error "FrameCodec::encode: payload exceeds kMaxMessageSize")
  else
    .ok {
      header := BigEndian.toBytes kMagic ++
        BigEndian.toBytes (UInt32.ofNat payload.length)
      payload := payload
      header_size := rfl
      payload_fits := Nat.le_of_not_lt large }

/-- The big-endian word at an offset of the buffer. -/
def load_big_u32 (data : Bytes) (offset : ℕ) : UInt32 :=
  BigEndian.ofBytes ((data.drop offset).take 4)

/-- Where a scan stopped: the first byte not yet resolved, and the number of
frames dispatched or the exception of the handler, with the handler's state. -/
structure Scanned (ε σ : Type) where
  offset : ℕ
  outcome : EStateM.Result ε σ ℕ

/-- Scan the buffer and dispatch every complete frame. Every round advances the
offset, so the buffer's size is fuel enough. -/
def scan {ε σ : Type} (onFrame : PayloadView → EStateM ε σ Unit) (data : Bytes) :
    (fuel offset count : ℕ) → σ → Scanned ε σ
  | 0, offset, count, state => ⟨offset, .ok count state⟩
  | fuel + 1, offset, count, state =>
    -- Scan while a full header still fits
    if offset + kHeaderLength ≤ data.length then
      -- Not a magic start: this byte is junk, resync one step
      if load_big_u32 data offset ≠ kMagic then
        scan onFrame data fuel (offset + 1) count state
      else
        let length_v := (load_big_u32 data (offset + kMagicLength)).toNat
        -- Oversized: treat as corruption, resync from the next byte
        if length_v > kMaxMessageSize then
          scan onFrame data fuel (offset + 1) count state
        else
          let total := kHeaderLength + length_v
          -- Full frame fits? If not, stop here and wait for more data
          if offset + total > data.length then
            ⟨offset, .ok count state⟩
          else
            match onFrame ((data.drop (offset + kHeaderLength)).take length_v) state with
            | .ok _ state' => scan onFrame data fuel (offset + total) (count + 1) state'
            -- The frame whose handler threw is not consumed
            | .error e state' => ⟨offset, .error e state'⟩
    else
      ⟨offset, .ok count state⟩

/-- Dispatch every complete frame of the buffer. What the scanner resolved is
consumed on every exit path, so the result carries the remaining buffer also
when the handler throws. -/
def decode {ε σ : Type} (onFrame : PayloadView → EStateM ε σ Unit) (buffer : Bytes)
    (state : σ) : EStateM.Result ε σ ℕ × Bytes :=
  if buffer.length < kHeaderLength then
    (.ok 0 state, buffer)
  else
    let scanned := scan onFrame buffer buffer.length 0 0 state
    (scanned.outcome, buffer.drop scanned.offset)

/-! ### The scanner as an incremental decoder -/

/-- The scanner's decision on the front of the unresolved bytes. -/
def verdict (rest : Bytes) : Verdict PayloadView :=
  if rest.length < kHeaderLength then
    .wait
  else if load_big_u32 rest 0 ≠ kMagic then
    .advance 1 none
  else if (load_big_u32 rest kMagicLength).toNat > kMaxMessageSize then
    .advance 1 none
  else if rest.length < kHeaderLength + (load_big_u32 rest kMagicLength).toNat then
    .wait
  else
    .advance (kHeaderLength + (load_big_u32 rest kMagicLength).toNat)
      (some ((rest.drop kHeaderLength).take (load_big_u32 rest kMagicLength).toNat))

theorem load_big_u32_append {data : Bytes} {offset : ℕ} (within : offset + 4 ≤ data.length)
    (later : Bytes) : load_big_u32 (data ++ later) offset = load_big_u32 data offset := by
  unfold load_big_u32
  rw [List.drop_append_of_le_length (by omega),
    List.take_append_of_le_length (by rw [List.length_drop]; omega)]

theorem toBytes_load_big_u32 {data : Bytes} {offset : ℕ} (within : offset + 4 ≤ data.length) :
    BigEndian.toBytes (load_big_u32 data offset) = (data.drop offset).take 4 := by
  refine BigEndian.toBytes_ofBytes ?_
  rw [List.length_take, List.length_drop]
  omega

theorem load_big_u32_drop (data : Bytes) (offset inner : ℕ) :
    load_big_u32 (data.drop offset) inner = load_big_u32 data (offset + inner) := by
  unfold load_big_u32
  rw [List.drop_drop]

/-- What the scanner can decide, with the bytes each decision rests on. -/
theorem verdict_advance {rest : Bytes} {count : ℕ} {emitted : Option PayloadView}
    (h : verdict rest = .advance count emitted) :
    kHeaderLength ≤ rest.length ∧
      ((count = 1 ∧ emitted = none ∧
          (load_big_u32 rest 0 ≠ kMagic ∨
            kMaxMessageSize < (load_big_u32 rest kMagicLength).toNat)) ∨
        ∃ length_v, length_v = (load_big_u32 rest kMagicLength).toNat ∧
          load_big_u32 rest 0 = kMagic ∧ length_v ≤ kMaxMessageSize ∧
          kHeaderLength + length_v ≤ rest.length ∧ count = kHeaderLength + length_v ∧
          emitted = some ((rest.drop kHeaderLength).take length_v)) := by
  unfold verdict at h
  split_ifs at h with hshort hmagic hlarge hpartial
  · cases h
    exact ⟨Nat.le_of_not_lt hshort, Or.inl ⟨rfl, rfl, Or.inl hmagic⟩⟩
  · cases h
    exact ⟨Nat.le_of_not_lt hshort, Or.inl ⟨rfl, rfl, Or.inr hlarge⟩⟩
  · cases h
    exact ⟨Nat.le_of_not_lt hshort, Or.inr ⟨_, rfl, not_not.mp hmagic,
      Nat.le_of_not_lt hlarge, Nat.le_of_not_lt hpartial, rfl, rfl⟩⟩

theorem verdict_append {rest : Bytes} {count : ℕ} {emitted : Option PayloadView}
    (later : Bytes) (h : verdict rest = .advance count emitted) :
    verdict (rest ++ later) = .advance count emitted := by
  obtain ⟨hheader, hcase⟩ := verdict_advance h
  have hmagic : load_big_u32 (rest ++ later) 0 = load_big_u32 rest 0 :=
    load_big_u32_append (by unfold kHeaderLength kMagicLength kSizeLength at hheader; omega) _
  have hlength : load_big_u32 (rest ++ later) kMagicLength =
      load_big_u32 rest kMagicLength := load_big_u32_append hheader _
  have hlong : ¬ (rest ++ later).length < kHeaderLength := by
    rw [List.length_append]
    omega
  unfold verdict
  rw [if_neg hlong, hmagic, hlength]
  rcases hcase with ⟨rfl, rfl, hbad⟩ | ⟨length_v, rfl, hgood, hsmall, hfits, rfl, rfl⟩
  · -- Junk stays junk: the decision used the header only.
    rcases hbad with hbad | hbad
    · rw [if_pos hbad]
    · rw [if_pos hbad, ite_self]
  · have hcomplete : ¬ (rest ++ later).length <
        kHeaderLength + (load_big_u32 rest kMagicLength).toNat := by
      rw [List.length_append]
      omega
    rw [if_neg (not_not.mpr hgood), if_neg (Nat.not_lt.mpr hsmall), if_neg hcomplete,
      List.drop_append_of_le_length hheader,
      List.take_append_of_le_length (by rw [List.length_drop]; omega)]

/-- The scanner's decisions form an incremental decoder. -/
def decoder : Decoder UInt8 PayloadView where
  verdict := verdict
  progress h := by
    obtain ⟨-, ⟨rfl, -⟩ | ⟨length_v, -, -, -, -, rfl, -⟩⟩ := verdict_advance h
    · exact Nat.one_pos
    · exact Nat.add_pos_left (by decide) _
  within h := by
    obtain ⟨hheader, ⟨rfl, -⟩ | ⟨length_v, -, -, -, hfits, rfl, -⟩⟩ := verdict_advance h
    · exact le_trans (by decide) hheader
    · exact hfits
  stable later h := verdict_append later h

theorem decoder_verdict (rest : Bytes) : decoder.verdict rest = verdict rest := rfl

/-- From any offset, the scanner dispatches what the decoder dispatches on the
unresolved bytes, and stops where the decoder's residue begins. -/
theorem scan_eq_dispatch {ε σ : Type} (onFrame : PayloadView → EStateM ε σ Unit)
    (data : Bytes) (fuel offset count : ℕ) (state : σ)
    (enough : data.length ≤ offset + fuel) (within : offset ≤ data.length) :
    (scan onFrame data fuel offset count state).outcome =
        (decoder.dispatch onFrame (data.drop offset) count state).1 ∧
      data.drop (scan onFrame data fuel offset count state).offset =
        (decoder.dispatch onFrame (data.drop offset) count state).2 := by
  induction fuel generalizing offset count state with
  | zero =>
    have hwait : decoder.verdict (data.drop offset) = .wait := by
      rw [decoder_verdict, verdict, if_pos]
      rw [List.length_drop, Nat.sub_eq_zero_of_le (by omega)]
      decide
    rw [Decoder.dispatch_of_wait onFrame hwait]
    exact ⟨rfl, rfl⟩
  | succ fuel ih =>
    have hrest : (data.drop offset).length = data.length - offset := List.length_drop
    have hmagicAt : load_big_u32 (data.drop offset) 0 = load_big_u32 data offset :=
      load_big_u32_drop data offset 0
    have hlengthAt : load_big_u32 (data.drop offset) kMagicLength =
        load_big_u32 data (offset + kMagicLength) := load_big_u32_drop data offset _
    -- Both sides branch on the same tests, at the offset and at the front of the rest.
    have hverdict := decoder_verdict (data.drop offset)
    rw [verdict, hmagicAt, hlengthAt, hrest] at hverdict
    have hpos : 0 < kHeaderLength := by decide
    have hskip (h : decoder.verdict (data.drop offset) = .advance 1 none)
        (hheader : offset + kHeaderLength ≤ data.length) :
        (scan onFrame data fuel (offset + 1) count state).outcome =
            (decoder.dispatch onFrame (data.drop offset) count state).1 ∧
          data.drop (scan onFrame data fuel (offset + 1) count state).offset =
            (decoder.dispatch onFrame (data.drop offset) count state).2 := by
      rw [Decoder.dispatch_of_skip onFrame h, List.drop_drop]
      exact ih _ _ _ (by omega) (by omega)
    rw [scan]
    by_cases hheader : offset + kHeaderLength ≤ data.length
    · rw [if_neg (by omega : ¬ data.length - offset < kHeaderLength)] at hverdict
      rw [if_pos hheader]
      by_cases hmagic : load_big_u32 data offset ≠ kMagic
      · rw [if_pos hmagic] at hverdict ⊢
        exact hskip hverdict hheader
      · rw [if_neg hmagic] at hverdict ⊢
        by_cases hlarge : (load_big_u32 data (offset + kMagicLength)).toNat > kMaxMessageSize
        · rw [if_pos hlarge] at hverdict ⊢
          exact hskip hverdict hheader
        · rw [if_neg hlarge] at hverdict ⊢
          by_cases hpartial :
              offset + (kHeaderLength + (load_big_u32 data (offset + kMagicLength)).toNat) >
                data.length
          · rw [if_pos hpartial]
            rw [if_pos (by omega)] at hverdict
            rw [Decoder.dispatch_of_wait onFrame hverdict]
            exact ⟨rfl, rfl⟩
          · rw [if_neg hpartial]
            rw [if_neg (by omega), List.drop_drop] at hverdict
            rw [Decoder.dispatch_of_item onFrame hverdict]
            cases hcall : onFrame ((data.drop (offset + kHeaderLength)).take
                (load_big_u32 data (offset + kMagicLength)).toNat) state with
            | ok _ state' =>
              simp only [List.drop_drop]
              exact ih _ _ _ (by omega) (by omega)
            | error e state' => exact ⟨rfl, rfl⟩
    · rw [if_pos (by omega : data.length - offset < kHeaderLength)] at hverdict
      rw [if_neg hheader, Decoder.dispatch_of_wait onFrame hverdict]
      exact ⟨rfl, rfl⟩

/-- A whole `decode` call is one dispatching run on the buffer. -/
theorem decode_eq_dispatch {ε σ : Type} (onFrame : PayloadView → EStateM ε σ Unit)
    (buffer : Bytes) (state : σ) :
    decode onFrame buffer state = decoder.dispatch onFrame buffer 0 state := by
  unfold decode
  split_ifs with hshort
  · have hwait : decoder.verdict buffer = .wait := by
      rw [decoder_verdict, verdict, if_pos hshort]
    rw [Decoder.dispatch_of_wait onFrame hwait]
  · obtain ⟨houtcome, hresidue⟩ :=
      scan_eq_dispatch onFrame buffer buffer.length 0 0 state (by omega) (by omega)
    rw [List.drop_zero] at houtcome hresidue
    exact Prod.ext houtcome hresidue

/-! ### Receiving a stream -/

/-- The handler that records every payload it is handed. -/
def record (payload : PayloadView) : EStateM Empty (List PayloadView) Unit :=
  fun received => .ok () (received ++ [payload])

/-- One read of a receiver: append the chunk to the buffer and decode, keeping the
payloads dispatched so far and the buffer. -/
def receive (received : List PayloadView × Bytes) (chunk : Bytes) :
    List PayloadView × Bytes :=
  match decode record (received.2 ++ chunk) received.1 with
  | (.ok _ payloads, buffer) => (payloads, buffer)
  | (.error e _, _) => e.elim

theorem foldl_record (payloads received : List PayloadView) :
    payloads.foldl (fun received payload => received ++ [payload]) received =
      received ++ payloads := by
  induction payloads generalizing received with
  | nil => rw [List.foldl_nil, List.append_nil]
  | cons payload payloads ih =>
    rw [List.foldl_cons, ih, List.append_assoc, List.singleton_append]

/-- A receiver's read is the library's feed. -/
theorem receive_eq_feed : receive = decoder.feed := by
  funext received chunk
  have total (payload : PayloadView) (received : List PayloadView) :
      record payload received = .ok () (received ++ [payload]) := rfl
  rw [receive, decode_eq_dispatch, decoder.dispatch_of_total record total]
  simp only [foldl_record, Decoder.feed]

theorem decoder_verdict_nil : decoder.verdict [] = .wait := rfl

/-- Reading any sequence of chunks equals one read of their concatenation. -/
theorem foldl_receive_eq (chunks : List Bytes) :
    chunks.foldl receive ([], []) = decoder.run chunks.flatten := by
  rw [receive_eq_feed, Decoder.foldl_feed _ _ _ decoder_verdict_nil]
  simp

/-- **Chunking invariance.** However arbitrary input is cut into chunks, decoding
after each chunk dispatches the same payloads and leaves the same buffer as one
decode of the whole input. -/
theorem foldl_receive_chunks (chunks : List Bytes) :
    chunks.foldl receive ([], []) = receive ([], []) chunks.flatten := by
  have whole := foldl_receive_eq [chunks.flatten]
  rw [List.foldl_cons, List.foldl_nil, List.flatten_singleton] at whole
  rw [foldl_receive_eq, whole]

/-! ### The round trip -/

/-- The wire image of a payload: magic, big-endian length, payload. -/
def wire (payload : Bytes) : Bytes :=
  BigEndian.toBytes kMagic ++ (BigEndian.toBytes (UInt32.ofNat payload.length) ++ payload)

theorem length_wire (payload : Bytes) : (wire payload).length = kHeaderLength + payload.length := by
  simp only [wire, List.length_append, BigEndian.length_toBytes, kHeaderLength, kMagicLength,
    kSizeLength, Nat.add_assoc]

/-- Admissible payloads encode to a frame that sends their wire image. -/
theorem encode_of_fits {payload : Bytes} (fits : payload.length ≤ kMaxMessageSize) :
    ∃ frame, encode payload = .ok frame ∧ frame.buffers = wire payload := by
  unfold encode
  rw [dif_neg (Nat.not_lt.mpr fits)]
  exact ⟨_, rfl, List.append_assoc _ _ _⟩

theorem mapM_encode_of_fits (payloads : List Bytes)
    (fits : ∀ payload ∈ payloads, payload.length ≤ kMaxMessageSize) :
    ∃ frames, payloads.mapM encode = .ok frames ∧
      frames.flatMap Frame.buffers = payloads.flatMap wire := by
  induction payloads with
  | nil => exact ⟨[], rfl, rfl⟩
  | cons payload payloads ih =>
    obtain ⟨frame, hframe, hbuffers⟩ := encode_of_fits (fits payload List.mem_cons_self)
    obtain ⟨frames, hframes, hwire⟩ :=
      ih fun other member => fits other (List.mem_cons_of_mem _ member)
    refine ⟨frame :: frames, ?_, ?_⟩
    · rw [List.mapM_cons, hframe, hframes]
      rfl
    · rw [List.flatMap_cons, List.flatMap_cons, hbuffers, hwire]

theorem load_big_u32_wire (payload later : Bytes) :
    load_big_u32 (wire payload ++ later) 0 = kMagic ∧
      load_big_u32 (wire payload ++ later) kMagicLength = UInt32.ofNat payload.length := by
  have hmagic := BigEndian.length_toBytes kMagic
  have hlength := BigEndian.length_toBytes (UInt32.ofNat payload.length)
  unfold load_big_u32 wire
  rw [List.append_assoc, List.append_assoc]
  constructor
  · rw [List.drop_zero, List.take_left' hmagic, BigEndian.ofBytes_toBytes]
  · rw [kMagicLength, List.drop_left' hmagic, List.take_left' hlength,
      BigEndian.ofBytes_toBytes]

/-- In front of any later bytes, the scanner resolves the wire image of an
admissible payload as exactly one frame. -/
theorem verdict_wire {payload : Bytes} (fits : payload.length ≤ kMaxMessageSize)
    (later : Bytes) :
    verdict (wire payload ++ later) = .advance (wire payload).length (some payload) := by
  obtain ⟨hmagic, hlength⟩ := load_big_u32_wire payload later
  have hword : (UInt32.ofNat payload.length).toNat = payload.length := by
    rw [UInt32.toNat_ofNat']
    exact Nat.mod_eq_of_lt (lt_of_le_of_lt fits (by decide))
  have hbody : (wire payload ++ later).drop kHeaderLength = payload ++ later := by
    rw [wire, ← List.append_assoc, List.append_assoc,
      List.drop_left' (by rw [List.length_append]; rfl)]
  unfold verdict
  rw [hmagic, hlength, hword, List.length_append, length_wire, hbody, List.take_left,
    if_neg (by omega), if_neg (not_not.mpr rfl), if_neg (Nat.not_lt.mpr fits),
    if_neg (by omega)]

/-- **Round trip.** Admissible payloads encode, and however the concatenated wire
images are cut into chunks, decoding after each chunk dispatches exactly those
payloads in order and leaves the buffer empty. -/
theorem foldl_receive_encoded (payloads : List Bytes)
    (fits : ∀ payload ∈ payloads, payload.length ≤ kMaxMessageSize) :
    ∃ frames, payloads.mapM encode = .ok frames ∧
      ∀ chunks : List Bytes, chunks.flatten = frames.flatMap Frame.buffers →
        chunks.foldl receive ([], []) = (payloads, []) := by
  obtain ⟨frames, hframes, hwire⟩ := mapM_encode_of_fits payloads fits
  refine ⟨frames, hframes, fun chunks cut => ?_⟩
  have hrun := Decoder.run_flatMap (d := decoder) wire payloads []
    fun payload member later => verdict_wire (fits payload member) later
  rw [foldl_receive_eq, cut, hwire, ← List.append_nil (payloads.flatMap wire), hrun,
    Decoder.run_of_wait decoder_verdict_nil, List.append_nil]

/-- Two payloads, one of them empty, cut inside the first header. -/
theorem foldl_receive_encoded_two :
    (∀ payload ∈ [[7], []], payload.length ≤ kMaxMessageSize) ∧
      ∃ frames, [[7], []].mapM encode = .ok frames ∧
        ∀ chunks : List Bytes, chunks.flatten = frames.flatMap Frame.buffers →
          chunks.foldl receive ([], []) = ([[7], []], []) :=
  ⟨by decide, foldl_receive_encoded [[7], []] (by decide)⟩

end FrameCodec

end SpaceShooter.Network
