/-
# Handlers that throw

An exception of the handler leaves `decode` with the frame still at the front of the buffer, so
a later call begins with it. However often handlers throw, no payload is lost and none is
accepted twice.
-/

import SpaceShooter.Common.FrameCodec

namespace SpaceShooter.Network.FrameCodec

open Library Library.Incremental Library.Incremental.Decoder Library.Outcome

/-- The payloads that a handler which never throws is handed, and what it leaves. -/
theorem receive_nil (buffer : Bytes) : receive ([], []) buffer = decoder.run buffer := by
  have hfold := foldl_receive_eq [buffer]
  rwa [List.foldl_cons, List.foldl_nil, List.flatten_singleton] at hfold

/-! ### The refused frame -/

/-- The scanner emits a payload only from its wire image. -/
theorem eq_wire_of_verdict {rest : Bytes} {size : ℕ} {payload : PayloadView}
    (h : verdict rest = .advance size (some payload)) :
    ∃ behind, rest = wire payload ++ behind := by
  obtain ⟨hheader, ⟨-, hnone, -⟩ | ⟨length_v, hlength, hmagic, -, hfits, -, hemitted⟩⟩ :=
    verdict_advance h
  · cases hnone
  · -- The magic, the length and the payload are what the scanner has compared and cut out.
    obtain rfl := Option.some.inj hemitted
    have hlong : 8 ≤ rest.length := hheader
    have hfits' : 8 + length_v ≤ rest.length := hfits
    have hsize : ((rest.drop kHeaderLength).take length_v).length = length_v := by
      rw [List.length_take, List.length_drop]
      change min length_v (rest.length - 8) = length_v
      omega
    have hword : UInt32.ofNat length_v = load_big_u32 rest kMagicLength := by
      rw [hlength, UInt32.ofNat_toNat]
    refine ⟨(rest.drop kHeaderLength).drop length_v, ?_⟩
    rw [wire, hsize, hword, ← hmagic, toBytes_load_big_u32 (by omega),
      toBytes_load_big_u32 (by rw [kMagicLength]; omega), List.append_assoc, List.append_assoc,
      List.take_append_drop, List.drop_zero]
    change rest = rest.take 4 ++ ((rest.drop 4).take 4 ++ rest.drop 8)
    have hbody : rest.drop 8 = (rest.drop 4).drop 4 := by rw [List.drop_drop]
    rw [hbody, List.take_append_drop, List.take_append_drop]

/-- A handler that returns on the first payloads and throws on the next one. -/
theorem decode_of_throw {ε σ : Type} {onFrame : PayloadView → EStateM ε σ Unit} {buffer : Bytes}
    {delivered later : List PayloadView} {payload : PayloadView}
    (hpayloads : (receive ([], []) buffer).1 = delivered ++ payload :: later)
    {state accepted thrown : σ} {e : ε} (hreturns : forM delivered onFrame state = .ok () accepted)
    (hthrows : onFrame payload accepted = .error e thrown) :
    ∃ rest, (decoder.items buffer)[delivered.length]? = some (rest, payload) ∧
      decode onFrame buffer state = (.error e thrown, rest) ∧
      decode (noting onFrame) buffer (state, []) = (.error e (thrown, delivered), rest) ∧
      rest <:+ buffer ∧ (∃ behind, rest = wire payload ++ behind) ∧
      (receive ([], []) rest).1 = payload :: later := by
  rw [receive_nil] at hpayloads
  -- The payloads together with their places in the buffer.
  have hmapped := (map_snd_items buffer).trans hpayloads
  obtain ⟨done, others, hitems, rfl, hothers⟩ := List.map_eq_append_iff.mp hmapped
  obtain ⟨⟨rest, payload'⟩, laterItems, rfl, rfl, rfl⟩ := List.map_eq_cons_iff.mp hothers
  have hrefused := dispatch_of_refused onFrame hitems hreturns hthrows 0
  -- The handler that takes notes accepts and refuses the same.
  have hnotes : forM (done.map Prod.snd) (noting onFrame) (state, []) =
      .ok () (accepted, done.map Prod.snd) := forM_noting hreturns
  have hthrown : noting onFrame payload' (accepted, done.map Prod.snd) =
      .error e (thrown, done.map Prod.snd) := noting_of_error hthrows
  have hnoted := dispatch_of_refused (noting onFrame) hitems hnotes hthrown 0
  have hmem : (rest, payload') ∈ decoder.items buffer := by
    rw [hitems]
    exact List.mem_append_right _ List.mem_cons_self
  obtain ⟨hsuffix, size, hverdict⟩ := verdict_of_mem_items hmem
  refine ⟨rest, ?_, ?_, ?_, hsuffix, eq_wire_of_verdict hverdict, ?_⟩
  · rw [hitems, List.length_map, List.getElem?_append_right le_rfl, Nat.sub_self]
    rfl
  · rw [decode_eq_dispatch, hrefused]
  · rw [decode_eq_dispatch, hnoted]
  · -- What was noted is gone, and the rest is still to come.
    obtain ⟨notes, heq, hrun⟩ := dispatch_noting (d := decoder) onFrame buffer 0 (state, [])
    rw [hnoted] at heq hrun
    obtain rfl : done.map Prod.snd = notes := heq
    rw [receive_nil]
    have hsplit := (congrArg Prod.fst hrun).symm.trans hpayloads
    exact List.append_cancel_left hsplit

/-! ### Repeated calls -/

/-- One call of `decode` on what is left and what has been received since, its exception
caught. The buffer, the state of the handlers and the payloads they have accepted go on. -/
def retry {ε σ : Type} (receiver : Bytes × σ × List PayloadView)
    (call : Attempt UInt8 PayloadView ε σ) : Bytes × σ × List PayloadView :=
  ((decode (noting call.1) (receiver.1 ++ call.2) receiver.2).2,
    resultState (decode (noting call.1) (receiver.1 ++ call.2) receiver.2).1)

theorem retry_eq_attempt {ε σ : Type} : retry (ε := ε) (σ := σ) = decoder.attempt := by
  funext receiver call
  rw [retry, decode_eq_dispatch]
  rfl

/-- Whatever the handlers of the calls refuse, what they accept and what is left make up what was
received. -/
theorem receive_foldl_retry {ε σ : Type} (calls : List (Attempt UInt8 PayloadView ε σ))
    (buffer : Bytes) (state : σ) :
    receive ([], []) (buffer ++ (calls.map Prod.snd).flatten) =
      ((calls.foldl retry (buffer, state, [])).2.2 ++
          (receive ([], []) (calls.foldl retry (buffer, state, [])).1).1,
        (receive ([], []) (calls.foldl retry (buffer, state, [])).1).2) := by
  obtain ⟨accepted, haccepted, hrun⟩ := foldl_attempt (d := decoder) calls (buffer, state, [])
  have haccepted' : (calls.foldl retry (buffer, state, [])).2.2 = accepted := by
    rw [retry_eq_attempt]
    exact haccepted
  rw [haccepted', retry_eq_attempt, receive_nil, receive_nil]
  exact hrun

/-- What a call that returns leaves behind holds no complete frame. -/
theorem receive_of_ok {ε σ : Type} {onFrame : PayloadView → EStateM ε σ Unit} {buffer rest : Bytes}
    {state state' : σ} {n : ℕ} (h : decode onFrame buffer state = (.ok n state', rest)) :
    receive ([], []) rest = ([], rest) := by
  rw [decode_eq_dispatch] at h
  rw [receive_nil]
  exact run_of_wait (verdict_dispatch_of_ok onFrame h)

/-- A handler that notes what it accepts makes a call leave what it leaves without. -/
theorem retry_buffer {ε σ : Type} (receiver : Bytes × σ × List PayloadView)
    (call : Attempt UInt8 PayloadView ε σ) :
    (retry receiver call).1 = (decode call.1 (receiver.1 ++ call.2) receiver.2.1).2 := by
  rw [retry, decode_eq_dispatch, decode_eq_dispatch, dispatch_eq_forget]

/-- **Exception safety.** A call whose handler throws stops in front of the frame that was
refused, after exactly the payloads that were accepted. Over any calls, with handlers that throw
wherever they do, the payloads accepted so far are the first ones of all that was received, and
all of them once a call returns. -/
theorem decode_exception_safe :
    (∀ {ε σ : Type} {onFrame : PayloadView → EStateM ε σ Unit} {buffer : Bytes}
      {delivered later : List PayloadView} {payload : PayloadView},
      (receive ([], []) buffer).1 = delivered ++ payload :: later →
      ∀ {state accepted thrown : σ} {e : ε}, forM delivered onFrame state = .ok () accepted →
      onFrame payload accepted = .error e thrown →
      ∃ rest, (decoder.items buffer)[delivered.length]? = some (rest, payload) ∧
        decode onFrame buffer state = (.error e thrown, rest) ∧
        decode (noting onFrame) buffer (state, []) = (.error e (thrown, delivered), rest) ∧
        rest <:+ buffer ∧ (∃ behind, rest = wire payload ++ behind) ∧
        (receive ([], []) rest).1 = payload :: later) ∧
    ∀ {ε σ : Type} (calls : List (Attempt UInt8 PayloadView ε σ))
      (last : Attempt UInt8 PayloadView ε σ) (buffer : Bytes) (state : σ),
      let before := calls.foldl retry (buffer, state, [])
      let final := retry before last
      let whole := receive ([], []) (buffer ++ ((calls ++ [last]).map Prod.snd).flatten)
      final.2.2 <+: whole.1 ∧
        ∀ n state' rest, decode last.1 (before.1 ++ last.2) before.2.1 = (.ok n state', rest) →
          final.1 = rest ∧ whole = (final.2.2, rest) := by
  refine ⟨fun hpayloads _ _ _ _ hreturns hthrows => decode_of_throw hpayloads hreturns hthrows,
    fun calls last buffer state => ?_⟩
  intro before final whole
  -- What was accepted and what is still left make up the whole.
  have hwhole : whole = (final.2.2 ++ (receive ([], []) final.1).1,
      (receive ([], []) final.1).2) := by
    have hall := receive_foldl_retry (calls ++ [last]) buffer state
    rwa [List.foldl_append, List.foldl_cons, List.foldl_nil] at hall
  refine ⟨?_, fun n state' rest hok => ?_⟩
  · rw [hwhole]
    exact List.prefix_append _ _
  · have hrest : final.1 = rest := by
      have hbuffer := retry_buffer before last
      rwa [hok] at hbuffer
    refine ⟨hrest, ?_⟩
    rw [hwhole, hrest, receive_of_ok hok, List.append_nil]

/-! ### A handler that throws once -/

/-- A handler that throws at its second call. -/
def throwsOnce (_ : PayloadView) : EStateM StdException ℕ Unit := fun calls =>
  if calls = 1 then .error (.runtime_error "boom") 2 else .ok () (calls + 1)

/-- Junk, and two frames. -/
def twoFrames : Bytes := [0, 0xDE] ++ (wire [1] ++ wire [2])

/-- The first call throws behind the first payload, and the second one delivers the other. -/
theorem decode_exception_safe_twoFrames :
    (∃ rest, decode throwsOnce twoFrames 0 = (.error (.runtime_error "boom") 2, rest) ∧
      ∃ behind, rest = wire [2] ++ behind) ∧
    (retry (retry (twoFrames, 0, []) (throwsOnce, [])) (throwsOnce, [])).2.2 = [[1], [2]] := by
  have hpayloads : (receive ([], []) twoFrames).1 = [[1]] ++ [2] :: [] := by decide +kernel
  constructor
  · have hreturns : forM [[1]] throwsOnce 0 = .ok () 1 := rfl
    have hthrows : throwsOnce [2] 1 = .error (.runtime_error "boom") 2 := rfl
    obtain ⟨rest, -, hdecode, -, -, hwire, -⟩ :=
      decode_exception_safe.1 hpayloads hreturns hthrows
    exact ⟨rest, hdecode, hwire⟩
  · have hreturned : decode throwsOnce
        ((retry (twoFrames, 0, []) (throwsOnce, [])).1 ++ [])
        (retry (twoFrames, 0, []) (throwsOnce, [])).2.1 = (.ok 1 3, []) := rfl
    obtain ⟨-, hwhole⟩ := (decode_exception_safe.2 [(throwsOnce, [])] (throwsOnce, []) twoFrames
      0).2 1 3 [] hreturned
    have hdelivered := congrArg Prod.fst hwhole
    rw [List.map_append, List.flatten_append] at hdelivered
    exact hdelivered.symm.trans hpayloads

end SpaceShooter.Network.FrameCodec
