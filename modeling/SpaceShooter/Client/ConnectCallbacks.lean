/-
# Callbacks of the TCP client

Every callback given to `connect` is invoked at most once, and once when nothing is left to
happen. An attempt is alive in exactly one operation, or completion of an operation, that
carries the current generation; every handler that ends the attempt, or finds it ended,
accounts for its callback. Established connections and disconnects alternate.
-/

import Mathlib.Data.List.Chain
import Mathlib.Data.List.Nodup
import Mathlib.Data.List.Perm.Basic
import SpaceShooter.Client.TcpMoves

namespace SpaceShooter.Client.TcpClient

open Library Network

variable {c : TcpClient} {label : Label} {handler : Handler} {strand : List Handler}

/-! ### Attempts -/

/-- The attempts that operations, and completions on the strand, work for. -/
def attempts (c : TcpClient) : List (ℕ × ℕ) :=
  c.operations.filterMap Operation.attempt? ++ c.strand.filterMap Handler.attempt?

/-- The calls with an operation of the current generation. -/
def live (c : TcpClient) : List ℕ :=
  c.attempts.filterMap fun attempt =>
    if attempt.1 = c.disconnect_generation_ then some attempt.2 else none

/-- An attempt lives in one operation of the current generation, and nothing else does. -/
structure Attempting (c : TcpClient) : Prop where
  exclusive : c.is_connecting_ = true → c.is_connected_ = false
  active : c.is_connecting_ = true → c.active_connect_generation_ = c.disconnect_generation_
  bounded : ∀ attempt ∈ c.attempts, attempt.1 ≤ c.disconnect_generation_
  live : c.live.Perm (if c.is_connecting_ then [c.current] else [])

theorem Attempting.keeps {s : TcpClient} (h : Attempting s) (hkeeps : Keeps s c) :
    Attempting c := by
  have hattempts : c.attempts = s.attempts := by
    rw [attempts, hkeeps.attempts, hkeeps.strand]
    rfl
  refine ⟨?_, ?_, ?_, ?_⟩
  · rw [hkeeps.is_connecting_, hkeeps.is_connected_]
    exact h.exclusive
  · rw [hkeeps.is_connecting_, hkeeps.active_connect_generation_, hkeeps.disconnect_generation_]
    exact h.active
  · rw [hattempts, hkeeps.disconnect_generation_]
    exact h.bounded
  · rw [TcpClient.live, hattempts, hkeeps.disconnect_generation_, hkeeps.is_connecting_,
      hkeeps.current]
    exact h.live

/-- A handler that no attempt waits for comes or goes. -/
theorem attempts_pop (hstrand : c.strand = handler :: strand) (h : handler.attempt? = none) :
    c.attempts = { c with strand := strand }.attempts := by
  rw [attempts, hstrand, List.filterMap_cons_none h]
  rfl

theorem attempts_post (c : TcpClient) (h : handler.attempt? = none) :
    { c with strand := c.strand ++ [handler] }.attempts = c.attempts := by
  rw [attempts, List.filterMap_append, List.filterMap_cons_none h, List.filterMap_nil,
    List.append_nil]
  rfl

/-- A completion that an attempt waits for leaves the strand. -/
theorem attempts_completion {attempt : ℕ × ℕ} (hstrand : c.strand = handler :: strand)
    (h : handler.attempt? = some attempt) :
    c.attempts.Perm (attempt :: { c with strand := strand }.attempts) := by
  rw [attempts, hstrand, List.filterMap_cons_some h]
  exact List.perm_middle

theorem attempts_launched (c : TcpClient) {operation : Operation} {attempt : ℕ × ℕ}
    (h : operation.attempt? = some attempt) :
    ({ c with operations := c.operations ++ [operation] }.attempts).Perm
      (attempt :: c.attempts) := by
  rw [attempts, List.filterMap_append, List.filterMap_cons_some h, List.filterMap_nil,
    List.append_assoc]
  exact List.perm_middle

/-- A completed operation moves to the strand. -/
theorem attempts_complete {i : ℕ} {operation : Operation}
    (hi : c.operations[i]? = some operation) (result : Option Bytes) :
    ({ c with operations := c.operations.eraseIdx i }.complete operation result).attempts.Perm
      c.attempts := by
  obtain ⟨hlt, heq⟩ := List.getElem?_eq_some_iff.mp hi
  have hoperations := (List.getElem_cons_eraseIdx_perm hlt).filterMap Operation.attempt?
  rw [heq] at hoperations
  change ((c.operations.eraseIdx i).filterMap Operation.attempt? ++
    (c.strand ++ [Handler.completion operation result]).filterMap Handler.attempt?).Perm _
  rw [List.filterMap_append, attempts]
  cases h : operation.attempt? with
  | none =>
    rw [List.filterMap_cons_none h] at hoperations
    rw [List.filterMap_cons_none (show Handler.attempt? (.completion operation result) = none
      from h), List.filterMap_nil, List.append_nil]
    exact hoperations.append_right _
  | some attempt =>
    rw [List.filterMap_cons_some h] at hoperations
    rw [List.filterMap_cons_some (show Handler.attempt? (.completion operation result) =
      some attempt from h), List.filterMap_nil, ← List.append_assoc]
    exact List.perm_append_comm.trans (hoperations.append_right _)

/-- Where attempts are only shuffled nothing changes. -/
theorem Attempting.shuffle (h : Attempting c) {s : TcpClient} (hperm : s.attempts.Perm c.attempts)
    (hgeneration : s.disconnect_generation_ = c.disconnect_generation_)
    (hconnecting : s.is_connecting_ = c.is_connecting_)
    (hconnected : s.is_connected_ = c.is_connected_)
    (hactive : s.active_connect_generation_ = c.active_connect_generation_)
    (hcurrent : s.current = c.current) : Attempting s := by
  refine ⟨?_, ?_, ?_, ?_⟩
  · rw [hconnecting, hconnected]
    exact h.exclusive
  · rw [hconnecting, hactive, hgeneration]
    exact h.active
  · rw [hgeneration]
    exact fun attempt hmem => h.bounded attempt (hperm.mem_iff.mp hmem)
  · rw [hconnecting, hcurrent]
    refine List.Perm.trans ?_ h.live
    rw [TcpClient.live, hgeneration]
    exact hperm.filterMap _

/-- An attempt's operation is used up. -/
theorem live_cons {s : TcpClient} {attempt : ℕ × ℕ}
    (hperm : c.attempts.Perm (attempt :: s.attempts))
    (hgeneration : s.disconnect_generation_ = c.disconnect_generation_) :
    c.live.Perm
      ((if attempt.1 = c.disconnect_generation_ then [attempt.2] else []) ++ s.live) := by
  rw [TcpClient.live, TcpClient.live, hgeneration]
  refine (hperm.filterMap _).trans ?_
  split_ifs with h
  · rw [List.filterMap_cons, if_pos h]
    exact List.Perm.refl _
  · rw [List.filterMap_cons, if_neg h]
    exact List.Perm.refl _

/-- In a new generation no attempt is alive. -/
theorem Attempting.renew (h : Attempting c) {s : TcpClient} (hperm : s.attempts = c.attempts)
    (hgeneration : s.disconnect_generation_ = c.disconnect_generation_ + 1)
    (hconnecting : s.is_connecting_ = false) : Attempting s := by
  have hbounded : ∀ attempt ∈ s.attempts, attempt.1 < s.disconnect_generation_ := by
    rw [hperm, hgeneration]
    exact fun attempt hmem => Nat.lt_succ_of_le (h.bounded attempt hmem)
  have hlive : s.live = [] := List.filterMap_eq_nil_iff.mpr fun attempt hmem =>
    if_neg (hbounded attempt hmem).ne
  refine ⟨fun h => ?_, fun h => ?_, fun attempt hmem => (hbounded attempt hmem).le, ?_⟩
  · rw [hconnecting] at h
    cases h
  · rw [hconnecting] at h
    cases h
  · rw [hlive, hconnecting]
    exact List.Perm.nil

/-- The attempt's own operation is the one that completes. -/
theorem Attempting.complete (h : Attempting c) {s : TcpClient} {attempt : ℕ × ℕ}
    (hperm : c.attempts.Perm (attempt :: s.attempts))
    (hvalid : c.isValidGeneration attempt.1 = true) (hconnecting : c.is_connecting_ = true)
    (hgeneration : s.disconnect_generation_ = c.disconnect_generation_) :
    attempt.2 = c.current ∧ s.live = [] := by
  have hcurrent : attempt.1 = c.disconnect_generation_ := by
    rw [isValidGeneration, Bool.and_eq_true] at hvalid
    exact of_decide_eq_true hvalid.2
  have hlive := live_cons hperm hgeneration
  rw [if_pos hcurrent] at hlive
  have hsingle := hlive.symm.trans h.live
  rw [if_pos hconnecting, List.singleton_append, List.perm_singleton] at hsingle
  exact List.cons.inj hsingle

/-- The attempt ends with its operation. -/
theorem Attempting.consume (h : Attempting c) {s : TcpClient} {attempt : ℕ × ℕ}
    (hperm : c.attempts.Perm (attempt :: s.attempts))
    (hvalid : c.isValidGeneration attempt.1 = true) (hconnecting : c.is_connecting_ = true)
    (hgeneration : s.disconnect_generation_ = c.disconnect_generation_)
    (hdone : s.is_connecting_ = false) : Attempting s := by
  refine ⟨fun h => ?_, fun h => ?_, fun attempt hmem => ?_, ?_⟩
  · rw [hdone] at h
    cases h
  · rw [hdone] at h
    cases h
  · rw [hgeneration]
    exact h.bounded attempt (hperm.mem_iff.mpr (List.mem_cons_of_mem _ hmem))
  · rw [hdone]
    exact List.Perm.of_eq (h.complete hperm hvalid hconnecting hgeneration).2

theorem isTransfer_attempt? (h : handler.isTransfer = true) : handler.attempt? = none := by
  cases handler with
  | completion operation result =>
    cases operation with
    | resolve generation call => cases h
    | connect generation call => cases h
    | _ => rfl
  | _ => rfl

theorem Attempting.move (h : Attempting c) {s : TcpClient} (hmove : Move c label s) :
    Attempting s := by
  cases hmove with
  | stay => exact h
  | transfer hrunning hstrand htransfer =>
    have hperm := attempts_pop hstrand (isTransfer_attempt? htransfer)
    exact h.shuffle (List.Perm.of_eq hperm.symm) rfl rfl rfl rfl rfl
  | postSend frame =>
    exact h.shuffle (List.Perm.of_eq (c.attempts_post rfl)) rfl rfl rfl rfl rfl
  | postDisconnect failed hfailed =>
    exact h.shuffle (List.Perm.of_eq (c.attempts_post rfl)) rfl rfl rfl rfl rfl
  | call on_connect =>
    exact h.shuffle (List.Perm.of_eq (c.attempts_post rfl)) rfl rfl rfl rfl rfl
  | complete hi result => exact h.shuffle (attempts_complete hi result) rfl rfl rfl rfl rfl
  | reject hrunning hstrand hbusy =>
    exact h.shuffle (List.Perm.of_eq (attempts_pop hstrand rfl).symm) rfl rfl rfl rfl rfl
  | @accept call on_connect strand hrunning hstrand hconnected hconnecting =>
    set generation := c.disconnect_generation_
    have hperm : ({ c with
        strand := strand
        operations := c.operations ++ [Operation.resolve generation call] }.attempts).Perm
          ((generation, call) :: c.attempts) := by
      rw [attempts_pop hstrand rfl]
      exact attempts_launched { c with strand := strand } rfl
    refine ⟨fun _ => hconnected, fun _ => rfl, fun attempt hmem => ?_, ?_⟩
    · rcases List.mem_cons.mp (hperm.mem_iff.mp hmem) with rfl | hmem
      · exact Nat.le_refl _
      · exact h.bounded attempt hmem
    · -- No attempt of this generation was live before.
      have hlive := (hperm.filterMap fun attempt : ℕ × ℕ =>
        if attempt.1 = generation then some attempt.2 else none)
      have hnone := h.live
      rw [if_neg (Bool.eq_false_iff.mp hconnecting), List.perm_nil, TcpClient.live] at hnone
      rw [List.filterMap_cons, if_pos rfl, hnone] at hlive
      exact hlive
  | @ignore operation attempt result strand hrunning hstrand hattempt hinvalid =>
    have hperm := attempts_completion hstrand hattempt
    -- The live attempt would have been valid.
    have hold : attempt.1 ≠ c.disconnect_generation_ := by
      intro hcurrent
      have hlive := (live_cons hperm rfl).symm.trans h.live
      rw [if_pos hcurrent] at hlive
      by_cases hconnecting : c.is_connecting_ = true
      · refine hinvalid ⟨?_, hconnecting⟩
        rw [isValidGeneration, Bool.and_eq_true, decide_eq_true_iff, decide_eq_true_iff]
        exact ⟨hcurrent.trans (h.active hconnecting).symm, hcurrent⟩
      · rw [if_neg hconnecting, List.singleton_append, List.perm_nil] at hlive
        cases hlive
    have hlive := live_cons hperm rfl
    rw [if_neg hold, List.nil_append] at hlive
    refine ⟨h.exclusive, h.active, fun attempt hmem => ?_, hlive.symm.trans h.live⟩
    exact h.bounded attempt (hperm.mem_iff.mpr (List.mem_cons_of_mem _ hmem))
  | @launch generation call result strand hrunning hstrand hvalid hconnecting =>
    have hperm := attempts_launched { c with strand := strand }
      (show (Operation.connect generation call).attempt? = some (generation, call) from rfl)
    exact h.shuffle (hperm.trans (attempts_completion hstrand rfl).symm) rfl rfl rfl rfl rfl
  | fail hrunning hstrand hattempt hvalid hconnecting hconnected hended =>
    exact h.consume (attempts_completion hstrand hattempt) hvalid hconnecting rfl rfl
  | establish hrunning hstrand hvalid hconnecting =>
    exact h.consume (attempts_completion hstrand rfl) hvalid hconnecting rfl rfl
  | skip hrunning hstrand hconnected hconnecting =>
    exact h.renew (attempts_pop hstrand rfl).symm rfl hconnecting
  | disconnect hrunning hstrand => exact h.renew (attempts_pop hstrand rfl).symm rfl rfl

/-! ### Callbacks -/

/-- The call an invocation answers. -/
def Event.call? : Event → Option ℕ
  | .on_connect call _ => some call
  | .disconnect_cb => none

/-- The callback a handler on the strand brings. -/
def Handler.callback? : Handler → Option ℕ
  | .connect call on_connect => storedCallback call on_connect
  | _ => none

/-- The call was given a callback. -/
def gave (c : TcpClient) (call : ℕ) : Bool := c.calls[call]?.any Call.on_connect

/-- The calls that were given a callback. -/
def given (c : TcpClient) : List ℕ := (List.range c.calls.length).filter c.gave

/-- Every callback has been invoked, is on the strand, or is stored for the attempt. -/
structure Accounted (c : TcpClient) : Prop where
  once : ∀ call, (c.events.filterMap Event.call?).count call +
      (c.strand.filterMap Handler.callback?).count call +
      c.pending_connect_callback_.toList.count call = c.given.count call
  idle : c.is_connecting_ = false → c.pending_connect_callback_ = none
  current : ∀ call, c.pending_connect_callback_ = some call → call = c.current

theorem Accounted.keeps {s : TcpClient} (h : Accounted s) (hkeeps : Keeps s c) :
    Accounted c := by
  refine ⟨?_, ?_, ?_⟩
  · rw [hkeeps.events, hkeeps.strand, hkeeps.pending_connect_callback_, given, hkeeps.calls,
      show c.gave = s.gave by unfold gave; rw [hkeeps.calls]]
    exact h.once
  · rw [hkeeps.is_connecting_, hkeeps.pending_connect_callback_]
    exact h.idle
  · rw [hkeeps.pending_connect_callback_, hkeeps.current]
    exact h.current

/-- Invoking a callback answers its call. -/
theorem invoked_append (events : List Event) (callback : Option ℕ) (status : Bool) :
    (events ++ invocation callback status).filterMap Event.call? =
      events.filterMap Event.call? ++ callback.toList := by
  rw [List.filterMap_append]
  cases callback <;> rfl

/-- A new call gives its callback. -/
theorem given_call (c : TcpClient) (on_connect : Bool) :
    { c with calls := c.calls ++ [Call.mk on_connect c.told] }.given =
      c.given ++ (storedCallback c.calls.length on_connect).toList := by
  rw [given, List.length_append, List.length_singleton, List.range_succ, List.filter_append]
  congr 1
  · refine List.filter_congr fun call hmem => ?_
    rw [gave, gave, List.getElem?_append_left (List.mem_range.mp hmem)]
  · cases on_connect <;> simp [gave, storedCallback]

theorem count_waiting_cons (call : ℕ) (handler : Handler) (strand : List Handler) :
    ((handler :: strand).filterMap Handler.callback?).count call =
      handler.callback?.toList.count call + (strand.filterMap Handler.callback?).count call := by
  rw [List.filterMap_cons]
  cases handler.callback? with
  | none => exact (Nat.zero_add _).symm
  | some callback =>
    rw [← List.count_append]
    rfl

theorem count_waiting_post (call : ℕ) (strand : List Handler) (handler : Handler) :
    ((strand ++ [handler]).filterMap Handler.callback?).count call =
      (strand.filterMap Handler.callback?).count call + handler.callback?.toList.count call := by
  rw [List.filterMap_append, List.count_append, count_waiting_cons, List.filterMap_nil,
    List.count_nil]
  rfl

/-- A step that calls nothing anew moves callbacks from one place to another. -/
theorem Accounted.shift (h : Accounted c) {s : TcpClient} (hcalls : s.calls = c.calls)
    (hcount : ∀ call, (s.events.filterMap Event.call?).count call +
        (s.strand.filterMap Handler.callback?).count call +
        s.pending_connect_callback_.toList.count call =
      (c.events.filterMap Event.call?).count call +
        (c.strand.filterMap Handler.callback?).count call +
        c.pending_connect_callback_.toList.count call)
    (hidle : s.is_connecting_ = false → s.pending_connect_callback_ = none)
    (hcurrent : ∀ call, s.pending_connect_callback_ = some call → call = s.current) :
    Accounted s := by
  refine ⟨fun call => ?_, hidle, hcurrent⟩
  rw [hcount, h.once, given, given, hcalls, show s.gave = c.gave by unfold gave; rw [hcalls]]

/-- A handler that brings no callback comes or goes. -/
theorem Accounted.trade (h : Accounted c) {s : TcpClient}
    (hstrand : s.strand.filterMap Handler.callback? = c.strand.filterMap Handler.callback?)
    (hcalls : s.calls = c.calls) (hevents : s.events = c.events)
    (hpending : s.pending_connect_callback_ = c.pending_connect_callback_)
    (hconnecting : s.is_connecting_ = c.is_connecting_) (hcurrent : s.current = c.current) :
    Accounted s := by
  refine h.shift hcalls (fun call => ?_) ?_ ?_
  · rw [hevents, hstrand, hpending]
  · rw [hconnecting, hpending]
    exact h.idle
  · rw [hpending, hcurrent]
    exact h.current

theorem waiting_pop (hstrand : c.strand = handler :: strand) (hnone : handler.callback? = none) :
    strand.filterMap Handler.callback? = c.strand.filterMap Handler.callback? := by
  rw [hstrand, List.filterMap_cons_none hnone]

theorem waiting_post (c : TcpClient) (hnone : handler.callback? = none) :
    (c.strand ++ [handler]).filterMap Handler.callback? =
      c.strand.filterMap Handler.callback? := by
  rw [List.filterMap_append, List.filterMap_cons_none hnone, List.filterMap_nil, List.append_nil]

/-- The stored callback is invoked, and the attempt is over. -/
theorem Accounted.invoke (h : Accounted c) {s : TcpClient}
    (hcalls : s.calls = c.calls)
    (hstrand : s.strand.filterMap Handler.callback? = c.strand.filterMap Handler.callback?)
    (hpending : s.pending_connect_callback_ = none)
    (hevents : s.events.filterMap Event.call? =
      c.events.filterMap Event.call? ++ c.pending_connect_callback_.toList) :
    Accounted s := by
  refine h.shift hcalls (fun call => ?_) (fun _ => hpending) fun call hcall => ?_
  · rw [hevents, List.count_append, hstrand, hpending, Option.toList_none, List.count_nil]
    omega
  · rw [hpending] at hcall
    cases hcall

theorem isTransfer_callback? (h : handler.isTransfer = true) : handler.callback? = none := by
  cases handler with
  | connect call on_connect => cases h
  | _ => rfl

theorem Accounted.move (h : Accounted c) {s : TcpClient} (hmove : Move c label s) :
    Accounted s := by
  cases hmove with
  | stay => exact h
  | transfer hrunning hstrand htransfer =>
    exact h.trade (waiting_pop hstrand (isTransfer_callback? htransfer)) rfl rfl rfl rfl rfl
  | postSend frame => exact h.trade (c.waiting_post rfl) rfl rfl rfl rfl rfl
  | postDisconnect failed hfailed => exact h.trade (c.waiting_post rfl) rfl rfl rfl rfl rfl
  | call on_connect =>
    refine ⟨fun call => ?_, h.idle, h.current⟩
    have honce := h.once call
    have hgiven := congrArg (List.count call) (c.given_call on_connect)
    have hwaiting := count_waiting_post call c.strand (.connect c.calls.length on_connect)
    rw [List.count_append] at hgiven
    change (c.events.filterMap Event.call?).count call +
      ((c.strand ++ [Handler.connect c.calls.length on_connect]).filterMap
        Handler.callback?).count call +
      c.pending_connect_callback_.toList.count call =
        { c with calls := c.calls ++ [Call.mk on_connect c.told] }.given.count call
    rw [hwaiting, hgiven, Handler.callback?]
    omega
  | complete hi result => exact h.trade (c.waiting_post rfl) rfl rfl rfl rfl rfl
  | reject hrunning hstrand hbusy =>
    refine h.shift rfl (fun call => ?_) h.idle h.current
    rw [invoked_append, List.count_append, hstrand, count_waiting_cons]
    dsimp only [Handler.callback?]
    omega
  | @accept call on_connect strand hrunning hstrand hconnected hconnecting =>
    refine h.shift rfl (fun call => ?_) (fun h => by cases h) fun call hcall => ?_
    · rw [hstrand, count_waiting_cons, h.idle hconnecting]
      dsimp only [Handler.callback?]
      rw [Option.toList_none, List.count_nil]
      omega
    · change storedCallback _ _ = some call at hcall
      rw [storedCallback] at hcall
      split_ifs at hcall
      exact (Option.some.inj hcall).symm
  | ignore hrunning hstrand hattempt hinvalid =>
    exact h.trade (waiting_pop hstrand rfl) rfl rfl rfl rfl rfl
  | launch hrunning hstrand hvalid hconnecting =>
    exact h.trade (waiting_pop hstrand rfl) rfl rfl rfl rfl rfl
  | fail hrunning hstrand hattempt hvalid hconnecting hconnected hended =>
    exact h.invoke rfl (waiting_pop hstrand rfl) rfl (invoked_append _ _ _)
  | establish hrunning hstrand hvalid hconnecting =>
    exact h.invoke rfl (waiting_pop hstrand rfl) rfl (invoked_append _ _ _)
  | skip hrunning hstrand hconnected hconnecting =>
    exact h.trade (waiting_pop hstrand rfl) rfl rfl rfl rfl rfl
  | disconnect hrunning hstrand =>
    -- The callback of a lost connection is not that of a call.
    have hlost : (if c.is_connected_ && c.disconnect_cb_ then [Event.disconnect_cb]
        else []).filterMap Event.call? = [] := by
      split_ifs <;> rfl
    -- Without an attempt there is no callback that could be invoked.
    have hinvoked : (if c.is_connecting_ then invocation c.pending_connect_callback_ false
        else []) = invocation c.pending_connect_callback_ false := by
      by_cases hconnecting : c.is_connecting_ = true
      · exact if_pos hconnecting
      · rw [if_neg hconnecting, h.idle (Bool.eq_false_iff.mpr hconnecting)]
        rfl
    refine h.invoke rfl (waiting_pop hstrand rfl) rfl ?_
    dsimp only
    rw [hinvoked, ← List.append_assoc, List.filterMap_append, hlost, List.append_nil,
      invoked_append]

/-! ### Success -/

/-- Only a call whose socket has been connected is answered with success. -/
structure Answered (c : TcpClient) : Prop where
  opened : ∀ generation call bytes,
    .completion (.connect generation call) (some bytes) ∈ c.strand → call ∈ c.opened
  success : ∀ call, .on_connect call true ∈ c.events → call ∈ c.opened

theorem Answered.keeps {s : TcpClient} (h : Answered s) (hkeeps : Keeps s c) : Answered c := by
  refine ⟨?_, ?_⟩
  · rw [hkeeps.strand, hkeeps.opened]
    exact h.opened
  · rw [hkeeps.events, hkeeps.opened]
    exact h.success

/-- A connect that has succeeded is in the history. -/
theorem Answered.mem_opened (h : Answered c) {s : TcpClient} (hmove : Move c label s)
    {generation call : ℕ} {bytes : Bytes}
    (hmem : .completion (.connect generation call) (some bytes) ∈ s.strand) :
    call ∈ s.opened := by
  rcases hmove.mem_strand hmem with hmem | hposted
  · exact hmove.opened (h.opened generation call bytes hmem)
  · exact hposted

/-- A step that answers no call with success. -/
theorem Answered.silent (h : Answered c) {s : TcpClient} (hmove : Move c label s)
    (hevents : ∀ call, .on_connect call true ∈ s.events → .on_connect call true ∈ c.events) :
    Answered s :=
  ⟨fun _ _ _ => h.mem_opened hmove, fun call hmem =>
    hmove.opened (h.success call (hevents call hmem))⟩

theorem mem_invocation {callback : Option ℕ} {status answer : Bool} {call : ℕ} :
    .on_connect call answer ∈ invocation callback status ↔
      callback = some call ∧ answer = status := by
  cases callback with
  | none => simp [invocation]
  | some other => simp [invocation, eq_comm]

/-- A failed call is not answered with success. -/
theorem mem_of_mem_failed {events : List Event} {callback : Option ℕ} {call : ℕ}
    (h : .on_connect call true ∈ events ++ invocation callback false) :
    .on_connect call true ∈ events :=
  (List.mem_append.mp h).resolve_right fun hmem => by cases (mem_invocation.mp hmem).2

theorem Answered.move (h : Answered c) (hattempting : Attempting c) (haccounted : Accounted c)
    {s : TcpClient} (hmove : Move c label s) : Answered s := by
  have hmoved := hmove
  cases hmove with
  | stay => exact h
  | reject hrunning hstrand hbusy => exact h.silent hmoved fun _ h => mem_of_mem_failed h
  | fail hrunning hstrand hattempt hvalid hconnecting hconnected hended =>
    exact h.silent hmoved fun _ h => mem_of_mem_failed h
  | @establish generation call bytes strand hrunning hstrand hvalid hconnecting =>
    refine ⟨fun _ _ _ => h.mem_opened hmoved, fun n hmem => ?_⟩
    rcases List.mem_append.mp hmem with hmem | hmem
    · exact h.success n hmem
    · -- The stored callback is that of the attempt whose operation has completed.
      have hcurrent := haccounted.current n (mem_invocation.mp hmem).1
      have hcall := (hattempting.complete (attempts_completion hstrand rfl) hvalid hconnecting
        rfl).1
      rw [hcurrent, ← hcall]
      exact h.opened generation call bytes (hstrand ▸ List.mem_cons_self)
  | disconnect hrunning hstrand =>
    refine h.silent hmoved fun call hmem => ?_
    rcases List.mem_append.mp hmem with hmem | hmem
    · exact hmem
    · rcases List.mem_append.mp hmem with hmem | hmem
      · split_ifs at hmem
        · cases (mem_invocation.mp hmem).2
        · cases hmem
      · split_ifs at hmem
        · cases List.mem_singleton.mp hmem
        · cases hmem
  | _ => exact h.silent hmoved fun _ h => h

/-! ### Links -/

/-- A connection comes up or goes down, as the owner hears of it. -/
def Event.link? : Event → Option Bool
  | .on_connect _ true => some true
  | .on_connect _ false => none
  | .disconnect_cb => some false

def links (c : TcpClient) : List Bool := c.events.filterMap Event.link?

/-- What the owner has heard alternates and ends with what is so. -/
structure Linked (c : TcpClient) : Prop where
  strand : ∀ call on_connect, .connect call on_connect ∈ c.strand → on_connect = true
  pending : c.is_connecting_ = true → c.pending_connect_callback_.isSome = true
  chain : c.links.IsChain (· ≠ ·)
  head : c.links.head? ≠ some false
  last : c.is_connected_ = true ↔ c.links.getLast? = some true

theorem Linked.keeps {s : TcpClient} (h : Linked s) (hkeeps : Keeps s c) : Linked c := by
  have hlinks : c.links = s.links := by rw [links, hkeeps.events, links]
  refine ⟨?_, ?_, ?_, ?_, ?_⟩
  · rw [hkeeps.strand]
    exact h.strand
  · rw [hkeeps.is_connecting_, hkeeps.pending_connect_callback_]
    exact h.pending
  · rw [hlinks]
    exact h.chain
  · rw [hlinks]
    exact h.head
  · rw [hlinks, hkeeps.is_connected_]
    exact h.last

/-- The connects that wait on the strand all bring a callback. -/
theorem Linked.given (h : Linked c) {s : TcpClient} (hmove : Move c label s)
    (hcalls : ∀ call ∈ s.calls, call.on_connect = true) (call : ℕ) (on_connect : Bool)
    (hmem : .connect call on_connect ∈ s.strand) : on_connect = true := by
  rcases hmove.mem_strand hmem with hmem | ⟨-, heq⟩
  · exact h.strand call on_connect hmem
  · refine hcalls (Call.mk on_connect c.told) ?_
    rw [heq]
    exact List.mem_append_right _ List.mem_cons_self

/-- A step the owner does not hear of as a link. -/
theorem Linked.silent (h : Linked c) {s : TcpClient}
    (hstrand : ∀ call on_connect, .connect call on_connect ∈ s.strand → on_connect = true)
    (hpending : s.is_connecting_ = true → s.pending_connect_callback_.isSome = true)
    (hlinks : s.links = c.links) (hconnected : s.is_connected_ = c.is_connected_) :
    Linked s := by
  refine ⟨hstrand, hpending, ?_, ?_, ?_⟩
  · rw [hlinks]
    exact h.chain
  · rw [hlinks]
    exact h.head
  · rw [hlinks, hconnected]
    exact h.last

theorem Linked.last_eq (h : Linked c) {link : Bool} (hlink : c.links.getLast? = some link) :
    link = c.is_connected_ := by
  have hlast := h.last
  rw [hlink] at hlast
  cases link with
  | false =>
    refine (Bool.eq_false_iff.mpr fun hconnected => ?_).symm
    cases hlast.mp hconnected
  | true => exact (hlast.mpr rfl).symm

/-- A connection comes up or goes down. -/
theorem Linked.toggle (h : Linked c) {s : TcpClient}
    (hstrand : ∀ call on_connect, .connect call on_connect ∈ s.strand → on_connect = true)
    (hconnecting : s.is_connecting_ = false)
    (hlinks : s.links = c.links ++ [!c.is_connected_])
    (hconnected : s.is_connected_ = !c.is_connected_) : Linked s := by
  refine ⟨hstrand, fun h => ?_, ?_, ?_, ?_⟩
  · rw [hconnecting] at h
    cases h
  · rw [hlinks, List.isChain_append]
    refine ⟨h.chain, List.isChain_singleton _, fun x hx y hy => ?_⟩
    obtain rfl := Option.some.inj hy
    rw [h.last_eq hx]
    exact (Bool.not_ne_self _).symm
  · rw [hlinks, List.head?_append]
    cases hfirst : c.links.head? with
    | none =>
      have hlast := h.last
      rw [List.head?_eq_none_iff.mp hfirst] at hlast
      cases hc : c.is_connected_ with
      | false => decide
      | true => cases hlast.mp hc
    | some first =>
      have hhead := h.head
      rwa [hfirst] at hhead
  · rw [hlinks, hconnected, List.getLast?_concat, Option.some.injEq]

/-- Nothing that an owner who has set all callbacks hears of goes unheard. -/
theorem Linked.move (h : Linked c) (hattempting : Attempting c)
    (hcallback : c.disconnect_cb_ = true) {s : TcpClient}
    (hcalls : ∀ call ∈ s.calls, call.on_connect = true) (hmove : Move c label s) : Linked s := by
  have hgiven := h.given hmove hcalls
  have hfailed (callback : Option ℕ) :
      (c.events ++ invocation callback false).filterMap Event.link? = c.links := by
    rw [List.filterMap_append]
    cases callback <;> exact List.append_nil _
  cases hmove with
  | stay => exact h
  | transfer hrunning hstrand htransfer => exact h.silent hgiven h.pending rfl rfl
  | postSend frame => exact h.silent hgiven h.pending rfl rfl
  | postDisconnect failed hfailed => exact h.silent hgiven h.pending rfl rfl
  | call on_connect => exact h.silent hgiven h.pending rfl rfl
  | complete hi result => exact h.silent hgiven h.pending rfl rfl
  | reject hrunning hstrand hbusy => exact h.silent hgiven h.pending (hfailed _) rfl
  | @accept call on_connect strand hrunning hstrand hconnected hconnecting =>
    have hcallback : on_connect = true := h.strand call on_connect (hstrand ▸ List.mem_cons_self)
    exact h.silent hgiven (fun _ => by rw [hcallback]; rfl) rfl rfl
  | ignore hrunning hstrand hattempt hinvalid => exact h.silent hgiven h.pending rfl rfl
  | launch hrunning hstrand hvalid hconnecting =>
    exact h.silent hgiven h.pending rfl rfl
  | @fail operation attempt result strand hrunning hstrand hattempt hvalid hconnecting connected
      hconnected ended hended =>
    have hdown := hattempting.exclusive hconnecting
    -- It is an attempt that fails, so the connection stays as it is.
    have hsame : connected = c.is_connected_ := by
      cases connected with
      | false => exact hdown.symm
      | true => exact (hconnected rfl).symm
    exact h.silent hgiven (fun h => by cases h) (hfailed _) hsame
  | establish hrunning hstrand hvalid hconnecting =>
    have hdown := hattempting.exclusive hconnecting
    obtain ⟨call, hpending⟩ := Option.isSome_iff_exists.mp (h.pending hconnecting)
    refine h.toggle hgiven rfl ?_ (by rw [hdown]; rfl)
    rw [links, hpending, hdown, List.filterMap_append]
    rfl
  | skip hrunning hstrand hconnected hconnecting =>
    exact h.silent hgiven h.pending rfl rfl
  | disconnect hrunning hstrand =>
    -- A connection that goes down is reported, an attempt is not.
    by_cases hconnected : c.is_connected_ = true
    · have hidle : c.is_connecting_ = false := Bool.eq_false_iff.mpr fun hconnecting => by
        rw [hattempting.exclusive hconnecting] at hconnected
        cases hconnected
      refine h.toggle hgiven rfl ?_ (by rw [hconnected]; rfl)
      rw [links, hidle, hconnected, hcallback, List.filterMap_append]
      rfl
    · rw [Bool.not_eq_true] at hconnected
      refine h.silent hgiven (fun h => by cases h) ?_ hconnected.symm
      change (c.events ++
        ((if c.is_connecting_ then invocation c.pending_connect_callback_ false else []) ++
          if c.is_connected_ && c.disconnect_cb_ then [Event.disconnect_cb] else [])).filterMap
            Event.link? = c.links
      rw [hconnected, Bool.false_and, if_neg Bool.false_ne_true, List.append_nil]
      split_ifs
      · exact hfailed _
      · rw [List.append_nil]
        rfl

/-! ### Runs -/

variable {message_cb disconnect_cb : Bool}

theorem attempting_init : Attempting (machine message_cb disconnect_cb).init :=
  ⟨fun h => (by cases h), fun h => (by cases h), List.forall_mem_nil _, List.Perm.nil⟩

theorem accounted_init : Accounted (machine message_cb disconnect_cb).init :=
  ⟨fun _ => rfl, fun _ => rfl, fun _ h => (by cases h)⟩

theorem answered_init : Answered (machine message_cb disconnect_cb).init :=
  ⟨fun _ _ _ hmem => (by cases hmem), fun _ hmem => (by cases hmem)⟩

theorem linked_init : Linked (machine message_cb disconnect_cb).init :=
  ⟨fun _ _ hmem => (by cases hmem), fun h => (by cases h), List.isChain_nil,
    fun h => (by cases h), ⟨fun h => (by cases h), fun h => (by cases h)⟩⟩

theorem Attempting.of_run {labels : List Label}
    (h : (machine message_cb disconnect_cb).run labels = some c) : Attempting c := by
  refine Machine.invariant attempting_init (fun s label t hs hstep => ?_) ⟨labels, h⟩
  obtain ⟨middle, hmove, hkeeps⟩ := move_of_step hstep
  exact (hs.move hmove).keeps hkeeps

theorem Accounted.of_run {labels : List Label}
    (h : (machine message_cb disconnect_cb).run labels = some c) : Accounted c := by
  refine Machine.invariant accounted_init (fun s label t hs hstep => ?_) ⟨labels, h⟩
  obtain ⟨middle, hmove, hkeeps⟩ := move_of_step hstep
  exact (hs.move hmove).keeps hkeeps

theorem Answered.of_run {labels : List Label}
    (h : (machine message_cb disconnect_cb).run labels = some c) : Answered c := by
  refine Machine.run_induction (motive := fun _ c => Answered c) answered_init
    (fun before s label t hrun hs hstep => ?_) h
  obtain ⟨middle, hmove, hkeeps⟩ := move_of_step hstep
  exact (hs.move (.of_run hrun) (.of_run hrun) hmove).keeps hkeeps

theorem Linked.of_run {labels : List Label}
    (h : (machine message_cb true).run labels = some c)
    (hcalls : ∀ call ∈ c.calls, call.on_connect = true) : Linked c := by
  refine (Machine.run_induction (motive := fun _ c => c.disconnect_cb_ = true ∧
    ((∀ call ∈ c.calls, call.on_connect = true) → Linked c)) ⟨rfl, fun _ => linked_init⟩
    (fun before s label t hrun hs hstep => ?_) h).2 hcalls
  obtain ⟨middle, hmove, hkeeps⟩ := move_of_step hstep
  obtain ⟨hcallback, hsubset⟩ := hmove.callbacks
  refine ⟨hkeeps.disconnect_cb_.trans (hcallback.trans hs.1), fun hcalls => ?_⟩
  rw [hkeeps.calls] at hcalls
  exact ((hs.2 fun call hmem => hcalls call (hsubset hmem)).move (.of_run hrun) hs.1 hcalls
    hmove).keeps hkeeps

/-- The callbacks of `connect` and the callback for disconnects: every callback given to
`connect` is invoked at most once, and once when no handler and no operation is left; success
is answered only to a call whose own operation has connected the socket; and the owner of all
callbacks hears of connections and disconnects in turn. -/
theorem callbacks_of_run {labels : List Label}
    (h : (machine message_cb disconnect_cb).run labels = some c) :
    (∀ call, (c.events.filterMap Event.call?).count call ≤ 1) ∧
    (c.strand = [] → c.operations = [] → ∀ call, c.gave call = true →
      (c.events.filterMap Event.call?).count call = 1) ∧
    (∀ call, .on_connect call true ∈ c.events → call ∈ c.opened) ∧
    (disconnect_cb = true → (∀ call ∈ c.calls, call.on_connect = true) →
      c.links.IsChain (· ≠ ·) ∧ c.links.head? ≠ some false) := by
  have haccounted := Accounted.of_run h
  have hattempting := Attempting.of_run h
  have hgiven : c.given.Nodup := List.nodup_range.filter _
  refine ⟨fun call => ?_, fun hstrand hoperations call hgave => ?_, (Answered.of_run h).success,
    fun hcallback hcalls => ?_⟩
  · have honce := haccounted.once call
    have hle := List.nodup_iff_count_le_one.mp hgiven call
    omega
  · -- With nothing under way there is no attempt, and its callback has been called.
    have hlive : c.live = [] := by
      rw [live, attempts, hstrand, hoperations]
      rfl
    have hidle : c.is_connecting_ = false := Bool.eq_false_iff.mpr fun hconnecting => by
      have hperm := hattempting.live
      rw [hlive, if_pos hconnecting, List.nil_perm] at hperm
      cases hperm
    have hmem : call ∈ c.given := by
      refine List.mem_filter.mpr ⟨List.mem_range.mpr ?_, hgave⟩
      by_contra hlt
      rw [gave, List.getElem?_eq_none (Nat.le_of_not_lt hlt)] at hgave
      cases hgave
    have honce := haccounted.once call
    rw [hstrand, haccounted.idle hidle, List.count_eq_one_of_mem hgiven hmem] at honce
    exact honce
  · subst hcallback
    have hlinked := Linked.of_run h hcalls
    exact ⟨hlinked.chain, hlinked.head⟩

/-- A connection is established, refused to a second caller and closed. -/
def connectTwice : List Label :=
  [.connect true, .runHandler, .complete 0 (some []), .runHandler, .complete 0 (some []),
    .runHandler, .resume, .connect true, .runHandler, .disconnect, .postDisconnect, .runHandler,
    .complete 0 none, .runHandler]

theorem callbacks_connectTwice : ∃ c, (machine true true).run connectTwice = some c ∧
    (c.events.filterMap Event.call?).count 0 = 1 ∧ (c.events.filterMap Event.call?).count 1 = 1 ∧
      0 ∈ c.opened ∧ c.links.IsChain (· ≠ ·) ∧ c.links.head? ≠ some false := by
  have hend : ∃ c ∈ (machine true true).run connectTwice, (c.strand = [] ∧ c.operations = []) ∧
      (c.gave 0 = true ∧ c.gave 1 = true) ∧ .on_connect 0 true ∈ c.events ∧
        ∀ call ∈ c.calls, call.on_connect = true := by decide +kernel
  obtain ⟨c, hrun, ⟨hstrand, hoperations⟩, ⟨hfirst, hsecond⟩, hsuccess, hcalls⟩ := hend
  obtain ⟨-, honce, hopened, hlinks⟩ := callbacks_of_run hrun
  exact ⟨c, hrun, honce hstrand hoperations 0 hfirst, honce hstrand hoperations 1 hsecond,
    hopened 0 hsuccess, hlinks rfl hcalls⟩

end SpaceShooter.Client.TcpClient
