/-
# The event bus

A bus keeps a signal for each class of events in a vector indexed by numbers that the whole
program hands out on first use. `publish` has two overloads: through a reference to `Event`
the signal is found by the event's own class, through any other reference by the class of the
reference. So an event that is published through a base between its own class and `Event`
reaches the subscribers of that base instead of its own.
-/

import Mathlib.Data.List.Nodup
import Mathlib.Order.Defs.PartialOrder
import SpaceShooter.Library.Interning
import SpaceShooter.Library.Machine
import SpaceShooter.Server.NetworkEvents

namespace SpaceShooter.Server

open Library

/-- The classes of a program, ordered by inheritance, and the class of each event. -/
structure Classes (T E : Type) where
  Event : T
  typeid : E → T

/-- A callback that is connected to a signal. -/
structure Slot (C : Type) where
  connection : ℕ
  callback : C
  deriving DecidableEq, Repr

/-- The signal of one class of events. -/
structure SignalHolder (T C : Type) where
  EventType : T
  signal : List (Slot C) := []
  deriving DecidableEq, Repr

structure EventBus (T C : Type) where
  event_type_ids_ : T → Option ℕ := fun _ => none
  signals_ : List (Option (SignalHolder T C)) := []

/-- A callback on a bus, as the caller of `subscribe` sees it. -/
structure Subscription (B T C : Type) where
  bus : B
  type : T
  slot : Slot C
  deriving DecidableEq, Repr

/-- What can happen next: a subscription, the end of one, or a publication of an event through
a reference to a class. -/
inductive BusCall (B T E C : Type)
  | subscribe (bus : B) (type : T) (callback : C)
  | disconnect (connection : ℕ)
  | publish (bus : B) (static : T) (event : E)

namespace EventBus

variable {B T E C : Type}

section Operations

variable [DecidableEq T]

/-- The vector is resized to hold the number, an empty place gets a signal, and the map gets the
number. -/
def getOrCreateSignal (counter : Interner T) (bus : EventBus T C) (EventType : T) :
    ℕ × Interner T × EventBus T C :=
  let type_id := (counter.get EventType).1
  let signals_ :=
    if bus.signals_.length ≤ type_id then
      bus.signals_ ++ List.replicate (type_id + 1 - bus.signals_.length) none
    else bus.signals_
  let signals_ :=
    match signals_[type_id]? with
    | some (some _) => signals_
    | _ => signals_.set type_id (some { EventType := EventType })
  let event_type_ids_ :=
    if (bus.event_type_ids_ EventType).isNone then
      Function.update bus.event_type_ids_ EventType (some type_id)
    else bus.event_type_ids_
  (type_id, (counter.get EventType).2, { event_type_ids_ := event_type_ids_, signals_ := signals_ })

/-- `signal::connect` on the signal with a number; what the cast to its class makes of the
signal is the signal. -/
def connect (bus : EventBus T C) (type_id : ℕ) (slot : Slot C) : EventBus T C :=
  { bus with
    signals_ := bus.signals_.modify type_id fun holder =>
      holder.map fun holder => { holder with signal := holder.signal ++ [slot] } }

def subscribe (counter : Interner T) (bus : EventBus T C) (EventType : T) (slot : Slot C) :
    Interner T × EventBus T C :=
  let found := bus.getOrCreateSignal counter EventType
  (found.2.1, found.2.2.connect found.1 slot)

/-- `connection::disconnect`. -/
def disconnect (bus : EventBus T C) (connection : ℕ) : EventBus T C :=
  { bus with
    signals_ := bus.signals_.map fun holder =>
      holder.map fun holder =>
        { holder with signal := holder.signal.filter fun slot => slot.connection ≠ connection } }

/-- `publish<EventType>`: the callbacks that are called. -/
def publishAs (counter : Interner T) (bus : EventBus T C) (EventType : T) :
    List (Slot C) × Interner T :=
  let type_id := (counter.get EventType).1
  let called :=
    match bus.signals_[type_id]? with
    | some (some holder) => holder.signal
    | _ => []
  (called, (counter.get EventType).2)

variable [PartialOrder T] [DecidableLE T] (classes : Classes T E)

/-- `SignalHolder::dispatch`: nothing is called for an event of another class. -/
def dispatch (holder : SignalHolder T C) (event : E) : List (Slot C) :=
  if classes.typeid event ≤ holder.EventType then holder.signal else []

/-- `publish(const Event&)`. -/
def publishEvent (bus : EventBus T C) (event : E) : List (Slot C) :=
  match bus.event_type_ids_ (classes.typeid event) with
  | none => []
  | some type_id =>
    match bus.signals_[type_id]? with
    | some (some holder) => dispatch classes holder event
    | _ => []

/-- The overload for `Event` is chosen for that class alone: for a reference to any other class
the template fits better. -/
def publish (counter : Interner T) (bus : EventBus T C) (static : T) (event : E) :
    List (Slot C) × Interner T :=
  if static = classes.Event then (bus.publishEvent classes event, counter)
  else bus.publishAs counter static

end Operations

end EventBus

/-- The buses of a program and what they share. -/
structure Buses (B T C : Type) where
  counter : Interner T := .empty
  bus : B → EventBus T C := fun _ => {}
  connections : ℕ := 0

namespace Buses

variable {B T E C : Type} [DecidableEq B] [DecidableEq T] [PartialOrder T] [DecidableLE T]
variable (classes : Classes T E)

/-- The callbacks that a publication calls. -/
def invoked (s : Buses B T C) (bus : B) (static : T) (event : E) : List (Slot C) :=
  ((s.bus bus).publish classes s.counter static event).1

def step (s : Buses B T C) : BusCall B T E C → Option (Buses B T C)
  | .subscribe bus type callback =>
    let after := (s.bus bus).subscribe s.counter type ⟨s.connections, callback⟩
    some ⟨after.1, Function.update s.bus bus after.2, s.connections + 1⟩
  | .disconnect connection => some { s with bus := fun bus => (s.bus bus).disconnect connection }
  -- Only a class between that of the event and `Event` can stand before the event.
  | .publish bus static event =>
    if classes.typeid event ≤ static ∧ static ≤ classes.Event then
      some { s with counter := ((s.bus bus).publish classes s.counter static event).2 }
    else none

def machine (B C : Type) [DecidableEq B] (classes : Classes T E) :
    Machine (Buses B T C) (BusCall B T E C) where
  init := {}
  step := step classes

end Buses

/-! ### Who is subscribed -/

/-- The subscriptions that are in force, in their order. -/
structure Subscribers (B T C : Type) where
  subscriptions : List (Subscription B T C) := []
  connections : ℕ := 0

namespace Subscribers

variable {B T E C : Type}

def next (r : Subscribers B T C) : BusCall B T E C → Subscribers B T C
  | .subscribe bus type callback =>
    ⟨r.subscriptions ++ [⟨bus, type, r.connections, callback⟩], r.connections + 1⟩
  | .disconnect connection =>
    { r with
      subscriptions := r.subscriptions.filter fun entry => entry.slot.connection ≠ connection }
  | .publish _ _ _ => r

/-- The subscriptions that a history leaves in force. -/
def after (history : List (BusCall B T E C)) : Subscribers B T C := history.foldl next {}

/-- The callbacks on a bus for a class. -/
def slots [DecidableEq B] [DecidableEq T] (r : Subscribers B T C) (bus : B) (type : T) :
    List (Slot C) :=
  (r.subscriptions.filter fun entry => entry.bus = bus ∧ entry.type = type).map (·.slot)

end Subscribers

/-! ### The bus knows its subscribers -/

namespace EventBus

variable {B T E C : Type} [DecidableEq T] {counter : Interner T} {bus : EventBus T C}
variable {slots : T → List (Slot C)} {type : T}

/-- The signal with a number. -/
def holder? (bus : EventBus T C) (type_id : ℕ) : Option (SignalHolder T C) :=
  bus.signals_[type_id]?.join

/-- A signal stands at the number of its class and has the callbacks for the class; a class
with callbacks has a signal, and the map knows the classes with signals. -/
structure Represents (counter : Interner T) (bus : EventBus T C) (slots : T → List (Slot C)) :
    Prop where
  typed : ∀ {i holder}, bus.holder? i = some holder →
    counter.ids holder.EventType = some i ∧ holder.signal = slots holder.EventType
  held : ∀ {type}, slots type ≠ [] →
    ∃ i holder, bus.holder? i = some holder ∧ holder.EventType = type
  mapped : ∀ {type i}, bus.event_type_ids_ type = some i ↔
    ∃ holder, bus.holder? i = some holder ∧ holder.EventType = type

/-- Numbers for other classes change nothing. -/
theorem Represents.get (h : Represents counter bus slots) (type : T) :
    Represents (counter.get type).2 bus slots where
  typed hi := ⟨Interner.ids_get_of_some (h.typed hi).1 type, (h.typed hi).2⟩
  held := h.held
  mapped := h.mapped

omit [DecidableEq T] in
theorem represents_empty (counter : Interner T) :
    Represents counter ({} : EventBus T C) fun _ => [] where
  typed := nofun
  held h := absurd rfl h
  mapped := ⟨nofun, nofun⟩

/-- The template calls the callbacks for the class of the reference. -/
theorem Represents.publishAs (h : Represents counter bus slots) (type : T) :
    (bus.publishAs counter type).1 = slots type := by
  have hcalled : (bus.publishAs counter type).1 =
      ((bus.holder? (counter.get type).1).map (·.signal)).getD [] := by
    rw [EventBus.publishAs, holder?]
    dsimp only
    rcases bus.signals_[(counter.get type).1]? with _ | _ | holder
    · rfl
    · rfl
    · rfl
  rw [hcalled]
  cases hholder : bus.holder? (counter.get type).1 with
  | none =>
    by_contra hne
    obtain ⟨i, holder, hi, htype⟩ := h.held (Ne.symm hne)
    obtain ⟨hid, -⟩ := h.typed hi
    rw [htype] at hid
    rw [Interner.get_fst_of_some hid, hi] at hholder
    cases hholder
  | some holder =>
    obtain ⟨hid, hsignal⟩ := h.typed hholder
    rw [Interner.eq_of_get hid] at hsignal
    exact hsignal

omit [DecidableEq T] in
/-- The overload for `Event` calls those for the class of the event. -/
theorem Represents.publishEvent [PartialOrder T] [DecidableLE T] (h : Represents counter bus slots)
    (classes : Classes T E) (event : E) :
    bus.publishEvent classes event = slots (classes.typeid event) := by
  rw [EventBus.publishEvent]
  cases hmap : bus.event_type_ids_ (classes.typeid event) with
  | none =>
    by_contra hne
    obtain ⟨i, holder, hi, htype⟩ := h.held (Ne.symm hne)
    rw [h.mapped.mpr ⟨holder, hi, htype⟩] at hmap
    cases hmap
  | some i =>
    obtain ⟨holder, hi, htype⟩ := h.mapped.mp hmap
    obtain ⟨-, hsignal⟩ := h.typed hi
    have hplace : bus.signals_[i]? = some (some holder) := Option.join_eq_some_iff.mp hi
    dsimp only
    rw [hplace]
    dsimp only
    rw [dispatch, htype, if_pos le_rfl, hsignal, htype]

/-! ### Subscribing -/

omit [DecidableEq T] in
/-- A resized vector has the same signals. -/
theorem join_getElem?_resize (signals : List (Option (SignalHolder T C))) (n i : ℕ) :
    (signals ++ List.replicate n none)[i]?.join = signals[i]?.join := by
  rw [List.getElem?_append]
  split_ifs with hi
  · rfl
  · have hnone : signals[i]? = none := List.getElem?_eq_none (Nat.le_of_not_lt hi)
    rw [hnone, List.getElem?_replicate]
    split_ifs
    · rfl
    · rfl

/-- A signal for the class stands at the number of the class, and no other place changes. -/
theorem holder?_getOrCreateSignal (counter : Interner T) (bus : EventBus T C) (type : T) (i : ℕ) :
    (bus.getOrCreateSignal counter type).2.2.holder? i =
      if (counter.get type).1 = i then some ((bus.holder? i).getD { EventType := type })
      else bus.holder? i := by
  generalize hsize : (if bus.signals_.length ≤ (counter.get type).1 then
    bus.signals_ ++ List.replicate ((counter.get type).1 + 1 - bus.signals_.length) none
    else bus.signals_) = signals
  have hlength : (counter.get type).1 < signals.length := by
    rw [← hsize]
    split_ifs with hle
    · rw [List.length_append, List.length_replicate]
      omega
    · omega
  have hjoin (j : ℕ) : signals[j]?.join = bus.holder? j := by
    rw [← hsize, holder?]
    split_ifs
    · exact join_getElem?_resize _ _ _
    · rfl
  have hset : (bus.getOrCreateSignal counter type).2.2.signals_ =
      match signals[(counter.get type).1]? with
      | some (some _) => signals
      | _ => signals.set (counter.get type).1 (some { EventType := type }) := by
    rw [getOrCreateSignal, ← hsize]
  rw [holder?, hset]
  have hplace := hjoin (counter.get type).1
  split
  · next holder hfound =>
    rw [hfound, Option.join_some] at hplace
    split_ifs with hi
    · rw [hjoin, ← hi, ← hplace]
      rfl
    · exact hjoin i
  · next hempty =>
    have hnone : bus.holder? (counter.get type).1 = none := by
      rw [← hplace]
      rcases hfound : signals[(counter.get type).1]? with _ | _ | holder
      · rfl
      · rfl
      · exact absurd hfound (hempty holder)
    split_ifs with hi
    · rw [← hi, List.getElem?_set_self hlength, hnone]
      rfl
    · rw [List.getElem?_set_ne hi, hjoin]

/-- The signals are those there were, and a new one if the class had none. -/
theorem holder?_getOrCreateSignal_eq_some {i : ℕ} {holder : SignalHolder T C} :
    (bus.getOrCreateSignal counter type).2.2.holder? i = some holder ↔
      bus.holder? i = some holder ∨
        (counter.get type).1 = i ∧ bus.holder? i = none ∧ holder = { EventType := type } := by
  rw [holder?_getOrCreateSignal]
  cases bus.holder? i with
  | none =>
    split_ifs with hi
    · simp [hi, eq_comm]
    · simp [hi]
  | some there =>
    split_ifs
    · simp
    · simp

/-- The map gets the number of a class that is new to it. -/
theorem event_type_ids_getOrCreateSignal {i : ℕ} {other : T} :
    (bus.getOrCreateSignal counter type).2.2.event_type_ids_ other = some i ↔
      bus.event_type_ids_ other = some i ∨
        (counter.get type).1 = i ∧ bus.event_type_ids_ other = none ∧ other = type := by
  rw [getOrCreateSignal]
  dsimp only
  by_cases hother : other = type
  · subst hother
    cases hfound : bus.event_type_ids_ other with
    | none => simp
    | some there => simp [hfound]
  · cases bus.event_type_ids_ type with
    | none => simp [hother]
    | some there => simp [hother]

/-- A class has a signal if there is one at its number. -/
theorem Represents.event_type_ids_eq_none (h : Represents counter bus slots) (type : T) :
    bus.event_type_ids_ type = none ↔ bus.holder? (counter.get type).1 = none := by
  constructor
  · intro hnone
    by_contra hne
    obtain ⟨holder, hholder⟩ := Option.ne_none_iff_exists'.mp hne
    have htype := Interner.eq_of_get (h.typed hholder).1
    rw [h.mapped.mpr ⟨holder, hholder, htype⟩] at hnone
    cases hnone
  · intro hnone
    by_contra hne
    obtain ⟨i, hi⟩ := Option.ne_none_iff_exists'.mp hne
    obtain ⟨holder, hholder, rfl⟩ := h.mapped.mp hi
    rw [Interner.get_fst_of_some (h.typed hholder).1, hholder] at hnone
    cases hnone

/-- A class without a signal has no callbacks. -/
theorem Represents.slots_eq_nil (h : Represents counter bus slots)
    (hnone : bus.holder? (counter.get type).1 = none) : slots type = [] := by
  by_contra hne
  obtain ⟨i, holder, hi, rfl⟩ := h.held hne
  rw [Interner.get_fst_of_some (h.typed hi).1, hi] at hnone
  cases hnone

theorem Represents.getOrCreateSignal (h : Represents counter bus slots) (type : T) :
    Represents (counter.get type).2 (bus.getOrCreateSignal counter type).2.2 slots where
  typed := by
    intro i holder hholder
    rcases holder?_getOrCreateSignal_eq_some.mp hholder with hold | ⟨rfl, hnone, rfl⟩
    · exact (h.get type).typed hold
    · exact ⟨Interner.ids_get_self counter type, (h.slots_eq_nil hnone).symm⟩
  held := by
    intro other hne
    obtain ⟨i, holder, hi, htype⟩ := h.held hne
    exact ⟨i, holder, holder?_getOrCreateSignal_eq_some.mpr (.inl hi), htype⟩
  mapped := by
    intro other i
    rw [event_type_ids_getOrCreateSignal, h.mapped]
    constructor
    · rintro (⟨holder, hi, htype⟩ | ⟨rfl, hnone, rfl⟩)
      · exact ⟨holder, holder?_getOrCreateSignal_eq_some.mpr (.inl hi), htype⟩
      · have hempty := (h.event_type_ids_eq_none other).mp hnone
        exact ⟨_, holder?_getOrCreateSignal_eq_some.mpr (.inr ⟨rfl, hempty, rfl⟩), rfl⟩
    · rintro ⟨holder, hholder, rfl⟩
      rcases holder?_getOrCreateSignal_eq_some.mp hholder with hold | ⟨rfl, hnone, rfl⟩
      · exact .inl ⟨holder, hold, rfl⟩
      · exact .inr ⟨rfl, (h.event_type_ids_eq_none _).mpr hnone, rfl⟩

/-! ### Connections -/

omit [DecidableEq T] in
/-- What changes the callbacks of signals, class by class, and leaves the rest alone. -/
theorem Represents.change (h : Represents counter bus slots) {after : EventBus T C}
    {edit : ℕ → SignalHolder T C → SignalHolder T C} {slots' : T → List (Slot C)}
    (hids : after.event_type_ids_ = bus.event_type_ids_)
    (hplaces : ∀ i, after.holder? i = (bus.holder? i).map (edit i))
    (htype : ∀ i holder, (edit i holder).EventType = holder.EventType)
    (hsignal : ∀ i holder, bus.holder? i = some holder →
      (edit i holder).signal = slots' holder.EventType)
    (hheld : ∀ type, slots' type ≠ [] →
      ∃ i holder, bus.holder? i = some holder ∧ holder.EventType = type) :
    Represents counter after slots' := by
  have hkeeps {i : ℕ} {type : T} : (∃ holder, after.holder? i = some holder ∧
      holder.EventType = type) ↔ ∃ holder, bus.holder? i = some holder ∧
        holder.EventType = type := by
    rw [hplaces]
    constructor
    · rintro ⟨_, hi, rfl⟩
      obtain ⟨holder, hholder, rfl⟩ := Option.map_eq_some_iff.mp hi
      exact ⟨holder, hholder, (htype i holder).symm⟩
    · rintro ⟨holder, hi, rfl⟩
      exact ⟨edit i holder, Option.map_eq_some_iff.mpr ⟨holder, hi, rfl⟩, htype i holder⟩
  constructor
  case typed =>
    intro i _ hi
    rw [hplaces] at hi
    obtain ⟨holder, hholder, rfl⟩ := Option.map_eq_some_iff.mp hi
    rw [htype]
    exact ⟨(h.typed hholder).1, hsignal i holder hholder⟩
  case held =>
    intro type hne
    obtain ⟨i, hi⟩ := hheld type hne
    exact ⟨i, hkeeps.mpr hi⟩
  case mapped =>
    intro type i
    rw [hids, h.mapped, hkeeps]

omit [DecidableEq T] in
theorem holder?_connect (bus : EventBus T C) (type_id : ℕ) (slot : Slot C) (i : ℕ) :
    (bus.connect type_id slot).holder? i = (bus.holder? i).map fun holder =>
      if type_id = i then { holder with signal := holder.signal ++ [slot] } else holder := by
  rw [holder?, EventBus.connect, List.getElem?_modify, holder?]
  rcases bus.signals_[i]? with _ | _ | holder
  · rfl
  · split_ifs
    · rfl
    · rfl
  · split_ifs
    · rfl
    · rfl

omit [DecidableEq T] in
theorem holder?_disconnect (bus : EventBus T C) (connection i : ℕ) :
    (bus.disconnect connection).holder? i = (bus.holder? i).map fun holder =>
      { holder with signal := holder.signal.filter fun slot => slot.connection ≠ connection } := by
  rw [holder?, EventBus.disconnect, List.getElem?_map, holder?]
  rcases bus.signals_[i]? with _ | _ | holder
  · rfl
  · rfl
  · rfl

/-- A callback is added to the callbacks for the class. -/
theorem Represents.connect (h : Represents counter bus slots) {i : ℕ}
    {holder : SignalHolder T C} (hi : bus.holder? i = some holder) (slot : Slot C) :
    Represents counter (bus.connect i slot)
      (Function.update slots holder.EventType (slots holder.EventType ++ [slot])) := by
  refine h.change rfl (holder?_connect bus i slot) ?_ ?_ ?_
  · intro j other
    split_ifs
    · rfl
    · rfl
  · intro j other hj
    split_ifs with hplace
    · subst hplace
      obtain rfl := Option.some.inj (hi.symm.trans hj)
      rw [Function.update_self, (h.typed hi).2]
    · -- Signals with different numbers are of different classes.
      have hne : other.EventType ≠ holder.EventType := by
        intro heq
        have hid := (h.typed hj).1
        rw [heq, (h.typed hi).1] at hid
        exact hplace (Option.some.inj hid)
      rw [Function.update_of_ne hne, (h.typed hj).2]
  · intro type hne
    by_cases htype : type = holder.EventType
    · exact ⟨i, holder, hi, htype.symm⟩
    · rw [Function.update_of_ne htype] at hne
      exact h.held hne

omit [DecidableEq T] in
theorem Represents.disconnect (h : Represents counter bus slots) (connection : ℕ) :
    Represents counter (bus.disconnect connection) fun type =>
      (slots type).filter fun slot => slot.connection ≠ connection := by
  refine h.change rfl (holder?_disconnect bus connection) (fun _ _ => rfl) ?_ ?_
  · intro i holder hi
    rw [(h.typed hi).2]
  · intro type hne
    refine h.held fun hnil => hne ?_
    rw [hnil]
    rfl

theorem Represents.subscribe (h : Represents counter bus slots) (type : T) (slot : Slot C) :
    Represents (bus.subscribe counter type slot).1 (bus.subscribe counter type slot).2
      (Function.update slots type (slots type ++ [slot])) := by
  have hfound := h.getOrCreateSignal type
  -- There is a signal at the number of the class now, and it is of the class.
  have hplace := holder?_getOrCreateSignal counter bus type (counter.get type).1
  rw [if_pos rfl] at hplace
  have htype := (counter.get type).2.inj (hfound.typed hplace).1
    (Interner.ids_get_self counter type)
  have hconnected := hfound.connect hplace slot
  rw [htype] at hconnected
  exact hconnected

end EventBus

/-! ### Subscriptions -/

namespace Subscribers

variable {B T E C : Type} {r : Subscribers B T C}

/-- Each connection is one subscription. -/
structure Distinct (r : Subscribers B T C) : Prop where
  nodup : (r.subscriptions.map fun entry => entry.slot.connection).Nodup
  below : ∀ entry ∈ r.subscriptions, entry.slot.connection < r.connections

theorem Distinct.next (h : Distinct r) (call : BusCall B T E C) : Distinct (r.next call) := by
  cases call with
  | subscribe bus type callback =>
    constructor
    · change ((r.subscriptions ++ [_]).map _).Nodup
      rw [List.map_append, List.nodup_append']
      refine ⟨h.nodup, List.nodup_singleton _, ?_⟩
      rw [List.map_singleton, List.disjoint_singleton]
      rintro hmem
      obtain ⟨entry, hentry, heq⟩ := List.mem_map.mp hmem
      exact Nat.ne_of_lt (h.below entry hentry) heq
    · intro entry hentry
      rcases List.mem_append.mp hentry with hold | hnew
      · exact Nat.lt_succ_of_lt (h.below entry hold)
      · obtain rfl := List.mem_singleton.mp hnew
        exact Nat.lt_succ_self _
  | disconnect connection =>
    refine ⟨h.nodup.sublist ((List.filter_sublist).map _), fun entry hentry => ?_⟩
    exact h.below entry (List.mem_filter.mp hentry).1
  | publish _ _ _ => exact h

theorem after_concat (history : List (BusCall B T E C)) (call : BusCall B T E C) :
    after (history ++ [call]) = (after history).next call := by
  rw [after, List.foldl_append]
  rfl

theorem distinct_after (history : List (BusCall B T E C)) : Distinct (after history) := by
  induction history using List.reverseRecOn with
  | nil => exact ⟨List.nodup_nil, nofun⟩
  | append_singleton history call ih =>
    rw [after_concat]
    exact ih.next call

variable [DecidableEq B] [DecidableEq T]

theorem mem_slots {bus : B} {type : T} {slot : Slot C} :
    slot ∈ r.slots bus type ↔ ⟨bus, type, slot⟩ ∈ r.subscriptions := by
  simp only [slots, List.mem_map, List.mem_filter, decide_eq_true_eq]
  constructor
  · rintro ⟨⟨_, _, _⟩, ⟨hmem, rfl, rfl⟩, rfl⟩
    exact hmem
  · intro hmem
    exact ⟨_, ⟨hmem, rfl, rfl⟩, rfl⟩

theorem Distinct.nodup_slots (h : Distinct r) (bus : B) (type : T) : (r.slots bus type).Nodup := by
  have hmap : r.subscriptions.map (fun entry => entry.slot.connection) =
      (r.subscriptions.map (·.slot)).map (·.connection) := by
    rw [List.map_map]
    rfl
  have hslots : (r.subscriptions.map (·.slot)).Nodup := List.Nodup.of_map _ (hmap ▸ h.nodup)
  exact hslots.sublist ((List.filter_sublist).map _)

/-- A callback is subscribed for one class. -/
theorem Distinct.type_eq (h : Distinct r) {bus : B} {type other : T} {slot : Slot C}
    (hslot : slot ∈ r.slots bus type) (hother : slot ∈ r.slots bus other) : type = other := by
  have heq := List.inj_on_of_nodup_map h.nodup (mem_slots.mp hslot) (mem_slots.mp hother) rfl
  exact (Subscription.mk.inj heq).2.1

theorem slots_subscribe_self (r : Subscribers B T C) (bus : B) (type : T) (callback : C) :
    (r.next (.subscribe bus type callback : BusCall B T E C)).slots bus =
      Function.update (r.slots bus) type (r.slots bus type ++ [⟨r.connections, callback⟩]) := by
  funext other
  rw [slots, next, List.filter_append, List.map_append, Function.update_apply]
  split_ifs with hother
  · simp [hother, slots]
  · simp [Ne.symm hother, slots]

theorem slots_subscribe_of_ne (r : Subscribers B T C) {bus other : B} (hother : other ≠ bus)
    (type : T) (callback : C) :
    (r.next (.subscribe bus type callback : BusCall B T E C)).slots other = r.slots other := by
  funext requested
  rw [slots, next, List.filter_append, List.map_append]
  simp [Ne.symm hother, slots]

theorem slots_disconnect (r : Subscribers B T C) (connection : ℕ) (bus : B) :
    (r.next (.disconnect connection : BusCall B T E C)).slots bus = fun type =>
      (r.slots bus type).filter fun slot => slot.connection ≠ connection := by
  funext type
  rw [slots, next, slots, List.filter_map, List.filter_filter, List.filter_filter]
  congr 1
  refine List.filter_congr fun entry _ => ?_
  rw [Bool.and_comm]
  rfl

/-- Each of some callbacks is called once, and no other. -/
def CalledOnce (called wanted : List (Slot C)) : Prop :=
  called.Nodup ∧ ∀ slot, slot ∈ called ↔ slot ∈ wanted

/-- Callbacks of different classes are the same only if there are none. -/
theorem calledOnce_slots_iff (h : r.Distinct) (bus : B) (static own : T) :
    CalledOnce (r.slots bus static) (r.slots bus own) ↔
      static = own ∨ r.slots bus static = [] ∧ r.slots bus own = [] := by
  constructor
  · rintro ⟨-, hsame⟩
    by_cases hclass : static = own
    · exact .inl hclass
    · right
      constructor
      · refine List.eq_nil_iff_forall_not_mem.mpr fun slot hslot => ?_
        exact hclass (h.type_eq hslot ((hsame slot).mp hslot))
      · refine List.eq_nil_iff_forall_not_mem.mpr fun slot hslot => ?_
        exact hclass (h.type_eq ((hsame slot).mpr hslot) hslot)
  · rintro (rfl | ⟨hstatic, hown⟩)
    · exact ⟨h.nodup_slots bus static, fun _ => Iff.rfl⟩
    · rw [hstatic, hown]
      exact ⟨List.nodup_nil, fun _ => Iff.rfl⟩

end Subscribers

/-! ### Runs -/

namespace Buses

variable {B T E C : Type} [DecidableEq B] [DecidableEq T]

/-- Every bus of the program knows its subscribers. -/
structure Serves (s : Buses B T C) (r : Subscribers B T C) : Prop where
  buses : ∀ bus, EventBus.Represents s.counter (s.bus bus) (r.slots bus)
  connections : s.connections = r.connections

variable [PartialOrder T] [DecidableLE T] {classes : Classes T E}
variable {s s' : Buses B T C} {r : Subscribers B T C}

/-- A publication hands out at most one number. -/
theorem Serves.publish (h : Serves s r) (bus : B) (static : T) (event : E) :
    Serves { s with counter := ((s.bus bus).publish classes s.counter static event).2 } r := by
  refine ⟨fun other => ?_, h.connections⟩
  unfold EventBus.publish
  split_ifs
  · exact h.buses other
  · exact (h.buses other).get static

theorem Serves.step (h : Serves s r) {call : BusCall B T E C}
    (hstep : step classes s call = some s') : Serves s' (r.next call) := by
  cases call with
  | subscribe bus type callback =>
    obtain rfl := Option.some.inj hstep
    refine ⟨fun other => ?_, congrArg (· + 1) h.connections⟩
    dsimp only
    by_cases hother : other = bus
    · subst hother
      rw [Function.update_self, Subscribers.slots_subscribe_self, h.connections]
      exact (h.buses other).subscribe type _
    · rw [Function.update_of_ne hother, Subscribers.slots_subscribe_of_ne r hother]
      exact (h.buses other).get type
  | disconnect connection =>
    obtain rfl := Option.some.inj hstep
    refine ⟨fun bus => ?_, h.connections⟩
    rw [Subscribers.slots_disconnect]
    exact (h.buses bus).disconnect connection
  | publish bus static event =>
    simp only [Buses.step] at hstep
    split_ifs at hstep
    obtain rfl := Option.some.inj hstep
    exact h.publish bus static event

theorem serves_of_run {history : List (BusCall B T E C)}
    (run : (machine B C classes).run history = some s) :
    Serves s (Subscribers.after history) := by
  refine Machine.run_induction
    (motive := fun history s => Serves s (Subscribers.after history)) ?_ ?_ run
  · exact ⟨fun _ => EventBus.represents_empty _, rfl⟩
  · intro history s call s' _ h hstep
    rw [Subscribers.after_concat]
    exact h.step hstep

/-- A publication calls the subscribers of one class: that of the event if the reference is to
`Event`, and else that of the reference. -/
theorem Serves.invoked (h : Serves s r) (bus : B) (static : T) (event : E) :
    s.invoked classes bus static event =
      r.slots bus (if static = classes.Event then classes.typeid event else static) := by
  rw [Buses.invoked, EventBus.publish]
  split_ifs
  · exact (h.buses bus).publishEvent classes event
  · exact (h.buses bus).publishAs static

/-- A publication reaches the subscribers of the event's own class if the reference is to
`Event` or to that class, and else only if neither class has subscribers on the bus. -/
theorem calledOnce_iff {history : List (BusCall B T E C)}
    (run : (machine B C classes).run history = some s) (bus : B) (static : T) (event : E) :
    Subscribers.CalledOnce (s.invoked classes bus static event)
        ((Subscribers.after history).slots bus (classes.typeid event)) ↔
      static = classes.Event ∨ static = classes.typeid event ∨
        (Subscribers.after history).slots bus static = [] ∧
          (Subscribers.after history).slots bus (classes.typeid event) = [] := by
  rw [(serves_of_run run).invoked,
    Subscribers.calledOnce_slots_iff (Subscribers.distinct_after history)]
  split_ifs with hbase
  · simp [hbase]
  · simp [hbase]

end Buses

/-! ### The classes of the server -/

/-- `Event`, `NetworkEvent` and the classes that derive from it. -/
inductive EventClass
  | Event
  | NetworkEvent
  | NetworkMessageEvent
  | SendPacketEvent
  | ClientConnectedEvent
  | PlayerJoinEvent
  | ClientDisconnectedEvent
  | ShotMessageEvent
  | ShipDestroyedEvent
  | PlayerMoveEvent
  deriving DecidableEq, Repr

namespace EventClass

/-- Inheritance. -/
def Derives (t u : EventClass) : Prop := t = u ∨ u = Event ∨ u = NetworkEvent ∧ t ≠ Event

instance : DecidableRel Derives := fun t u =>
  inferInstanceAs (Decidable (t = u ∨ u = Event ∨ u = NetworkEvent ∧ t ≠ Event))

instance : PartialOrder EventClass where
  le := Derives
  le_refl _ := .inl rfl
  le_trans := by
    rintro t u v (rfl | rfl | ⟨rfl, ht⟩) huv
    · exact huv
    · rcases huv with rfl | rfl | ⟨-, hne⟩
      · exact .inr (.inl rfl)
      · exact .inr (.inl rfl)
      · exact absurd rfl hne
    · rcases huv with rfl | rfl | ⟨rfl, -⟩
      · exact .inr (.inr ⟨rfl, ht⟩)
      · exact .inr (.inl rfl)
      · exact .inr (.inr ⟨rfl, ht⟩)
  le_antisymm := by
    rintro t u (rfl | rfl | ⟨rfl, ht⟩) hut
    · rfl
    · rcases hut with rfl | rfl | ⟨-, hne⟩
      · rfl
      · rfl
      · exact absurd rfl hne
    · rcases hut with rfl | rfl | ⟨rfl, -⟩
      · rfl
      · exact absurd rfl ht
      · rfl

instance : DecidableLE EventClass := inferInstanceAs (DecidableRel Derives)

end EventClass

/-- The class of an event of the server. -/
def NetworkEvent.typeid {K : Type} : NetworkEvent K → EventClass
  | .NetworkMessageEvent _ _ => .NetworkMessageEvent
  | .SendPacketEvent _ _ => .SendPacketEvent
  | .ClientConnectedEvent _ _ => .ClientConnectedEvent
  | .PlayerJoinEvent _ _ => .PlayerJoinEvent
  | .ClientDisconnectedEvent _ => .ClientDisconnectedEvent
  | .ShotMessageEvent _ => .ShotMessageEvent
  | .ShipDestroyedEvent _ => .ShipDestroyedEvent
  | .PlayerMoveEvent _ _ => .PlayerMoveEvent

def serverClasses (K : Type) : Classes EventClass (NetworkEvent K) where
  Event := .Event
  typeid := NetworkEvent.typeid

namespace Buses

/-- A callback for disconnects, on one of two buses. -/
def subscribedToDisconnects : List (BusCall Bool EventClass (NetworkEvent Unit) String) :=
  [.publish true .ShotMessageEvent (.ShotMessageEvent 7),
    .subscribe false .ClientDisconnectedEvent "removeSession"]

/-- Through `Event` the disconnect reaches its subscriber. -/
theorem calledOnce_subscribedToDisconnects :
    ∃ s, (machine Bool String (serverClasses Unit)).run subscribedToDisconnects = some s ∧
      s.invoked (serverClasses Unit) false .Event (.ClientDisconnectedEvent 7) =
        [⟨0, "removeSession"⟩] ∧
      Subscribers.CalledOnce
        (s.invoked (serverClasses Unit) false .Event (.ClientDisconnectedEvent 7))
        ((Subscribers.after subscribedToDisconnects).slots false .ClientDisconnectedEvent) := by
  have hinvoked : ((machine Bool String (serverClasses Unit)).run subscribedToDisconnects).map
      (·.invoked (serverClasses Unit) false .Event (.ClientDisconnectedEvent 7)) =
        some [⟨0, "removeSession"⟩] := by
    decide
  obtain ⟨s, hs, heq⟩ := Option.map_eq_some_iff.mp hinvoked
  exact ⟨s, hs, heq, (calledOnce_iff hs _ _ _).mpr (.inl rfl)⟩

/-- Through `NetworkEvent` it reaches no one. -/
theorem not_calledOnce_subscribedToDisconnects :
    ¬ ∀ history s, (machine Bool String (serverClasses Unit)).run history = some s →
      ∀ bus static event, (serverClasses Unit).typeid event ≤ static →
        static ≤ (serverClasses Unit).Event →
        Subscribers.CalledOnce (s.invoked (serverClasses Unit) bus static event)
          ((Subscribers.after history).slots bus ((serverClasses Unit).typeid event)) := by
  intro hall
  have hinvoked : ((machine Bool String (serverClasses Unit)).run subscribedToDisconnects).map
      (·.invoked (serverClasses Unit) false .NetworkEvent (.ClientDisconnectedEvent 7)) =
        some [] := by
    decide
  obtain ⟨s, hs, heq⟩ := Option.map_eq_some_iff.mp hinvoked
  have hcalled := hall _ s hs false .NetworkEvent (.ClientDisconnectedEvent 7) (by decide)
    (by decide)
  rw [heq] at hcalled
  have hwanted : (⟨0, "removeSession"⟩ : Slot String) ∈
      (Subscribers.after subscribedToDisconnects).slots false .ClientDisconnectedEvent := by
    decide
  exact List.not_mem_nil ((hcalled.2 _).mpr hwanted)

end Buses

end SpaceShooter.Server
