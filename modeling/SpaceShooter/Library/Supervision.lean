/-
# A supervisor and its link

A supervisor opens and closes a link through a queue of commands. A queue of reports tells it
how its attempts ended and when a link that was up went down, and the link may fail at any
time. Attempts are numbered, so the supervisor knows the report of one that it has superseded;
that a link went down is reported without a number. Even so the two agree whenever both queues
are empty, and no attempt ever finds the link in use.
-/

import Mathlib.Data.List.Chain
import Mathlib.Logic.Relation

namespace SpaceShooter.Library.Supervision

/-- What the supervisor takes the link for. -/
inductive Phase
  | down
  | opening
  | up
  deriving DecidableEq, Repr

inductive Link
  | idle
  | opening (attempt : ℕ)
  | established
  deriving DecidableEq, Repr

inductive Command
  | attempt (attempt : ℕ)
  | close
  deriving DecidableEq, Repr

inductive Report
  | result (attempt : ℕ) (success : Bool)
  | down
  deriving DecidableEq, Repr

/-- What is reported of a link that comes to its end. -/
def Link.ending : Link → List Report
  | idle => []
  | opening attempt => [.result attempt false]
  | established => [.down]

end Supervision

open Supervision

structure Supervision where
  phase : Phase
  /-- The number of the last attempt. -/
  attempt : ℕ
  link : Link
  commands : List Command
  reports : List Report
  deriving DecidableEq, Repr

namespace Supervision

inductive Step (s : Supervision) : Supervision → Prop
  | start (hdown : s.phase = .down) :
    Step s { s with
      phase := .opening
      attempt := s.attempt + 1
      commands := s.commands ++ [.attempt (s.attempt + 1)] }
  | stop :
    Step s { s with
      phase := .down, attempt := s.attempt + 1, commands := s.commands ++ [.close] }
  | accept {attempt : ℕ} {commands : List Command}
    (hcommands : s.commands = .attempt attempt :: commands) (hlink : s.link = .idle) :
    Step s { s with commands := commands, link := .opening attempt }
  /-- An attempt on a link that is in use. -/
  | refuse {attempt : ℕ} {commands : List Command}
    (hcommands : s.commands = .attempt attempt :: commands) (hlink : s.link ≠ .idle) :
    Step s { s with commands := commands, reports := s.reports ++ [.result attempt false] }
  | close {commands : List Command} (hcommands : s.commands = .close :: commands) :
    Step s { s with
      commands := commands, link := .idle, reports := s.reports ++ s.link.ending }
  | fail : Step s { s with link := .idle, reports := s.reports ++ s.link.ending }
  | establish {attempt : ℕ} (hlink : s.link = .opening attempt) :
    Step s { s with link := .established, reports := s.reports ++ [.result attempt true] }
  /-- Only the result of the last attempt counts. -/
  | hearResult {attempt : ℕ} {success : Bool} {reports : List Report}
    (hreports : s.reports = .result attempt success :: reports) :
    Step s { s with
      reports := reports
      phase :=
        if s.attempt = attempt ∧ s.phase = .opening then if success then .up else .down
        else s.phase }
  | hearDown {reports : List Report} (hreports : s.reports = .down :: reports) :
    Step s { s with reports := reports, phase := if s.phase = .up then .down else s.phase }

/-! ### Agreement -/

/-- A link that was up still is, or the report that it went down is on its way. -/
def Held (link : Link) (reports : List Report) : Prop :=
  link = .established ∧ .down ∉ reports ∨ link = .idle ∧ .down ∈ reports

/-- Where the last attempt is: among the commands, at the link, or among the reports. -/
inductive Opening (s : Supervision) : Prop
  | asked (front : List Command) (hcommands : s.commands = front ++ [.attempt s.attempt])
    (hfront : .attempt s.attempt ∉ front) (hlink : s.link ≠ .opening s.attempt)
    (hreports : ∀ success, .result s.attempt success ∉ s.reports)
  | trying (hcommands : s.commands = []) (hlink : s.link = .opening s.attempt)
    (hreports : ∀ success, .result s.attempt success ∉ s.reports)
  | answered (before after : List Report) (success : Bool) (hcommands : s.commands = [])
    (hreports : s.reports = before ++ .result s.attempt success :: after)
    (hbefore : ∀ success, .result s.attempt success ∉ before)
    (hlink : if success then Held s.link after else s.link = .idle)

/-- A number is in use. -/
def Mentions (s : Supervision) (attempt : ℕ) : Prop :=
  .attempt attempt ∈ s.commands ∨ s.link = .opening attempt ∨
    ∃ success, .result attempt success ∈ s.reports

structure Agree (s : Supervision) : Prop where
  numbered : ∀ attempt, s.Mentions attempt → attempt ≤ s.attempt
  /-- An attempt is behind a close, or the link is idle. -/
  spaced : s.commands.IsChain fun first second => second = .close ∨ first = .close
  idle : ∀ attempt, s.commands.head? = some (.attempt attempt) → s.link = .idle
  down : s.phase = .down →
    s.commands.getLast? = some .close ∨ s.commands = [] ∧ s.link = .idle
  opening : s.phase = .opening → s.Opening
  up : s.phase = .up → s.commands = [] ∧ Held s.link s.reports

variable {s t : Supervision}

/-! ### Reports and commands -/

theorem mem_ending {link : Link} {attempt : ℕ} {success : Bool}
    (h : .result attempt success ∈ link.ending) : link = .opening attempt := by
  cases link with
  | idle => cases h
  | opening other =>
    rw [Link.ending, List.mem_singleton] at h
    rw [(Report.result.inj h).1]
  | established =>
    rw [Link.ending, List.mem_singleton] at h
    cases h

/-- A link that goes down is reported to be down. -/
theorem Held.fail {link : Link} {reports : List Report} (h : Held link reports) :
    Held .idle (reports ++ link.ending) := by
  rcases h with ⟨rfl, -⟩ | ⟨rfl, hdown⟩
  · exact .inr ⟨rfl, List.mem_append_right _ (List.mem_singleton_self _)⟩
  · exact .inr ⟨rfl, List.mem_append_left _ hdown⟩

theorem Held.not_opening {link : Link} {reports : List Report} (h : Held link reports)
    (attempt : ℕ) : link ≠ .opening attempt := by
  rintro rfl
  rcases h with ⟨hlink, -⟩ | ⟨hlink, -⟩ <;> cases hlink

theorem answered_not_opening {link : Link} {after : List Report} {success : Bool}
    (h : if success then Held link after else link = .idle) (attempt : ℕ) :
    link ≠ .opening attempt := by
  cases success with
  | true => exact Held.not_opening h attempt
  | false =>
    rw [show link = .idle from h]
    exact fun hidle => by cases hidle

theorem answered_fail {link : Link} {after : List Report} {success : Bool}
    (h : if success then Held link after else link = .idle) :
    if success then Held .idle (after ++ link.ending) else Link.idle = .idle := by
  cases success with
  | true => exact Held.fail h
  | false => rfl

/-! ### The last attempt -/

theorem Opening.accept (h : s.Opening) {attempt : ℕ} {commands : List Command}
    (hcommands : s.commands = .attempt attempt :: commands) :
    Opening { s with commands := commands, link := .opening attempt } := by
  cases h with
  | asked front hasked hfront hlink hreports =>
    rw [hasked] at hcommands
    cases front with
    | nil =>
      obtain ⟨hfirst, rfl⟩ := List.cons_eq_cons.mp hcommands
      exact .trying rfl (congrArg _ (Command.attempt.inj hfirst).symm) hreports
    | cons first front =>
      obtain ⟨rfl, rfl⟩ := List.cons_eq_cons.mp hcommands
      refine .asked front rfl (List.not_mem_of_not_mem_cons hfront) (fun same => hfront ?_) hreports
      rw [Link.opening.inj same]
      exact List.mem_cons_self
  | trying hnone =>
    rw [hnone] at hcommands
    cases hcommands
  | answered before after success hnone =>
    rw [hnone] at hcommands
    cases hcommands

theorem Opening.fail (h : s.Opening) :
    Opening { s with link := .idle, reports := s.reports ++ s.link.ending } := by
  cases h with
  | asked front hcommands hfront hlink hreports =>
    refine .asked front hcommands hfront (fun hidle => by cases hidle) fun success hmem => ?_
    rcases List.mem_append.mp hmem with hmem | hmem
    · exact hreports success hmem
    · exact hlink (mem_ending hmem)
  | trying hcommands hlink hreports =>
    refine .answered s.reports [] false hcommands ?_ hreports rfl
    dsimp only
    rw [hlink]
    rfl
  | answered before after success hcommands hreports hbefore hlink =>
    refine .answered before (after ++ s.link.ending) success hcommands ?_ hbefore
      (answered_fail hlink)
    dsimp only
    rw [hreports, List.append_assoc]
    rfl

theorem Opening.close (h : s.Opening) {commands : List Command}
    (hcommands : s.commands = .close :: commands) :
    Opening { s with
      commands := commands, link := .idle, reports := s.reports ++ s.link.ending } := by
  cases h with
  | asked front hasked hfront hlink hreports =>
    rw [hasked] at hcommands
    cases front with
    | nil => cases hcommands
    | cons first front =>
      obtain ⟨rfl, rfl⟩ := List.cons_eq_cons.mp hcommands
      have hpopped : Opening { s with commands := front ++ [.attempt s.attempt] } :=
        .asked front rfl (List.not_mem_of_not_mem_cons hfront) hlink hreports
      exact hpopped.fail
  | trying hnone =>
    rw [hnone] at hcommands
    cases hcommands
  | answered before after success hnone =>
    rw [hnone] at hcommands
    cases hcommands

theorem Opening.establish (h : s.Opening) {attempt : ℕ} (hopening : s.link = .opening attempt) :
    Opening { s with
      link := .established, reports := s.reports ++ [.result attempt true] } := by
  cases h with
  | asked front hcommands hfront hlink hreports =>
    refine .asked front hcommands hfront (fun hidle => by cases hidle) fun success hmem => ?_
    rcases List.mem_append.mp hmem with hmem | hmem
    · exact hreports success hmem
    · rw [List.mem_singleton] at hmem
      exact hlink ((Report.result.inj hmem).1 ▸ hopening)
  | trying hcommands hlink hreports =>
    obtain rfl := Link.opening.inj (hopening.symm.trans hlink)
    exact .answered s.reports [] true hcommands rfl hreports
      (.inl ⟨rfl, List.not_mem_nil⟩)
  | answered before after success hcommands hreports hbefore hlink =>
    exact absurd hopening (answered_not_opening hlink attempt)

/-- A report that is not about the last attempt is heard. -/
theorem Opening.hear (h : s.Opening) {report : Report} {reports : List Report}
    (hreports : s.reports = report :: reports)
    (hother : ∀ success, report ≠ .result s.attempt success) (phase : Phase) :
    Opening { s with reports := reports, phase := phase } := by
  cases h with
  | asked front hcommands hfront hlink hnone =>
    rw [hreports] at hnone
    exact .asked front hcommands hfront hlink fun success =>
      List.not_mem_of_not_mem_cons (hnone success)
  | trying hcommands hlink hnone =>
    rw [hreports] at hnone
    exact .trying hcommands hlink fun success => List.not_mem_of_not_mem_cons (hnone success)
  | answered before after success hcommands hanswered hbefore hlink =>
    rw [hanswered] at hreports
    cases before with
    | nil => exact absurd (List.cons_eq_cons.mp hreports).1.symm (hother success)
    | cons first before =>
      obtain ⟨rfl, rfl⟩ := List.cons_eq_cons.mp hreports
      exact .answered before after success hcommands rfl
        (fun success => List.not_mem_of_not_mem_cons (hbefore success)) hlink

/-- The result of the last attempt is heard. -/
theorem Opening.hearResult (h : s.Opening) {success : Bool} {reports : List Report}
    (hreports : s.reports = .result s.attempt success :: reports) :
    s.commands = [] ∧ if success then Held s.link reports else s.link = .idle := by
  cases h with
  | asked front hcommands hfront hlink hnone =>
    rw [hreports] at hnone
    exact absurd List.mem_cons_self (hnone success)
  | trying hcommands hlink hnone =>
    rw [hreports] at hnone
    exact absurd List.mem_cons_self (hnone success)
  | answered before after other hcommands hanswered hbefore hlink =>
    rw [hanswered] at hreports
    cases before with
    | nil =>
      obtain ⟨hfirst, rfl⟩ := List.cons_eq_cons.mp hreports
      obtain ⟨-, rfl⟩ := Report.result.inj hfirst
      exact ⟨hcommands, hlink⟩
    | cons first before =>
      obtain ⟨rfl, -⟩ := List.cons_eq_cons.mp hreports
      exact absurd List.mem_cons_self (hbefore success)

/-! ### Steps -/

theorem spaced_tail {first : Command} {commands : List Command} (h : s.Agree)
    (hcommands : s.commands = first :: commands) :
    commands.IsChain fun first second => second = .close ∨ first = .close := by
  have hspaced := h.spaced
  rw [hcommands] at hspaced
  exact hspaced.tail

/-- Behind an attempt there is a close. -/
theorem Agree.head_of_attempt (h : s.Agree) {attempt : ℕ} {commands : List Command}
    (hcommands : s.commands = .attempt attempt :: commands) (other : ℕ) :
    commands.head? ≠ some (.attempt other) := by
  intro hhead
  obtain ⟨rest, rfl⟩ := List.head?_eq_some_iff.mp hhead
  have hspaced := h.spaced
  rw [hcommands] at hspaced
  rcases (List.isChain_cons_cons.mp hspaced).1 with hclose | hclose <;> cases hclose

/-- A link that is in use has no attempt in front of it. -/
theorem Agree.head_of_busy (h : s.Agree) (hlink : s.link ≠ .idle) (attempt : ℕ) :
    s.commands.head? ≠ some (.attempt attempt) :=
  fun hhead => hlink (h.idle attempt hhead)

theorem Agree.start (h : s.Agree) (hdown : s.phase = .down) :
    Agree { s with
      phase := .opening
      attempt := s.attempt + 1
      commands := s.commands ++ [.attempt (s.attempt + 1)] } := by
  have hfits := h.down hdown
  have hnew : ¬ s.Mentions (s.attempt + 1) := fun hmem => by
    have := h.numbered _ hmem
    omega
  refine ⟨fun attempt hmem => ?_, ?_, fun attempt hhead => ?_, fun hphase => (by cases hphase),
    fun _ => ?_, fun hphase => (by cases hphase)⟩
  · rcases hmem with hmem | hlink | hreported
    · rcases List.mem_append.mp hmem with hmem | hmem
      · exact (h.numbered attempt (.inl hmem)).trans (Nat.le_succ _)
      · rw [List.mem_singleton] at hmem
        rw [Command.attempt.inj hmem]
    · exact (h.numbered attempt (.inr (.inl hlink))).trans (Nat.le_succ _)
    · exact (h.numbered attempt (.inr (.inr hreported))).trans (Nat.le_succ _)
  · refine h.spaced.append (List.isChain_singleton _) fun last hlast first _ => .inr ?_
    rcases hfits with hclose | ⟨hnone, -⟩
    · exact Option.some.inj (hlast.symm.trans hclose)
    · rw [hnone] at hlast
      cases hlast
  · rcases hfits with hclose | ⟨hnone, hidle⟩
    · refine h.idle attempt ?_
      cases hcommands : s.commands with
      | nil =>
        rw [hcommands] at hclose
        cases hclose
      | cons first rest =>
        rw [hcommands] at hhead
        exact hhead
    · exact hidle
  · exact .asked s.commands rfl (fun hmem => hnew (.inl hmem))
      (fun hlink => hnew (.inr (.inl hlink))) fun success hmem => hnew (.inr (.inr ⟨success, hmem⟩))

theorem Agree.stop (h : s.Agree) : Agree { s with
    phase := .down, attempt := s.attempt + 1, commands := s.commands ++ [.close] } := by
  refine ⟨fun attempt hmem => ?_, ?_, fun attempt hhead => ?_,
    fun _ => .inl List.getLast?_concat, fun hphase => (by cases hphase),
    fun hphase => (by cases hphase)⟩
  · refine (h.numbered attempt ?_).trans (Nat.le_succ _)
    rcases hmem with hmem | hlater
    · rcases List.mem_append.mp hmem with hmem | hmem
      · exact .inl hmem
      · rw [List.mem_singleton] at hmem
        cases hmem
    · exact .inr hlater
  · exact h.spaced.append (List.isChain_singleton _) fun _ _ first hfirst =>
      .inl (Option.some.inj hfirst).symm
  · refine h.idle attempt ?_
    cases hcommands : s.commands with
    | nil =>
      rw [hcommands] at hhead
      cases hhead
    | cons first rest =>
      rw [hcommands] at hhead
      exact hhead

theorem Agree.accept (h : s.Agree) {attempt : ℕ} {commands : List Command}
    (hcommands : s.commands = .attempt attempt :: commands) :
    Agree { s with commands := commands, link := .opening attempt } := by
  have hown : s.Mentions attempt := .inl (hcommands ▸ List.mem_cons_self)
  refine ⟨fun other hmem => h.numbered other ?_, spaced_tail h hcommands, fun other hhead =>
    absurd hhead (h.head_of_attempt hcommands other), fun hphase => ?_,
    fun hphase => (h.opening hphase).accept hcommands, fun hphase => ?_⟩
  · rcases hmem with hmem | hlink | hreported
    · exact .inl (hcommands ▸ List.mem_cons_of_mem _ hmem)
    · exact Link.opening.inj hlink ▸ hown
    · exact .inr (.inr hreported)
  · have hdown := h.down hphase
    rw [hcommands] at hdown
    rcases hdown with hclose | ⟨hnone, -⟩
    · left
      cases commands with
      | nil => cases hclose
      | cons first rest => exact hclose
    · cases hnone
  · have hnone := (h.up hphase).1
    rw [hcommands] at hnone
    cases hnone

/-- The link ends, and whether or not a close was taken from the queue, that is reported. -/
theorem numbered_ending (h : s.Agree) {commands : List Command}
    (hcommands : commands ⊆ s.commands) {attempt : ℕ}
    (hmem : Mentions { s with
      commands := commands, link := .idle, reports := s.reports ++ s.link.ending } attempt) :
    attempt ≤ s.attempt := by
  refine h.numbered attempt ?_
  rcases hmem with hmem | hlink | ⟨success, hreported⟩
  · exact .inl (hcommands hmem)
  · cases hlink
  · rcases List.mem_append.mp hreported with hreported | hending
    · exact .inr (.inr ⟨success, hreported⟩)
    · exact .inr (.inl (mem_ending hending))

theorem Agree.fail (h : s.Agree) :
    Agree { s with link := .idle, reports := s.reports ++ s.link.ending } :=
  ⟨fun _ => numbered_ending h (List.Subset.refl _), h.spaced, fun _ _ => rfl,
    fun hphase => (h.down hphase).imp_right fun hnone => ⟨hnone.1, rfl⟩,
    fun hphase => (h.opening hphase).fail,
    fun hphase => ⟨(h.up hphase).1, (h.up hphase).2.fail⟩⟩

theorem Agree.close (h : s.Agree) {commands : List Command}
    (hcommands : s.commands = .close :: commands) :
    Agree { s with
      commands := commands, link := .idle, reports := s.reports ++ s.link.ending } := by
  refine ⟨fun _ => numbered_ending h (hcommands ▸ List.subset_cons_self _ _),
    spaced_tail h hcommands, fun _ _ => rfl, fun hphase => ?_,
    fun hphase => (h.opening hphase).close hcommands, fun hphase => ?_⟩
  · have hdown := h.down hphase
    rw [hcommands] at hdown
    rcases hdown with hclose | ⟨hnone, -⟩
    · cases commands with
      | nil => exact .inr ⟨rfl, rfl⟩
      | cons first rest => exact .inl hclose
    · cases hnone
  · have hnone := (h.up hphase).1
    rw [hcommands] at hnone
    cases hnone

theorem Agree.establish (h : s.Agree) {attempt : ℕ} (hlink : s.link = .opening attempt) :
    Agree { s with
      link := .established, reports := s.reports ++ [.result attempt true] } := by
  have hbusy : s.link ≠ .idle := fun hidle => by
    rw [hidle] at hlink
    cases hlink
  refine ⟨fun other hmem => h.numbered other ?_, h.spaced, fun other hhead =>
    absurd hhead (h.head_of_busy hbusy other),
    fun hphase => (h.down hphase).imp_right fun hnone => absurd hnone.2 hbusy,
    fun hphase => (h.opening hphase).establish hlink,
    fun hphase => absurd hlink ((h.up hphase).2.not_opening attempt)⟩
  rcases hmem with hmem | hnone | ⟨success, hreported⟩
  · exact .inl hmem
  · cases hnone
  · rcases List.mem_append.mp hreported with hreported | hnew
    · exact .inr (.inr ⟨success, hreported⟩)
    · rw [List.mem_singleton] at hnew
      exact .inr (.inl ((Report.result.inj hnew).1 ▸ hlink))

/-- A report leaves its queue. -/
theorem numbered_hear (h : s.Agree) {report : Report} {reports : List Report}
    (hreports : s.reports = report :: reports) {phase : Phase} {attempt : ℕ}
    (hmem : Mentions { s with reports := reports, phase := phase } attempt) :
    attempt ≤ s.attempt := by
  refine h.numbered attempt ?_
  rcases hmem with hmem | hlink | ⟨success, hreported⟩
  · exact .inl hmem
  · exact .inr (.inl hlink)
  · exact .inr (.inr ⟨success, hreports ▸ List.mem_cons_of_mem _ hreported⟩)

/-- Hearing a report that is not about a link that is up. -/
theorem Held.hear {link : Link} {report : Report} {reports : List Report}
    (h : Held link (report :: reports)) (hdown : report ≠ .down) : Held link reports := by
  rcases h with ⟨hlink, hnone⟩ | ⟨hlink, hmem⟩
  · exact .inl ⟨hlink, List.not_mem_of_not_mem_cons hnone⟩
  · exact .inr ⟨hlink, (List.mem_cons.mp hmem).resolve_left (Ne.symm hdown)⟩

theorem Agree.hearResult (h : s.Agree) {attempt : ℕ} {success : Bool} {reports : List Report}
    (hreports : s.reports = .result attempt success :: reports) :
    Agree { s with
      reports := reports
      phase :=
        if s.attempt = attempt ∧ s.phase = .opening then if success then .up else .down
        else s.phase } := by
  by_cases hcounts : s.attempt = attempt ∧ s.phase = .opening
  · obtain ⟨rfl, hphase⟩ := hcounts
    obtain ⟨hcommands, hlink⟩ := (h.opening hphase).hearResult hreports
    rw [if_pos ⟨rfl, hphase⟩]
    cases success with
    | true =>
      exact ⟨fun other => numbered_hear h hreports, h.spaced, h.idle,
        fun hphase => (by cases hphase), fun hphase => (by cases hphase),
        fun _ => ⟨hcommands, hlink⟩⟩
    | false =>
      exact ⟨fun other => numbered_hear h hreports, h.spaced, h.idle,
        fun _ => .inr ⟨hcommands, hlink⟩, fun hphase => (by cases hphase),
        fun hphase => (by cases hphase)⟩
  · rw [if_neg hcounts]
    refine ⟨fun other => numbered_hear h hreports, h.spaced, h.idle, h.down, fun hphase => ?_,
      fun hphase => ?_⟩
    · exact (h.opening hphase).hear hreports
        (fun success' heq => hcounts ⟨(Report.result.inj heq).1.symm, hphase⟩) s.phase
    · have hheld := (h.up hphase).2
      rw [hreports] at hheld
      exact ⟨(h.up hphase).1, hheld.hear fun heq => by cases heq⟩

theorem Agree.hearDown (h : s.Agree) {reports : List Report}
    (hreports : s.reports = .down :: reports) :
    Agree { s with
      reports := reports, phase := if s.phase = .up then .down else s.phase } := by
  by_cases hup : s.phase = .up
  · -- The report is that of the link that was up, which has not been opened again.
    obtain ⟨hcommands, hheld⟩ := h.up hup
    rw [hreports] at hheld
    have hidle : s.link = .idle := by
      rcases hheld with ⟨-, hnone⟩ | ⟨hidle, -⟩
      · exact absurd List.mem_cons_self hnone
      · exact hidle
    rw [if_pos hup]
    exact ⟨fun other => numbered_hear h hreports, h.spaced, h.idle,
      fun _ => .inr ⟨hcommands, hidle⟩, fun hphase => (by cases hphase),
      fun hphase => (by cases hphase)⟩
  · rw [if_neg hup]
    exact ⟨fun other => numbered_hear h hreports, h.spaced, h.idle, h.down,
      fun hphase => (h.opening hphase).hear hreports (fun success heq => by cases heq) s.phase,
      fun hphase => absurd hphase hup⟩

theorem Agree.step (h : s.Agree) (hstep : Step s t) : t.Agree := by
  cases hstep with
  | start hdown => exact h.start hdown
  | stop => exact h.stop
  | accept hcommands hlink => exact h.accept hcommands
  | refuse hcommands hlink =>
    have hhead := congrArg List.head? hcommands
    exact absurd hhead (h.head_of_busy hlink _)
  | close hcommands => exact h.close hcommands
  | fail => exact h.fail
  | establish hlink => exact h.establish hlink
  | hearResult hreports => exact h.hearResult hreports
  | hearDown hreports => exact h.hearDown hreports

theorem Agree.steps (h : s.Agree) (hsteps : Relation.ReflTransGen Step s t) : t.Agree := by
  induction hsteps with
  | refl => exact h
  | tail _ hstep ih => exact ih.step hstep

/-- Nothing has been asked for, and nothing has happened. -/
theorem agree_init : Agree ⟨.down, 0, .idle, [], []⟩ := by
  refine ⟨fun attempt hmem => ?_, List.isChain_nil, fun _ _ => rfl, fun _ => .inr ⟨rfl, rfl⟩,
    fun hphase => (by cases hphase), fun hphase => (by cases hphase)⟩
  rcases hmem with hmem | hlink | ⟨success, hmem⟩
  · cases hmem
  · cases hlink
  · cases hmem

/-- With empty queues the link is what the supervisor takes it for. -/
theorem Agree.at_rest (h : s.Agree) (hcommands : s.commands = []) (hreports : s.reports = []) :
    (s.phase = .down → s.link = .idle) ∧ (s.phase = .opening → s.link = .opening s.attempt) ∧
      (s.phase = .up → s.link = .established) := by
  refine ⟨fun hphase => ?_, fun hphase => ?_, fun hphase => ?_⟩
  · rcases h.down hphase with hclose | ⟨-, hidle⟩
    · rw [hcommands] at hclose
      cases hclose
    · exact hidle
  · cases h.opening hphase with
    | asked front hasked =>
      rw [hcommands] at hasked
      exact absurd hasked.symm (List.append_ne_nil_of_right_ne_nil _ (List.cons_ne_nil _ _))
    | trying hnone hlink => exact hlink
    | answered before after success hnone hanswered =>
      rw [hreports] at hanswered
      exact absurd hanswered.symm (List.append_ne_nil_of_right_ne_nil _ (List.cons_ne_nil _ _))
  · rcases (h.up hphase).2 with ⟨hlink, -⟩ | ⟨-, hmem⟩
    · exact hlink
    · rw [hreports] at hmem
      cases hmem

end Supervision

end SpaceShooter.Library
