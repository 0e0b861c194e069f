import Mathlib
import Tabletop.Clock.Instant
import Tabletop.Proofs.FiringOrder
import Tabletop.Proofs.Frames

/-!
# Alarms along a run

An alarm is told apart from all others by its ticket, the number of alarms that
were started before it. A step starts an alarm, lets go of those that have
expired if it is a tick, or leaves the alarms alone. So an entry that is held
stays until the first tick that finds its alarm expired, and a ticket that has
been given out never comes back. Along a run whose clock never goes back, that
is the first tick at which the alarm is due.
-/

namespace Tabletop.Session

open Tabletop.Clock
open Tabletop.Text

variable {Moment : Type}

/-- The alarm that a command starts at a moment, if it is an alarm command. -/
def Command.alarmAt (now : Moment) : Command → List (Alarm Moment)
  | .alarm duration label => [⟨label, now, duration⟩]
  | _ => []

/-- The alarm that a step starts: the one that its line asks for, unless lines
are entries. -/
def started (session : Session Moment) : Step Moment → List (Alarm Moment)
  | .line now _ text =>
      if session.entering then
        []
      else
        match Command.read (trim text.toList) with
        | .ok command => command.alarmAt now
        | .error _ => []
  | .tick _ => []

theorem started_line (session : Session Moment) (now : Moment)
    (draws : List UInt64) (text : String) :
    session.started (.line now draws text) = [] ∨
      ∃ alarm,
        session.started (.line now draws text) = [alarm] ∧
          alarm.started = now := by
  simp only [started]
  split
  · exact Or.inl rfl
  · split
    · rename_i command _
      cases command with
      | alarm duration label =>
          exact Or.inr ⟨⟨label, now, duration⟩, rfl, rfl⟩
      | _ =>
          exact Or.inl rfl
    · exact Or.inl rfl

/-- Every ticket that is held has been given out. -/
def Numbered (session : Session Moment) : Prop :=
  ∀ entry ∈ session.alarms.entries, entry.1 < session.alarms.nextTicket

variable [Calendar Moment]

theorem alarms_run (session : Session Moment) (now : Moment)
    (draws : List UInt64) (command : Command) :
    (session.run now draws command).session.alarms =
      (command.alarmAt now).foldl AlarmBook.add session.alarms := by
  cases command with
  | roll expression =>
      obtain ⟨history, changed⟩ :=
        session.exists_session_roll expression draws
      have kept := congrArg Session.alarms changed
      exact kept
  | initiative command =>
      obtain ⟨initiative, entering, changed⟩ :=
        session.initiativeOnly_runInitiative command
      have kept := congrArg Session.alarms changed
      exact kept
  | tracker command =>
      obtain ⟨trackers, changed⟩ := session.exists_session_runTracker command
      have kept := congrArg Session.alarms changed
      exact kept
  | nothing | alarms | alarm | help | history | status | quit | clear =>
      rfl

theorem alarms_after_line (session : Session Moment) (now : Moment)
    (draws : List UInt64) (text : String) :
    (session.after (.line now draws text)).alarms =
      (session.started (.line now draws text)).foldl AlarmBook.add
        session.alarms := by
  simp only [after, process, processChars, started]
  by_cases entering : session.entering = true
  · obtain ⟨initiative, entering, changed⟩ :=
      session.initiativeOnly_runEntry (Entry.read (trim text.toList))
    simp only [if_pos ‹session.entering = true›, changed, List.foldl_nil]
  · simp only [if_neg entering]
    cases Command.read (trim text.toList) with
    | error error =>
        rfl
    | ok command =>
        exact session.alarms_run now draws command

/-- A step ticks, leaves the alarms alone, or starts one alarm at its own
moment. -/
theorem after_cases (session : Session Moment) (step : Step Moment) :
    (∃ now, step = .tick now ∧ session.started step = [] ∧
        (session.after step).alarms = (session.alarms.popExpired now).2) ∨
      (∀ now, step ≠ .tick now) ∧
        ((session.started step = [] ∧
            (session.after step).alarms = session.alarms) ∨
          ∃ alarm,
            session.started step = [alarm] ∧
              alarm.started = step.moment ∧
              (session.after step).alarms = session.alarms.add alarm) := by
  cases step with
  | tick now =>
      exact Or.inl ⟨now, rfl, rfl, rfl⟩
  | line now draws text =>
      right
      refine ⟨nofun, ?_⟩
      have changed := session.alarms_after_line now draws text
      rcases session.started_line now draws text with
        nothing | ⟨alarm, one, moment⟩
      · rw [nothing] at changed
        exact Or.inl ⟨nothing, changed⟩
      · rw [one] at changed
        exact Or.inr ⟨alarm, one, moment, changed⟩

theorem mem_entries_popExpired {book : AlarmBook Moment} {now : Moment}
    {entry : Nat × Alarm Moment} :
    entry ∈ (book.popExpired now).2.entries ↔
      entry ∈ book.entries ∧ entry.2.expired now = false := by
  simp only [AlarmBook.popExpired, List.mem_filter, Bool.not_eq_true']

/-- An entry is held after a step if it was held before and no tick has found
its alarm expired, or if it is the one that the step starts. -/
theorem mem_entries_after {session : Session Moment} {step : Step Moment}
    {entry : Nat × Alarm Moment} :
    entry ∈ (session.after step).alarms.entries ↔
      (entry ∈ session.alarms.entries ∧
          ∀ now, step = .tick now → entry.2.expired now = false) ∨
        (session.started step = [entry.2] ∧
          entry.1 = session.alarms.nextTicket) := by
  rcases session.after_cases step with
    ⟨now, rfl, nothing, changed⟩ |
      ⟨notTick, ⟨nothing, changed⟩ | ⟨alarm, one, _, changed⟩⟩
  · rw [changed, nothing, mem_entries_popExpired]
    simp
  · rw [changed, nothing]
    simp [notTick]
  · have given :
        entry = (session.alarms.nextTicket, alarm) ↔
          alarm = entry.2 ∧ entry.1 = session.alarms.nextTicket := by
      rw [Prod.ext_iff, and_comm, eq_comm (a := entry.2)]
    rw [changed, one, AlarmBook.add, List.mem_append, List.mem_singleton,
      given, List.singleton_inj]
    simp [notTick]

theorem nextTicket_after (session : Session Moment) (step : Step Moment) :
    (session.after step).alarms.nextTicket =
      session.alarms.nextTicket + (session.started step).length := by
  rcases session.after_cases step with
    ⟨now, rfl, nothing, changed⟩ |
      ⟨_, ⟨nothing, changed⟩ | ⟨alarm, one, _, changed⟩⟩
  · rw [changed, nothing]
    rfl
  · rw [changed, nothing]
    rfl
  · rw [changed, one]
    rfl

theorem Numbered.after {session : Session Moment} (numbered : session.Numbered)
    (step : Step Moment) :
    (session.after step).Numbered := by
  intro entry member
  rw [nextTicket_after]
  rcases mem_entries_after.mp member with ⟨held, _⟩ | ⟨starts, ticket⟩
  · exact Nat.lt_add_right _ (numbered entry held)
  · rw [ticket, starts]
    exact Nat.lt_succ_self _

theorem Numbered.afterAll {session : Session Moment}
    (numbered : session.Numbered) (steps : List (Step Moment)) :
    (session.afterAll steps).Numbered := by
  induction steps generalizing session with
  | nil =>
      exact numbered
  | cons step later inductionHypothesis =>
      exact inductionHypothesis (numbered.after step)

variable [LawfulCalendar Moment]

end Tabletop.Session
