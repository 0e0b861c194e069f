import Tabletop.Proofs.AlarmRuns
import Tabletop.Proofs.DurationReading

/-!
# Alarms that are over when they start

That a duration is positive is asked of its seconds in binary64; afterwards
they are rounded to whole nanoseconds. So a duration that is read lasts just
when its seconds are more than half a nanosecond. Whoever sets an alarm for
less has an alarm that has expired at the moment it is started.
-/

namespace Tabletop.Number.Binary64

/-- The number is more than half of 10^-9. -/
def IsOverHalfNano : Binary64 → Prop
  | finite units => one < 2 * (units * 1000000000)
  | infinite => True

theorem nanoseconds_pos_iff {seconds : Binary64} {nanos : Nat}
    (rounded : seconds.nanoseconds? = some nanos) :
    0 < nanos ↔ seconds.IsOverHalfNano := by
  cases seconds with
  | finite units =>
      simp only [nanoseconds?, Option.ite_none_right_eq_some,
        Option.some.injEq] at rounded
      rw [← rounded.2, Nat.pos_iff_ne_zero, ne_eq,
        roundHalfEven_eq_zero_iff one_pos, not_le, IsOverHalfNano]
  | infinite =>
      cases rounded

end Tabletop.Number.Binary64

namespace Tabletop.Clock

open Tabletop.Number

/-- The segments of a text add up to more than half a nanosecond. -/
def Lasts (text : String) : Prop :=
  ∃ segments,
    compactOf text.toList = spelling segments ∧
      (total segments).IsOverHalfNano

/-- However a text is divided into segments, they add up to the same. -/
theorem total_eq_of_spelling_eq {first second : List Segment}
    (same : spelling first = spelling second) :
    total first = total second := by
  have firstSum := sumSegments_spelling (.finite 0) first
  rw [same, sumSegments_spelling (.finite 0) second] at firstSum
  exact (Except.ok.inj firstSum).symm

theorem pos_iff_lasts {text : String} {duration : Duration}
    (reads : Duration.read text = .ok duration) :
    0 < duration.nanos ↔ Lasts text := by
  obtain ⟨segments, _, spelled, _, rounded⟩ :=
    ((segments_are_read_and_others_refused text).1 duration).mp reads
  rw [Binary64.nanoseconds_pos_iff rounded]
  constructor
  · intro above
    exact ⟨segments, spelled, above⟩
  · rintro ⟨others, spelledToo, above⟩
    rwa [total_eq_of_spelling_eq (spelled.symm.trans spelledToo)]

/-- At the moment it is started, an alarm runs if it is to run at all. -/
theorem Alarm.runs_at_start_iff {Moment : Type} [Calendar Moment]
    [LawfulCalendar Moment] (alarm : Alarm Moment) :
    alarm.expired alarm.started = false ↔ 0 < alarm.duration.nanos := by
  rw [Bool.eq_false_iff, ne_eq, Alarm.expired_iff]
  omega

end Tabletop.Clock

namespace Tabletop.Session

open Tabletop.Clock
open Tabletop.Text

/-- The word behind the command word. -/
def secondWord (line : List Char) : String :=
  String.ofList (splitFirst (splitCommand line).2).1

/-- If an alarm is read, it is set for the duration that a text denotes. -/
def SetsAlarmFor (text : String) (read : Except SessionError Command) : Prop :=
  ∀ duration label,
    read = .ok (.alarm duration label) → Duration.read text = .ok duration

namespace SetsAlarmFor

variable {text : String}

theorem error {error : SessionError} : SetsAlarmFor text (.error error) :=
  nofun

theorem ok {command : Command}
    (other : ∀ duration label, command ≠ .alarm duration label) :
    SetsAlarmFor text (.ok command) :=
  fun duration label reads =>
    absurd (Except.ok.inj reads) (other duration label)

theorem map {arguments : Type} {read : Except SessionError arguments}
    {toCommand : arguments → Command}
    (other : ∀ result duration label,
      toCommand result ≠ .alarm duration label) :
    SetsAlarmFor text (read.map toCommand) := by
  cases read with
  | error error =>
      exact .error
  | ok result =>
      exact .ok (other result)

theorem ite {test : Prop} [Decidable test]
    {here later : Except SessionError Command}
    (setsHere : SetsAlarmFor text here)
    (setsLater : SetsAlarmFor text later) :
    SetsAlarmFor text (if test then here else later) := by
  split
  · exact setsHere
  · exact setsLater

end SetsAlarmFor

theorem setsAlarmFor_readAlarmArguments (text : List Char) :
    SetsAlarmFor (String.ofList (splitFirst text).1)
      (readAlarmArguments text) := by
  unfold readAlarmArguments
  obtain ⟨written, name⟩ := splitFirst text
  refine .ite .error ?_
  cases reads : Duration.read (String.ofList written) with
  | ok duration =>
      intro other label same
      cases same
      exact reads
  | error error =>
      exact .error

theorem setsAlarmFor_readRollArguments {written : String} (text : List Char) :
    SetsAlarmFor written (readRollArguments text) := by
  unfold readRollArguments
  refine .ite .error ?_
  split
  · exact .ok nofun
  · exact .error

theorem setsAlarmFor_readBareDice {written : String} (word line : List Char) :
    SetsAlarmFor written (readBareDice word line) := by
  unfold readBareDice
  split
  · exact .ok nofun
  · exact .error

/-- What an alarm is set for stands behind the command word. -/
theorem setsAlarmFor_read (line : List Char) :
    SetsAlarmFor (secondWord line) (Command.read line) := by
  unfold secondWord Command.read
  refine .ite (.ok nofun) ?_
  obtain ⟨word, rest⟩ := splitCommand line
  refine .ite (setsAlarmFor_readRollArguments rest) ?_
  refine .ite (.ok nofun) ?_
  refine .ite (setsAlarmFor_readAlarmArguments rest) ?_
  refine .ite (.map nofun) ?_
  refine .ite (.map nofun) ?_
  refine .ite (.ok nofun) ?_
  refine .ite (.ok nofun) ?_
  refine .ite (.ok nofun) ?_
  refine .ite (.ok nofun) ?_
  refine .ite (.ok nofun) ?_
  exact setsAlarmFor_readBareDice word line

variable {Moment : Type}

theorem read_duration_of_started {session : Session Moment} {now : Moment}
    {draws : List UInt64} {line : String} {alarm : Alarm Moment}
    (starts : alarm ∈ session.started (.line now draws line)) :
    alarm.started = now ∧
      Duration.read (secondWord (trim line.toList)) = .ok alarm.duration := by
  simp only [started] at starts
  split at starts
  · cases starts
  · split at starts
    · rename_i command reads
      cases command with
      | alarm duration label =>
          obtain rfl := List.mem_singleton.mp starts
          exact ⟨rfl, setsAlarmFor_read _ _ _ reads⟩
      | _ =>
          cases starts
    · cases starts

/-- A duration that is read is longer than nothing just when its segments add
up to more than half a nanosecond. Every alarm that a line starts is set for
such a reading of its second word, and runs at that moment, in a lawful
calendar, just when the segments there add up to as much. -/
theorem duration_lasts_iff_over_half_nanosecond [Calendar Moment]
    (text : String) (session : Session Moment) (now : Moment)
    (draws : List UInt64) (line : String) :
    let written := secondWord (trim line.toList)
    (∀ duration,
        Duration.read text = .ok duration →
          (0 < duration.nanos ↔ Lasts text)) ∧
      ∀ alarm ∈ session.started (.line now draws line),
        Duration.read written = .ok alarm.duration ∧
          (LawfulCalendar Moment →
            (alarm.expired now = false ↔ Lasts written)) := by
  intro written
  refine ⟨fun duration => pos_iff_lasts, ?_⟩
  intro alarm starts
  obtain ⟨rfl, reads⟩ := read_duration_of_started starts
  exact
    ⟨reads, fun _ => alarm.runs_at_start_iff.trans (pos_iff_lasts reads)⟩

/-- Six tenths of a nanosecond last. -/
theorem duration_lasts_iff_of_blink :
    Lasts "0.0000006ms" ∧
      ∃ alarm ∈ (new Settings.standard).started
          (.line Instant.epoch [] "alarm 0.0000006ms blink"),
        alarm.expired .epoch = false := by
  obtain ⟨brief, alarms⟩ :=
    duration_lasts_iff_over_half_nanosecond "0.0000006ms"
      (new Settings.standard) Instant.epoch [] "alarm 0.0000006ms blink"
  have reads : Duration.read "0.0000006ms" = .ok { nanos := 1 } := by
    decide +kernel
  have lasts : Lasts "0.0000006ms" := (brief _ reads).mp Nat.one_pos
  have starts :
      (new Settings.standard).started
          (.line Instant.epoch [] "alarm 0.0000006ms blink") =
        [⟨some "blink", .epoch, { nanos := 1 }⟩] := by
    decide +kernel
  have member := starts ▸ List.mem_singleton_self _
  exact
    ⟨lasts, _, member, ((alarms _ member).2 inferInstance).mpr lasts⟩

/-- One tenth of a nanosecond is positive, and is read as no time at all: the
alarm has expired when it is started. -/
theorem brief_alarm_has_expired_at_start :
    let gong : Alarm Instant := ⟨some "gong", .epoch, .zero⟩
    Duration.read "0.0000001ms" = .ok .zero ∧
      (new Settings.standard).started
          (.line .epoch [] "alarm 0.0000001ms gong") =
        [gong] ∧
      gong.expired .epoch = true := by
  decide +kernel

end Tabletop.Session
