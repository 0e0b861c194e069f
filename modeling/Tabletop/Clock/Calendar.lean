import Tabletop.Clock.Duration

/-!
# Calendars

Alarms are set in a calendar. It names moments and puts them in order, tells
the lapse of time from one to another, and finds the moment that lies behind
another by a lapse. How it does so is left open.
-/

namespace Tabletop.Clock

/-- A calendar, as far as alarms ask it. Its lapses are signed lengths of time,
and need not reach as far as durations do. -/
class Calendar (Moment : Type) extends Ord Moment where
  Lapse : Type
  /-- The nanoseconds from the beginning of 1970 to a moment. -/
  timestamp : Moment → Int
  nanoseconds : Lapse → Int
  /-- The last moment that can be named. -/
  latest : Moment
  longest : Lapse
  lapse (started now : Moment) : Lapse
  /-- A lapse as a duration, unless it runs backwards. -/
  toDuration? (lapse : Lapse) : Option Duration
  /-- A duration as a lapse, unless it is too long. -/
  ofDuration? (duration : Duration) : Option Lapse
  /-- The moment behind a start by a lapse, if it can be named. -/
  after? (started : Moment) (lapse : Lapse) : Option Moment

export Calendar (timestamp nanoseconds)

/-- A calendar that goes by its timestamps. It assumes that there is no leap
second ever, so between any two moments there are the nanoseconds by which
their timestamps differ. -/
class LawfulCalendar (Moment : Type) [Calendar Moment] : Prop where
  eq_of_timestamp_eq {first second : Moment}
    (same : timestamp first = timestamp second) :
    first = second
  compare_eq (first second : Moment) :
    compare first second = compare (timestamp first) (timestamp second)
  timestamp_le_latest (moment : Moment) :
    timestamp moment ≤ timestamp (Calendar.latest : Moment)
  nanoseconds_le_longest (lapse : Calendar.Lapse Moment) :
    nanoseconds lapse ≤ nanoseconds (Calendar.longest : Calendar.Lapse Moment)
  nanoseconds_lapse (started now : Moment) :
    nanoseconds (Calendar.lapse started now) = timestamp now - timestamp started
  toDuration?_of_nonneg {lapse : Calendar.Lapse Moment}
    (onward : 0 ≤ nanoseconds lapse) :
    ∃ duration,
      Calendar.toDuration? lapse = some duration ∧
        duration.nanos = nanoseconds lapse
  toDuration?_of_neg {lapse : Calendar.Lapse Moment}
    (back : nanoseconds lapse < 0) :
    Calendar.toDuration? lapse = none
  ofDuration?_of_le {duration : Duration}
    (fits :
      duration.nanos ≤ nanoseconds (Calendar.longest : Calendar.Lapse Moment)) :
    ∃ lapse : Calendar.Lapse Moment,
      Calendar.ofDuration? duration = some lapse ∧
        nanoseconds lapse = duration.nanos
  ofDuration?_of_lt {duration : Duration}
    (long :
      nanoseconds (Calendar.longest : Calendar.Lapse Moment) < duration.nanos) :
    (Calendar.ofDuration? duration : Option (Calendar.Lapse Moment)) = none
  after?_of_le {started : Moment} {lapse : Calendar.Lapse Moment}
    (onward : 0 ≤ nanoseconds lapse)
    (named :
      timestamp started + nanoseconds lapse ≤
        timestamp (Calendar.latest : Moment)) :
    ∃ moment,
      Calendar.after? started lapse = some moment ∧
        timestamp moment = timestamp started + nanoseconds lapse
  after?_of_lt {started : Moment} {lapse : Calendar.Lapse Moment}
    (beyond :
      timestamp (Calendar.latest : Moment) <
        timestamp started + nanoseconds lapse) :
    Calendar.after? started lapse = none

/-- The longest lapse leads from any moment to the last one or beyond it. -/
theorem LawfulCalendar.latest_le_add_longest {Moment : Type}
    [Calendar Moment] [LawfulCalendar Moment] (started : Moment) :
    timestamp (Calendar.latest : Moment) ≤
      timestamp started +
        nanoseconds (Calendar.longest : Calendar.Lapse Moment) := by
  have within := nanoseconds_le_longest
    (Calendar.lapse started (Calendar.latest : Moment))
  rw [nanoseconds_lapse] at within
  omega

end Tabletop.Clock
