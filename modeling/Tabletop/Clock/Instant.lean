import Tabletop.Clock.Calendar

/-!
# Instants

The calendar that goes by the nanoseconds since the beginning of 1970, over
the years from -262143 to 262142.
-/

namespace Tabletop.Clock

/-- A signed length of time of less than 2^63 milliseconds, in nanoseconds. -/
structure TimeLapse where
  nanos : Int
  bounded :
    -9223372036854775807 * 1000000 ≤ nanos ∧
      nanos ≤ 9223372036854775807 * 1000000 := by decide
deriving DecidableEq, Repr

namespace TimeLapse

def longest : TimeLapse where
  nanos := 9223372036854775807 * 1000000

def toDuration? (lapse : TimeLapse) : Option Duration :=
  if 0 ≤ lapse.nanos then
    some
      { nanos := lapse.nanos.toNat
        nanos_lt := by
          have bounded := lapse.bounded.2
          unfold UInt64.size
          omega }
  else
    none

def ofDuration? (duration : Duration) : Option TimeLapse :=
  if fits : (duration.nanos : Int) ≤ 9223372036854775807 * 1000000 then
    some
      { nanos := duration.nanos
        bounded := by omega }
  else
    none

end TimeLapse

/-- A moment in nanoseconds since the beginning of 1970. -/
@[ext]
structure Instant where
  nanos : Int
  named :
    -8334601228800 * 1000000000 ≤ nanos ∧
      nanos < 8210266876800 * 1000000000 := by decide
deriving DecidableEq, Repr

namespace Instant

def ofNanos? (nanos : Int) : Option Instant :=
  if named :
      -8334601228800 * 1000000000 ≤ nanos ∧
        nanos < 8210266876800 * 1000000000 then
    some ⟨nanos, named⟩
  else
    none

/-- The beginning of 1970. -/
def epoch : Instant where
  nanos := 0

def latest : Instant where
  nanos := 8210266876800 * 1000000000 - 1

/-- The lapse from a start until now. Any two instants are close enough
together for one. -/
def lapse (started now : Instant) : TimeLapse where
  nanos := now.nanos - started.nanos
  bounded := by
    have nowNamed := now.named
    have startedNamed := started.named
    omega

instance : Calendar Instant where
  compare first second := compare first.nanos second.nanos
  Lapse := TimeLapse
  timestamp := nanos
  nanoseconds := TimeLapse.nanos
  latest := latest
  longest := .longest
  lapse := lapse
  toDuration? := TimeLapse.toDuration?
  ofDuration? := TimeLapse.ofDuration?
  after? started lapse := ofNanos? (started.nanos + lapse.nanos)

instance : LawfulCalendar Instant where
  eq_of_timestamp_eq := Instant.ext
  compare_eq _ _ := rfl
  timestamp_le_latest moment := Int.le_sub_one_of_lt moment.named.2
  nanoseconds_le_longest lapse := lapse.bounded.2
  nanoseconds_lapse _ _ := rfl
  toDuration?_of_nonneg onward :=
    ⟨_, if_pos onward, Int.toNat_of_nonneg onward⟩
  toDuration?_of_neg back := if_neg (Int.not_le.mpr back)
  ofDuration?_of_le fits := ⟨_, dif_pos fits, rfl⟩
  ofDuration?_of_lt long := dif_neg (Int.not_le.mpr long)
  after?_of_le {started _} onward within :=
    have first := Int.le_trans started.named.1 (Int.le_add_of_nonneg_right onward)
    ⟨⟨_, first, Int.lt_of_le_sub_one within⟩,
      dif_pos ⟨first, Int.lt_of_le_sub_one within⟩, rfl⟩
  after?_of_lt beyond :=
    dif_neg fun named =>
      Int.not_le.mpr beyond (Int.le_sub_one_of_lt named.2)

@[simp]
theorem timestamp_eq (instant : Instant) : timestamp instant = instant.nanos := rfl

@[simp]
theorem latest_eq : (Calendar.latest : Instant) = latest := rfl

end Instant

end Tabletop.Clock
