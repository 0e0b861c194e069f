import Tabletop.Number.Binary64
import Tabletop.Text.Blank
import Tabletop.Text.Numeral
import Tabletop.TrackError

/-!
# Durations

Lengths of time in whole nanoseconds, read from texts such as `1h30m` or
`250ms` and written in hours, minutes and seconds. Reading multiplies and adds
in binary64, from left to right, and rounds the sum to nanoseconds once.
-/

namespace Tabletop.Clock

open Tabletop.Number
open Tabletop.Text

/-- A length of time under 2^64 seconds, in nanoseconds. -/
@[ext]
structure Duration where
  nanos : Nat
  nanos_lt : nanos < UInt64.size * 1000000000 := by decide
deriving DecidableEq, Repr

namespace Duration

def zero : Duration where
  nanos := 0

def ofNanos? (nanos : Nat) : Option Duration :=
  if fits : nanos < UInt64.size * 1000000000 then some ⟨nanos, fits⟩ else none

theorem ofNanos?_eq_some_iff {nanos : Nat} {duration : Duration} :
    ofNanos? nanos = some duration ↔ duration.nanos = nanos := by
  have fits := duration.nanos_lt
  unfold ofNanos?
  split
  · rw [Option.some.injEq, Duration.ext_iff, eq_comm]
  · constructor
    · nofun
    · omega

/-- The duration nearest to so many seconds, if they are not too many. -/
def ofSeconds? (seconds : Binary64) : Option Duration :=
  seconds.nanoseconds?.bind ofNanos?

theorem ofSeconds?_eq_some_iff {seconds : Binary64} {duration : Duration} :
    ofSeconds? seconds = some duration ↔
      seconds.nanoseconds? = some duration.nanos := by
  simp only [ofSeconds?, Option.bind_eq_some_iff, ofNanos?_eq_some_iff]
  simp

def atMost (duration limit : Duration) : Duration :=
  if duration.nanos ≤ limit.nanos then duration else limit

@[simp]
theorem nanos_atMost (duration limit : Duration) :
    (duration.atMost limit).nanos = min duration.nanos limit.nanos := by
  unfold atMost
  split <;> omega

/-- What is left of a duration when another is taken off; nothing if that is
longer. -/
def without (duration taken : Duration) : Duration where
  nanos := duration.nanos - taken.nanos
  nanos_lt := Nat.lt_of_le_of_lt (Nat.sub_le _ _) duration.nanos_lt

end Duration

def isNumberChar (letter : Char) : Bool :=
  letter.isDigit || letter == '.'

/-- The number that decimal digits with at most one point denote, rounded to
binary64. There has to be a digit on some side of the point. -/
def readDecimal? (number : List Char) : Option Binary64 :=
  let whole := number.takeWhile Char.isDigit
  match number.dropWhile Char.isDigit with
  | [] =>
      if isNumeral whole then some (.ofNat (numeralValue whole)) else none
  | point :: fraction =>
      if point = '.' ∧ fraction.all Char.isDigit ∧ isNumeral (whole ++ fraction) then
        some (.ofRatio (numeralValue (whole ++ fraction)) (Nat.pow 10 fraction.length))
      else
        none

inductive TimeUnit where
  | hour
  | minute
  | second
  | millisecond
deriving DecidableEq, Repr

namespace TimeUnit

def ofLetters? (letters : List Char) : Option TimeUnit :=
  match letters with
  | ['h'] => some hour
  | ['m'] => some minute
  | ['s'] => some second
  | ['m', 's'] => some millisecond
  | _ => none

def seconds : TimeUnit → Binary64
  | hour => .ofNat 3600
  | minute => .ofNat 60
  | second => .ofNat 1
  | millisecond => .ofRatio 1 1000

end TimeUnit

/-- The longest beginning of a text in one class of characters is no longer
than the text, and what is left is shorter if it is not empty. -/
private theorem length_dropWhile_lt {text : List Char} (inClass : Char → Bool)
    (taken : text.takeWhile inClass ≠ []) :
    (text.dropWhile inClass).length < text.length := by
  have whole := congrArg List.length (List.takeWhile_append_dropWhile (p := inClass) (l := text))
  have positive := List.length_pos_iff.2 taken
  simp only [List.length_append] at whole
  omega

/-- Adds up the segments of a squeezed text in lower case, each a number and
its unit, on top of the seconds that stand already. -/
def sumSegments (seconds : Binary64) (text : List Char) : Except DurationFault Binary64 :=
  if text.isEmpty then
    .ok seconds
  else
    let number := text.takeWhile isNumberChar
    let afterNumber := text.dropWhile isNumberChar
    if number = [] then
      .error (.expectedNumber text)
    else
      match readDecimal? number with
      | none => .error (.badNumber number)
      | some value =>
          let letters := afterNumber.takeWhile Char.isAlpha
          let afterUnit := afterNumber.dropWhile Char.isAlpha
          match TimeUnit.ofLetters? letters with
          | some timeUnit =>
              sumSegments (seconds.add (value.mul timeUnit.seconds)) afterUnit
          | none =>
              if letters.isEmpty then
                .error (.missingUnit number)
              else
                .error (.unknownUnit letters)
termination_by text.length
decreasing_by
  exact Nat.lt_of_le_of_lt (List.dropWhile_suffix _).length_le
    (length_dropWhile_lt _ (by assumption))

def readDurationChars (text : List Char) : Except DurationFault Duration := do
  let compact := (squeeze text).map Char.toLower
  if compact.isEmpty then
    throw .empty
  let seconds ← sumSegments (.finite 0) compact
  if seconds = .finite 0 then
    throw .notPositive
  match Duration.ofSeconds? seconds with
  | some duration => return duration
  | none => throw .tooLong

/-- The duration that a text denotes. Blanks and the case of letters do not
matter. -/
def Duration.read (text : String) : Except TrackError Duration :=
  (readDurationChars text.toList).mapError (.invalidDuration text)

structure Hms where
  hours : Nat
  minutes : Nat
  seconds : Nat
deriving DecidableEq, Repr

namespace Duration

/-- The whole seconds nearest to the whole milliseconds of a duration, half a
second counting up. -/
def wholeSeconds (duration : Duration) : Nat :=
  (duration.nanos / 1000000 + 500) / 1000

def hms (duration : Duration) : Hms where
  hours := duration.wholeSeconds / 3600
  minutes := duration.wholeSeconds % 3600 / 60
  seconds := duration.wholeSeconds % 60

/-- Minutes and seconds, the minutes left out when they are zero. -/
def minutesText (parts : Hms) : String :=
  if parts.minutes = 0 then
    toString parts.seconds ++ "s"
  else
    toString parts.minutes ++ "m" ++ toString parts.seconds ++ "s"

/-- A duration such as `1h2m3s`, `4m5s` or `6s`. -/
def text (duration : Duration) : String :=
  let parts := duration.hms
  if parts.hours = 0 then
    minutesText parts
  else
    toString parts.hours ++ "h" ++ toString parts.minutes ++ "m" ++
      toString parts.seconds ++ "s"

/-- A duration as `text` gives it, without the seconds once hours are shown. -/
def shortText (duration : Duration) : String :=
  let parts := duration.hms
  if parts.hours = 0 then
    minutesText parts
  else
    toString parts.hours ++ "h" ++ toString parts.minutes ++ "m"

/-- A duration in seconds: its whole seconds and its nanoseconds are rounded
to binary64 on their own and then added. -/
def seconds (duration : Duration) : Binary64 :=
  (Binary64.ofNat (duration.nanos / 1000000000)).add
    ((Binary64.ofNat (duration.nanos % 1000000000)).div (Binary64.ofNat 1000000000))

end Duration

end Tabletop.Clock
