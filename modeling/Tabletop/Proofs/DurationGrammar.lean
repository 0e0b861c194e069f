import Mathlib
import Tabletop.Clock.Duration

/-!
# The grammar of durations

A duration without its blanks and in lower case is a sequence of segments, each
a decimal and the letters of a unit:

  `(decimal (h | m | s | ms))+`

This module holds the segments, the characters they stand for, the seconds they
add up to, and what a text can offend against the grammar with. No reader is
involved here.
-/

namespace Tabletop.Clock

open Tabletop.Number
open Tabletop.Text

/-- Digits with at most one point among them, and at least one digit. -/
structure IsDecimal (number : List Char) : Prop where
  isNumberChar : ∀ letter ∈ number, isNumberChar letter = true
  count_point : number.count '.' ≤ 1
  exists_digit : ∃ letter ∈ number, letter.isDigit = true

/-- The digits of a decimal behind its point. -/
def fractionOf (number : List Char) : List Char :=
  (number.dropWhile (· ≠ '.')).tail

/-- The number that a decimal denotes, rounded to binary64: its digits, divided
by ten for each of them behind the point. -/
def decimalValue (number : List Char) : Binary64 :=
  .ofRatio (numeralValue (number.filter Char.isDigit))
    (Nat.pow 10 (fractionOf number).length)

/-- The letters that name a unit. -/
def TimeUnit.letters : TimeUnit → List Char
  | hour => ['h']
  | minute => ['m']
  | second => ['s']
  | millisecond => ['m', 's']

/-- A decimal with a unit. -/
structure Segment where
  number : List Char
  timeUnit : TimeUnit
  isDecimal_number : IsDecimal number

namespace Segment

def chars (segment : Segment) : List Char :=
  segment.number ++ segment.timeUnit.letters

/-- The rounded product of the number and the length of the unit. -/
def seconds (segment : Segment) : Binary64 :=
  (decimalValue segment.number).mul segment.timeUnit.seconds

end Segment

/-- The text that segments stand for. -/
def spelling (segments : List Segment) : List Char :=
  segments.flatMap Segment.chars

/-- Seconds and those of segments, added from left to right, each sum
rounded. -/
def addAll (seconds : Binary64) (segments : List Segment) : Binary64 :=
  segments.foldl (fun sum segment => sum.add segment.seconds) seconds

/-- The seconds of segments. -/
def total (segments : List Segment) : Binary64 :=
  addAll (.finite 0) segments

/-- The text is empty or begins with a character outside the class. -/
def EndsRun (inClass : Char → Bool) (text : List Char) : Prop :=
  ∀ letter ∈ text.head?, inClass letter = false

/-- A text does not begin with a segment, for the reason that is given in
words. A number and a unit reach as far as their characters do. -/
inductive Offends : List Char → String → Prop
  | noNumber {text : List Char} (given : text ≠ [])
      (ends : EndsRun isNumberChar text) :
      Offends text ("expected a number at '" ++ String.ofList text ++ "'")
  | noDecimal {number rest : List Char} (given : number ≠ [])
      (numberChars : ∀ letter ∈ number, isNumberChar letter = true)
      (ends : EndsRun isNumberChar rest) (broken : ¬ IsDecimal number) :
      Offends (number ++ rest) ("bad number '" ++ String.ofList number ++ "'")
  | noUnit {number rest : List Char} (decimal : IsDecimal number)
      (ends : EndsRun isNumberChar rest) (bare : EndsRun Char.isAlpha rest) :
      Offends (number ++ rest)
        ("missing unit after '" ++ String.ofList number ++ "'")
  | strangeUnit {number letters rest : List Char} (decimal : IsDecimal number)
      (given : letters ≠ [])
      (alphabetic : ∀ letter ∈ letters, letter.isAlpha = true)
      (ends : EndsRun Char.isAlpha rest)
      (strange : ∀ timeUnit : TimeUnit, letters ≠ timeUnit.letters) :
      Offends (number ++ (letters ++ rest))
        ("unknown unit '" ++ String.ofList letters ++ "'")

/-- The number is finite and smaller than the given number of units. -/
def IsUnder (bound : Nat) : Binary64 → Prop
  | .finite units => units < bound
  | .infinite => False

/-- A sum of seconds that a duration can hold: positive, and under 2^64. -/
def IsDuration (seconds : Binary64) : Prop :=
  seconds ≠ .finite 0 ∧ IsUnder (2 ^ 64 * Binary64.one) seconds

/-- A text without blanks is no duration, for the reason that is given in
words: behind well-formed segments it offends against the grammar, or all of it
is well-formed and the sum is zero or too large. -/
inductive Refused : List Char → String → Prop
  | offence {segments : List Segment} {rest : List Char} {reason : String}
      (whole : segments = [] ∨ EndsRun Char.isAlpha rest)
      (offends : Offends rest reason) :
      Refused (spelling segments ++ rest) reason
  | notPositive {segments : List Segment} (given : segments ≠ [])
      (zero : total segments = .finite 0) :
      Refused (spelling segments) "must be positive"
  | tooLarge {segments : List Segment} (given : segments ≠ [])
      (large : ¬ IsUnder (2 ^ 64 * Binary64.one) (total segments)) :
      Refused (spelling segments)
        "cannot convert float seconds to Duration: value is either too big or NaN"

end Tabletop.Clock
