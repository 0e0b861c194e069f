/-!
# Binary floating point, exactly

Non-negative numbers of the IEEE 754 binary64 format. A finite number is a
multiple of the smallest positive one, 2^-1074, and is given by that multiple;
every operation computes its exact result and rounds it once, to the nearest
number of the format, a tie going to the even neighbour.
-/

namespace Tabletop.Number

/-- The whole number nearest to a quotient; a tie goes to the even one. -/
def roundHalfEven (numerator denominator : Nat) : Nat :=
  let quotient := numerator / denominator
  let remainder := numerator % denominator
  if 2 * remainder < denominator then
    quotient
  else if denominator < 2 * remainder then
    quotient + 1
  else
    quotient + quotient % 2

theorem roundHalfEven_mul_right (quotient : Nat) {denominator : Nat}
    (positive : 0 < denominator) :
    roundHalfEven (quotient * denominator) denominator = quotient := by
  simp [roundHalfEven, Nat.mul_div_cancel _ positive, positive]

/-- A non-negative number of the format: `units` times 2^-1074, or infinity. -/
inductive Binary64 where
  | finite (units : Nat)
  | infinite
deriving DecidableEq, Repr

namespace Binary64

def one : Nat := Nat.pow 2 1074

/-- The first power of two, in units, that is too large to be finite. -/
def overflow : Nat := Nat.pow 2 2098

/-- The distance, in units, between neighbours in the format around a number
of units: 53 binary digits are significant. -/
def spacing (units : Nat) : Nat :=
  Nat.pow 2 (Nat.log2 units - 52)

/-- The number of the format nearest to a quotient of units. -/
def nearestUnits (numerator denominator : Nat) : Binary64 :=
  let gap := spacing (numerator / denominator)
  let units := roundHalfEven numerator (denominator * gap) * gap
  if units < overflow then finite units else infinite

def ofRatio (numerator denominator : Nat) : Binary64 :=
  nearestUnits (numerator * one) denominator

def ofNat (value : Nat) : Binary64 :=
  ofRatio value 1

def add : Binary64 → Binary64 → Binary64
  | finite first, finite second => nearestUnits (first + second) 1
  | _, _ => infinite

/-- The rounded product; the factors are not zero where one is infinite. -/
def mul : Binary64 → Binary64 → Binary64
  | finite first, finite second => nearestUnits (first * second) one
  | _, _ => infinite

/-- The rounded quotient of finite numbers; infinite for a divisor of zero. -/
def div : Binary64 → Binary64 → Binary64
  | finite first, finite second =>
      if second = 0 then infinite else nearestUnits (first * one) second
  | _, _ => infinite

def min : Binary64 → Binary64 → Binary64
  | finite first, finite second => finite (Nat.min first second)
  | finite first, infinite => finite first
  | infinite, other => other

/-- The number of nanoseconds nearest to a number of seconds, if the seconds
are fewer than 2^64. -/
def nanoseconds? : Binary64 → Option Nat
  | finite units =>
      if units < UInt64.size * one then
        some (roundHalfEven (units * 1000000000) one)
      else
        none
  | infinite => none

/-- The 64-bit word that encodes a number: the exponent field counts from one
because the leading binary digit of the significand is carried into it. -/
def bits : Binary64 → Nat
  | finite units =>
      let exponent := Nat.log2 units - 52
      exponent * Nat.pow 2 52 + units / Nat.pow 2 exponent
  | infinite => 2047 * Nat.pow 2 52

end Binary64

end Tabletop.Number
