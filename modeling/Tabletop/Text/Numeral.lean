/-!
# Decimal numerals

Reading whole numbers from decimal digits and writing them with an explicit
sign. Digits are the ten characters `0` to `9`; leading zeros are allowed.
-/

namespace Tabletop.Text

/-- A non-empty run of decimal digits. -/
def isNumeral (text : List Char) : Bool :=
  !text.isEmpty && text.all Char.isDigit

def numeralValue (digits : List Char) : Nat :=
  Nat.ofDigitChars 10 digits 0

theorem numeralValue_toDigits (value : Nat) :
    numeralValue (Nat.toDigits 10 value) = value :=
  Nat.ofDigitChars_ten_toDigits

theorem isDigit_of_mem_toDigits {value : Nat} {letter : Char}
    (member : letter ∈ Nat.toDigits 10 value) :
    letter.isDigit = true :=
  Nat.isDigit_of_mem_toDigits (by decide) (by decide) member

/-- The number that decimal digits after an optional sign denote. -/
def signedValue? (text : List Char) : Option Int :=
  match text with
  | '-' :: digits => if isNumeral digits then some (-(numeralValue digits : Int)) else none
  | '+' :: digits => if isNumeral digits then some (numeralValue digits) else none
  | digits => if isNumeral digits then some (numeralValue digits) else none

def toWord32? (value : Int) : Option Int32 :=
  if Int32.minValue.toInt ≤ value ∧ value ≤ Int32.maxValue.toInt then
    some (Int32.ofInt value)
  else
    none

/-- A signed 32-bit number, written in decimal with an optional sign. -/
def word32? (text : List Char) : Option Int32 :=
  (signedValue? text).bind toWord32?

def withSign (value : Int) : String :=
  match value with
  | .ofNat size => "+" ++ toString size
  | .negSucc size => "-" ++ toString (size + 1)

end Tabletop.Text
