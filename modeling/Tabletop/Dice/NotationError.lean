import Tabletop.Dice.Expression
import Tabletop.Text.Span

/-!
# Errors of a dice notation

What can be wrong with a written notation, where it is wrong, and how that is
said. Positions are bytes of the text as it was given, blanks included.
-/

namespace Tabletop.Dice

open Tabletop.Text

inductive Sign where
  | plus
  | minus
deriving DecidableEq, Repr

namespace Sign

def char : Sign → Char
  | plus => '+'
  | minus => '-'

end Sign

/-- What stands where something else was expected. -/
inductive Found where
  | endOfInput
  | written (text : List Char)
deriving DecidableEq, Repr

def quoted (text : List Char) : String :=
  "'" ++ String.ofList text ++ "'"

namespace Found

def describe : Found → String
  | endOfInput => "end of input"
  | written text => quoted text

end Found

inductive NotationFault where
  | empty
  | missingSeparator (found : Found)
  | missingSides (found : Found)
  | countTooSmall
  | countTooLarge
  | tooFewSides
  | sidesOutOfRange
  | missingOperationCount (cut : Cut)
  | zeroOperationCount
  | operationCountOutOfRange
  | unknownOperation (clause : List Char)
  | missingModifier (sign : Sign)
  | modifierOutOfRange
  | unexpectedCharacter (letter : Char)
deriving DecidableEq, Repr

/-- A fault and the stretch of text that it concerns. -/
structure NotationError where
  fault : NotationFault
  span : Span
deriving DecidableEq, Repr

namespace NotationError

def message (error : NotationError) : String :=
  let start := toString error.span.start
  match error.fault with
  | .empty => "empty dice notation"
  | .missingSeparator found =>
      "expected 'd' at position " ++ start ++ ", found " ++ found.describe
  | .missingSides found =>
      "expected number of sides after 'd' at position " ++ start ++ ", found " ++ found.describe
  | .countTooSmall => "die count must be at least 1"
  | .countTooLarge => "die count too large (max " ++ toString Expression.maxCount ++ ")"
  | .tooFewSides => "die must have at least 2 sides"
  | .sidesOutOfRange => "die sides too large (max 4294967295)"
  | .missingOperationCount cut =>
      "expected number after operation " ++ cut.letters ++ " at position " ++
        toString error.span.stop
  | .zeroOperationCount => "operation count must be at least 1"
  | .operationCountOutOfRange => "operation count too large (max 4294967295)"
  | .unknownOperation clause =>
      "unknown operation " ++ quoted clause ++ " at position " ++ start ++
        " (expected kh, kl, dh, or dl)"
  | .missingModifier sign =>
      "expected number after " ++ quoted [sign.char] ++ " at position " ++ start
  | .modifierOutOfRange => "modifier out of range (-2147483648..=2147483647)"
  | .unexpectedCharacter letter =>
      "unexpected character " ++ quoted [letter] ++ " at position " ++ start

end NotationError

end Tabletop.Dice
