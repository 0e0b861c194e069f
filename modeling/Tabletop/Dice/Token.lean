import Tabletop.Dice.NotationError
import Tabletop.Text.Blank

/-!
# Tokens of a dice notation

A notation is cut into tokens after its blanks are taken out; at every point
the longest token wins, and letters count in either case. Reading stops at
the first character that begins no token, which is kept as an `unknown` token.
`pieces` cuts the bare characters; `lexemes` adds the place of each token in
the text as it was given.
-/

namespace Tabletop.Dice

open Tabletop.Text

/-- The kinds of token. A bare `k` is `keep`, a bare `d` is `die`. -/
inductive Token where
  | number
  | die
  | keep
  | operation (cut : Cut)
  | advantage
  | sign (sign : Sign)
  | unknown
deriving DecidableEq, Repr

def Cut.ofLetters? (drops : Bool) (second : Char) : Option Cut :=
  match second.toLower, drops with
  | 'h', false => some .keepHighest
  | 'l', false => some .keepLowest
  | 'h', true => some .dropHighest
  | 'l', true => some .dropLowest
  | _, _ => none

namespace Token

/-- A token that begins with `k` or `d`: a cut if its second letter follows,
else the letter alone. -/
def ofLetter (alone : Token) (drops : Bool) : (rest : List Char) → Token × Nat
  | second :: _ =>
      match Cut.ofLetters? drops second with
      | some cut => (.operation cut, 1)
      | none => (alone, 0)
  | [] => (alone, 0)

/-- The longest token that begins with `first`, and how many of the characters
after `first` it takes. -/
def longest (first : Char) (rest : List Char) : Token × Nat :=
  if first.isDigit then
    (.number, (rest.takeWhile Char.isDigit).length)
  else
    match first.toLower with
    | 'd' => ofLetter .die true rest
    | 'k' => ofLetter .keep false rest
    | '!' => (.advantage, 0)
    | '+' => (.sign .plus, 0)
    | '-' => (.sign .minus, 0)
    | _ => (.unknown, 0)

end Token

structure Piece where
  token : Token
  text : List Char
deriving DecidableEq, Repr

/-- The tokens of a text without blanks, up to the first unknown one. -/
def pieces : (text : List Char) → List Piece
  | [] => []
  | first :: rest =>
      let (token, more) := Token.longest first rest
      let piece : Piece := ⟨token, first :: rest.take more⟩
      if token = .unknown then
        [piece]
      else
        piece :: pieces (rest.drop more)
termination_by text => text.length
decreasing_by simp only [List.length_drop, List.length_cons]; omega

/-- A token with its characters and the stretch of the given text from its
first to its last character. -/
structure Lexeme where
  token : Token
  text : List Char
  span : Span
deriving DecidableEq, Repr

def locate : (placed : List PlacedChar) → List Piece → List Lexeme
  | _, [] => []
  | placed, piece :: later =>
      ⟨piece.token, piece.text, spanOf (placed.take piece.text.length)⟩ ::
        locate (placed.drop piece.text.length) later

/-- The characters of a text that are not blank, each at its own place. -/
def inkOf (text : List Char) : List PlacedChar :=
  (place text).filter fun placed => isInk placed.char

def lexemes (text : List Char) : List Lexeme :=
  locate (inkOf text) (pieces (squeeze text))

/-- The byte just past the last character that is not blank. -/
def inkEnd (text : List Char) : Nat :=
  (spanOf (inkOf text)).stop

end Tabletop.Dice
