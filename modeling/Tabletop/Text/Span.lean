/-!
# Byte positions

Characters of a text together with the place where they stand. Places count
bytes of the UTF-8 form, so a span names the same stretch for any reader of
the encoded text.
-/

namespace Tabletop.Text

/-- A stretch of text from the byte `start` up to, not including, `stop`. -/
structure Span where
  start : Nat
  stop : Nat
deriving DecidableEq, Repr, Inhabited

structure PlacedChar where
  char : Char
  offset : Nat
deriving DecidableEq, Repr

namespace PlacedChar

def stop (placed : PlacedChar) : Nat :=
  placed.offset + placed.char.utf8Size

end PlacedChar

def byteLength : List Char → Nat
  | [] => 0
  | letter :: rest => letter.utf8Size + byteLength rest

/-- The characters of a text with their places, the first one at `offset`. -/
def placeFrom (offset : Nat) : List Char → List PlacedChar
  | [] => []
  | letter :: rest => ⟨letter, offset⟩ :: placeFrom (offset + letter.utf8Size) rest

def place (text : List Char) : List PlacedChar :=
  placeFrom 0 text

@[simp]
theorem placeFrom_map_char (offset : Nat) (text : List Char) :
    (placeFrom offset text).map PlacedChar.char = text := by
  induction text generalizing offset with
  | nil => rfl
  | cons letter rest inductionHypothesis =>
      simp [placeFrom, inductionHypothesis]

@[simp]
theorem place_map_char (text : List Char) :
    (place text).map PlacedChar.char = text :=
  placeFrom_map_char 0 text

@[simp]
theorem byteLength_append (first second : List Char) :
    byteLength (first ++ second) = byteLength first + byteLength second := by
  induction first with
  | nil => simp [byteLength]
  | cons letter rest inductionHypothesis =>
      simp [byteLength, inductionHypothesis, Nat.add_assoc]

/-- The span from the first to the last of some placed characters; empty at
zero if there are none. -/
def spanOf (placed : List PlacedChar) : Span where
  start := (placed.head?.map PlacedChar.offset).getD 0
  stop := (placed.getLast?.map PlacedChar.stop).getD 0

end Tabletop.Text
