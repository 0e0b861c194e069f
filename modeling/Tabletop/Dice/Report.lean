import Tabletop.Dice.NotationError
import Tabletop.Text.Blank

/-!
# Error reports

A report shows the text of a notation with a mark under the stretch that is
wrong. The stretch is first widened to whole characters, at least one, so that
there is always something to mark. The drawing itself is left to a printer;
the one given here draws texts of one line.
-/

namespace Tabletop.Dice

open Tabletop.Text

/-- The byte at which the character begins that holds a byte of the text; the
length of the text for bytes behind it. -/
def charStart : (text : List Char) → (byte : Nat) → Nat
  | [], _ => 0
  | letter :: rest, byte =>
      if byte < letter.utf8Size then
        0
      else
        letter.utf8Size + charStart rest (byte - letter.utf8Size)

/-- The first byte, not before the given one, at which a character ends or the
text begins; the length of the text for bytes behind it. -/
def charStop : (text : List Char) → (byte : Nat) → Nat
  | [], _ => 0
  | letter :: rest, byte =>
      if byte = 0 then
        0
      else
        letter.utf8Size + charStop rest (byte - letter.utf8Size)

def charFrom? : (text : List Char) → (byte : Nat) → Option Char
  | [], _ => none
  | letter :: rest, byte =>
      if byte = 0 then
        some letter
      else
        charFrom? rest (byte - letter.utf8Size)

/-- The number of characters that end at a byte or before it. -/
def columnOf : (text : List Char) → (byte : Nat) → Nat
  | [], _ => 0
  | letter :: rest, byte =>
      if byte < letter.utf8Size then
        0
      else
        1 + columnOf rest (byte - letter.utf8Size)

/-- The stretch to mark for a span: whole characters inside the text. An empty
span is widened to the character behind it, or to the last one of the text. -/
def labelSpan (text : List Char) (span : Span) : Span :=
  let start := charStart text span.start
  let stop := max start (min span.stop (byteLength text))
  if stop = start then
    match charFrom? text start, text.getLast? with
    | some next, _ => ⟨start, start + next.utf8Size⟩
    | none, some last => ⟨start - last.utf8Size, stop⟩
    | none, none => ⟨start, stop⟩
  else
    ⟨start, charStop text stop⟩

def NotationFault.label : NotationFault → String
  | .empty => "nothing to roll"
  | .missingSeparator _ => "expected 'd' here"
  | .missingSides _ => "expected a number of sides"
  | .countTooSmall | .countTooLarge => "die count out of range"
  | .tooFewSides | .sidesOutOfRange => "sides out of range"
  | .missingOperationCount _ => "expected a count"
  | .zeroOperationCount | .operationCountOutOfRange => "count out of range"
  | .unknownOperation _ => "try kh, kl, dh or dl"
  | .missingModifier _ => "expected a number"
  | .modifierOutOfRange => "modifier out of range"
  | .unexpectedCharacter _ => "unexpected"

/-- What draws a report: a message, and a text with a label at a stretch of it.
A report that cannot be drawn comes to nothing. -/
structure ReportPrinter where
  draw? (message label : String) (text : List Char) (stretch : Span) : Option String
  ends_of_draw?_eq_some {message label : String} {text : List Char} {stretch : Span}
    {report : String} (drawn : draw? message label text stretch = some report) :
    report = "" ∨ ∃ lines, report = lines ++ "\n"

def copies (count : Nat) (letter : Char) : String :=
  String.ofList (List.replicate count letter)

/-- A character as a report shows it: every blank is a plain space. -/
def shownChar (letter : Char) : Char :=
  if isBlank letter then ' ' else letter

/-- A report on one line of text. The columns from `first` up to, not
including, `last` are marked, and the note hangs from the middle of the
mark. -/
def layout (message label : String) (line : List Char) (first last : Nat) : String :=
  let middle := (first + last) / 2
  let right := last - 1 - middle
  "Error: " ++ message ++ "\n" ++
    "   ╭─[ notation:1:" ++ toString (first + 1) ++ " ]\n" ++
    "   │\n" ++
    " 1 │ " ++ String.ofList (line.map shownChar) ++ "\n" ++
    "   │ " ++ copies first ' ' ++ copies (middle - first) '─' ++ "┬" ++ copies right '─' ++
      "  \n" ++
    "   │ " ++ copies middle ' ' ++ "╰" ++ copies (right + 2) '─' ++ " " ++ label ++ "\n" ++
    "───╯\n"

theorem layout_ends (message label : String) (line : List Char) (first last : Nat) :
    ∃ lines, layout message label line first last = lines ++ "\n" := by
  have lastLine : "───╯\n" = "───╯" ++ "\n" := by
    decide
  unfold layout
  rw [lastLine, ← String.append_assoc]
  exact ⟨_, rfl⟩

/-- Draws a text of one line, its blanks as plain spaces. -/
def ReportPrinter.oneLine : ReportPrinter where
  draw? message label text stretch :=
    some
      (layout message label (trimEnd text) (columnOf text stretch.start)
        (columnOf text stretch.stop))
  ends_of_draw?_eq_some drawn := Option.some.inj drawn ▸ Or.inr (layout_ends _ _ _ _ _)

/-- The report of an error in a text, empty for a blank text; the bare message
if it cannot be drawn. -/
def NotationError.report (error : NotationError) (printer : ReportPrinter) (text : List Char) :
    String :=
  if (trim text).isEmpty then
    ""
  else
    (printer.draw? error.message error.fault.label text (labelSpan text error.span)).getD
      ("error: " ++ error.message ++ "\n")

end Tabletop.Dice
