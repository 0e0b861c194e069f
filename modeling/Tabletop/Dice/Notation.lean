import Tabletop.Dice.Token

/-!
# Reading a dice notation

A notation is an optional number of dice, the letter `d`, the number of sides,
and then clauses in any order: `!` for advantage, a cut with a count, or a
signed modifier. Clauses may repeat; a later cut or modifier replaces an
earlier one, but every literal has to be in range. The first fault from the
left is reported.
-/

namespace Tabletop.Dice

open Tabletop.Text

namespace Lexeme

def value (lexeme : Lexeme) : Nat :=
  numeralValue lexeme.text

/-- A fault that concerns exactly this token. -/
def refuse {α : Type} (lexeme : Lexeme) (fault : NotationFault) : Except NotationError α :=
  .error ⟨fault, lexeme.span⟩

end Lexeme

def readCount (literal : Lexeme) : Except NotationError UInt32 :=
  if literal.value < 1 then
    literal.refuse .countTooSmall
  else if Expression.maxCount < literal.value then
    literal.refuse .countTooLarge
  else
    .ok (UInt32.ofNat literal.value)

def readSides (literal : Lexeme) : Except NotationError UInt32 :=
  if UInt32.size ≤ literal.value then
    literal.refuse .sidesOutOfRange
  else if literal.value < 2 then
    literal.refuse .tooFewSides
  else
    .ok (UInt32.ofNat literal.value)

def readOperationCount (literal : Lexeme) : Except NotationError UInt32 :=
  if UInt32.size ≤ literal.value then
    literal.refuse .operationCountOutOfRange
  else if literal.value = 0 then
    literal.refuse .zeroOperationCount
  else
    .ok (UInt32.ofNat literal.value)

def Sign.apply (sign : Sign) (magnitude : Nat) : Int :=
  match sign with
  | .plus => magnitude
  | .minus => -magnitude

def readModifier (sign : Sign) (signLexeme literal : Lexeme) : Except NotationError Int32 :=
  match toWord32? (sign.apply literal.value) with
  | some modifier => .ok modifier
  | none => .error ⟨.modifierOutOfRange, ⟨signLexeme.span.start, literal.span.stop⟩⟩

/-- Something is missing in front of the tokens that follow: the fault names
the next token, or the end of the text, where the last ink ends. -/
def missingBefore (fault : Found → NotationFault) (finish : Nat) :
    (rest : List Lexeme) → NotationError
  | [] => ⟨fault .endOfInput, ⟨finish, finish⟩⟩
  | lexeme :: _ => ⟨fault (.written lexeme.text), lexeme.span⟩

/-- A clause that begins with a bare `k` or `d`, reported together with the
character after it. -/
def unknownOperation (keyword : Lexeme) (rest : List Lexeme) : NotationError :=
  let letters := keyword.text.map Char.toLower
  match rest with
  | { text := letter :: _, span := span, .. } :: _ =>
      ⟨.unknownOperation (letters ++ [letter]),
        ⟨keyword.span.start, span.start + letter.utf8Size⟩⟩
  | _ => ⟨.unknownOperation letters, keyword.span⟩

def unexpectedCharacter (lexeme : Lexeme) : NotationError :=
  let letter := lexeme.text.headD '\x00'
  ⟨.unexpectedCharacter letter,
    ⟨lexeme.span.start, lexeme.span.start + letter.utf8Size⟩⟩

def readClauses (expression : Expression) : List Lexeme → Except NotationError Expression
  | [] => .ok expression
  | lexeme :: rest =>
      match lexeme.token with
      | .advantage => readClauses { expression with advantage := true } rest
      | .operation cut =>
          match rest with
          | literal :: later =>
              if literal.token = .number then do
                let count ← readOperationCount literal
                readClauses { expression with operation := some ⟨cut, count⟩ } later
              else
                lexeme.refuse (.missingOperationCount cut)
          | [] => lexeme.refuse (.missingOperationCount cut)
      | .sign sign =>
          match rest with
          | literal :: later =>
              if literal.token = .number then do
                let modifier ← readModifier sign lexeme literal
                readClauses { expression with modifier := modifier } later
              else
                lexeme.refuse (.missingModifier sign)
          | [] => lexeme.refuse (.missingModifier sign)
      | .keep | .die => .error (unknownOperation lexeme rest)
      | .number | .unknown => .error (unexpectedCharacter lexeme)

def readSidesAndClauses (finish : Nat) (count : UInt32) (rest : List Lexeme) :
    Except NotationError Expression :=
  match rest with
  | literal :: later =>
      if literal.token = .number then do
        let sides ← readSides literal
        readClauses (Expression.plain count sides) later
      else
        .error (missingBefore .missingSides finish rest)
  | [] => .error (missingBefore .missingSides finish [])

/-- The separator and what follows it. A cut that drops dice is read here as
the separator and a letter where the sides belong. -/
def readFromSeparator (finish : Nat) (count : UInt32) (rest : List Lexeme) :
    Except NotationError Expression :=
  match rest with
  | lexeme :: later =>
      match lexeme.token with
      | .die => readSidesAndClauses finish count later
      | .operation .dropHighest | .operation .dropLowest =>
          .error ⟨.missingSides (.written (lexeme.text.drop 1)),
            ⟨lexeme.span.stop - 1, lexeme.span.stop⟩⟩
      | _ => .error (missingBefore .missingSeparator finish rest)
  | [] => .error (missingBefore .missingSeparator finish [])

/-- A whole notation; the number of dice is one if it is left out. -/
def readLexemes (finish : Nat) (all : List Lexeme) : Except NotationError Expression :=
  match all with
  | [] => .error ⟨.empty, ⟨0, 0⟩⟩
  | first :: rest =>
      if first.token = .number then do
        let count ← readCount first
        readFromSeparator finish count rest
      else
        readFromSeparator finish 1 (first :: rest)

def readChars (text : List Char) : Except NotationError Expression :=
  readLexemes (inkEnd text) (lexemes text)

/-- The expression that a notation denotes. -/
def Expression.read (text : String) : Except NotationError Expression :=
  readChars text.toList

end Tabletop.Dice
