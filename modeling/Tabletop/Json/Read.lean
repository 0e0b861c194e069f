import Tabletop.Json.Token

/-!
# Reading JSON tokens

Readers take a value off the front of a token list. They look at tokens from
left to right and stop at the first fault, so a fault of what has been read
comes before any fault of the text behind it. `φ` is the kind of fault that
the values themselves can have.
-/

namespace Tabletop.Json

/-- Why a value cannot be read: the text is not of the expected form, or the
value breaks a rule of its own. -/
inductive ReadError (φ : Type) where
  | malformed
  | refused (fault : φ)
deriving DecidableEq, Repr

/-- Takes a value off the front of a token list. -/
abbrev Reader (φ α : Type) : Type :=
  List JsonToken → Except (ReadError φ) (α × List JsonToken)

variable {φ α ρ : Type}

def readInteger (low high : Int) : Reader φ Int
  | .integer value :: rest =>
      if low ≤ value ∧ value ≤ high then .ok (value, rest) else .error .malformed
  | _ => .error .malformed

def readUnsigned32 : Reader φ UInt32 := fun tokens => do
  let (value, rest) ← readInteger 0 (UInt32.size - 1) tokens
  return (UInt32.ofNat value.toNat, rest)

def readSigned32 : Reader φ Int32 := fun tokens => do
  let (value, rest) ← readInteger Int32.minValue.toInt Int32.maxValue.toInt tokens
  return (Int32.ofInt value, rest)

def readSigned64 : Reader φ Int :=
  readInteger Int64.minValue.toInt Int64.maxValue.toInt

def readBool : Reader φ Bool
  | .bool value :: rest => .ok (value, rest)
  | _ => .error .malformed

/-- What may stand next while a value is skipped, inside the braces and
brackets that are open. -/
inductive Expected where
  | value
  | valueOrClose
  | key
  | keyOrClose
  | colon
  | commaOrClose
deriving DecidableEq, Repr

/-- The braces and brackets that are open, innermost first; a brace is
`true`. -/
abbrev Enclosing : Type := List Bool

/-- Skips one value of any form, strings with unpaired surrogates and numbers
of any size included. -/
def skipFrom : Enclosing → Expected → List JsonToken → Option (List JsonToken)
  | [], .commaOrClose, rest => some rest
  | _, _, [] => none
  | enclosing, expected, token :: rest =>
      match expected, token, enclosing with
      | .value, .null, _ | .valueOrClose, .null, _ => skipFrom enclosing .commaOrClose rest
      | .value, .bool _, _ | .valueOrClose, .bool _, _ => skipFrom enclosing .commaOrClose rest
      | .value, .integer _, _ | .valueOrClose, .integer _, _ =>
          skipFrom enclosing .commaOrClose rest
      | .value, .otherNumber, _ | .valueOrClose, .otherNumber, _ =>
          skipFrom enclosing .commaOrClose rest
      | .value, .string _, _ | .valueOrClose, .string _, _ =>
          skipFrom enclosing .commaOrClose rest
      | .value, .openBracket, _ | .valueOrClose, .openBracket, _ =>
          skipFrom (false :: enclosing) .valueOrClose rest
      | .value, .openBrace, _ | .valueOrClose, .openBrace, _ =>
          skipFrom (true :: enclosing) .keyOrClose rest
      | .valueOrClose, .closeBracket, false :: outer => skipFrom outer .commaOrClose rest
      | .commaOrClose, .closeBracket, false :: outer => skipFrom outer .commaOrClose rest
      | .keyOrClose, .closeBrace, true :: outer => skipFrom outer .commaOrClose rest
      | .commaOrClose, .closeBrace, true :: outer => skipFrom outer .commaOrClose rest
      | .commaOrClose, .comma, false :: _ => skipFrom enclosing .value rest
      | .commaOrClose, .comma, true :: _ => skipFrom enclosing .key rest
      | .key, .string _, _ | .keyOrClose, .string _, _ => skipFrom enclosing .colon rest
      | .colon, .colon, _ => skipFrom enclosing .value rest
      | _, _, _ => none

def skipValue (tokens : List JsonToken) : Except (ReadError φ) (List JsonToken) :=
  match skipFrom [] .value tokens with
  | some rest => .ok rest
  | none => .error .malformed

/-- Reads fields up to the closing brace, each changing a record; at most so
many of them. -/
def readFieldsWithin (readField : ρ → (name : List Char) → Reader φ ρ) :
    (most : Nat) → ρ → Reader φ ρ
  | most + 1, record, .string (some name) :: .colon :: tokens =>
      match readField record name tokens with
      | .error error => .error error
      | .ok (changed, .comma :: rest) => readFieldsWithin readField most changed rest
      | .ok (changed, .closeBrace :: rest) => .ok (changed, rest)
      | .ok _ => .error .malformed
  | _, _, _ => .error .malformed

/-- Reads the fields of an object whose opening brace has been read. -/
def readFields (readField : ρ → (name : List Char) → Reader φ ρ) (record : ρ) : Reader φ ρ
  | .closeBrace :: rest => .ok (record, rest)
  | tokens => readFieldsWithin readField tokens.length record tokens

/-- Sets a field of a record, which must not have been set before. -/
def readOnce (former : Option α) (reader : Reader φ α) (set : Option α → ρ) : Reader φ ρ :=
  fun tokens =>
    match former with
    | some _ => .error .malformed
    | none => do
        let (value, rest) ← reader tokens
        return (set (some value), rest)

def required (field : Option α) : Except (ReadError φ) α :=
  match field with
  | some value => .ok value
  | none => .error .malformed

/-- Reads the next item of an array, if the array does not end here. The
closing bracket is left in place. -/
def readItem? (first : Bool) (reader : Reader φ α) : Reader φ (Option α)
  | .closeBracket :: rest => .ok (none, .closeBracket :: rest)
  | tokens => do
      let tokens ←
        if first then
          .ok tokens
        else
          match tokens with
          | .comma :: rest => .ok rest
          | _ => .error .malformed
      let (value, rest) ← reader tokens
      return (some value, rest)

def readItem (first : Bool) (reader : Reader φ α) : Reader φ α := fun tokens => do
  let (item, rest) ← readItem? first reader tokens
  let value ← required item
  return (value, rest)

def readClose : List JsonToken → Except (ReadError φ) (List JsonToken)
  | .closeBracket :: rest => .ok rest
  | _ => .error .malformed

/-- Reads items up to the closing bracket, at most so many of them. -/
def readItemsWithin (reader : Reader φ α) : (most : Nat) → (first : Bool) → Reader φ (List α)
  | 0, _, _ => .error .malformed
  | most + 1, first, tokens => do
      let (item, rest) ← readItem? first reader tokens
      match item with
      | none => return ([], ← readClose rest)
      | some value => do
          let (values, rest) ← readItemsWithin reader most false rest
          return (value :: values, rest)

def readArray (reader : Reader φ α) : Reader φ (List α)
  | .openBracket :: rest => readItemsWithin reader (rest.length + 1) true rest
  | _ => .error .malformed

/-- Reads a text that holds one value and nothing else. -/
def readText (reader : Reader φ α) (text : String) : Except (ReadError φ) α := do
  let (value, rest) ← reader (tokens text.toList)
  match rest with
  | [] => return value
  | _ => throw .malformed

def nameToken (name : String) : JsonToken :=
  .string (some name.toList)

/-- Lists of tokens with a comma between neighbours. -/
def separated : List (List JsonToken) → List JsonToken
  | [] => []
  | [item] => item
  | item :: rest => item ++ .comma :: separated rest

def objectTokens (fields : List (String × List JsonToken)) : List JsonToken :=
  .openBrace ::
    separated (fields.map fun (name, value) => nameToken name :: .colon :: value) ++
      [.closeBrace]

def arrayTokens (items : List (List JsonToken)) : List JsonToken :=
  .openBracket :: separated items ++ [.closeBracket]

end Tabletop.Json
