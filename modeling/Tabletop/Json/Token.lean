import Tabletop.Text.Numeral

/-!
# JSON tokens

The tokens of a JSON text: how they are cut from the text and how they are
written. A text that goes wrong ends in the token `malformed`, which no value
holds, so whatever stands before it can still be read.
-/

namespace Tabletop.Json

open Tabletop.Text

/-- The tokens of JSON. A string with an unpaired surrogate has no content; a
number with a fraction or an exponent, or a negative zero, is no integer. -/
inductive JsonToken where
  | openBrace
  | closeBrace
  | openBracket
  | closeBracket
  | colon
  | comma
  | null
  | bool (value : Bool)
  | integer (value : Int)
  | otherNumber
  | string (content : Option (List Char))
  | malformed
deriving DecidableEq, Repr

/-- A part of a written string: a character, or an escaped UTF-16 unit. -/
inductive StringPart where
  | plain (letter : Char)
  | code (value : Nat)
deriving DecidableEq, Repr

def hexDigit? (letter : Char) : Option Nat :=
  if letter.isDigit then
    some (letter.toNat - '0'.toNat)
  else if 'a' ≤ letter.toLower ∧ letter.toLower ≤ 'f' then
    some (letter.toLower.toNat - 'a'.toNat + 10)
  else
    none

def hexValue? (first second third fourth : Char) : Option Nat := do
  let a ← hexDigit? first
  let b ← hexDigit? second
  let c ← hexDigit? third
  let d ← hexDigit? fourth
  return ((a * 16 + b) * 16 + c) * 16 + d

def escaped? (letter : Char) : Option Char :=
  match letter with
  | '"' => some '"'
  | '\\' => some '\\'
  | '/' => some '/'
  | 'b' => some '\x08'
  | 'f' => some '\x0c'
  | 'n' => some '\n'
  | 'r' => some '\r'
  | 't' => some '\t'
  | _ => none

/-- The parts of a string up to its closing quote, and the text behind it. -/
def scanString : (text : List Char) → Option (List StringPart × List Char)
  | [] => none
  | '"' :: rest => some ([], rest)
  | '\\' :: 'u' :: first :: second :: third :: fourth :: rest =>
      match hexValue? first second third fourth, scanString rest with
      | some value, some (parts, later) => some (.code value :: parts, later)
      | _, _ => none
  | '\\' :: letter :: rest =>
      match escaped? letter, scanString rest with
      | some meant, some (parts, later) => some (.plain meant :: parts, later)
      | _, _ => none
  | letter :: rest =>
      if letter.toNat < 0x20 then
        none
      else
        match scanString rest with
        | some (parts, later) => some (.plain letter :: parts, later)
        | none => none

/-- The unit is the first half of a surrogate pair. -/
def isHighSurrogate (value : Nat) : Bool :=
  0xD800 ≤ value && value < 0xDC00

def isLowSurrogate (value : Nat) : Bool :=
  0xDC00 ≤ value && value < 0xE000

/-- The characters that the parts of a string stand for, if no surrogate is
left unpaired. -/
def joinParts : List StringPart → Option (List Char)
  | [] => some []
  | .plain letter :: rest => (joinParts rest).map (letter :: ·)
  | .code high :: .code low :: rest =>
      if isHighSurrogate high then
        if isLowSurrogate low then
          (joinParts rest).map
            (Char.ofNat (0x10000 + (high - 0xD800) * 0x400 + (low - 0xDC00)) :: ·)
        else
          none
      else if isLowSurrogate high then
        none
      else
        (joinParts (.code low :: rest)).map (Char.ofNat high :: ·)
  | .code value :: rest =>
      if isHighSurrogate value || isLowSurrogate value then
        none
      else
        (joinParts rest).map (Char.ofNat value :: ·)

def scanDigits? (text : List Char) : Option (List Char × List Char) :=
  let digits := text.takeWhile Char.isDigit
  if digits.isEmpty then none else some (digits, text.dropWhile Char.isDigit)

/-- The whole part of a number: a zero alone, or a run of digits. -/
def scanWhole? : (text : List Char) → Option (List Char × List Char)
  | '0' :: rest => some (['0'], rest)
  | text => scanDigits? text

def scanFraction? : (text : List Char) → Option (Bool × List Char)
  | '.' :: rest => (scanDigits? rest).map fun (_, later) => (true, later)
  | text => some (false, text)

def skipExponentSign : (text : List Char) → List Char
  | '+' :: rest => rest
  | '-' :: rest => rest
  | text => text

def scanExponent? : (text : List Char) → Option (Bool × List Char)
  | 'e' :: rest => (scanDigits? (skipExponentSign rest)).map fun (_, later) => (true, later)
  | 'E' :: rest => (scanDigits? (skipExponentSign rest)).map fun (_, later) => (true, later)
  | text => some (false, text)

/-- The token of a number whose sign has been read. -/
def numberToken (negative : Bool) (whole : List Char) (broken : Bool) : JsonToken :=
  let size := numeralValue whole
  if broken || (negative && size == 0) then
    .otherNumber
  else if negative then
    .integer (-size)
  else
    .integer size

def scanNumber? (negative : Bool) (text : List Char) : Option (JsonToken × List Char) := do
  let (whole, afterWhole) ← scanWhole? text
  let (hasFraction, afterFraction) ← scanFraction? afterWhole
  let (hasExponent, later) ← scanExponent? afterFraction
  return (numberToken negative whole (hasFraction || hasExponent), later)

def isSpace (letter : Char) : Bool :=
  letter == ' ' || letter == '\n' || letter == '\t' || letter == '\r'

def scanToken? : (text : List Char) → Option (JsonToken × List Char)
  | '{' :: rest => some (.openBrace, rest)
  | '}' :: rest => some (.closeBrace, rest)
  | '[' :: rest => some (.openBracket, rest)
  | ']' :: rest => some (.closeBracket, rest)
  | ':' :: rest => some (.colon, rest)
  | ',' :: rest => some (.comma, rest)
  | 'n' :: 'u' :: 'l' :: 'l' :: rest => some (.null, rest)
  | 't' :: 'r' :: 'u' :: 'e' :: rest => some (.bool true, rest)
  | 'f' :: 'a' :: 'l' :: 's' :: 'e' :: rest => some (.bool false, rest)
  | '"' :: rest => (scanString rest).map fun (parts, later) => (.string (joinParts parts), later)
  | '-' :: rest => scanNumber? true rest
  | text => scanNumber? false text

private theorem scanString_shorter {text rest : List Char} {parts : List StringPart}
    (scanned : scanString text = some (parts, rest)) :
    rest.length < text.length := by
  fun_induction scanString text generalizing parts rest with
  | case1 => cases scanned
  | case2 rest =>
      cases scanned
      simp
  | case3 _ _ _ _ _ _ _ _ tailScanned _ inductionHypothesis =>
      have shorter := inductionHypothesis tailScanned
      cases scanned
      simp only [List.length_cons]
      omega
  | case4 => cases scanned
  | case5 _ _ _ _ _ _ tailScanned _ inductionHypothesis =>
      have shorter := inductionHypothesis tailScanned
      cases scanned
      simp only [List.length_cons]
      omega
  | case6 => cases scanned
  | case7 => cases scanned
  | case8 _ _ _ _ _ _ _ _ tailScanned inductionHypothesis =>
      have shorter := inductionHypothesis tailScanned
      cases scanned
      simp only [List.length_cons]
      omega
  | case9 => cases scanned

private theorem scanDigits?_shorter {text digits rest : List Char}
    (scanned : scanDigits? text = some (digits, rest)) :
    rest.length < text.length := by
  have whole := congrArg List.length
    (List.takeWhile_append_dropWhile (p := Char.isDigit) (l := text))
  simp only [scanDigits?] at scanned
  split at scanned
  · cases scanned
  · rename_i present
    simp only [Option.some.injEq, Prod.mk.injEq] at scanned
    obtain ⟨rfl, rfl⟩ := scanned
    have positive := List.length_pos_iff.2 fun empty => present (List.isEmpty_iff.2 empty)
    simp only [List.length_append] at whole
    omega

private theorem scanWhole?_shorter {text whole rest : List Char}
    (scanned : scanWhole? text = some (whole, rest)) :
    rest.length < text.length := by
  unfold scanWhole? at scanned
  split at scanned
  · simp_all
  · exact scanDigits?_shorter scanned

private theorem scanFraction?_shorter {text rest : List Char} {present : Bool}
    (scanned : scanFraction? text = some (present, rest)) :
    rest.length ≤ text.length := by
  unfold scanFraction? at scanned
  split at scanned
  · obtain ⟨⟨digits, later⟩, digitsScanned, same⟩ := Option.map_eq_some_iff.1 scanned
    have shorter := scanDigits?_shorter digitsScanned
    simp_all
    omega
  · simp_all

private theorem skipExponentSign_shorter (text : List Char) :
    (skipExponentSign text).length ≤ text.length := by
  unfold skipExponentSign
  split <;> simp

private theorem scanExponent?_shorter {text rest : List Char} {present : Bool}
    (scanned : scanExponent? text = some (present, rest)) :
    rest.length ≤ text.length := by
  unfold scanExponent? at scanned
  split at scanned
  · rename_i tail
    obtain ⟨⟨digits, later⟩, digitsScanned, same⟩ := Option.map_eq_some_iff.1 scanned
    have shorter := scanDigits?_shorter digitsScanned
    have signShorter := skipExponentSign_shorter tail
    simp_all
    omega
  · rename_i tail
    obtain ⟨⟨digits, later⟩, digitsScanned, same⟩ := Option.map_eq_some_iff.1 scanned
    have shorter := scanDigits?_shorter digitsScanned
    have signShorter := skipExponentSign_shorter tail
    simp_all
    omega
  · simp_all

private theorem scanNumber?_shorter {negative : Bool} {text rest : List Char} {token : JsonToken}
    (scanned : scanNumber? negative text = some (token, rest)) :
    rest.length < text.length := by
  simp only [scanNumber?, Option.bind_eq_bind, Option.bind_eq_some_iff, Prod.exists] at scanned
  obtain ⟨_, _, wholeScanned, _, _, fractionScanned, _, _, exponentScanned, same⟩ := scanned
  have wholeShorter := scanWhole?_shorter wholeScanned
  have fractionShorter := scanFraction?_shorter fractionScanned
  have exponentShorter := scanExponent?_shorter exponentScanned
  cases same
  omega

private theorem scanToken?_shorter {text rest : List Char} {token : JsonToken}
    (scanned : scanToken? text = some (token, rest)) :
    rest.length < text.length := by
  unfold scanToken? at scanned
  split at scanned
  case h_10 =>
    obtain ⟨⟨parts, later⟩, stringScanned, same⟩ := Option.map_eq_some_iff.1 scanned
    have shorter := scanString_shorter stringScanned
    simp_all
    omega
  case h_11 =>
    have shorter := scanNumber?_shorter scanned
    simp only [List.length_cons]
    omega
  case h_12 => exact scanNumber?_shorter scanned
  all_goals
    cases scanned
    simp only [List.length_cons]
    omega

/-- The tokens of a text, up to the first place where none begins. -/
def tokens (text : List Char) : List JsonToken :=
  match text with
  | [] => []
  | letter :: rest =>
      if isSpace letter then
        tokens rest
      else
        match _scanned : scanToken? (letter :: rest) with
        | some (token, later) => token :: tokens later
        | none => [.malformed]
termination_by text.length
decreasing_by
  · simp
  · exact scanToken?_shorter (by assumption)

namespace JsonToken

/-- The text of a token. Strings are names, which need no escapes. -/
def text : JsonToken → String
  | openBrace => "\x7b"
  | closeBrace => "\x7d"
  | openBracket => "["
  | closeBracket => "]"
  | colon => ":"
  | comma => ","
  | null => "null"
  | bool true => "true"
  | bool false => "false"
  | integer value => toString value
  | string (some content) => "\"" ++ String.ofList content ++ "\""
  | otherNumber | string none | malformed => ""

end JsonToken

def compact (all : List JsonToken) : String :=
  String.join (all.map JsonToken.text)

def newLine (depth : Nat) : String :=
  "\n" ++ String.ofList (List.replicate (2 * depth) ' ')

/-- The pieces of tokens written with each item on a line of its own, inside
so many open braces and brackets. -/
def prettyPieces (depth : Nat) : List JsonToken → List String
  | [] => []
  | .openBracket :: .closeBracket :: rest => "[]" :: prettyPieces depth rest
  | .openBrace :: .closeBrace :: rest => "\x7b\x7d" :: prettyPieces depth rest
  | .openBracket :: rest => "[" :: newLine (depth + 1) :: prettyPieces (depth + 1) rest
  | .openBrace :: rest => "\x7b" :: newLine (depth + 1) :: prettyPieces (depth + 1) rest
  | .closeBracket :: rest => newLine (depth - 1) :: "]" :: prettyPieces (depth - 1) rest
  | .closeBrace :: rest => newLine (depth - 1) :: "\x7d" :: prettyPieces (depth - 1) rest
  | .comma :: rest => "," :: newLine depth :: prettyPieces depth rest
  | .colon :: rest => ": " :: prettyPieces depth rest
  | token :: rest => token.text :: prettyPieces depth rest

/-- Tokens written with each item on a line of its own, indented by two
spaces for each level. -/
def pretty (all : List JsonToken) : String :=
  String.join (prettyPieces 0 all)

end Tabletop.Json
