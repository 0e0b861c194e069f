import Tabletop.Text.CaseTable

/-!
# Lower case

The full lower-case form of a text. Each letter is replaced by its image; two
cases need care: a capital I with a dot becomes two characters, and a capital
sigma becomes a final sigma at the end of a word and a plain one elsewhere.
-/

namespace Tabletop.Text

/-- The lower-case form of a character, without regard to its neighbours. -/
def lowerChar (letter : Char) : List Char :=
  if letter = 'İ' then
    ['i', '\u0307']
  else
    match lowercaseRuns.findSome? (·.image? letter.toNat) with
    | some point => [Char.ofNat point]
    | none => [letter]

/-- A letter that has case, in the sense of the property `Cased`. -/
def isCased (letter : Char) : Bool :=
  inRanges casedRanges letter.toNat

def isCaseIgnorable (letter : Char) : Bool :=
  inRanges caseIgnorableRanges letter.toNat

/-- Behind any ignorable marks, the text goes on with a letter that has case. -/
def meetsCased (text : List Char) : Bool :=
  match text.dropWhile isCaseIgnorable with
  | [] => false
  | letter :: _ => isCased letter

/-- A sigma is final when a letter with case stands before it and none after
it. The text before it is given backwards. -/
def isFinalSigma (backwards forwards : List Char) : Bool :=
  meetsCased backwards && !meetsCased forwards

/-- The lower-case form of `text`, which stands behind the given characters
(nearest first). -/
def lowerBehind (backwards : List Char) : (text : List Char) → List Char
  | [] => []
  | letter :: rest =>
      let image :=
        if letter = 'Σ' then
          [if isFinalSigma backwards rest then 'ς' else 'σ']
        else
          lowerChar letter
      image ++ lowerBehind (letter :: backwards) rest

def lowerChars (text : List Char) : List Char :=
  lowerBehind [] text

def lowercase (text : String) : String :=
  String.ofList (lowerChars text.toList)

def sameName (first second : String) : Bool :=
  lowercase first == lowercase second

end Tabletop.Text
