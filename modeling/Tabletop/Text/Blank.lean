/-!
# Blank characters

White space as Unicode knows it, and the ways a line of text is cut along it:
removing it (`squeeze`), trimming it from the ends (`trim`), and splitting off
the first or the last word of a line.
-/

namespace Tabletop.Text

/-- The characters with the Unicode property `White_Space`. -/
def isBlank (letter : Char) : Bool :=
  let point := letter.toNat
  (9 ≤ point && point ≤ 13) || point == 0x20 || point == 0x85 || point == 0xA0 ||
    point == 0x1680 || (0x2000 ≤ point && point ≤ 0x200A) || point == 0x2028 ||
    point == 0x2029 || point == 0x202F || point == 0x205F || point == 0x3000

def isInk (letter : Char) : Bool :=
  !isBlank letter

/-- Between the space and the end of the seven-bit range nothing is blank. -/
theorem isInk_of_visible {letter : Char} (least : 33 ≤ letter.toNat)
    (greatest : letter.toNat ≤ 126) :
    isInk letter = true := by
  simp only [isInk, isBlank, Bool.not_eq_true', Bool.or_eq_false_iff,
    Bool.and_eq_false_iff, decide_eq_false_iff_not, beq_eq_false_iff_ne]
  omega

/-- The text without its blanks. -/
def squeeze (text : List Char) : List Char :=
  text.filter isInk

def trimStart (text : List Char) : List Char :=
  text.dropWhile isBlank

def trimEnd (text : List Char) : List Char :=
  (trimStart text.reverse).reverse

def trim (text : List Char) : List Char :=
  trimEnd (trimStart text)

@[simp]
theorem squeeze_nil : squeeze [] = [] := rfl

@[simp]
theorem squeeze_append (first second : List Char) :
    squeeze (first ++ second) = squeeze first ++ squeeze second :=
  List.filter_append first second

@[simp]
theorem squeeze_squeeze (text : List Char) :
    squeeze (squeeze text) = squeeze text := by
  simp [squeeze, List.filter_filter]

/-- The characters before the first blank, and the trimmed rest of the line. -/
def splitFirst (line : List Char) : List Char × List Char :=
  (line.takeWhile isInk, trim (line.dropWhile isInk))

/-- The characters after the last blank of the trimmed line, preceded by the
trimmed beginning of the line. -/
def splitLast (line : List Char) : List Char × List Char :=
  let backwards := (trim line).reverse
  (trim (backwards.dropWhile isInk).reverse, (backwards.takeWhile isInk).reverse)

end Tabletop.Text
