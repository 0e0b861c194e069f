import Mathlib
import Tabletop.Proofs.FirstFault

/-!
# Texts that are read alike

Blanks in a notation move the spans of its errors and change nothing else, and
the case of its letters changes at most the letters that an error quotes
(`blanks_move_spans_and_case_keeps_them`).

Both are instances of one law. A `Recasting` exchanges letters and moves
spans; it acts on lexemes and on errors, and the readers commute with it
(`readLexemes_recast`). The spans that the readers put together out of parts of
lexemes are the reason for `Recasting.Fits`: the end of a first character is
moved to the end of the character that replaces it.
-/

namespace Tabletop.Dice

open Tabletop.Text

theorem toNat_toLower_of_isUpper {letter : Char}
    (capital : letter.isUpper = true) :
    65 ≤ letter.toNat ∧ letter.toNat ≤ 90 ∧
      letter.toLower.toNat = letter.toNat + 32 := by
  have range := capital
  simp only [Char.isUpper, ge_iff_le, decide_eq_true_eq] at range
  have lowest : 65 ≤ letter.toNat := range.1
  have highest : letter.toNat ≤ 90 := range.2
  refine ⟨lowest, highest, ?_⟩
  have either := eq_or_capital_of_toLower_eq (rfl : letter.toLower = _)
  rcases either with same | ⟨_, apart⟩
  · have small := Char.isUpper_toLower_eq_false (c := letter)
    rw [← same, capital] at small
    cases small
  · exact apart.symm

theorem isInk_toLower (letter : Char) :
    isInk letter.toLower = isInk letter := by
  by_cases capital : letter.isUpper = true
  · obtain ⟨lowest, highest, low⟩ := toNat_toLower_of_isUpper capital
    have ink : isInk letter = true := isInk_of_visible (by omega) (by omega)
    have inkLow : isInk letter.toLower = true :=
      isInk_of_visible (by omega) (by omega)
    rw [ink, inkLow]
  · rw [Char.toLower_eq_of_not_isUpper capital]

theorem utf8Size_toLower (letter : Char) :
    letter.toLower.utf8Size = letter.utf8Size := by
  by_cases capital : letter.isUpper = true
  · obtain ⟨lowest, highest, low⟩ := toNat_toLower_of_isUpper capital
    have one (other : Char) (small : other.toNat ≤ 127) : other.utf8Size = 1 :=
      Char.utf8Size_eq_one_iff.mpr small
    rw [one letter (by omega), one letter.toLower (by omega)]
  · rw [Char.toLower_eq_of_not_isUpper capital]

theorem toNat_le_of_isDigit {letter : Char} (digit : letter.isDigit = true) :
    letter.toNat ≤ 57 := by
  simp only [Char.isDigit, Bool.and_eq_true, decide_eq_true_eq] at digit
  exact digit.2

theorem toLower_of_lt {letter : Char} (above : 90 < letter.toNat) :
    letter.toLower = letter := by
  apply Char.toLower_eq_of_not_isUpper
  intro capital
  have highest := (toNat_toLower_of_isUpper capital).2.1
  omega

theorem toLower_of_isDigit {letter : Char} (digit : letter.isDigit = true) :
    letter.toLower = letter := by
  have highest := toNat_le_of_isDigit digit
  apply Char.toLower_eq_of_not_isUpper
  intro capital
  have lowest := (toNat_toLower_of_isUpper capital).1
  omega

theorem eq_of_toLower_eq_digit {one other : Char} (digit : one.isDigit = true)
    (same : other.toLower = one.toLower) :
    other = one := by
  have highest := toNat_le_of_isDigit digit
  rw [toLower_of_isDigit digit] at same
  exact eq_of_toLower_eq (by omega) same

/-- An exchange of letters that keeps them but for their case, and a move of
the places where spans start and stop. -/
structure Recasting where
  letter : Char → Char
  start : Nat → Nat
  stop : Nat → Nat
  toLower_letter : ∀ one : Char, (letter one).toLower = one.toLower
  letter_toLower : ∀ one : Char, letter one.toLower = one.toLower
  start_pred : ∀ byte : Nat, start (byte - 1) = stop byte - 1

namespace Recasting

variable (recasting : Recasting)

def text (given : List Char) : List Char :=
  given.map recasting.letter

def span (given : Span) : Span :=
  ⟨recasting.start given.start, recasting.stop given.stop⟩

def lexeme (given : Lexeme) : Lexeme :=
  ⟨given.token, recasting.text given.text, recasting.span given.span⟩

def found : Found → Found
  | .endOfInput => .endOfInput
  | .written given => .written (recasting.text given)

/-- The fault with the text that it quotes recast. -/
def fault : NotationFault → NotationFault
  | .missingSeparator given => .missingSeparator (recasting.found given)
  | .missingSides given => .missingSides (recasting.found given)
  | .unknownOperation clause => .unknownOperation (recasting.text clause)
  | .unexpectedCharacter one => .unexpectedCharacter (recasting.letter one)
  | given => given

def error (given : NotationError) : NotationError :=
  ⟨recasting.fault given.fault, recasting.span given.span⟩

theorem letter_of_isDigit {one : Char} (digit : one.isDigit = true) :
    recasting.letter one = one :=
  eq_of_toLower_eq_digit digit (recasting.toLower_letter one)

theorem isDigit_letter (one : Char) :
    (recasting.letter one).isDigit = one.isDigit := by
  by_cases digit : one.isDigit = true
  · rw [recasting.letter_of_isDigit digit]
  · by_cases other : (recasting.letter one).isDigit = true
    · have same :=
        eq_of_toLower_eq_digit other (recasting.toLower_letter one).symm
      rw [← same]
    · rw [Bool.eq_false_iff.mpr digit, Bool.eq_false_iff.mpr other]

theorem ofLetter_recast (alone : Token) (drops : Bool) (rest : List Char) :
    Token.ofLetter alone drops (recasting.text rest) =
      Token.ofLetter alone drops rest := by
  cases rest with
  | nil =>
      rfl
  | cons second later =>
      have same :
          Cut.ofLetters? drops (recasting.letter second) =
            Cut.ofLetters? drops second := by
        simp only [Cut.ofLetters?, recasting.toLower_letter]
      rw [text, List.map_cons, Token.ofLetter, Token.ofLetter, same]

/-- The cut of a text into tokens does not see the exchange of letters. -/
theorem longest_recast (first : Char) (rest : List Char) :
    Token.longest (recasting.letter first) (recasting.text rest) =
      Token.longest first rest := by
  have digits :
      ((recasting.text rest).takeWhile Char.isDigit).length =
        (rest.takeWhile Char.isDigit).length := by
    rw [text, List.takeWhile_map, List.length_map]
    simp only [Function.comp_def, recasting.isDigit_letter]
  rw [Token.longest, Token.longest, recasting.isDigit_letter,
    recasting.toLower_letter, digits]
  simp only [recasting.ofLetter_recast]

/-- A spelled lexeme whose first character is moved as a whole: the place where
it stops is moved to the place where its replacement stops. -/
structure Fits (given : Lexeme) : Prop where
  spelled : Spells given.token given.text
  first : ∀ one ∈ given.text.head?,
    recasting.stop (given.span.start + one.utf8Size) =
      recasting.start given.span.start + (recasting.letter one).utf8Size

variable {recasting}

theorem token_lexeme (given : Lexeme) :
    (recasting.lexeme given).token = given.token :=
  rfl

theorem Fits.value_lexeme {given : Lexeme} (fits : recasting.Fits given)
    (number : given.token = .number) :
    (recasting.lexeme given).value = given.value := by
  have spelled := fits.spelled
  rw [number] at spelled
  obtain ⟨numeral, digits⟩ := spelled.exists_numeral
  have same : recasting.text given.text = given.text := by
    rw [text, digits]
    refine (List.map_congr_left ?_).trans (List.map_id _)
    exact fun one member =>
      recasting.letter_of_isDigit (numeral.isDigit_of_mem member)
  rw [Lexeme.value, Lexeme.value, lexeme, same]

theorem unexpectedCharacter_recast {given : Lexeme} (fits : recasting.Fits given) :
    unexpectedCharacter (recasting.lexeme given) =
      recasting.error (unexpectedCharacter given) := by
  obtain ⟨one, more, shape⟩ := List.exists_cons_of_ne_nil fits.spelled.text_ne_nil
  have first := fits.first one (by rw [shape]; rfl)
  simp [unexpectedCharacter, error, lexeme, span, fault, text, shape, first]

theorem unknownOperation_recast (keyword : Lexeme) {rest : List Lexeme}
    (fits : ∀ given ∈ rest, recasting.Fits given) :
    unknownOperation (recasting.lexeme keyword) (rest.map recasting.lexeme) =
      recasting.error (unknownOperation keyword rest) := by
  have letters :
      (recasting.text keyword.text).map Char.toLower =
        keyword.text.map Char.toLower := by
    simp [text, recasting.toLower_letter]
  have lettersKept :
      recasting.text (keyword.text.map Char.toLower) =
        keyword.text.map Char.toLower := by
    simp [text, recasting.letter_toLower]
  cases rest with
  | nil =>
      simp [unknownOperation, error, lexeme, fault, letters, lettersKept]
  | cons next later =>
      have nextFits := fits next List.mem_cons_self
      obtain ⟨one, more, shape⟩ :=
        List.exists_cons_of_ne_nil nextFits.spelled.text_ne_nil
      have first := nextFits.first one (by rw [shape]; rfl)
      obtain ⟨token, written, place⟩ := next
      dsimp only at shape first
      subst shape
      rw [text, List.map_map] at letters lettersKept
      simp [unknownOperation, error, lexeme, span, fault, text, first, letters,
        lettersKept]

theorem mapError_bind {ε ε' α β : Type} (change : ε → ε') (first : Except ε α)
    (next : α → Except ε β) :
    (first >>= next).mapError change =
      first.mapError change >>= fun middle => (next middle).mapError change := by
  cases first <;> rfl

section Literals

variable {literal : Lexeme} (fits : recasting.Fits literal)
  (number : literal.token = .number)

include fits number

theorem readCount_recast :
    readCount (recasting.lexeme literal) =
      (readCount literal).mapError recasting.error := by
  unfold readCount
  rw [fits.value_lexeme number]
  split_ifs <;> rfl

theorem readSides_recast :
    readSides (recasting.lexeme literal) =
      (readSides literal).mapError recasting.error := by
  unfold readSides
  rw [fits.value_lexeme number]
  split_ifs <;> rfl

theorem readOperationCount_recast :
    readOperationCount (recasting.lexeme literal) =
      (readOperationCount literal).mapError recasting.error := by
  unfold readOperationCount
  rw [fits.value_lexeme number]
  split_ifs <;> rfl

theorem readModifier_recast (sign : Sign) (signLexeme : Lexeme) :
    readModifier sign (recasting.lexeme signLexeme) (recasting.lexeme literal) =
      (readModifier sign signLexeme literal).mapError recasting.error := by
  unfold readModifier
  rw [fits.value_lexeme number]
  split <;> rfl

end Literals

theorem readClauses_recast {rest : List Lexeme}
    (fits : ∀ given ∈ rest, recasting.Fits given) (expression : Expression) :
    readClauses expression (rest.map recasting.lexeme) =
      (readClauses expression rest).mapError recasting.error := by
  fun_induction readClauses expression rest with
  | case1 expression =>
      rfl
  | case2 expression given later token inductionHypothesis =>
      rw [List.forall_mem_cons] at fits
      rw [List.map_cons, readClauses, token_lexeme, token]
      exact inductionHypothesis fits.2
  | case3 expression given cut token literal later number
      inductionHypothesis =>
      rw [List.forall_mem_cons, List.forall_mem_cons] at fits
      obtain ⟨_, literalFits, laterFits⟩ := fits
      rw [List.map_cons, List.map_cons, readClauses, token_lexeme, token]
      simp only [token_lexeme, number, if_true,
        readOperationCount_recast literalFits number, mapError_bind,
        inductionHypothesis _ laterFits]
  | case6 expression given sign token literal later number
      inductionHypothesis =>
      rw [List.forall_mem_cons, List.forall_mem_cons] at fits
      obtain ⟨_, literalFits, laterFits⟩ := fits
      rw [List.map_cons, List.map_cons, readClauses, token_lexeme, token]
      simp only [token_lexeme, number, if_true,
        readModifier_recast literalFits number, mapError_bind,
        inductionHypothesis _ laterFits]
  -- a keyword or a sign before something else than a number, or at the end
  | case4 expression given cut token literal later other
  | case7 expression given sign token literal later other =>
      rw [List.map_cons, List.map_cons, readClauses, token_lexeme, token]
      simp only [token_lexeme, other, if_false]
      rfl
  | case5 expression given cut token | case8 expression given sign token =>
      rw [List.map_cons, List.map_nil, readClauses, token_lexeme, token]
      rfl
  | case9 expression given later token | case10 expression given later token =>
      rw [List.forall_mem_cons] at fits
      rw [List.map_cons, readClauses, token_lexeme, token]
      exact congrArg Except.error (unknownOperation_recast given fits.2)
  | case11 expression given later token | case12 expression given later token =>
      rw [List.forall_mem_cons] at fits
      rw [List.map_cons, readClauses, token_lexeme, token]
      exact congrArg Except.error (unexpectedCharacter_recast fits.1)

/-- A missing part, quoted or at the end of the text. -/
theorem missingBefore_recast (fault : Found → NotationFault)
    (quotes : ∀ found,
      recasting.fault (fault found) = fault (recasting.found found))
    {finish finish' : Nat} (start : recasting.start finish = finish')
    (stop : recasting.stop finish = finish') (rest : List Lexeme) :
    missingBefore fault finish' (rest.map recasting.lexeme) =
      recasting.error (missingBefore fault finish rest) := by
  cases rest with
  | nil =>
      rw [List.map_nil, missingBefore, missingBefore, error, quotes, span, start,
        stop]
      rfl
  | cons given later =>
      rw [List.map_cons, missingBefore, missingBefore, error, quotes]
      rfl

section Ends

variable {finish finish' : Nat} (start : recasting.start finish = finish')
  (stop : recasting.stop finish = finish')

include start stop

theorem readSidesAndClauses_recast {rest : List Lexeme}
    (fits : ∀ given ∈ rest, recasting.Fits given) (count : UInt32) :
    readSidesAndClauses finish' count (rest.map recasting.lexeme) =
      (readSidesAndClauses finish count rest).mapError recasting.error := by
  have missing :=
    missingBefore_recast .missingSides (fun _ => rfl) start stop
  cases rest with
  | nil =>
      exact congrArg Except.error (missing [])
  | cons literal later =>
      rw [List.forall_mem_cons] at fits
      rw [List.map_cons, readSidesAndClauses, readSidesAndClauses, token_lexeme]
      split
      · rename_i number
        simp only [readSides_recast fits.1 number, mapError_bind,
          readClauses_recast fits.2]
      · exact congrArg Except.error (missing (literal :: later))

theorem readFromSeparator_recast {rest : List Lexeme}
    (fits : ∀ given ∈ rest, recasting.Fits given) (count : UInt32) :
    readFromSeparator finish' count (rest.map recasting.lexeme) =
      (readFromSeparator finish count rest).mapError recasting.error := by
  have missing :=
    missingBefore_recast .missingSeparator (fun _ => rfl) start stop
  cases rest with
  | nil =>
      exact congrArg Except.error (missing [])
  | cons first later =>
      rw [List.forall_mem_cons] at fits
      have droppedSides :
          (⟨.missingSides (.written ((recasting.lexeme first).text.drop 1)),
              ⟨(recasting.lexeme first).span.stop - 1,
                (recasting.lexeme first).span.stop⟩⟩ : NotationError) =
            recasting.error
              ⟨.missingSides (.written (first.text.drop 1)),
                ⟨first.span.stop - 1, first.span.stop⟩⟩ := by
        simp [error, lexeme, fault, found, text, span, recasting.start_pred]
      rw [List.map_cons, readFromSeparator, readFromSeparator, token_lexeme]
      split
      · exact readSidesAndClauses_recast start stop fits.2 count
      · exact congrArg Except.error droppedSides
      · exact congrArg Except.error droppedSides
      · exact congrArg Except.error (missing (first :: later))

theorem readLexemes_recast {all : List Lexeme} (given : all ≠ [])
    (fits : ∀ given ∈ all, recasting.Fits given) :
    readLexemes finish' (all.map recasting.lexeme) =
      (readLexemes finish all).mapError recasting.error := by
  cases all with
  | nil =>
      exact absurd rfl given
  | cons first rest =>
      have separator := readFromSeparator_recast start stop fits 1
      rw [List.forall_mem_cons] at fits
      rw [List.map_cons, readLexemes, readLexemes, token_lexeme]
      split
      · rename_i number
        simp only [readCount_recast fits.1 number, mapError_bind,
          readFromSeparator_recast start stop fits.2]
      · exact separator

end Ends

variable (recasting) in
/-- A character, its replacement, and their places. -/
structure Carries (one other : PlacedChar) : Prop where
  char : other.char = recasting.letter one.char
  offset : other.offset = recasting.start one.offset
  stop : other.stop = recasting.stop one.stop

section Carried

variable {placed others : List PlacedChar}
  (carried : List.Forall₂ recasting.Carries placed others)

include carried

theorem map_char_of_carried :
    others.map PlacedChar.char = recasting.text (placed.map PlacedChar.char) := by
  induction carried with
  | nil =>
      rfl
  | cons first _ inductionHypothesis =>
      rw [List.map_cons, List.map_cons, inductionHypothesis, first.char]
      rfl

theorem spanOf_of_carried (given : placed ≠ []) :
    spanOf others = recasting.span (spanOf placed) := by
  induction carried with
  | nil =>
      exact absurd rfl given
  | @cons one other placed others first later inductionHypothesis =>
      cases later with
      | nil =>
          rw [spanOf_singleton, spanOf_singleton, first.offset, first.stop, span]
      | @cons next otherNext placed others second rest =>
          have laterSpan := inductionHypothesis (List.cons_ne_nil next placed)
          have stop := congrArg Span.stop laterSpan
          rw [← List.singleton_append (x := other),
            ← List.singleton_append (x := one),
            spanOf_append (List.cons_ne_nil other []) (List.cons_ne_nil _ _),
            spanOf_append (List.cons_ne_nil one []) (List.cons_ne_nil _ _), stop,
            spanOf_singleton, spanOf_singleton, first.offset, span, span]

/-- The end of a character is moved to the end of its replacement. -/
theorem stop_of_carried :
    ∀ one ∈ placed, recasting.stop one.stop =
      recasting.start one.offset + (recasting.letter one.char).utf8Size := by
  induction carried with
  | nil =>
      intro one member
      cases member
  | @cons one other _ _ first _ inductionHypothesis =>
      rw [List.forall_mem_cons]
      refine ⟨?_, inductionHypothesis⟩
      rw [← first.stop, PlacedChar.stop, first.offset, first.char]

theorem locate_recast :
    locate others (pieces (others.map PlacedChar.char)) =
      (locate placed (pieces (placed.map PlacedChar.char))).map
        recasting.lexeme := by
  induction length : placed.length using Nat.strong_induction_on
    generalizing placed others with
  | _ size inductionHypothesis =>
      cases carried with
      | nil =>
          rw [List.map_nil, pieces, locate]
          rfl
      | @cons one other rest otherRest first later =>
          rcases cut : Token.longest one.char (rest.map PlacedChar.char) with
            ⟨token, more⟩
          have otherCut :
              Token.longest other.char (otherRest.map PlacedChar.char) =
                (token, more) := by
            rw [first.char, map_char_of_carried later, longest_recast, cut]
          have block :
              List.Forall₂ recasting.Carries (one :: rest.take more)
                (other :: otherRest.take more) :=
            .cons first (List.forall₂_take more later)
          have behind := List.forall₂_drop more later
          have shorter : (rest.drop more).length < size := by
            rw [← length, List.length_drop, List.length_cons]
            omega
          have onward := inductionHypothesis _ shorter behind rfl
          rw [locate_pieces_cons cut, locate_pieces_cons otherCut,
            map_char_of_carried block,
            spanOf_of_carried block (List.cons_ne_nil _ _)]
          split
          · rfl
          · rw [onward]
            rfl

end Carried

theorem fits_of_covers {placed : List PlacedChar} {all : List Lexeme}
    (covers : Covers placed all)
    (whole : ∀ one ∈ placed, recasting.stop one.stop =
      recasting.start one.offset + (recasting.letter one.char).utf8Size) :
    ∀ given ∈ all, recasting.Fits given := by
  induction covers with
  | nil =>
      intro given member
      cases member
  | unknown one rest _ =>
      rw [List.forall_mem_singleton]
      refine ⟨.unknown one.char, ?_⟩
      rintro _ ⟨⟩
      exact whole one List.mem_cons_self
  | @cons token block rest later known spelled _ _ inductionHypothesis =>
      rw [List.forall_mem_append] at whole
      rw [List.forall_mem_cons]
      refine ⟨⟨spelled, ?_⟩, inductionHypothesis whole.2⟩
      intro one member
      cases block with
      | nil =>
          cases member
      | cons first more =>
          cases member
          exact whole.1 first List.mem_cons_self

/-- Texts whose ink is carried from one to the other are read alike. -/
theorem readChars_recast {text other : List Char} (ink : inkOf text ≠ [])
    (carried : List.Forall₂ recasting.Carries (inkOf text) (inkOf other))
    (finish : recasting.start (inkEnd text) = inkEnd other) :
    readChars other = (readChars text).mapError recasting.error := by
  have stop : recasting.stop (inkEnd text) = inkEnd other :=
    (congrArg Span.stop (spanOf_of_carried carried ink)).symm
  have fits := fits_of_covers (covers_lexemes text) (stop_of_carried carried)
  have cut : lexemes other = (lexemes text).map recasting.lexeme := by
    have located := locate_recast carried
    rw [inkOf_map_char, inkOf_map_char] at located
    exact located
  rw [readChars, readChars, cut]
  exact readLexemes_recast finish stop (lexemes_ne_nil ink) fits

end Recasting

/-! ## Blanks -/

/-- The byte of a text at which a byte of its ink stands. Behind the ink that is
the end of the ink. -/
def origin (text : List Char) (byte : Nat) : Nat :=
  (bytesOf (inkOf text))[byte]?.getD (inkEnd text)

/-- From a text without its blanks to the text. -/
def spread (text : List Char) : Recasting where
  letter := id
  start := origin text
  stop byte := origin text (byte - 1) + 1
  toLower_letter _ := rfl
  letter_toLower _ := rfl
  start_pred _ := rfl

theorem fault_spread (text : List Char) (fault : NotationFault) :
    (spread text).fault fault = fault := by
  have kept : (spread text).text = id := List.map_id_fun
  have keptFound (found : Found) : (spread text).found found = found := by
    cases found with
    | endOfInput => rfl
    | written given => rw [Recasting.found, kept, id]
  cases fault <;> simp only [Recasting.fault, kept, keptFound, id]
  rfl

theorem origin_eq_of_getElem? {text : List Char} {byte place : Nat}
    (found : (bytesOf (inkOf text))[byte]? = some place) :
    origin text byte = place := by
  rw [origin, found, Option.getD_some]

theorem carried_spread {text : List Char} {before after : List PlacedChar}
    (cut : inkOf text = before ++ after) :
    List.Forall₂ (spread text).Carries
      (placeFrom (byteLength (before.map PlacedChar.char))
        (after.map PlacedChar.char))
      after := by
  -- `before` is what has been passed: its length is the compact place of `after`
  induction after generalizing before with
  | nil =>
      exact .nil
  | cons one rest inductionHypothesis =>
      have cutNext : inkOf text = (before ++ [one]) ++ rest := by
        rw [cut, List.append_assoc, List.singleton_append]
      have onward := inductionHypothesis cutNext
      rw [List.map_append, byteLength_append] at onward
      have size := one.char.utf8Size_pos
      have first := getElem?_bytesOf before one rest size
      have last := getElem?_bytesOf before one rest (Nat.sub_one_lt_of_lt size)
      rw [← cut] at first last
      refine .cons ⟨rfl, ?_, ?_⟩ onward
      · exact (origin_eq_of_getElem? first).symm
      · have place := origin_eq_of_getElem? last
        have shift :
            byteLength (before.map PlacedChar.char) + one.char.utf8Size - 1 =
              byteLength (before.map PlacedChar.char) + (one.char.utf8Size - 1) := by
          omega
        show one.offset + one.char.utf8Size =
          origin text
            (byteLength (before.map PlacedChar.char) + one.char.utf8Size - 1) + 1
        rw [shift, place]
        omega

theorem start_spread {text : List Char} (ink : inkOf text ≠ []) :
    (spread text).start (inkEnd (squeeze text)) = inkEnd text := by
  have behind : (bytesOf (inkOf text))[byteLength (squeeze text)]? = none := by
    rw [← inkOf_map_char text, ← length_bytesOf]
    exact List.getElem?_eq_none (Nat.le_refl _)
  show origin text (inkEnd (squeeze text)) = inkEnd text
  rw [inkEnd_squeeze ink, origin, behind, Option.getD_none]

theorem carried_squeeze (text : List Char) :
    List.Forall₂ (spread text).Carries (inkOf (squeeze text)) (inkOf text) := by
  have carried := carried_spread (List.nil_append (inkOf text)).symm
  rw [inkOf_map_char, List.map_nil, byteLength, ← place, ← inkOf_squeeze]
    at carried
  exact carried

theorem stop_spread {text : List Char} (ink : inkOf text ≠ []) :
    (spread text).stop (inkEnd (squeeze text)) = inkEnd text := by
  have moved :=
    Recasting.spanOf_of_carried (carried_squeeze text) (inkOf_squeeze_ne_nil ink)
  exact (congrArg Span.stop moved).symm

theorem readChars_squeeze {text : List Char} (ink : inkOf text ≠ []) :
    readChars text =
      (readChars (squeeze text)).mapError (spread text).error :=
  Recasting.readChars_recast (inkOf_squeeze_ne_nil ink) (carried_squeeze text)
    (start_spread ink)

/-- Without blanks an error stands at some characters, or behind all of them. -/
theorem marked_of_squeezed {text : List Char} (ink : inkOf text ≠ [])
    {error : NotationError} (refused : readChars (squeeze text) = .error error) :
    error.span.start < error.span.stop ∧
        error.span.stop ≤ byteLength (squeeze text) ∨
      error.span =
        ⟨byteLength (squeeze text), byteLength (squeeze text)⟩ := by
  obtain ⟨first, middle, last, shape, span, inked, _⟩ :=
    exists_marked (inkOf_squeeze_ne_nil ink) refused
  by_cases none : middle = []
  · right
    rw [if_pos none] at inked
    have behind : last = [] := by
      rw [List.eq_nil_iff_forall_not_mem]
      intro letter member
      have inkThere : letter ∈ squeeze text := by
        rw [shape]
        exact List.mem_append_right _ member
      have blank := inked.2 letter member
      have notBlank := List.of_mem_filter inkThere
      rw [isInk, blank] at notBlank
      cases notBlank
    rw [shape, span, none, behind, List.append_nil, List.append_nil]
  · left
    have long := byteLength_pos none
    rw [shape, span]
    simp only [byteLength_append]
    omega

/-! ## Case -/

def lowered : Recasting where
  letter := Char.toLower
  start := id
  stop := id
  toLower_letter _ := Char.toLower_toLower_eq_toLower _
  letter_toLower _ := Char.toLower_toLower_eq_toLower _
  start_pred _ := rfl

theorem carried_lowered (offset : Nat) (text : List Char) :
    List.Forall₂ lowered.Carries (inkFrom offset text)
      (inkFrom offset (text.map Char.toLower)) := by
  induction text generalizing offset with
  | nil =>
      exact .nil
  | cons letter rest inductionHypothesis =>
      have onward := inductionHypothesis (offset + letter.utf8Size)
      have first : lowered.Carries ⟨letter, offset⟩ ⟨letter.toLower, offset⟩ :=
        ⟨rfl, rfl, congrArg (offset + ·) (utf8Size_toLower letter)⟩
      by_cases ink : isInk letter = true
      · have lowInk := (isInk_toLower letter).trans ink
        have both := List.Forall₂.cons first onward
        simpa [inkFrom, placeFrom, ink, lowInk, utf8Size_toLower] using both
      · have lowInk : ¬ isInk letter.toLower = true := by
          rw [isInk_toLower]
          exact ink
        simpa [inkFrom, placeFrom, ink, lowInk, utf8Size_toLower] using onward

theorem readChars_lowered (text : List Char) :
    readChars (text.map Char.toLower) =
      (readChars text).mapError lowered.error := by
  have carried := carried_lowered 0 text
  by_cases ink : inkOf text = []
  · have none : inkOf (text.map Char.toLower) = [] := by
      rw [← inkOf_eq_inkFrom, ← inkOf_eq_inkFrom, ink] at carried
      exact List.forall₂_nil_left_iff.mp carried
    rw [readChars_eq_error_of_allBlank (inkOf_eq_nil_iff.mp ink),
      readChars_eq_error_of_allBlank (inkOf_eq_nil_iff.mp none)]
    rfl
  · have finish : inkEnd text = inkEnd (text.map Char.toLower) :=
      (congrArg Span.stop (Recasting.spanOf_of_carried carried ink)).symm
    exact Recasting.readChars_recast ink carried finish

theorem ctorIdx_fault (recasting : Recasting) (fault : NotationFault) :
    (recasting.fault fault).ctorIdx = fault.ctorIdx := by
  cases fault <;> rfl

/-- The text without its blanks. -/
def compact (text : String) : String :=
  .ofList (squeeze text.toList)

/-- A span of the text without its blanks, moved to where its first and its last
byte stand in the text. An empty span moves to the end of the ink. -/
def Moves (text : List Char) (span moved : Span) : Prop :=
  if span.start < span.stop then
    (bytesOf (inkOf text))[span.start]? = some moved.start ∧
      ∃ last, (bytesOf (inkOf text))[span.stop - 1]? = some last ∧
        moved.stop = last + 1
  else
    span.start = span.stop ∧ moved = ⟨inkEnd text, inkEnd text⟩

theorem mapError_eq_ok_iff {ε ε' α : Type} (change : ε → ε')
    {outcome : Except ε α} {result : α} :
    outcome.mapError change = .ok result ↔ outcome = .ok result := by
  cases outcome <;> simp [Except.mapError]

theorem moves_spread {text : List Char} (ink : inkOf text ≠ [])
    {error : NotationError} (refused : readChars (squeeze text) = .error error) :
    Moves text error.span ((spread text).span error.span) := by
  have length : (bytesOf (inkOf text)).length = byteLength (squeeze text) := by
    rw [length_bytesOf, inkOf_map_char]
  rcases marked_of_squeezed ink refused with ⟨ordered, inside⟩ | place
  · have firstInside : error.span.start < (bytesOf (inkOf text)).length := by
      omega
    have lastInside : error.span.stop - 1 < (bytesOf (inkOf text)).length := by
      omega
    rw [Moves, if_pos ordered]
    have first := List.getElem?_eq_getElem firstInside
    have last := List.getElem?_eq_getElem lastInside
    refine ⟨?_, _, last, ?_⟩
    · rw [first]
      exact congrArg some (origin_eq_of_getElem? first).symm
    · exact congrArg (· + 1) (origin_eq_of_getElem? last)
  · rw [place, Moves, if_neg (Nat.lt_irrefl _), ← inkEnd_squeeze ink]
    refine ⟨rfl, ?_⟩
    rw [Recasting.span, start_spread ink, stop_spread ink]

/-- A text that is refused without its blanks is refused with them. -/
theorem exists_moved {text : List Char} {fault : NotationFault} {span : Span}
    (refused : readChars (squeeze text) = .error ⟨fault, span⟩) :
    ∃ moved,
      readChars text = .error ⟨fault, moved⟩ ∧ Moves text span moved ∧
        (fault = .empty → moved = ⟨0, 0⟩) := by
  by_cases ink : inkOf text = []
  · have blank := inkOf_eq_nil_iff.mp ink
    rw [squeeze_eq_nil_iff.mpr blank,
      readChars_eq_error_of_allBlank (List.forall_mem_nil _)] at refused
    cases refused
    refine ⟨⟨0, 0⟩, readChars_eq_error_of_allBlank blank, ?_, fun _ => rfl⟩
    rw [Moves, if_neg (Nat.lt_irrefl 0), inkEnd, ink]
    exact ⟨rfl, rfl⟩
  · have known : fault ≠ .empty :=
      (blames_readChars (inkOf_squeeze_ne_nil ink) refused).1
    refine ⟨(spread text).span span, ?_, moves_spread ink refused,
      fun empty => absurd empty known⟩
    rw [readChars_squeeze ink, refused, Except.mapError, Recasting.error,
      fault_spread]

theorem readChars_squeeze_eq_ok_iff {text : List Char} {result : Expression} :
    readChars text = .ok result ↔ readChars (squeeze text) = .ok result := by
  by_cases ink : inkOf text = []
  · have blank := inkOf_eq_nil_iff.mp ink
    rw [squeeze_eq_nil_iff.mpr blank, readChars_eq_error_of_allBlank blank,
      readChars_eq_error_of_allBlank (List.forall_mem_nil _)]
  · rw [readChars_squeeze ink, mapError_eq_ok_iff]

/-- A text is read as it is without its blanks, but for the spans of errors,
which are moved; and texts that differ in the case of their letters are read
alike, but for the letters that an error quotes. -/
theorem blanks_move_spans_and_case_keeps_them (text : String) :
    (∀ expression,
        Expression.read text = .ok expression ↔
          Expression.read (compact text) = .ok expression) ∧
      (∀ fault span,
        Expression.read (compact text) = .error ⟨fault, span⟩ →
          ∃ moved,
            Expression.read text = .error ⟨fault, moved⟩ ∧
              Moves text.toList span moved ∧
              (fault = .empty → moved = ⟨0, 0⟩)) ∧
      ∀ other : String,
        other.toList.map Char.toLower = text.toList.map Char.toLower →
          (∀ expression,
            Expression.read other = .ok expression ↔
              Expression.read text = .ok expression) ∧
          ∀ fault span,
            Expression.read text = .error ⟨fault, span⟩ →
              ∃ recased,
                Expression.read other = .error ⟨recased, span⟩ ∧
                  recased.ctorIdx = fault.ctorIdx ∧
                  lowered.fault recased = lowered.fault fault := by
  refine ⟨?_, ?_, ?_⟩
  · intro expression
    rw [Expression.read, Expression.read, compact, String.toList_ofList]
    exact readChars_squeeze_eq_ok_iff
  · intro fault span refused
    rw [Expression.read, compact, String.toList_ofList] at refused
    exact exists_moved refused
  · intro other sameLetters
    have alike :
        (Expression.read other).mapError lowered.error =
          (Expression.read text).mapError lowered.error := by
      rw [Expression.read, Expression.read, ← readChars_lowered,
        ← readChars_lowered, sameLetters]
    constructor
    · intro expression
      rw [← mapError_eq_ok_iff lowered.error, alike,
        mapError_eq_ok_iff]
    · intro fault span refused
      rw [refused] at alike
      cases outcome : Expression.read other with
      | ok expression =>
          rw [outcome] at alike
          cases alike
      | error error =>
          obtain ⟨recased, place⟩ := error
          rw [outcome] at alike
          have same := Except.error.inj alike
          have sameFault := congrArg NotationError.fault same
          have samePlace : place = span := congrArg NotationError.span same
          refine ⟨recased, by rw [samePlace], ?_, sameFault⟩
          rw [← ctorIdx_fault lowered recased, ← ctorIdx_fault lowered fault]
          exact congrArg NotationFault.ctorIdx sameFault

/-- The clause is blamed from its first letter, with the blanks in it. -/
theorem blanks_move_spans_and_case_keeps_them_of_bare_keep :
    Expression.read (compact "2 d 6 K é") =
        .error ⟨.unknownOperation ['k', 'é'], ⟨3, 6⟩⟩ ∧
      (∃ moved,
        Expression.read "2 d 6 K é" =
            .error ⟨.unknownOperation ['k', 'é'], moved⟩ ∧
          Moves "2 d 6 K é".toList ⟨3, 6⟩ moved ∧
          (NotationFault.unknownOperation ['k', 'é'] = .empty →
            moved = ⟨0, 0⟩)) ∧
      "2 D 6 k é".toList.map Char.toLower =
        "2 d 6 K é".toList.map Char.toLower ∧
      Expression.read "2 d 6 K é" =
        .error ⟨.unknownOperation ['k', 'é'], ⟨6, 10⟩⟩ ∧
      ∃ recased,
        Expression.read "2 D 6 k é" = .error ⟨recased, ⟨6, 10⟩⟩ ∧
          recased.ctorIdx =
            (NotationFault.unknownOperation ['k', 'é']).ctorIdx ∧
          lowered.fault recased =
            lowered.fault (.unknownOperation ['k', 'é']) := by
  have law := blanks_move_spans_and_case_keeps_them "2 d 6 K é"
  have bare :
      Expression.read (compact "2 d 6 K é") =
        .error ⟨.unknownOperation ['k', 'é'], ⟨3, 6⟩⟩ := by
    cbv
  have blanks :
      Expression.read "2 d 6 K é" =
        .error ⟨.unknownOperation ['k', 'é'], ⟨6, 10⟩⟩ := by
    cbv
  have sameLetters :
      "2 D 6 k é".toList.map Char.toLower =
        "2 d 6 K é".toList.map Char.toLower := by
    cbv
  exact ⟨bare, law.2.1 _ _ bare, sameLetters, blanks,
    (law.2.2 "2 D 6 k é" sameLetters).2 _ _ blanks⟩

end Tabletop.Dice
