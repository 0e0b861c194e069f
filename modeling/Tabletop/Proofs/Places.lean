import Mathlib
import Tabletop.Proofs.Lexing

/-!
# Places of the ink

Blanks count as bytes but not as tokens, so a stretch of the ink of a text and
the stretch of the text itself have to be told apart. A stretch of ink runs
from its first to its last character, with the blanks between them and none
around them (`exists_stretch`); what lies behind all ink is blank
(`exists_end_of_ink`). The lexemes of a text take up its ink from the left
(`covers_lexemes`). `bytesOf` lists, for each byte of the ink alone, the byte of
the text that it stands at.
-/

namespace Tabletop.Text

theorem placeFrom_append (offset : Nat) (first second : List Char) :
    placeFrom offset (first ++ second) =
      placeFrom offset first ++ placeFrom (offset + byteLength first) second := by
  induction first generalizing offset with
  | nil =>
      rfl
  | cons letter rest inductionHypothesis =>
      rw [List.cons_append, placeFrom, placeFrom, inductionHypothesis,
        byteLength, Nat.add_assoc, List.cons_append]

theorem byteLength_pos {text : List Char} (given : text ≠ []) :
    0 < byteLength text := by
  cases text with
  | nil =>
      exact absurd rfl given
  | cons letter rest =>
      rw [byteLength]
      exact Nat.add_pos_left letter.utf8Size_pos _

theorem utf8ByteSize_ofList (text : List Char) :
    (String.ofList text).utf8ByteSize = byteLength text := by
  induction text with
  | nil =>
      rfl
  | cons letter rest inductionHypothesis =>
      rw [← List.singleton_append, String.ofList_append,
        String.utf8ByteSize_append, inductionHypothesis,
        ← String.singleton_eq_ofList, String.utf8ByteSize_singleton]
      rfl

def AllBlank (text : List Char) : Prop :=
  ∀ letter ∈ text, isBlank letter = true

theorem squeeze_eq_nil_iff {text : List Char} :
    squeeze text = [] ↔ AllBlank text := by
  simp [squeeze, isInk, AllBlank]

theorem start_spanOf_append {first : List PlacedChar} (second : List PlacedChar)
    (given : first ≠ []) :
    (spanOf (first ++ second)).start = (spanOf first).start := by
  cases first with
  | nil => exact absurd rfl given
  | cons placed rest => rfl

theorem stop_spanOf_append (first : List PlacedChar) {second : List PlacedChar}
    (given : second ≠ []) :
    (spanOf (first ++ second)).stop = (spanOf second).stop := by
  have last : (first ++ second).getLast? = second.getLast? :=
    List.getLast?_append_of_ne_nil first given
  rw [spanOf, spanOf, last]

theorem spanOf_append {first second : List PlacedChar}
    (firstGiven : first ≠ []) (secondGiven : second ≠ []) :
    spanOf (first ++ second) =
      ⟨(spanOf first).start, (spanOf second).stop⟩ := by
  rw [← start_spanOf_append second firstGiven,
    ← stop_spanOf_append first secondGiven]

theorem spanOf_singleton (placed : PlacedChar) :
    spanOf [placed] = ⟨placed.offset, placed.stop⟩ :=
  rfl

theorem stop_spanOf_placeFrom (offset : Nat) {text : List Char}
    (given : text ≠ []) :
    (spanOf (placeFrom offset text)).stop = offset + byteLength text := by
  rcases List.eq_nil_or_concat text with none | ⟨before, last, shape⟩
  · exact absurd none given
  · rw [shape, List.concat_eq_append, placeFrom_append,
      stop_spanOf_append _ (by simp [placeFrom]), placeFrom, placeFrom,
      spanOf_singleton, PlacedChar.stop, byteLength_append, byteLength,
      byteLength]
    dsimp only
    omega

/-- The bytes that some placed characters take up, in their order. -/
def bytesOf (placed : List PlacedChar) : List Nat :=
  placed.flatMap fun one => List.range' one.offset one.char.utf8Size

theorem length_bytesOf (placed : List PlacedChar) :
    (bytesOf placed).length = byteLength (placed.map PlacedChar.char) := by
  induction placed with
  | nil =>
      rfl
  | cons one rest inductionHypothesis =>
      rw [bytesOf, List.flatMap_cons, ← bytesOf, List.length_append,
        inductionHypothesis, List.length_range', List.map_cons, byteLength]

theorem getElem?_bytesOf (before : List PlacedChar) (one : PlacedChar)
    (after : List PlacedChar) {byte : Nat} (inside : byte < one.char.utf8Size) :
    (bytesOf (before ++ one :: after))[
        byteLength (before.map PlacedChar.char) + byte]? =
      some (one.offset + byte) := by
  rw [bytesOf, List.flatMap_append, ← bytesOf, ← length_bytesOf,
    List.getElem?_append_right (Nat.le_add_right _ _), Nat.add_sub_cancel_left,
    List.flatMap_cons,
    List.getElem?_append_left (by rwa [List.length_range']),
    List.getElem?_range' inside, Nat.one_mul]

end Tabletop.Text

namespace Tabletop.Dice

open Tabletop.Text

/-- The characters that are not blank, with their places if the first
character of the text stands at `offset`. -/
def inkFrom (offset : Nat) (text : List Char) : List PlacedChar :=
  (placeFrom offset text).filter fun placed => isInk placed.char

theorem inkOf_eq_inkFrom (text : List Char) : inkOf text = inkFrom 0 text :=
  rfl

theorem inkFrom_map_char (offset : Nat) (text : List Char) :
    (inkFrom offset text).map PlacedChar.char = squeeze text := by
  rw [inkFrom, squeeze, ← placeFrom_map_char offset text, List.filter_map,
    placeFrom_map_char]
  rfl

theorem inkOf_map_char (text : List Char) :
    (inkOf text).map PlacedChar.char = squeeze text :=
  inkFrom_map_char 0 text

theorem inkOf_eq_nil_iff {text : List Char} :
    inkOf text = [] ↔ AllBlank text := by
  rw [← squeeze_eq_nil_iff, ← inkOf_map_char, List.map_eq_nil_iff]

theorem inkOf_squeeze (text : List Char) :
    inkOf (squeeze text) = place (squeeze text) := by
  rw [inkOf, List.filter_eq_self]
  intro placed member
  have letter := List.mem_map_of_mem (f := PlacedChar.char) member
  rw [place_map_char] at letter
  exact List.of_mem_filter letter

theorem inkOf_squeeze_ne_nil {text : List Char} (ink : inkOf text ≠ []) :
    inkOf (squeeze text) ≠ [] := by
  rw [Ne, inkOf_eq_nil_iff, ← squeeze_eq_nil_iff, squeeze_squeeze,
    squeeze_eq_nil_iff, ← inkOf_eq_nil_iff]
  exact ink

theorem inkEnd_squeeze {text : List Char} (ink : inkOf text ≠ []) :
    inkEnd (squeeze text) = byteLength (squeeze text) := by
  have given : squeeze text ≠ [] := by
    rw [← inkOf_map_char]
    exact mt List.map_eq_nil_iff.mp ink
  rw [inkEnd, inkOf_squeeze, place, stop_spanOf_placeFrom 0 given, Nat.zero_add]

/-- A text is split at any character of its ink. -/
theorem exists_split_of_inkFrom {offset : Nat} {text : List Char}
    {before after : List PlacedChar} {placed : PlacedChar}
    (cut : inkFrom offset text = before ++ placed :: after) :
    ∃ first rest,
      text = first ++ placed.char :: rest ∧
        squeeze first = before.map PlacedChar.char ∧
        placed.offset = offset + byteLength first ∧
        isInk placed.char = true ∧ inkFrom placed.stop rest = after := by
  induction text generalizing offset before with
  | nil =>
      exact absurd cut.symm (by simp [inkFrom, placeFrom])
  | cons letter later inductionHypothesis =>
      by_cases ink : isInk letter = true
      · have shape :
            inkFrom offset (letter :: later) =
              ⟨letter, offset⟩ :: inkFrom (offset + letter.utf8Size) later := by
          simp [inkFrom, placeFrom, ink]
        rw [shape] at cut
        cases before with
        | nil =>
            obtain ⟨rfl, rfl⟩ := List.cons.inj cut
            exact ⟨[], later, rfl, rfl, rfl, ink, rfl⟩
        | cons head beforeLater =>
            obtain ⟨rfl, cutLater⟩ := List.cons.inj cut
            obtain ⟨first, rest, rfl, bare, place, inkThere, behind⟩ :=
              inductionHypothesis cutLater
            refine ⟨letter :: first, rest, rfl, ?_, ?_, inkThere, behind⟩
            · rw [List.map_cons, ← bare, squeeze, List.filter_cons_of_pos ink,
                squeeze]
            · rw [place, byteLength, Nat.add_assoc]
      · have shape :
            inkFrom offset (letter :: later) =
              inkFrom (offset + letter.utf8Size) later := by
          simp [inkFrom, placeFrom, ink]
        rw [shape] at cut
        obtain ⟨first, rest, rfl, bare, place, inkThere, behind⟩ :=
          inductionHypothesis cut
        refine ⟨letter :: first, rest, rfl, ?_, ?_, inkThere, behind⟩
        · rw [← bare, squeeze, List.filter_cons_of_neg ink, squeeze]
        · rw [place, byteLength, Nat.add_assoc]

/-- A text that begins and ends with characters that are not blank. -/
def InkedAtBothEnds (text : List Char) : Prop :=
  (∃ letter ∈ text.head?, isInk letter = true) ∧
    ∃ letter ∈ text.getLast?, isInk letter = true

/-- A stretch of the ink is the ink of the stretch of the text that its span
names. -/
theorem exists_stretch {text : List Char} {before held after : List PlacedChar}
    (cut : inkOf text = before ++ held ++ after) (given : held ≠ []) :
    ∃ first middle last,
      text = first ++ middle ++ last ∧
        squeeze first = before.map PlacedChar.char ∧
        squeeze middle = held.map PlacedChar.char ∧
        spanOf held = ⟨byteLength first, byteLength (first ++ middle)⟩ ∧
        InkedAtBothEnds middle := by
  cases held with
  | nil =>
      exact absurd rfl given
  | cons one more =>
      rw [inkOf_eq_inkFrom, List.append_assoc, List.cons_append] at cut
      obtain ⟨first, rest, rfl, bare, place, ink, behind⟩ :=
        exists_split_of_inkFrom cut
      rcases List.eq_nil_or_concat more with rfl | ⟨between, final, rfl⟩
      · refine ⟨first, [one.char], rest, by simp, bare,
          List.filter_cons_of_pos ink, ?_, ⟨one.char, rfl, ink⟩,
          ⟨one.char, rfl, ink⟩⟩
        simp [spanOf_singleton, PlacedChar.stop, place, byteLength]
      · rw [List.concat_eq_append, List.append_assoc, List.singleton_append]
          at behind
        obtain ⟨inner, last, rfl, innerBare, finalPlace, finalInk, _⟩ :=
          exists_split_of_inkFrom behind
        have finalLast :
            final.char ∈ ((one.char :: inner) ++ [final.char]).getLast? :=
          List.getLast?_concat
        refine ⟨first, (one.char :: inner) ++ [final.char], last, by simp,
          bare, ?_, ?_, ⟨one.char, rfl, ink⟩, ⟨final.char, finalLast, finalInk⟩⟩
        · rw [squeeze_append, squeeze, List.filter_cons_of_pos ink, ← squeeze,
            innerBare, squeeze, List.filter_cons_of_pos finalInk]
          simp
        · rw [List.concat_eq_append, ← List.cons_append,
            spanOf_append (List.cons_ne_nil one between)
              (List.cons_ne_nil final []), spanOf_singleton]
          simp [spanOf, PlacedChar.stop, place, finalPlace, byteLength]
          omega

/-- The ink ends with its last character, and only blanks follow. -/
theorem exists_end_of_ink {text : List Char} (given : inkOf text ≠ []) :
    ∃ first last,
      text = first ++ last ∧ squeeze first = squeeze text ∧
        inkEnd text = byteLength first ∧
        (∃ letter ∈ first.getLast?, isInk letter = true) ∧ AllBlank last := by
  rcases List.eq_nil_or_concat (inkOf text) with none | ⟨before, final, cut⟩
  · exact absurd none given
  · rw [List.concat_eq_append] at cut
    obtain ⟨first, last, shape, bare, place, ink, behind⟩ :=
      exists_split_of_inkFrom cut
    have blank : squeeze last = [] := by
      rw [← inkFrom_map_char final.stop last, behind, List.map_nil]
    have joined : text = (first ++ [final.char]) ++ last := by simp [shape]
    refine ⟨first ++ [final.char], last, joined, ?_, ?_,
      ⟨final.char, List.getLast?_concat, ink⟩, squeeze_eq_nil_iff.mp blank⟩
    · rw [joined, squeeze_append _ last, blank, List.append_nil]
    · rw [inkEnd, cut, stop_spanOf_append before (List.cons_ne_nil final []),
        spanOf_singleton, PlacedChar.stop, place]
      simp [byteLength]

theorem locate_pieces_cons {one : PlacedChar} {rest : List PlacedChar}
    {token : Token} {more : Nat}
    (cut : Token.longest one.char (rest.map PlacedChar.char) = (token, more)) :
    locate (one :: rest) (pieces ((one :: rest).map PlacedChar.char)) =
      ⟨token, (one :: rest.take more).map PlacedChar.char,
          spanOf (one :: rest.take more)⟩ ::
        if token = .unknown then []
        else
          locate (rest.drop more)
            (pieces ((rest.drop more).map PlacedChar.char)) := by
  have taken : rest.take (min more rest.length) = rest.take more :=
    List.take_eq_take_min.symm
  have dropped : rest.drop (min more rest.length) = rest.drop more :=
    List.drop_eq_drop_min.symm
  rw [List.map_cons, pieces_cons, cut]
  by_cases unknown : token = .unknown
  · simp [unknown, locate, taken, ← List.map_take]
  · simp [unknown, locate, taken, dropped, ← List.map_take, ← List.map_drop]

/-- Lexemes that take up some placed characters from the left: all of them, or
those up to one at which no token can start. None of them could be longer. -/
inductive Covers : List PlacedChar → List Lexeme → Prop
  | nil : Covers [] []
  | unknown (one : PlacedChar) (rest : List PlacedChar) :
      ¬ BeginsToken one.char →
      Covers (one :: rest) [⟨.unknown, [one.char], spanOf [one]⟩]
  | cons {token : Token} {block rest : List PlacedChar} {later : List Lexeme} :
      token ≠ .unknown → Spells token (block.map PlacedChar.char) →
      token.EndsBefore (rest.map PlacedChar.char) → Covers rest later →
      Covers (block ++ rest)
        (⟨token, block.map PlacedChar.char, spanOf block⟩ :: later)

theorem covers_locate (placed : List PlacedChar) :
    Covers placed (locate placed (pieces (placed.map PlacedChar.char))) := by
  induction length : placed.length using Nat.strong_induction_on
    generalizing placed with
  | _ size inductionHypothesis =>
      cases placed with
      | nil =>
          rw [List.map_nil, pieces, locate]
          exact Covers.nil
      | cons one rest =>
          have spelled := longest_spelled one.char (rest.map PlacedChar.char)
          have ends := endsBefore_longest one.char (rest.map PlacedChar.char)
          rcases cut : Token.longest one.char (rest.map PlacedChar.char) with
            ⟨token, more⟩
          rw [cut, ← List.map_take, ← List.map_cons] at spelled
          rw [cut, ← List.map_drop] at ends
          rw [locate_pieces_cons cut]
          by_cases unknown : token = .unknown
          · subst unknown
            have foreign := not_beginsToken_of_longest (congrArg Prod.fst cut)
            obtain ⟨letter, single⟩ := spelled.exists_letter
            have alone : rest.take more = [] := by
              rw [List.map_cons] at single
              exact List.map_eq_nil_iff.mp (List.cons.inj single).2
            rw [if_pos rfl, alone]
            exact Covers.unknown one rest foreign
          · rw [if_neg unknown]
            have shorter : (rest.drop more).length < size := by
              rw [← length, List.length_drop, List.length_cons]
              omega
            have later := inductionHypothesis _ shorter (rest.drop more) rfl
            have whole := Covers.cons unknown spelled ends later
            rw [List.cons_append, List.take_append_drop] at whole
            exact whole

theorem covers_lexemes (text : List Char) :
    Covers (inkOf text) (lexemes text) := by
  have covers := covers_locate (inkOf text)
  rw [inkOf_map_char] at covers
  exact covers

theorem ne_nil_of_spells {token : Token} {block : List PlacedChar}
    (spelled : Spells token (block.map PlacedChar.char)) : block ≠ [] :=
  fun none => spelled.text_ne_nil (List.map_eq_nil_iff.mpr none)

/-- The first lexeme takes up the first characters, as many as it can, and the
later ones the characters behind it. -/
theorem Covers.exists_longest {placed : List PlacedChar} {lexeme : Lexeme}
    {later : List Lexeme} (covers : Covers placed (lexeme :: later)) :
    ∃ block rest,
      placed = block ++ rest ∧ block ≠ [] ∧
        lexeme.text = block.map PlacedChar.char ∧
        lexeme.span = spanOf block ∧ Spells lexeme.token lexeme.text ∧
        lexeme.token.EndsBefore (rest.map PlacedChar.char) ∧
        (lexeme.token ≠ .unknown → Covers rest later) := by
  cases covers with
  | unknown one rest _ =>
      exact ⟨[one], rest, rfl, List.cons_ne_nil one [], rfl, rfl,
        Spells.unknown one.char, trivial, fun known => absurd rfl known⟩
  | @cons token block rest later known spelled ends coversLater =>
      exact ⟨block, rest, rfl, ne_nil_of_spells spelled, rfl, rfl, spelled, ends,
        fun _ => coversLater⟩

theorem Covers.exists_block {placed : List PlacedChar} {lexeme : Lexeme}
    {later : List Lexeme} (covers : Covers placed (lexeme :: later)) :
    ∃ block rest,
      placed = block ++ rest ∧ block ≠ [] ∧
        lexeme.text = block.map PlacedChar.char ∧
        lexeme.span = spanOf block ∧ Spells lexeme.token lexeme.text ∧
        (lexeme.token ≠ .unknown → Covers rest later) := by
  obtain ⟨block, rest, shape, given, text, span, spelled, _, coversLater⟩ :=
    covers.exists_longest
  exact ⟨block, rest, shape, given, text, span, spelled, coversLater⟩

/-- A number takes up the digits of a numeral of the same value. -/
theorem Covers.exists_numeral {placed : List PlacedChar} {literal : Lexeme}
    {later : List Lexeme} (covers : Covers placed (literal :: later))
    (number : literal.token = .number) :
    ∃ (numeral : Numeral) (block rest : List PlacedChar),
      placed = block ++ rest ∧ block ≠ [] ∧
        block.map PlacedChar.char = numeral.digits ∧
        literal.value = numeral.value ∧ literal.span = spanOf block ∧
        Covers rest later := by
  obtain ⟨block, rest, shape, given, text, span, spelled, coversLater⟩ :=
    covers.exists_block
  rw [number] at spelled coversLater
  obtain ⟨numeral, written⟩ := spelled.exists_numeral
  have value : literal.value = numeral.value := by
    rw [Lexeme.value, written, Numeral.value]
  exact ⟨numeral, block, rest, shape, given, text.symm.trans written, value,
    span, coversLater (by decide)⟩

theorem lexemes_ne_nil {text : List Char} (ink : inkOf text ≠ []) :
    lexemes text ≠ [] := by
  have covers := covers_lexemes text
  intro none
  rw [none] at covers
  generalize inkOf text = placed at covers ink
  cases covers
  exact ink rfl

end Tabletop.Dice
