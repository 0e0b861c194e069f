import Mathlib
import Tabletop.Proofs.CanonicalText
import Tabletop.Proofs.Places

/-!
# Where a fault is reported

The error of a notation stands at the first place where the text goes wrong:
what is written before it can still be completed to a notation
(`error_marks_first_fault`).

A reader that fails blames a stretch of the ink, and what lies before that
stretch begins a text of the kind that the reader accepts (`Blames`). The
readers take the lexemes from the left; what one of them has taken before it
goes on to the next is put in front of what the next one blames
(`Blames.behind`).
-/

namespace Tabletop.Dice

open Tabletop.Text

/-- The characters of clauses in range. -/
def IsClauses (text : List Char) : Prop :=
  ∃ clauses : List Clause,
    (∀ clause ∈ clauses, clause.InRange) ∧ text = clauses.flatMap Clause.chars

def IsSidesAndClauses (text : List Char) : Prop :=
  ∃ (sides : Numeral) (rest : List Char),
    (2 ≤ sides.value ∧ sides.value ≤ 2 ^ 32 - 1) ∧ IsClauses rest ∧
      text = sides.digits ++ rest

def IsFromSeparator (text : List Char) : Prop :=
  ∃ separator ∈ ['d', 'D'], ∃ rest,
    IsSidesAndClauses rest ∧ text = separator :: rest

def IsNotation (text : List Char) : Prop :=
  ∃ tree : NotationTree, tree.InRange ∧ text = tree.chars

theorem isClauses_nil : IsClauses [] :=
  ⟨[], by simp, rfl⟩

theorem isClauses_append {clause : Clause} {rest : List Char}
    (inRange : clause.InRange) (accepted : IsClauses rest) :
    IsClauses (clause.chars ++ rest) := by
  obtain ⟨clauses, inRangeLater, rfl⟩ := accepted
  exact ⟨clause :: clauses, List.forall_mem_cons.mpr ⟨inRange, inRangeLater⟩,
    rfl⟩

theorem exists_isSidesAndClauses : ∃ text, IsSidesAndClauses text := by
  refine ⟨_, .ofNat 2, [], ?_, isClauses_nil, rfl⟩
  rw [Numeral.value_ofNat]
  omega

theorem isNotation_append {count : Option Numeral} {rest : List Char}
    (inRange : ∀ given ∈ count, 1 ≤ given.value ∧ given.value ≤ 1000)
    (accepted : IsFromSeparator rest) :
    IsNotation ((count.map Numeral.digits).getD [] ++ rest) := by
  obtain ⟨separator, letter, _, ⟨sides, _, sidesInRange, clauses, rfl⟩, rfl⟩ :=
    accepted
  obtain ⟨clauses, clausesInRange, rfl⟩ := clauses
  exact ⟨⟨count, separator, letter, sides, clauses⟩,
    ⟨inRange, sidesInRange, clausesInRange⟩, rfl⟩

/-! ## Blame -/

/-- An error that blames what is written: it stands at a stretch of some placed
characters, or at `finish` if they all are in order, and what lies before
begins an accepted text. -/
def Blames (Accepted : List Char → Prop) (finish : Nat)
    (placed : List PlacedChar) (error : NotationError) : Prop :=
  error.fault ≠ .empty ∧ ∃ before held after,
    placed = before ++ held ++ after ∧
      (∃ continuation,
        Accepted (before.map PlacedChar.char ++ continuation)) ∧
      (held ≠ [] ∧ error.span = spanOf held ∨
        held = [] ∧ after = [] ∧ error.span = ⟨finish, finish⟩)

namespace Blames

variable {Accepted Whole : List Char → Prop} {finish : Nat}
  {error : NotationError}

/-- The blame stays where it is if accepted characters are put in front. -/
theorem behind {rest : List PlacedChar} (block : List PlacedChar)
    (onward : ∀ text, Accepted text →
      Whole (block.map PlacedChar.char ++ text))
    (blames : Blames Accepted finish rest error) :
    Blames Whole finish (block ++ rest) error := by
  obtain ⟨fault, before, held, after, rfl, ⟨continuation, accepted⟩, place⟩ :=
    blames
  refine ⟨fault, block ++ before, held, after, by simp, ⟨continuation, ?_⟩,
    place⟩
  rw [List.map_append, List.append_assoc]
  exact onward _ accepted

theorem front {held : List PlacedChar} (after : List PlacedChar)
    (given : held ≠ []) (fault : error.fault ≠ .empty)
    (span : error.span = spanOf held) (accepted : ∃ text, Accepted text) :
    Blames Accepted finish (held ++ after) error :=
  ⟨fault, [], held, after, rfl, accepted, Or.inl ⟨given, span⟩⟩

end Blames

theorem blames_missingBefore {Accepted : List Char → Prop}
    {placed : List PlacedChar} {rest : List Lexeme} (covers : Covers placed rest)
    (accepted : ∃ text, Accepted text) {fault : Found → NotationFault}
    (known : ∀ found, fault found ≠ .empty) (finish : Nat) :
    Blames Accepted finish placed (missingBefore fault finish rest) := by
  cases rest with
  | nil =>
      cases covers
      exact ⟨known .endOfInput, [], [], [], rfl, accepted,
        Or.inr ⟨rfl, rfl, rfl⟩⟩
  | cons lexeme later =>
      obtain ⟨block, behind, rfl, given, _, span, _⟩ := covers.exists_block
      exact .front behind given (known (.written lexeme.text)) span accepted

theorem bind_eq_error_iff {ε α β : Type} {first : Except ε α}
    {next : α → Except ε β} {fault : ε} :
    (first >>= next) = .error fault ↔
      first = .error fault ∨
        ∃ middle, first = .ok middle ∧ next middle = .error fault := by
  cases first with
  | error other =>
      simp [bind, Except.bind]
  | ok middle =>
      simp [bind, Except.bind]

/-- Both refusals of a literal concern the whole literal. -/
theorem blames_literal {Accepted : List Char → Prop} {α : Type}
    {first second : Prop} [Decidable first] [Decidable second]
    {literal : Lexeme} {firstFault secondFault : NotationFault} {value : α}
    {error : NotationError}
    (refused :
      (if first then literal.refuse firstFault
        else if second then literal.refuse secondFault
        else .ok value) = .error error)
    (firstKnown : firstFault ≠ .empty) (secondKnown : secondFault ≠ .empty)
    {digits : List PlacedChar} (given : digits ≠ [])
    (span : literal.span = spanOf digits) (after : List PlacedChar)
    (finish : Nat) (accepted : ∃ text, Accepted text) :
    Blames Accepted finish (digits ++ after) error := by
  split at refused
  · cases refused
    exact .front after given firstKnown span accepted
  · split at refused <;> cases refused
    exact .front after given secondKnown span accepted

/-- A modifier is refused together with its sign. -/
theorem blames_readModifier {Accepted : List Char → Prop} {sign : Sign}
    {signLexeme literal : Lexeme} {error : NotationError}
    (refused : readModifier sign signLexeme literal = .error error)
    {block digits : List PlacedChar} (signGiven : block ≠ [])
    (given : digits ≠ []) (signSpan : signLexeme.span = spanOf block)
    (span : literal.span = spanOf digits) (after : List PlacedChar)
    (finish : Nat) (accepted : ∃ text, Accepted text) :
    Blames Accepted finish (block ++ digits ++ after) error := by
  unfold readModifier at refused
  split at refused <;> cases refused
  have place := spanOf_append signGiven given
  rw [← signSpan, ← span] at place
  exact .front after (by simp [given]) (by simp) place.symm accepted

theorem span_unexpectedCharacter {lexeme : Lexeme} {one : PlacedChar}
    {more : List PlacedChar}
    (text : lexeme.text = (one :: more).map PlacedChar.char)
    (span : lexeme.span = spanOf (one :: more)) :
    (unexpectedCharacter lexeme).span = spanOf [one] := by
  rw [unexpectedCharacter, text, span]
  rfl

theorem blames_unexpectedCharacter {Accepted : List Char → Prop}
    {placed : List PlacedChar} {lexeme : Lexeme} {later : List Lexeme}
    (covers : Covers placed (lexeme :: later)) (finish : Nat)
    (accepted : ∃ text, Accepted text) :
    Blames Accepted finish placed (unexpectedCharacter lexeme) := by
  obtain ⟨block, behind, rfl, given, text, span, _⟩ := covers.exists_block
  obtain ⟨one, more, rfl⟩ := List.exists_cons_of_ne_nil given
  exact .front (more ++ behind) (List.cons_ne_nil one [])
    (by simp [unexpectedCharacter]) (span_unexpectedCharacter text span) accepted

theorem fault_unknownOperation (keyword : Lexeme) (rest : List Lexeme) :
    (unknownOperation keyword rest).fault ≠ .empty := by
  unfold unknownOperation
  split <;> simp

theorem blames_unknownOperation {Accepted : List Char → Prop}
    {placed : List PlacedChar} {keyword : Lexeme} {rest : List Lexeme}
    (covers : Covers placed (keyword :: rest)) (known : keyword.token ≠ .unknown)
    (finish : Nat) (accepted : ∃ text, Accepted text) :
    Blames Accepted finish placed (unknownOperation keyword rest) := by
  obtain ⟨block, behind, rfl, given, _, span, _, coversRest⟩ :=
    covers.exists_block
  have fault := fault_unknownOperation keyword rest
  cases rest with
  | nil =>
      exact .front behind given fault span accepted
  | cons next later =>
      obtain ⟨following, after, rfl, givenNext, textNext, spanNext, _⟩ :=
        (coversRest known).exists_block
      obtain ⟨one, more, rfl⟩ := List.exists_cons_of_ne_nil givenNext
      have place :
          (unknownOperation keyword (next :: later)).span =
            spanOf (block ++ [one]) := by
        obtain ⟨token, text, nextSpan⟩ := next
        dsimp only at textNext spanNext
        subst textNext spanNext
        rw [spanOf_append given (List.cons_ne_nil one []), ← span]
        rfl
      have shape :
          block ++ (one :: more ++ after) = (block ++ [one]) ++ (more ++ after) := by
        simp
      rw [shape]
      exact .front (more ++ after) (by simp) fault place accepted

/-- Reading clauses, everything before the fault begins clauses in range. -/
theorem blames_readClauses {placed : List PlacedChar} {rest : List Lexeme}
    (covers : Covers placed rest) (finish : Nat) {expression : Expression}
    {error : NotationError}
    (refused : readClauses expression rest = .error error) :
    Blames IsClauses finish placed error := by
  have anyClauses : ∃ text, IsClauses text := ⟨[], isClauses_nil⟩
  -- a clause in order is put in front; a fault at the head of a clause has
  -- nothing before it
  fun_induction readClauses expression rest generalizing placed with
  | case1 expression =>
      cases refused
  | case2 expression lexeme later token inductionHypothesis =>
      obtain ⟨block, behind, rfl, _, text, _, spelled, coversLater⟩ :=
        covers.exists_block
      rw [token] at spelled coversLater
      refine .behind block ?_
        (inductionHypothesis (coversLater (by decide)) refused)
      intro accepted clauses
      rw [← text, spelled.text_of_advantage]
      exact isClauses_append Clause.inRange_advantage clauses
  | case3 expression lexeme cut token literal later number
      inductionHypothesis =>
      obtain ⟨block, behind, rfl, _, text, _, spelled, coversLiteral⟩ :=
        covers.exists_block
      rw [token] at spelled coversLiteral
      obtain ⟨keyword, rfl, letters⟩ := spelled.exists_keyword
      rw [letters] at text
      obtain ⟨numeral, digits, after, rfl, given, written, value, span,
        coversLater⟩ := (coversLiteral (by simp)).exists_numeral number
      rcases bind_eq_error_iff.mp refused with
        literalRefused | ⟨count, readLiteral, laterRefused⟩
      · -- a count that is refused stands behind its keyword, which `1` completes
        have completed : IsClauses (keyword.chars ++ (Numeral.ofNat 1).digits) := by
          have clause : (Clause.operation keyword (.ofNat 1)).InRange := by
            rw [Clause.inRange_operation, Numeral.value_ofNat]
            omega
          simpa [Clause.chars] using isClauses_append clause isClauses_nil
        rw [text] at completed
        exact .behind block (fun _ accepted => accepted)
          (blames_literal literalRefused (by simp) (by simp) given span after
            finish ⟨_, completed⟩)
      · have inRange := (readOperationCount_eq_ok_iff.mp readLiteral).1
        rw [value] at inRange
        rw [← List.append_assoc]
        refine .behind (block ++ digits) ?_
          (inductionHypothesis count coversLater laterRefused)
        intro following accepted
        rw [List.map_append, ← text, written]
        exact isClauses_append (Clause.inRange_operation.mpr inRange) accepted
  | case6 expression lexeme sign token literal later number
      inductionHypothesis =>
      obtain ⟨block, behind, rfl, givenSign, text, signSpan, spelled,
        coversLiteral⟩ := covers.exists_block
      rw [token] at spelled coversLiteral
      rw [spelled.text_of_sign] at text
      obtain ⟨numeral, digits, after, rfl, given, written, value, span,
        coversLater⟩ := (coversLiteral (by simp)).exists_numeral number
      rw [← List.append_assoc]
      rcases bind_eq_error_iff.mp refused with
        literalRefused | ⟨modifier, readLiteral, laterRefused⟩
      · exact blames_readModifier literalRefused givenSign given signSpan span
          after finish anyClauses
      · have inRange := (readModifier_eq_ok_iff.mp readLiteral).1
        rw [value] at inRange
        refine .behind (block ++ digits) ?_
          (inductionHypothesis modifier coversLater laterRefused)
        intro following accepted
        rw [List.map_append, ← text, written]
        exact isClauses_append (Clause.inRange_modifier.mpr inRange) accepted
  -- a keyword or a sign without a number behind it
  | case4 | case5 | case7 | case8 =>
      obtain ⟨block, behind, rfl, given, _, span, _⟩ := covers.exists_block
      cases refused
      exact .front behind given (by simp) span anyClauses
  | case9 expression lexeme later token | case10 expression lexeme later token =>
      cases refused
      exact blames_unknownOperation covers (by simp [token]) finish anyClauses
  | case11 | case12 =>
      cases refused
      exact blames_unexpectedCharacter covers finish anyClauses

theorem blames_readSidesAndClauses {placed : List PlacedChar}
    {rest : List Lexeme} (covers : Covers placed rest) {finish : Nat}
    {count : UInt32} {error : NotationError}
    (refused : readSidesAndClauses finish count rest = .error error) :
    Blames IsSidesAndClauses finish placed error := by
  unfold readSidesAndClauses at refused
  split at refused
  · rename_i literal later
    split at refused
    · rename_i number
      obtain ⟨numeral, digits, after, rfl, given, written, value, span,
        coversLater⟩ := covers.exists_numeral number
      rcases bind_eq_error_iff.mp refused with
        literalRefused | ⟨sides, readLiteral, laterRefused⟩
      · exact blames_literal literalRefused (by simp) (by simp) given span after
          finish exists_isSidesAndClauses
      · have inRange := (readSides_eq_ok_iff.mp readLiteral).1
        rw [value] at inRange
        refine .behind digits ?_
          (blames_readClauses coversLater finish laterRefused)
        intro clauses accepted
        rw [written]
        exact ⟨numeral, clauses, inRange, accepted, rfl⟩
    · cases refused
      exact blames_missingBefore covers exists_isSidesAndClauses (by simp) finish
  · cases refused
    exact blames_missingBefore covers exists_isSidesAndClauses (by simp) finish

theorem exists_isFromSeparator {separator : Char} (letter : separator ∈ ['d', 'D']) :
    ∃ rest, IsFromSeparator ([separator] ++ rest) := by
  obtain ⟨rest, accepted⟩ := exists_isSidesAndClauses
  exact ⟨rest, separator, letter, rest, accepted, rfl⟩

theorem Keyword.first_of_drops {keyword : Keyword}
    (drops : keyword.cut = .dropHighest ∨ keyword.cut = .dropLowest) :
    keyword.first ∈ ['d', 'D'] := by
  have either := keyword.first_mem
  by_cases keeps : keyword.first ∈ ['k', 'K']
  · rw [Keyword.cut, if_pos keeps] at drops
    split at drops <;> simp at drops
  · simp only [List.mem_cons, List.not_mem_nil, or_false] at either keeps ⊢
    tauto

theorem Keyword.utf8Size_second (keyword : Keyword) :
    keyword.second.utf8Size = 1 := by
  have letter := keyword.second_mem
  simp only [List.mem_cons, List.not_mem_nil, or_false] at letter
  rcases letter with same | same | same | same <;> rw [same] <;> rfl

/-- A cut that drops dice, where the separator belongs, is the separator and a
letter in the place of the sides. -/
theorem blames_droppedSides {placed : List PlacedChar} {lexeme : Lexeme}
    {later : List Lexeme} (covers : Covers placed (lexeme :: later)) {cut : Cut}
    (token : lexeme.token = .operation cut)
    (drops : cut = .dropHighest ∨ cut = .dropLowest) (finish : Nat) :
    Blames IsFromSeparator finish placed
      ⟨.missingSides (.written (lexeme.text.drop 1)),
        ⟨lexeme.span.stop - 1, lexeme.span.stop⟩⟩ := by
  obtain ⟨block, behind, rfl, _, text, span, spelled, _⟩ :=
    covers.exists_block
  rw [token] at spelled
  obtain ⟨keyword, rfl, letters⟩ := spelled.exists_keyword
  rw [letters, Keyword.chars] at text
  obtain ⟨first, more, rfl, firstChar, shape⟩ := List.map_eq_cons_iff.mp text.symm
  obtain ⟨second, none, rfl, secondChar, nothing⟩ := List.map_eq_cons_iff.mp shape
  obtain rfl := List.map_eq_nil_iff.mp nothing
  refine ⟨by simp, [first], [second], behind, rfl, ?_,
    Or.inl ⟨List.cons_ne_nil second [], ?_⟩⟩
  · rw [List.map_singleton, firstChar]
    exact exists_isFromSeparator (Keyword.first_of_drops drops)
  · have place : lexeme.span.stop = second.offset + 1 := by
      rw [span, spanOf, ← keyword.utf8Size_second, ← secondChar]
      rfl
    rw [place, Nat.add_sub_cancel, spanOf_singleton, PlacedChar.stop,
      secondChar, keyword.utf8Size_second]

theorem blames_readFromSeparator {placed : List PlacedChar}
    {rest : List Lexeme} (covers : Covers placed rest) {finish : Nat}
    {count : UInt32} {error : NotationError}
    (refused : readFromSeparator finish count rest = .error error) :
    Blames IsFromSeparator finish placed error := by
  obtain ⟨tail, completed⟩ :=
    exists_isFromSeparator (List.mem_cons_self : 'd' ∈ ['d', 'D'])
  have anyNotation : ∃ text, IsFromSeparator text := ⟨_, completed⟩
  unfold readFromSeparator at refused
  split at refused
  · rename_i lexeme later
    split at refused
    · rename_i die
      obtain ⟨block, behind, rfl, _, text, _, spelled, coversLater⟩ :=
        covers.exists_block
      rw [die] at spelled coversLater
      obtain ⟨separator, letter, written⟩ := spelled.exists_separator
      refine .behind block ?_
        (blames_readSidesAndClauses (coversLater (by decide)) refused)
      intro rest accepted
      rw [← text, written]
      exact ⟨separator, letter, rest, accepted, rfl⟩
    · rename_i highest
      cases refused
      exact blames_droppedSides covers highest (Or.inl rfl) finish
    · rename_i lowest
      cases refused
      exact blames_droppedSides covers lowest (Or.inr rfl) finish
    · cases refused
      exact blames_missingBefore covers anyNotation (by simp) finish
  · cases refused
    exact blames_missingBefore covers anyNotation (by simp) finish

theorem blames_readLexemes {placed : List PlacedChar} {all : List Lexeme}
    (covers : Covers placed all) (given : all ≠ []) {finish : Nat}
    {error : NotationError} (refused : readLexemes finish all = .error error) :
    Blames IsNotation finish placed error := by
  have fromSeparator : ∀ text, IsFromSeparator text → IsNotation text := by
    intro text accepted
    have absent : ∀ given ∈ (none : Option Numeral),
        1 ≤ given.value ∧ given.value ≤ 1000 := nofun
    exact isNotation_append absent accepted
  unfold readLexemes at refused
  split at refused
  · exact absurd rfl given
  · rename_i first rest
    split at refused
    · rename_i number
      obtain ⟨numeral, digits, after, rfl, givenDigits, written, value, span,
        coversLater⟩ := covers.exists_numeral number
      rcases bind_eq_error_iff.mp refused with
        literalRefused | ⟨count, readLiteral, laterRefused⟩
      · obtain ⟨rest, completed⟩ :=
          exists_isFromSeparator (List.mem_cons_self : 'd' ∈ ['d', 'D'])
        exact blames_literal literalRefused (by simp) (by simp) givenDigits span
          after finish ⟨_, fromSeparator _ completed⟩
      · have inRange := (readCount_eq_ok_iff.mp readLiteral).1
        rw [value] at inRange
        have present : ∀ given ∈ some numeral,
            1 ≤ given.value ∧ given.value ≤ 1000 := by
          rintro _ ⟨⟩
          exact inRange
        refine .behind digits ?_
          (blames_readFromSeparator coversLater laterRefused)
        intro rest accepted
        rw [written]
        exact isNotation_append present accepted
    · exact .behind [] fromSeparator (blames_readFromSeparator covers refused)

theorem blames_readChars {text : List Char} (ink : inkOf text ≠ [])
    {error : NotationError} (refused : readChars text = .error error) :
    Blames IsNotation (inkEnd text) (inkOf text) error :=
  blames_readLexemes (covers_lexemes text) (lexemes_ne_nil ink) refused

theorem readChars_eq_error_of_allBlank {text : List Char}
    (blank : AllBlank text) :
    readChars text = .error ⟨.empty, ⟨0, 0⟩⟩ := by
  have none : squeeze text = [] := squeeze_eq_nil_iff.mpr blank
  rw [readChars, lexemes, none, pieces, locate, readLexemes]

/-- What lies before a stretch that is blamed can be completed. -/
theorem exists_continuation {first : List Char} {before : List PlacedChar}
    (bare : squeeze first = before.map PlacedChar.char)
    {continuation : List Char}
    (accepted : IsNotation (before.map PlacedChar.char ++ continuation)) :
    ∃ expression, readChars (first ++ continuation) = .ok expression := by
  obtain ⟨tree, inRange, written⟩ := accepted
  have squeezed : tree.chars = squeeze (first ++ continuation) := by
    calc tree.chars
        = squeeze (squeeze first ++ continuation) := by
          rw [bare, written, squeeze_tree_chars]
      _ = squeeze (first ++ continuation) := by
          rw [squeeze_append, squeeze_append, squeeze_squeeze]
  exact ⟨tree.expression,
    (readChars_eq_ok_iff_of_tree squeezed).mpr ⟨inRange, rfl⟩⟩

theorem exists_marked {text : List Char} (ink : inkOf text ≠ [])
    {error : NotationError} (refused : readChars text = .error error) :
    ∃ first middle last,
      text = first ++ middle ++ last ∧
        error.span = ⟨byteLength first, byteLength (first ++ middle)⟩ ∧
        (if middle = [] then
          (∃ letter ∈ first.getLast?, isInk letter = true) ∧ AllBlank last
        else InkedAtBothEnds middle) ∧
        ∃ continuation expression,
          readChars (first ++ continuation) = .ok expression := by
  obtain ⟨_, before, held, after, cut, ⟨continuation, accepted⟩, place⟩ :=
    blames_readChars ink refused
  rcases place with ⟨given, span⟩ | ⟨rfl, rfl, span⟩
  · obtain ⟨first, middle, last, shape, bare, _, stretch, inked⟩ :=
      exists_stretch cut given
    have notEmpty : middle ≠ [] := by
      rintro rfl
      obtain ⟨letter, member, _⟩ := inked.1
      cases member
    rw [stretch] at span
    refine ⟨first, middle, last, shape, span, ?_, continuation,
      exists_continuation bare accepted⟩
    rwa [if_neg notEmpty]
  · rw [List.append_nil, List.append_nil] at cut
    obtain ⟨first, last, shape, bare, finish, inked, blank⟩ :=
      exists_end_of_ink ink
    rw [← inkOf_map_char text, cut] at bare
    refine ⟨first, [], last, ?_, ?_, ?_, continuation,
      exists_continuation bare accepted⟩
    · rw [List.append_nil, shape]
    · rw [List.append_nil, span, finish]
    · rw [if_pos rfl]
      exact ⟨inked, blank⟩

/-- Only a blank text is an empty notation. Any other error stands at a stretch
of the text that begins and ends with characters that are not blank, or behind
all of them where the text is too short; and the text before it is the
beginning of a notation. -/
theorem error_marks_first_fault (text : String) :
    ((∃ span, Expression.read text = .error ⟨.empty, span⟩) ↔
        AllBlank text.toList) ∧
      ∀ error, Expression.read text = .error error → ¬ AllBlank text.toList →
        ∃ before held after : String,
          text = before ++ held ++ after ∧
            error.span =
              ⟨before.utf8ByteSize, (before ++ held).utf8ByteSize⟩ ∧
            (if held = "" then
              (∃ letter ∈ before.toList.getLast?, isInk letter = true) ∧
                AllBlank after.toList
            else InkedAtBothEnds held.toList) ∧
            ∃ continuation expression,
              Expression.read (before ++ continuation) = .ok expression := by
  constructor
  · constructor
    · rintro ⟨span, refused⟩
      by_contra notBlank
      have ink : inkOf text.toList ≠ [] := mt inkOf_eq_nil_iff.mp notBlank
      exact (blames_readChars ink refused).1 rfl
    · exact fun blank => ⟨⟨0, 0⟩, readChars_eq_error_of_allBlank blank⟩
  · intro error refused notBlank
    have ink : inkOf text.toList ≠ [] := mt inkOf_eq_nil_iff.mp notBlank
    obtain ⟨first, middle, last, shape, span, inked, continuation, expression,
      completed⟩ := exists_marked ink refused
    refine ⟨.ofList first, .ofList middle, .ofList last, ?_, ?_, ?_,
      .ofList continuation, expression, ?_⟩
    · rw [← String.ofList_append, ← String.ofList_append, ← shape,
        String.ofList_toList]
    · rw [span, ← String.ofList_append, utf8ByteSize_ofList,
        utf8ByteSize_ofList]
    · simpa only [String.ofList_eq_empty_iff, String.toList_ofList] using inked
    · rw [Expression.read, ← String.ofList_append, String.toList_ofList,
        completed]

/-- The letter after a bare `k` is two bytes long, and so is the span's end. -/
theorem error_marks_first_fault_of_bare_keep :
    Expression.read "3 d 6 kä" =
        .error ⟨.unknownOperation ['k', 'ä'], ⟨6, 9⟩⟩ ∧
      ¬ AllBlank "3 d 6 kä".toList ∧
      ∃ before held after : String,
        "3 d 6 kä" = before ++ held ++ after ∧
          (⟨6, 9⟩ : Span) =
            ⟨before.utf8ByteSize, (before ++ held).utf8ByteSize⟩ ∧
          (if held = "" then
            (∃ letter ∈ before.toList.getLast?, isInk letter = true) ∧
              AllBlank after.toList
          else InkedAtBothEnds held.toList) ∧
          ∃ continuation expression,
            Expression.read (before ++ continuation) = .ok expression := by
  have refused :
      Expression.read "3 d 6 kä" =
        .error ⟨.unknownOperation ['k', 'ä'], ⟨6, 9⟩⟩ := by
    cbv
  have ink : ¬ AllBlank "3 d 6 kä".toList := by
    intro blank
    exact absurd (blank '3' (by decide)) (by decide)
  exact ⟨refused, ink,
    (error_marks_first_fault "3 d 6 kä").2 _ refused ink⟩

end Tabletop.Dice
