import Tabletop.Proofs.Recasting

/-!
# Errors on one line

An error of a notation quotes what is written, blanks taken out. So its message
has no line feed, whatever the text, and neither has any other message about
dice.
-/

namespace Tabletop.Dice

open Tabletop.Text

def Found.quotation : Found → List Char
  | endOfInput => []
  | written text => text

/-- The characters of the notation that a fault quotes. -/
def NotationFault.quotation : NotationFault → List Char
  | .missingSeparator found | .missingSides found => found.quotation
  | .unknownOperation clause => clause
  | .unexpectedCharacter letter => [letter]
  | .empty | .countTooSmall | .countTooLarge | .tooFewSides
  | .sidesOutOfRange | .missingOperationCount _ | .zeroOperationCount
  | .operationCountOutOfRange | .missingModifier _ | .modifierOutOfRange => []

def AllInk (text : List Char) : Prop :=
  ∀ letter ∈ text, isInk letter = true

theorem AllInk.drop {text : List Char} (ink : AllInk text) (count : Nat) :
    AllInk (text.drop count) :=
  fun letter member => ink letter (List.mem_of_mem_drop member)

theorem allInk_of_covers {placed : List PlacedChar} {all : List Lexeme}
    (covers : Covers placed all)
    (ink : ∀ one ∈ placed, isInk one.char = true) :
    ∀ lexeme ∈ all, AllInk lexeme.text := by
  induction covers with
  | nil =>
      exact List.forall_mem_nil _
  | unknown one rest _ =>
      rw [List.forall_mem_singleton, AllInk, List.forall_mem_singleton]
      exact ink one List.mem_cons_self
  | cons known spelled ends later inductionHypothesis =>
      rw [List.forall_mem_append] at ink
      rw [List.forall_mem_cons, AllInk, List.forall_mem_map]
      exact ⟨ink.1, inductionHypothesis ink.2⟩

theorem allInk_lexemes (text : List Char) :
    ∀ lexeme ∈ lexemes text, AllInk lexeme.text :=
  allInk_of_covers (covers_lexemes text) fun _ member =>
    (List.mem_filter.mp member).2

/-- If the reading fails, the error quotes no blank. -/
def QuotesInk {α : Type} (read : Except NotationError α) : Prop :=
  ∀ error, read = .error error → AllInk error.fault.quotation

namespace QuotesInk

variable {α β : Type}

theorem ok (result : α) : QuotesInk (.ok result) := by
  intro error refused
  cases refused

theorem error {error : NotationError} (ink : AllInk error.fault.quotation) :
    QuotesInk (.error error : Except NotationError α) := by
  intro error refused
  cases refused
  exact ink

/-- A fault of range quotes nothing. -/
theorem refuse (lexeme : Lexeme) {fault : NotationFault}
    (silent : fault.quotation = []) :
    QuotesInk (lexeme.refuse fault : Except NotationError α) :=
  .error (silent ▸ List.forall_mem_nil _)

theorem bind {first : Except NotationError α}
    {next : α → Except NotationError β} (quotesFirst : QuotesInk first)
    (quotesNext : ∀ result, QuotesInk (next result)) :
    QuotesInk (first >>= next) := by
  intro error refused
  rcases bind_eq_error_iff.mp refused with early | ⟨result, _, late⟩
  · exact quotesFirst error early
  · exact quotesNext result error late

end QuotesInk

/-- Both refusals of a literal are faults of range. -/
theorem quotesInk_literal {α : Type} {first second : Prop} [Decidable first]
    [Decidable second] {firstFault secondFault : NotationFault}
    (firstSilent : firstFault.quotation = [])
    (secondSilent : secondFault.quotation = []) (literal : Lexeme)
    (value : α) :
    QuotesInk
      (if first then literal.refuse firstFault
        else if second then literal.refuse secondFault
        else .ok value) := by
  split_ifs
  · exact .refuse literal firstSilent
  · exact .refuse literal secondSilent
  · exact .ok value

theorem quotesInk_readModifier (sign : Sign) (signLexeme literal : Lexeme) :
    QuotesInk (readModifier sign signLexeme literal) := by
  unfold readModifier
  split
  · exact .ok _
  · exact .error (List.forall_mem_nil _)

theorem allInk_missingBefore (fault : Found → NotationFault)
    (quotes : ∀ found, (fault found).quotation = found.quotation)
    (finish : Nat) {rest : List Lexeme}
    (ink : ∀ lexeme ∈ rest, AllInk lexeme.text) :
    AllInk (missingBefore fault finish rest).fault.quotation := by
  cases rest with
  | nil =>
      rw [missingBefore, quotes]
      exact List.forall_mem_nil _
  | cons lexeme later =>
      rw [missingBefore, quotes]
      exact ink lexeme List.mem_cons_self

theorem allInk_unexpectedCharacter {lexeme : Lexeme}
    (ink : AllInk lexeme.text) :
    AllInk (unexpectedCharacter lexeme).fault.quotation := by
  show AllInk [lexeme.text.headD '\x00']
  rw [AllInk, List.forall_mem_singleton]
  cases shape : lexeme.text with
  | nil =>
      decide
  | cons letter rest =>
      rw [shape] at ink
      exact ink letter List.mem_cons_self

theorem allInk_unknownOperation {keyword : Lexeme} {rest : List Lexeme}
    (keywordInk : AllInk keyword.text)
    (ink : ∀ lexeme ∈ rest, AllInk lexeme.text) :
    AllInk (unknownOperation keyword rest).fault.quotation := by
  have lowInk : AllInk (keyword.text.map Char.toLower) := by
    rw [AllInk, List.forall_mem_map]
    intro letter member
    rw [isInk_toLower]
    exact keywordInk letter member
  unfold unknownOperation
  split
  · rename_i letter _ _ _
    rw [List.forall_mem_cons] at ink
    show AllInk (keyword.text.map Char.toLower ++ [letter])
    rw [AllInk, List.forall_mem_append, List.forall_mem_singleton]
    exact ⟨lowInk, ink.1 letter List.mem_cons_self⟩
  · exact lowInk

theorem quotesInk_readClauses (expression : Expression) {rest : List Lexeme}
    (ink : ∀ lexeme ∈ rest, AllInk lexeme.text) :
    QuotesInk (readClauses expression rest) := by
  fun_induction readClauses expression rest with
  | case1 expression =>
      exact .ok expression
  | case2 expression lexeme later token inductionHypothesis =>
      rw [List.forall_mem_cons] at ink
      exact inductionHypothesis ink.2
  | case3 expression lexeme cut token literal later number
      inductionHypothesis =>
      rw [List.forall_mem_cons, List.forall_mem_cons] at ink
      exact (quotesInk_literal rfl rfl literal _).bind
        fun count => inductionHypothesis count ink.2.2
  | case6 expression lexeme sign token literal later number
      inductionHypothesis =>
      rw [List.forall_mem_cons, List.forall_mem_cons] at ink
      exact (quotesInk_readModifier sign lexeme literal).bind
        fun modifier => inductionHypothesis modifier ink.2.2
  | case4 | case5 | case7 | case8 =>
      exact .refuse _ rfl
  | case9 | case10 =>
      rw [List.forall_mem_cons] at ink
      exact .error (allInk_unknownOperation ink.1 ink.2)
  | case11 | case12 =>
      rw [List.forall_mem_cons] at ink
      exact .error (allInk_unexpectedCharacter ink.1)

theorem quotesInk_readSidesAndClauses (finish : Nat) (count : UInt32)
    {rest : List Lexeme} (ink : ∀ lexeme ∈ rest, AllInk lexeme.text) :
    QuotesInk (readSidesAndClauses finish count rest) := by
  have missing :=
    allInk_missingBefore .missingSides (fun _ => rfl) finish ink
  unfold readSidesAndClauses
  split
  · rename_i literal later
    split
    · rw [List.forall_mem_cons] at ink
      exact (quotesInk_literal rfl rfl literal _).bind
        fun sides => quotesInk_readClauses _ ink.2
    · exact .error missing
  · exact .error missing

theorem quotesInk_readFromSeparator (finish : Nat) (count : UInt32)
    {rest : List Lexeme} (ink : ∀ lexeme ∈ rest, AllInk lexeme.text) :
    QuotesInk (readFromSeparator finish count rest) := by
  have missing :=
    allInk_missingBefore .missingSeparator (fun _ => rfl) finish ink
  unfold readFromSeparator
  split
  · rename_i lexeme later
    rw [List.forall_mem_cons] at ink
    split
    · exact quotesInk_readSidesAndClauses finish count ink.2
    · exact .error (ink.1.drop 1)
    · exact .error (ink.1.drop 1)
    · exact .error missing
  · exact .error missing

theorem quotesInk_readChars (text : List Char) : QuotesInk (readChars text) := by
  have ink := allInk_lexemes text
  unfold readChars readLexemes
  split
  · exact .error (List.forall_mem_nil _)
  · rename_i first rest shape
    rw [shape] at ink
    split
    · rw [List.forall_mem_cons] at ink
      exact (quotesInk_literal rfl rfl first _).bind
        fun count => quotesInk_readFromSeparator _ count ink.2
    · exact quotesInk_readFromSeparator _ 1 ink

/-- A text without a line feed. -/
def OneLine (text : String) : Prop :=
  '\n' ∉ text.toList

instance (text : String) : Decidable (OneLine text) :=
  inferInstanceAs (Decidable (_ ∉ _))

theorem oneLine_append_iff {first second : String} :
    OneLine (first ++ second) ↔ OneLine first ∧ OneLine second := by
  rw [OneLine, String.toList_append, List.mem_append, not_or, OneLine, OneLine]

theorem oneLine_ofList {text : List Char} (ink : AllInk text) :
    OneLine (String.ofList text) := by
  rw [OneLine, String.toList_ofList]
  intro member
  exact absurd (ink '\n' member) (by decide)

theorem oneLine_natural (number : Nat) : OneLine (toString number) := by
  rw [Nat.toString_eq_ofList_toDigits]
  apply oneLine_ofList
  intro letter member
  exact isInk_of_isDigit (isDigit_of_mem_toDigits member)

theorem oneLine_quoted {text : List Char} (ink : AllInk text) :
    OneLine (quoted text) := by
  rw [quoted, oneLine_append_iff, oneLine_append_iff]
  exact ⟨⟨by decide, oneLine_ofList ink⟩, by decide⟩

theorem oneLine_describe {found : Found} (ink : AllInk found.quotation) :
    OneLine found.describe := by
  cases found with
  | endOfInput =>
      decide
  | written text =>
      exact oneLine_quoted ink

theorem NotationError.oneLine_message {error : NotationError}
    (ink : AllInk error.fault.quotation) : OneLine error.message := by
  obtain ⟨fault, span⟩ := error
  unfold message
  cases fault with
  | missingSeparator found | missingSides found =>
      have described : OneLine found.describe := oneLine_describe ink
      simp only [oneLine_append_iff, oneLine_natural, described]
      decide
  | unknownOperation clause =>
      have clauseQuoted : OneLine (quoted clause) := oneLine_quoted ink
      simp only [oneLine_append_iff, oneLine_natural, clauseQuoted]
      decide
  | unexpectedCharacter letter =>
      have letterQuoted : OneLine (quoted [letter]) := oneLine_quoted ink
      simp only [oneLine_append_iff, oneLine_natural, letterQuoted]
      decide
  | missingOperationCount cut =>
      simp only [oneLine_append_iff, oneLine_natural]
      cases cut <;> decide
  | missingModifier sign =>
      simp only [oneLine_append_iff, oneLine_natural]
      cases sign <;> decide
  | countTooLarge =>
      simp only [oneLine_append_iff, oneLine_natural]
      decide
  | empty | countTooSmall | tooFewSides | sidesOutOfRange
  | zeroOperationCount | operationCountOutOfRange | modifierOutOfRange =>
      dsimp only
      decide

end Tabletop.Dice
