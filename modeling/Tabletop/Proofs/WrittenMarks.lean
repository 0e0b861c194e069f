import Mathlib
import Tabletop.Dice.Roll

/-!
# The marks of written texts

Numbers, expressions and dice are written with decimal digits and a few marks.
A mark that neither of two texts is written with can be put behind them, and
what stands behind it cannot be taken for a part of the text.
-/

namespace Tabletop.Dice

open Tabletop.Text

/-- Every character of the text is a decimal digit or one of the marks. -/
def WrittenWith (marks : List Char) (text : String) : Prop :=
  ∀ letter ∈ text.toList, letter.isDigit = true ∨ letter ∈ marks

section Marks

variable {marks : List Char}

theorem writtenWith_of_subset {text : String} (within : text.toList ⊆ marks) :
    WrittenWith marks text :=
  fun _ member => Or.inr (within member)

theorem writtenWith_append_iff {first second : String} :
    WrittenWith marks (first ++ second) ↔
      WrittenWith marks first ∧ WrittenWith marks second := by
  simp only [WrittenWith, String.toList_append, List.forall_mem_append]

theorem WrittenWith.mono {more : List Char} {text : String}
    (written : WrittenWith marks text) (within : marks ⊆ more) :
    WrittenWith more text :=
  fun letter member => (written letter member).imp_right (within ·)

theorem WrittenWith.notMem {text : String} (written : WrittenWith marks text)
    {mark : Char} (noDigit : mark.isDigit = false) (unused : mark ∉ marks) :
    mark ∉ text.toList := by
  intro member
  rcases written mark member with digit | used
  · rw [digit] at noDigit
    cases noDigit
  · exact unused used

theorem writtenWith_natural (number : Nat) :
    WrittenWith marks (toString number) := by
  intro letter member
  rw [Nat.toString_eq_ofList_toDigits, String.toList_ofList] at member
  exact Or.inl (isDigit_of_mem_toDigits member)

theorem writtenWith_integer (minus : '-' ∈ marks) (number : Int) :
    WrittenWith marks (toString number) := by
  cases number with
  | ofNat size =>
      exact writtenWith_natural size
  | negSucc size =>
      have sign : WrittenWith marks "-" :=
        writtenWith_of_subset (List.cons_subset.mpr ⟨minus, List.nil_subset _⟩)
      exact writtenWith_append_iff.mpr ⟨sign, writtenWith_natural (size + 1)⟩

theorem writtenWith_withSign (plus : '+' ∈ marks) (minus : '-' ∈ marks)
    (value : Int) :
    WrittenWith marks (withSign value) := by
  cases value with
  | ofNat size =>
      have sign : WrittenWith marks "+" :=
        writtenWith_of_subset (List.cons_subset.mpr ⟨plus, List.nil_subset _⟩)
      exact writtenWith_append_iff.mpr ⟨sign, writtenWith_natural size⟩
  | negSucc size =>
      exact writtenWith_integer minus (Int.negSucc size)

end Marks

/-- The marks that expressions are written with. -/
def expressionMarks : List Char :=
  ['d', '!', 'k', 'h', 'l', '+', '-']

/-- The marks that dice are written with. -/
def dieMarks : List Char :=
  ['‹', '›']

theorem writtenWith_modifierText (modifier : Int32) :
    WrittenWith expressionMarks (Expression.modifierText modifier) := by
  unfold Expression.modifierText
  split
  · exact writtenWith_of_subset (by decide)
  · exact writtenWith_withSign (by decide) (by decide) modifier.toInt

theorem writtenWith_operationText (operation : Operation) :
    WrittenWith expressionMarks operation.text := by
  obtain ⟨cut, number⟩ := operation
  have letters : WrittenWith expressionMarks cut.letters := by
    cases cut <;> exact writtenWith_of_subset (by decide)
  exact writtenWith_append_iff.mpr ⟨letters, writtenWith_natural _⟩

theorem writtenWith_text (expression : Expression) :
    WrittenWith expressionMarks expression.text := by
  obtain ⟨count, sides, modifier, operation, advantage⟩ := expression
  simp only [Expression.text, writtenWith_append_iff]
  have separator : WrittenWith expressionMarks "d" :=
    writtenWith_of_subset (by decide)
  refine ⟨⟨⟨⟨⟨writtenWith_natural _, separator⟩, writtenWith_natural _⟩, ?_⟩,
    ?_⟩, writtenWith_modifierText modifier⟩
  · split <;> exact writtenWith_of_subset (by decide)
  · cases operation with
    | none =>
        exact writtenWith_of_subset (by decide)
    | some operation =>
        exact writtenWith_operationText operation

theorem writtenWith_dieText (die : Die) : WrittenWith dieMarks die.text := by
  unfold Die.text
  split
  · exact writtenWith_natural _
  · simp only [writtenWith_append_iff]
    exact ⟨⟨writtenWith_of_subset (by decide), writtenWith_natural _⟩,
      writtenWith_of_subset (by decide)⟩

theorem writtenWith_intercalate {marks : List Char} {separator : String}
    (separatorWritten : WrittenWith marks separator) {parts : List String}
    (partsWritten : ∀ part ∈ parts, WrittenWith marks part) :
    WrittenWith marks (separator.intercalate parts) := by
  induction parts with
  | nil =>
      rw [String.intercalate_nil]
      exact writtenWith_of_subset (List.nil_subset _)
  | cons first rest inductionHypothesis =>
      obtain ⟨firstWritten, restWritten⟩ :=
        List.forall_mem_cons.mp partsWritten
      cases rest with
      | nil =>
          rwa [String.intercalate_singleton]
      | cons second later =>
          rw [String.intercalate_cons_cons]
          simp only [writtenWith_append_iff]
          exact ⟨⟨firstWritten, separatorWritten⟩,
            inductionHypothesis restWritten⟩

theorem writtenWith_dice (dice : List Die) :
    WrittenWith (',' :: ' ' :: dieMarks)
      (", ".intercalate (dice.map Die.text)) := by
  refine writtenWith_intercalate (writtenWith_of_subset (by decide)) ?_
  intro part member
  obtain ⟨die, _, rfl⟩ := List.mem_map.mp member
  exact (writtenWith_dieText die).mono (by decide)

end Tabletop.Dice
