import Tabletop.Proofs.CanonicalText
import Tabletop.Proofs.Trimming
import Tabletop.Proofs.WrittenMarks

/-!
# The last word of a line

A line is taken apart at its blanks, from the left for the words of a command
and from the right for its numbers. A text without blanks at its ends, with a
word behind it, comes apart into just these two, whatever blanks there are
inside the text; and a number in decimal is such a word, from which the number
is read back.
-/

namespace Tabletop.Text

open Tabletop.Dice

/-- The first and the last character of the text are not blank; so it has
some. -/
def IsTidy (text : List Char) : Prop :=
  text.head?.any isInk = true ∧ text.getLast?.any isInk = true

instance (text : List Char) : Decidable (IsTidy text) :=
  inferInstanceAs (Decidable (_ ∧ _))

theorem IsTidy.exists_cons {text : List Char} (tidy : IsTidy text) :
    ∃ first rest, text = first :: rest ∧ isInk first = true := by
  cases text with
  | nil =>
      exact absurd tidy.1 Bool.false_ne_true
  | cons first rest =>
      exact ⟨first, rest, rfl, tidy.1⟩

theorem IsTidy.exists_concat {text : List Char} (tidy : IsTidy text) :
    ∃ before last, text = before ++ [last] ∧ isInk last = true := by
  have shown := tidy.2
  cases ends : text.getLast? with
  | none =>
      rw [ends] at shown
      exact absurd shown Bool.false_ne_true
  | some last =>
      rw [ends] at shown
      obtain ⟨before, whole⟩ := List.getLast?_eq_some_iff.mp ends
      exact ⟨before, last, whole, shown⟩

theorem IsTidy.ne_nil {text : List Char} (tidy : IsTidy text) : text ≠ [] := by
  rintro rfl
  exact absurd tidy.1 Bool.false_ne_true

theorem isTidy_of_isInk {word : List Char} (given : word ≠ [])
    (inked : ∀ letter ∈ word, isInk letter = true) :
    IsTidy word := by
  constructor
  · rw [List.head?_eq_some_head given]
    exact inked _ (List.head_mem given)
  · rw [List.getLast?_eq_some_getLast given]
    exact inked _ (List.getLast_mem given)

/-- What stands between tidy texts does not matter. -/
theorem IsTidy.append {first second : List Char} (tidy : IsTidy first)
    (middle : List Char) (tidySecond : IsTidy second) :
    IsTidy (first ++ (middle ++ second)) := by
  constructor
  · rw [List.head?_append_of_ne_nil _ tidy.ne_nil]
    exact tidy.1
  · rw [← List.append_assoc, List.getLast?_append_of_ne_nil _ tidySecond.ne_nil]
    exact tidySecond.2

theorem IsTidy.trimEnd_eq {text : List Char} (tidy : IsTidy text) :
    trimEnd text = text := by
  obtain ⟨before, last, rfl, ink⟩ := tidy.exists_concat
  exact trimEnd_concat ink before

theorem IsTidy.trimStart_append {text : List Char} (tidy : IsTidy text)
    (more : List Char) :
    trimStart (text ++ more) = text ++ more := by
  obtain ⟨first, rest, rfl, ink⟩ := tidy.exists_cons
  exact trimStart_cons ink (rest ++ more)

theorem IsTidy.trim_eq {text : List Char} (tidy : IsTidy text) :
    trim text = text := by
  have started := tidy.trimStart_append []
  rw [List.append_nil] at started
  rw [trim, started, tidy.trimEnd_eq]

theorem allBlank_singleton {gap : Char} (blank : isBlank gap = true) :
    AllBlank [gap] :=
  List.forall_mem_singleton.mpr blank

theorem splitFirst_of_tidy {word text : List Char} {gap : Char}
    (inked : ∀ letter ∈ word, isInk letter = true)
    (blank : isBlank gap = true) (tidy : IsTidy text) :
    splitFirst (word ++ gap :: text) = (word, text) := by
  have started : trimStart (gap :: text) = trimStart text :=
    List.dropWhile_cons_of_pos blank
  rw [splitFirst_append_cons inked blank, trim, started]
  exact congrArg (Prod.mk word) tidy.trim_eq

/-- The text in front of the last word keeps the blanks that are inside it. -/
theorem splitLast_of_tidy {text word : List Char} {gap : Char}
    (tidy : IsTidy text) (blank : isBlank gap = true) (given : word ≠ [])
    (inked : ∀ letter ∈ word, isInk letter = true) :
    splitLast (text ++ gap :: word) = (text, word) := by
  have whole : IsTidy (text ++ gap :: word) :=
    tidy.append [gap] (isTidy_of_isInk given inked)
  have backwards :
      (trim (text ++ gap :: word)).reverse =
        word.reverse ++ gap :: text.reverse := by
    rw [whole.trim_eq]
    simp
  have inkedBackwards : ∀ letter ∈ word.reverse, isInk letter = true := by
    simpa using inked
  have stops : ¬ isInk gap = true := by
    rw [isInk, blank]
    exact Bool.false_ne_true
  have front : trim (text ++ [gap]) = text := by
    rw [trim, tidy.trimStart_append,
      trimEnd_append_of_allBlank (allBlank_singleton blank), tidy.trimEnd_eq]
  simp only [splitLast, backwards]
  rw [List.takeWhile_append_of_pos inkedBackwards,
    List.dropWhile_append_of_pos inkedBackwards,
    List.takeWhile_cons_of_neg stops, List.dropWhile_cons_of_neg stops,
    List.append_nil, List.reverse_reverse, List.reverse_cons,
    List.reverse_reverse, front]

/-- A number in decimal. -/
def inDecimal (value : Int32) : String :=
  toString value.toInt

theorem toWord32?_toInt (value : Int32) : toWord32? value.toInt = some value := by
  have lowest := Int32.le_toInt value
  have highest := Int32.toInt_lt value
  rw [toWord32?, if_pos, Int32.ofInt_toInt]
  rw [Int32.toInt_minValue, Int32.toInt_maxValue]
  omega

theorem word32?_eq_some {text : List Char} {value : Int32}
    (denotes : signedValue? text = some value.toInt) :
    word32? text = some value := by
  rw [word32?, denotes]
  exact toWord32?_toInt value

/-- A number in decimal is read as that number. -/
theorem word32?_inDecimal (value : Int32) :
    word32? (inDecimal value).toList = some value := by
  apply word32?_eq_some
  rw [inDecimal]
  cases value.toInt with
  | ofNat size =>
      have written : (toString (Int.ofNat size)).toList = (Numeral.ofNat size).digits :=
        (digits_ofNat size).symm
      rw [written, Numeral.signedValue?_digits, Numeral.value_ofNat]
      rfl
  | negSucc size =>
      have written :
          (toString (Int.negSucc size)).toList =
            '-' :: (Numeral.ofNat (size + 1)).digits := by
        rw [digits_ofNat]
        exact String.toList_append
      rw [written, signedValue?, if_pos (Numeral.ofNat (size + 1)).isNumeral_digits]
      exact congrArg (fun magnitude : Nat => some (-(magnitude : Int)))
        (Numeral.value_ofNat (size + 1))

theorem inDecimal_ne_nil (value : Int32) : (inDecimal value).toList ≠ [] := by
  intro empty
  have read := word32?_inDecimal value
  rw [empty] at read
  cases read

theorem isInk_of_mem_inDecimal {value : Int32} :
    ∀ letter ∈ (inDecimal value).toList, isInk letter = true := by
  intro letter member
  have minus : '-' ∈ ['-'] := List.mem_singleton_self _
  rcases writtenWith_integer minus value.toInt letter member with digit | sign
  · exact isInk_of_isDigit digit
  · rw [List.mem_singleton.mp sign]
    decide

theorem isTidy_inDecimal (value : Int32) : IsTidy (inDecimal value).toList :=
  isTidy_of_isInk (inDecimal_ne_nil value) isInk_of_mem_inDecimal

theorem splitLast_inDecimal {text : List Char} (tidy : IsTidy text) (value : Int32) :
    splitLast (text ++ ' ' :: (inDecimal value).toList) =
      (text, (inDecimal value).toList) :=
  splitLast_of_tidy tidy (by decide) (inDecimal_ne_nil value) isInk_of_mem_inDecimal

end Tabletop.Text
