import Tabletop.Proofs.DurationGrammar

/-!
# Decimals

A text is cut into runs of characters of one class. Of a run of number
characters the reader of decimals accepts those with a digit and no more than
one point, and it finds the number that their digits and the place of the point
denote.
-/

namespace Tabletop.Clock

open Tabletop.Number
open Tabletop.Text

section Runs

variable {inClass : Char → Bool} {run rest : List Char}

theorem EndsRun.takeWhile_eq_nil (ends : EndsRun inClass rest) :
    rest.takeWhile inClass = [] := by
  cases rest with
  | nil =>
      rfl
  | cons letter later =>
      exact List.takeWhile_cons_of_neg (by simp [ends letter rfl])

theorem EndsRun.dropWhile_eq_self (ends : EndsRun inClass rest) :
    rest.dropWhile inClass = rest := by
  have whole := List.takeWhile_append_dropWhile (p := inClass) (l := rest)
  rwa [ends.takeWhile_eq_nil, List.nil_append] at whole

theorem EndsRun.takeWhile_append (ends : EndsRun inClass rest)
    (within : ∀ letter ∈ run, inClass letter = true) :
    (run ++ rest).takeWhile inClass = run := by
  rw [List.takeWhile_append_of_pos within, ends.takeWhile_eq_nil,
    List.append_nil]

theorem EndsRun.dropWhile_append (ends : EndsRun inClass rest)
    (within : ∀ letter ∈ run, inClass letter = true) :
    (run ++ rest).dropWhile inClass = rest := by
  rw [List.dropWhile_append_of_pos within, ends.dropWhile_eq_self]

theorem endsRun_nil : EndsRun inClass [] := by
  intro letter head
  cases head

theorem endsRun_dropWhile (inClass : Char → Bool) (text : List Char) :
    EndsRun inClass (text.dropWhile inClass) := by
  intro letter head
  have outside := List.head?_dropWhile_not inClass text
  rw [head] at outside
  exact outside

/-- Every text is a run of a class and a rest that begins outside it. -/
theorem exists_run (inClass : Char → Bool) (text : List Char) :
    ∃ run rest,
      text = run ++ rest ∧ (∀ letter ∈ run, inClass letter = true) ∧
        EndsRun inClass rest :=
  ⟨text.takeWhile inClass, text.dropWhile inClass,
    List.takeWhile_append_dropWhile.symm,
    fun _ member => List.mem_takeWhile_imp member,
    endsRun_dropWhile inClass text⟩

end Runs

theorem isNumberChar_of_isDigit {letter : Char}
    (digit : letter.isDigit = true) : isNumberChar letter = true := by
  rw [isNumberChar, digit, Bool.true_or]

theorem isNumeral_iff {digits : List Char}
    (numeric : ∀ letter ∈ digits, letter.isDigit = true) :
    isNumeral digits = true ↔ ∃ letter ∈ digits, letter.isDigit = true := by
  rw [isNumeral, List.all_eq_true.mpr numeric, Bool.and_true,
    Bool.not_eq_true', List.isEmpty_eq_false_iff_exists_mem]
  exact exists_congr fun letter =>
    ⟨fun member => ⟨member, numeric letter member⟩, fun found => found.1⟩

section Decimals

variable {whole fraction : List Char}
  (numeric : ∀ letter ∈ whole, letter.isDigit = true)

include numeric

theorem point_notMem_digits : '.' ∉ whole :=
  fun member => absurd (numeric '.' member) (by decide)

theorem beforePoint_digits :
    ∀ letter ∈ whole, decide (letter ≠ '.') = true :=
  fun _ member =>
    decide_eq_true (ne_of_mem_of_not_mem member (point_notMem_digits numeric))

theorem isDecimal_digits_iff :
    IsDecimal whole ↔ isNumeral whole = true := by
  rw [isNumeral_iff numeric]
  constructor
  · exact fun decimal => decimal.exists_digit
  · intro someDigit
    have pointless : whole.count '.' = 0 :=
      List.count_eq_zero.mpr (point_notMem_digits numeric)
    exact ⟨fun letter member => isNumberChar_of_isDigit (numeric letter member),
      by omega, someDigit⟩

theorem decimalValue_digits :
    decimalValue whole = .ofNat (numeralValue whole) := by
  have pointless : whole.dropWhile (· ≠ '.') = [] :=
    List.dropWhile_eq_nil_iff.mpr (beforePoint_digits numeric)
  have digits : whole.filter Char.isDigit = whole :=
    List.filter_eq_self.mpr numeric
  rw [decimalValue, fractionOf, digits, pointless]
  rfl

theorem readDecimal?_digits :
    readDecimal? whole =
      if isNumeral whole then some (decimalValue whole) else none := by
  have taken : whole.takeWhile Char.isDigit = whole :=
    List.takeWhile_eq_self_iff.mpr numeric
  have gone : whole.dropWhile Char.isDigit = [] :=
    List.dropWhile_eq_nil_iff.mpr numeric
  simp only [readDecimal?, taken, gone, decimalValue_digits numeric]

theorem isDecimal_point_iff
    (numberChars : ∀ letter ∈ fraction, isNumberChar letter = true) :
    IsDecimal (whole ++ '.' :: fraction) ↔
      fraction.all Char.isDigit = true ∧
        isNumeral (whole ++ fraction) = true := by
  have points :
      (whole ++ '.' :: fraction).count '.' = fraction.count '.' + 1 := by
    rw [List.count_append, List.count_cons_self,
      List.count_eq_zero.mpr (point_notMem_digits numeric), Nat.zero_add]
  have onePoint :
      (whole ++ '.' :: fraction).count '.' ≤ 1 ↔
        fraction.all Char.isDigit = true := by
    rw [points, List.all_eq_true]
    constructor
    · intro few letter member
      have absent : '.' ∉ fraction := List.count_eq_zero.mp (by omega)
      have kind := numberChars letter member
      rw [isNumberChar, Bool.or_eq_true, beq_iff_eq] at kind
      exact kind.resolve_right (ne_of_mem_of_not_mem member absent)
    · intro fractionNumeric
      have absent := point_notMem_digits fractionNumeric
      rw [List.count_eq_zero.mpr absent]
  constructor
  · rintro ⟨_, few, letter, member, digit⟩
    have fractionNumeric := onePoint.mp few
    refine ⟨fractionNumeric, ?_⟩
    rw [isNumeral_iff (List.forall_mem_append.mpr
      ⟨numeric, List.all_eq_true.mp fractionNumeric⟩)]
    refine ⟨letter, ?_, digit⟩
    have differs : letter ≠ '.' := by
      rintro rfl
      exact absurd digit (by decide)
    simpa [differs] using member
  · rintro ⟨fractionNumeric, numeral⟩
    rw [isNumeral_iff (List.forall_mem_append.mpr
      ⟨numeric, List.all_eq_true.mp fractionNumeric⟩)] at numeral
    obtain ⟨letter, member, digit⟩ := numeral
    refine ⟨?_, onePoint.mpr fractionNumeric, letter, ?_, digit⟩
    · rw [List.forall_mem_append, List.forall_mem_cons]
      exact ⟨fun other inWhole => isNumberChar_of_isDigit (numeric other inWhole),
        by decide, numberChars⟩
    · rw [List.mem_append, List.mem_cons]
      exact (List.mem_append.mp member).imp_right Or.inr

theorem readDecimal?_point :
    readDecimal? (whole ++ '.' :: fraction) =
      if fraction.all Char.isDigit ∧ isNumeral (whole ++ fraction) then
        some (decimalValue (whole ++ '.' :: fraction))
      else
        none := by
  have ends : EndsRun Char.isDigit ('.' :: fraction) := by
    intro letter head
    obtain rfl := Option.some.inj head
    decide
  simp only [readDecimal?, ends.takeWhile_append numeric,
    ends.dropWhile_append numeric, true_and]
  split
  · rename_i accepted
    have behind : fractionOf (whole ++ '.' :: fraction) = fraction := by
      rw [fractionOf, List.dropWhile_append_of_pos (beforePoint_digits numeric),
        List.dropWhile_cons_of_neg (by simp), List.tail_cons]
    have digits :
        (whole ++ '.' :: fraction).filter Char.isDigit = whole ++ fraction := by
      rw [List.filter_append, List.filter_cons_of_neg (by decide),
        List.filter_eq_self.mpr numeric,
        List.filter_eq_self.mpr (List.all_eq_true.mp accepted.1)]
    rw [decimalValue, behind, digits]
  · rfl

end Decimals

/-- Of number characters the reader accepts the decimals, at their value. -/
theorem readDecimal?_eq_some_iff {number : List Char}
    (numberChars : ∀ letter ∈ number, isNumberChar letter = true)
    {value : Binary64} :
    readDecimal? number = some value ↔
      IsDecimal number ∧ decimalValue number = value := by
  obtain ⟨whole, behind, rfl, numeric, ends⟩ :=
    exists_run Char.isDigit number
  cases behind with
  | nil =>
      rw [List.append_nil, readDecimal?_digits numeric,
        isDecimal_digits_iff numeric]
      simp
  | cons point fraction =>
      obtain ⟨_, fractionChars⟩ :=
        List.forall_mem_cons.mp (List.forall_mem_append.mp numberChars).2
      have noDigit : point.isDigit = false := ends point rfl
      have isPoint : point = '.' := by
        have kind := numberChars point (by simp)
        rw [isNumberChar, noDigit, Bool.false_or, beq_iff_eq] at kind
        exact kind
      subst isPoint
      rw [readDecimal?_point numeric, isDecimal_point_iff numeric fractionChars]
      simp

theorem IsDecimal.readDecimal?_eq {number : List Char}
    (decimal : IsDecimal number) :
    readDecimal? number = some (decimalValue number) :=
  (readDecimal?_eq_some_iff decimal.isNumberChar).mpr ⟨decimal, rfl⟩

theorem readDecimal?_eq_none_iff {number : List Char}
    (numberChars : ∀ letter ∈ number, isNumberChar letter = true) :
    readDecimal? number = none ↔ ¬ IsDecimal number := by
  simp [Option.eq_none_iff_forall_ne_some,
    readDecimal?_eq_some_iff numberChars]

end Tabletop.Clock
