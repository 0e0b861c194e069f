import Tabletop.Proofs.CanonicalText
import Tabletop.Proofs.WrittenMarks

/-!
# Result lines are unique

A result line can be taken apart again: the expression ends at the first
colon, the dice end at the first closing bracket, and each die but the last one
ends at a comma. What stands before the colon is read back as the expression,
so the line of a roll belongs to that roll alone.
-/

namespace Tabletop.Dice

open Tabletop.Text

theorem takeWhile_ne_append_cons {mark : Char} {text : List Char}
    (absent : mark ∉ text) (rest : List Char) :
    (text ++ mark :: rest).takeWhile (· ≠ mark) = text := by
  have differs : ∀ letter ∈ text, decide (letter ≠ mark) = true := by
    intro letter member
    exact decide_eq_true (ne_of_mem_of_not_mem member absent)
  rw [List.takeWhile_append_of_pos differs,
    List.takeWhile_cons_of_neg (by simp), List.append_nil]

/-- Two texts with the same mark behind them, which is in neither, agree when
they agree with all that follows. -/
theorem eq_of_append_mark_eq {mark : Char} {first second : String}
    (notFirst : mark ∉ first.toList) (notSecond : mark ∉ second.toList)
    {firstRest secondRest : List Char}
    (same :
      first.toList ++ mark :: firstRest = second.toList ++ mark :: secondRest) :
    first = second ∧ firstRest = secondRest := by
  have texts := congrArg (List.takeWhile (· ≠ mark)) same
  rw [takeWhile_ne_append_cons notFirst, takeWhile_ne_append_cons notSecond]
    at texts
  rw [texts] at same
  exact ⟨String.toList_injective texts,
    (List.cons.inj (List.append_cancel_left same)).2⟩

/-- Equally many parts without commas are told from the text in which commas
separate them. -/
theorem eq_of_intercalate_eq {first second : List String}
    (sameLength : first.length = second.length)
    (firstPlain : ∀ part ∈ first, ',' ∉ part.toList)
    (secondPlain : ∀ part ∈ second, ',' ∉ part.toList)
    (same : ", ".intercalate first = ", ".intercalate second) :
    first = second := by
  induction first generalizing second with
  | nil =>
      exact (List.length_eq_zero_iff.mp sameLength.symm).symm
  | cons part rest inductionHypothesis =>
      obtain ⟨other, others, rfl⟩ :=
        List.exists_cons_of_length_eq_add_one sameLength.symm
      obtain ⟨partPlain, restPlain⟩ := List.forall_mem_cons.mp firstPlain
      obtain ⟨otherPlain, othersPlain⟩ := List.forall_mem_cons.mp secondPlain
      have restLength : rest.length = others.length :=
        Nat.succ.inj sameLength
      cases rest with
      | nil =>
          obtain rfl := List.length_eq_zero_iff.mp restLength.symm
          rw [String.intercalate_singleton, String.intercalate_singleton]
            at same
          rw [same]
      | cons next later =>
          obtain ⟨otherNext, otherLater, rfl⟩ :=
            List.exists_cons_of_length_eq_add_one restLength.symm
          rw [String.intercalate_cons_cons, String.intercalate_cons_cons]
            at same
          have letters := congrArg String.toList same
          rw [String.append_assoc, String.append_assoc, String.toList_append,
            String.toList_append, String.toList_append, String.toList_append]
            at letters
          obtain ⟨samePart, behind⟩ :=
            eq_of_append_mark_eq partPlain otherPlain letters
          have sameRest :=
            inductionHypothesis restLength restPlain othersPlain
              (String.toList_injective (List.cons.inj behind).2)
          rw [samePart, sameRest]

theorem Expression.Valid.eq_of_text_eq {first second : Expression}
    (valid : first.Valid) (sameText : first.text = second.text) :
    first = second := by
  have reads : Expression.read first.text = .ok first :=
    read_text_eq_ok_iff.mpr ⟨valid, rfl⟩
  rw [sameText] at reads
  exact (read_text_eq_ok_iff.mp reads).2.symm

/-- A quote tells a die that does not count from one that does. -/
theorem Die.kept_eq_true_iff (die : Die) :
    die.kept = true ↔ '‹' ∉ die.text.toList := by
  unfold Die.text
  split
  · rename_i kept
    have digits : WrittenWith [] (toString die.value.toNat) :=
      writtenWith_natural die.value.toNat
    exact iff_of_true kept (digits.notMem (by decide) List.not_mem_nil)
  · rename_i dropped
    exact iff_of_false dropped (by simp)

theorem Die.eq_of_text_eq {first second : Die}
    (sameSides : first.sides = second.sides)
    (sameText : first.text = second.text) :
    first = second := by
  have sameKept : first.kept = second.kept := by
    rw [Bool.eq_iff_iff, first.kept_eq_true_iff, second.kept_eq_true_iff,
      sameText]
  have sameValue : first.value = second.value := by
    have digits :
        toString first.value.toNat = toString second.value.toNat := by
      unfold Die.text at sameText
      rw [sameKept] at sameText
      split at sameText
      · exact sameText
      · exact (String.append_right_inj _).mp
          ((String.append_left_inj _).mp sameText)
    exact UInt32.toNat_inj.mp (Nat.repr_inj.mp digits)
  cases first
  cases second
  simp_all

/-- The draws sufficed for a valid expression when a roll came of them. -/
theorem rollLaw_of_roll {expression : Expression} {draws : List UInt64}
    {roll : Roll} (rolled : (expression.roll draws).1 = .ok roll) :
    expression.Valid ∧ RollLaw expression draws roll := by
  by_cases valid : expression.Valid
  · by_cases enough : expression.physicalDice ≤ draws.length
    · obtain ⟨other, given, law⟩ := exists_roll_of_enough valid enough
      rw [given] at rolled
      obtain rfl := Except.ok.inj rolled
      exact ⟨valid, law⟩
    · rw [roll_of_valid valid, if_pos (Nat.not_le.mp enough)] at rolled
      cases rolled
  · obtain ⟨fault, refused⟩ := roll_of_not_valid valid
    rw [refused] at rolled
    cases rolled

section Law

variable {expression : Expression} {firstDraws secondDraws : List UInt64}
  {first second : Roll}
  (firstLaw : RollLaw expression firstDraws first)
  (secondLaw : RollLaw expression secondDraws second)
  (positive : 0 < expression.sides.toNat)

include firstLaw positive

theorem RollLaw.sides_of_mem {die : Die} (member : die ∈ first.dice) :
    die.sides = expression.sides := by
  rw [firstLaw.dice_eq positive] at member
  obtain ⟨place, _, rfl⟩ := List.mem_map.mp member
  rfl

include secondLaw

theorem RollLaw.eq_of_dice_eq (sameDice : first.dice = second.dice) :
    first = second := by
  have sameExpression : first.expression = second.expression :=
    firstLaw.expression_eq.trans secondLaw.expression_eq.symm
  have sameKept : first.keptTotal = second.keptTotal := by
    rw [firstLaw.keptTotal_eq_keptSum positive,
      secondLaw.keptTotal_eq_keptSum positive, sameDice]
  have sameTotal : first.total = second.total := by
    rw [firstLaw.total_eq, secondLaw.total_eq, sameKept]
  cases first
  cases second
  simp_all

theorem RollLaw.dice_eq_of_text_eq
    (sameText :
      ", ".intercalate (first.dice.map Die.text) =
        ", ".intercalate (second.dice.map Die.text)) :
    first.dice = second.dice := by
  have sameLength : first.dice.length = second.dice.length :=
    firstLaw.length_dice.trans secondLaw.length_dice.symm
  have noComma : ∀ dice : List Die, ∀ part ∈ dice.map Die.text,
      ',' ∉ part.toList := by
    intro dice part member
    obtain ⟨die, _, rfl⟩ := List.mem_map.mp member
    exact (writtenWith_dieText die).notMem (by decide) (by decide)
  have sameTexts : first.dice.map Die.text = second.dice.map Die.text :=
    eq_of_intercalate_eq (by rw [List.length_map, List.length_map, sameLength])
      (noComma _) (noComma _) sameText
  apply List.ext_getElem sameLength
  intro place inFirst inSecond
  apply Die.eq_of_text_eq
  · rw [firstLaw.sides_of_mem positive (List.getElem_mem inFirst),
      secondLaw.sides_of_mem positive (List.getElem_mem inSecond)]
  · have texts := congrArg (fun texts => texts[place]?) sameTexts
    simpa [inFirst, inSecond] using texts

end Law

/-- What stands before the first colon that a space follows. -/
def beforeColon : List Char → List Char
  | ':' :: ' ' :: _ => []
  | letter :: rest => letter :: beforeColon rest
  | [] => []

theorem beforeColon_append {text : List Char} (absent : ':' ∉ text)
    (rest : List Char) :
    beforeColon (text ++ ':' :: ' ' :: rest) = text := by
  induction text with
  | nil =>
      rfl
  | cons letter later inductionHypothesis =>
      obtain ⟨differs, absentLater⟩ := List.ne_and_not_mem_of_not_mem_cons absent
      rw [List.cons_append, beforeColon, inductionHypothesis absentLater]
      exact fun _ isColon _ => differs isColon.symm

theorem Roll.exists_toList_line_eq (roll : Roll) :
    ∃ rest,
      roll.line.toList =
        roll.expression.text.toList ++ ':' :: ' ' :: '[' ::
          ((", ".intercalate (roll.dice.map Die.text)).toList ++
            ']' :: rest) := by
  unfold line
  simp only [String.toList_append, List.append_assoc]
  exact ⟨_, rfl⟩

/-- Two rolls with the same result line are the same, whatever was drawn for
them, and the text before the colon is read as the expression that was
rolled. -/
theorem line_belongs_to_one_roll {firstExpression secondExpression : Expression}
    {firstDraws secondDraws : List UInt64} {first second : Roll}
    (firstRolled : (firstExpression.roll firstDraws).1 = .ok first)
    (secondRolled : (secondExpression.roll secondDraws).1 = .ok second) :
    (first.line = second.line → first = second) ∧
      Expression.read (String.ofList (beforeColon first.line.toList)) =
        .ok firstExpression := by
  obtain ⟨valid, law⟩ := rollLaw_of_roll firstRolled
  obtain ⟨otherValid, otherLaw⟩ := rollLaw_of_roll secondRolled
  obtain ⟨rest, letters⟩ := first.exists_toList_line_eq
  obtain ⟨otherRest, otherLetters⟩ := second.exists_toList_line_eq
  have noColon : ∀ expression : Expression, ':' ∉ expression.text.toList :=
    fun expression =>
      (writtenWith_text expression).notMem (by decide) (by decide)
  have noBracket : ∀ dice : List Die,
      ']' ∉ (", ".intercalate (dice.map Die.text)).toList :=
    fun dice => (writtenWith_dice dice).notMem (by decide) (by decide)
  constructor
  · intro same
    rw [← String.toList_inj, letters, otherLetters] at same
    obtain ⟨sameText, behindColon⟩ :=
      eq_of_append_mark_eq (noColon _) (noColon _) same
    rw [law.expression_eq, otherLaw.expression_eq] at sameText
    obtain rfl := valid.eq_of_text_eq sameText
    obtain ⟨sameDice, _⟩ :=
      eq_of_append_mark_eq (noBracket _) (noBracket _)
        (List.cons.inj (List.cons.inj behindColon).2).2
    exact law.eq_of_dice_eq otherLaw valid.sides_pos
      (law.dice_eq_of_text_eq otherLaw valid.sides_pos sameDice)
  · rw [letters, beforeColon_append (noColon _), String.ofList_toList,
      law.expression_eq]
    exact read_text_eq_ok_iff.mpr ⟨valid, rfl⟩

/-- Different draws show the same faces, so both rolls have the same line; its
first part is read as their expression. -/
theorem line_belongs_to_one_roll_of_two_dice :
    let expression : Expression := ⟨2, 6, -1, some ⟨.keepHighest, 1⟩, false⟩
    ∃ first second,
      (expression.roll [5, 2]).1 = .ok first ∧
        (expression.roll [11, 8]).1 = .ok second ∧
        first.line = "2d6kh1-1: [6, ‹3›] -1 = 5 (kept highest 1)" ∧
        first.line = second.line ∧ first = second ∧
        Expression.read "2d6kh1-1" = .ok expression := by
  intro expression
  let roll : Roll := ⟨expression, [⟨6, 6, true⟩, ⟨3, 6, false⟩], 6, 5⟩
  have firstRolled : (expression.roll [5, 2]).1 = .ok roll := by
    cbv
  have secondRolled : (expression.roll [11, 8]).1 = .ok roll := by
    cbv
  have line : roll.line = "2d6kh1-1: [6, ‹3›] -1 = 5 (kept highest 1)" := by
    cbv
  obtain ⟨unique, reads⟩ := line_belongs_to_one_roll firstRolled secondRolled
  have heading :
      String.ofList (beforeColon
        "2d6kh1-1: [6, ‹3›] -1 = 5 (kept highest 1)".toList) = "2d6kh1-1" := by
    cbv
  rw [line, heading] at reads
  exact ⟨roll, roll, firstRolled, secondRolled, line, rfl, unique rfl, reads⟩

end Tabletop.Dice
