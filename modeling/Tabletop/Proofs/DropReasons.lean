import Tabletop.Proofs.KeptDice
import Tabletop.Proofs.WrittenMarks

/-!
# Reasons for dropping dice

Fewer dice count than are thrown just when the expression gives a reason for
it: the advantage, or else the operation. The result line of a roll shows no
bracket up to its total and then, where dice were dropped, the reason in
brackets. So the line can be asked whether and why dice were dropped.
-/

namespace Tabletop.Dice

/-- The reason that an expression gives for dropping dice. -/
def Expression.dropNote? (expression : Expression) : Option String :=
  if expression.advantage then
    some "advantage"
  else
    expression.operation.map Operation.describe

/-- Where fewer dice count than are thrown, the expression has a reason. -/
theorem Expression.exists_dropNote {expression : Expression}
    (dropping : expression.keptNumber < expression.physicalDice) :
    ∃ note, expression.dropNote? = some note := by
  unfold keptNumber physicalDice at dropping
  unfold dropNote?
  cases advantage : expression.advantage with
  | true =>
      exact ⟨_, rfl⟩
  | false =>
      cases chosen : expression.operation with
      | none =>
          simp [advantage, chosen] at dropping
      | some operation =>
          exact ⟨_, rfl⟩

section Reason

variable {expression : Expression} {draws : List UInt64} {roll : Roll}
  (law : RollLaw expression draws roll)
  (positive : 0 < expression.sides.toNat)

include law positive

theorem RollLaw.dropped_eq_nil_iff :
    roll.dropped = [] ↔ ¬ expression.keptNumber < expression.physicalDice := by
  have all := roll.kept_append_dropped_perm.length_eq
  rw [List.length_append, law.length_kept positive, law.length_dice] at all
  rw [← List.length_eq_zero_iff]
  omega

theorem RollLaw.dropReason?_eq :
    roll.dropReason? =
      if expression.keptNumber < expression.physicalDice then
        expression.dropNote?
      else
        none := by
  rw [Roll.dropReason?, law.expression_eq, ← Expression.dropNote?]
  by_cases dropping : expression.keptNumber < expression.physicalDice
  · have missing : roll.dropped ≠ [] :=
      fun whole => (law.dropped_eq_nil_iff positive).mp whole dropping
    rw [if_neg (by simpa using missing), if_pos dropping]
  · have whole : roll.dropped = [] :=
      (law.dropped_eq_nil_iff positive).mpr dropping
    rw [if_pos (by simpa using whole), if_neg dropping]

end Reason

/-- The text ends in the note in brackets. -/
def EndsInNote (note text : String) : Prop :=
  ∃ before, text = before ++ " (" ++ note ++ ")"

/-- No bracket is opened in the text. -/
def Unbracketed (text : String) : Prop :=
  '(' ∉ text.toList

instance (text : String) : Decidable (Unbracketed text) :=
  inferInstanceAs (Decidable (¬ _))

theorem unbracketed_append_iff {first second : String} :
    Unbracketed (first ++ second) ↔
      Unbracketed first ∧ Unbracketed second := by
  simp [Unbracketed]

theorem not_endsInNote {text : String} (plain : Unbracketed text)
    (note : String) :
    ¬ EndsInNote note text := by
  rintro ⟨before, rfl⟩
  simp [Unbracketed] at plain

theorem endsInNote_iff {body reason : String} (bodyPlain : Unbracketed body)
    (reasonPlain : Unbracketed reason) {note : String} :
    EndsInNote note (body ++ (" (" ++ reason ++ ")")) ↔ note = reason := by
  constructor
  · rintro ⟨before, same⟩
    have letters := congrArg String.toList same
    have before_open : '(' ∉ body.toList ++ [' '] := by
      simpa [Unbracketed] using bodyPlain
    have behind_open : '(' ∉ reason.toList ++ [')'] := by
      simpa [Unbracketed] using reasonPlain
    have split :
        (body.toList ++ [' ']) ++ '(' :: (reason.toList ++ [')']) =
          (before.toList ++ [' ']) ++ '(' :: (note.toList ++ [')']) := by
      simpa using letters
    obtain ⟨_, _, behind⟩ :=
      (List.append_cons_inj_of_notMem before_open behind_open).mp split
    exact (String.toList_injective (List.append_cancel_right behind)).symm
  · rintro rfl
    exact ⟨body, by simp [String.append_assoc]⟩

theorem WrittenWith.unbracketed {marks : List Char} {text : String}
    (written : WrittenWith marks text) (unused : '(' ∉ marks) :
    Unbracketed text :=
  written.notMem (by decide) unused

namespace Roll

/-- The result line as far as the total. -/
def score (roll : Roll) : String :=
  roll.expression.text ++ ": [" ++ ", ".intercalate (roll.dice.map Die.text) ++
    "]" ++ modifierNote roll.expression.modifier ++ " = " ++ toString roll.total

theorem line_eq (roll : Roll) :
    roll.line =
      roll.score ++
        (match roll.dropReason? with
          | some reason => " (" ++ reason ++ ")"
          | none => "") :=
  rfl

theorem unbracketed_score (roll : Roll) : Unbracketed roll.score := by
  have expression : Unbracketed roll.expression.text :=
    (writtenWith_text roll.expression).unbracketed (by decide)
  have dice : Unbracketed (", ".intercalate (roll.dice.map Die.text)) :=
    (writtenWith_dice roll.dice).unbracketed (by decide)
  have modifier : Unbracketed (modifierNote roll.expression.modifier) := by
    unfold modifierNote
    split
    · decide
    · exact unbracketed_append_iff.mpr
        ⟨by decide, (writtenWith_modifierText _).unbracketed (by decide)⟩
  have signed : WrittenWith ['-'] (toString roll.total) :=
    writtenWith_integer (by decide) roll.total
  have total : Unbracketed (toString roll.total) :=
    signed.unbracketed (by decide)
  simp only [score, unbracketed_append_iff]
  exact ⟨⟨⟨⟨⟨⟨expression, by decide⟩, dice⟩, by decide⟩, modifier⟩,
    by decide⟩, total⟩

end Roll

theorem Operation.unbracketed_describe (operation : Operation) :
    Unbracketed operation.describe := by
  obtain ⟨cut, number⟩ := operation
  have phrase : Unbracketed cut.phrase := by
    cases cut <;> decide
  exact unbracketed_append_iff.mpr
    ⟨phrase, (writtenWith_natural _).unbracketed List.not_mem_nil⟩

theorem Expression.unbracketed_of_dropNote {expression : Expression}
    {note : String} (given : expression.dropNote? = some note) :
    Unbracketed note := by
  unfold dropNote? at given
  split at given
  · obtain rfl := Option.some.inj given
    decide
  · obtain ⟨operation, _, rfl⟩ := Option.map_eq_some_iff.mp given
    exact operation.unbracketed_describe

/-- The result line ends in the reason why dice were dropped and in no other
note. -/
theorem endsInNote_line_iff {roll : Roll}
    (plain : ∀ reason, roll.dropReason? = some reason → Unbracketed reason)
    {note : String} :
    EndsInNote note roll.line ↔ roll.dropReason? = some note := by
  rw [roll.line_eq]
  cases given : roll.dropReason? with
  | none =>
      rw [String.append_empty]
      simp [not_endsInNote roll.unbracketed_score]
  | some reason =>
      rw [endsInNote_iff roll.unbracketed_score (plain reason given),
        Option.some.injEq, eq_comm]

/-- Sufficient draws let as many dice count as the expression says, whatever
they show. The result line ends in a note in brackets just when these are fewer
than are thrown; the note is the reason why dice were dropped, the advantage or
else the operation. -/
theorem kept_number_is_fixed_and_explained {expression : Expression}
    (valid : expression.Valid) {draws : List UInt64}
    (enough : expression.physicalDice ≤ draws.length) :
    ∃ roll,
      expression.roll draws = (.ok roll, draws.drop expression.physicalDice) ∧
        roll.kept.length = expression.keptNumber ∧
        ((∃ note, EndsInNote note roll.line) ↔
          expression.keptNumber < expression.physicalDice) ∧
        (∀ note,
          EndsInNote note roll.line → expression.dropNote? = some note) ∧
        (roll.dropReason? = none ↔ roll.dropped = []) := by
  obtain ⟨roll, rolled, law⟩ := exists_roll_of_enough valid enough
  have reason := law.dropReason?_eq valid.sides_pos
  have ends :
      ∀ note, EndsInNote note roll.line ↔ roll.dropReason? = some note := by
    intro note
    refine endsInNote_line_iff ?_
    intro given isReason
    rw [reason] at isReason
    split at isReason
    · exact Expression.unbracketed_of_dropNote isReason
    · cases isReason
  refine ⟨roll, rolled, law.length_kept valid.sides_pos, ?_, ?_, ?_⟩
  · simp only [ends, reason]
    split
    · rename_i dropping
      exact iff_of_true (Expression.exists_dropNote dropping) dropping
    · rename_i whole
      exact iff_of_false (fun ⟨_, given⟩ => nomatch given) whole
  · intro note ending
    rw [ends, reason] at ending
    split at ending
    · exact ending
    · cases ending
  · rw [law.dropped_eq_nil_iff valid.sides_pos, reason]
    split
    · rename_i dropping
      obtain ⟨note, given⟩ := Expression.exists_dropNote dropping
      simp [given, dropping]
    · rename_i whole
      exact iff_of_true rfl whole

/-- Two pairs under advantage of which the lower is to be dropped: one die of
the four counts, and the line names the advantage alone. -/
theorem kept_number_is_fixed_and_explained_of_two_pairs :
    let expression : Expression := ⟨2, 6, 1, some ⟨.dropLowest, 1⟩, true⟩
    let draws : List UInt64 := [5, 11, 2, 0]
    expression.Valid ∧ expression.physicalDice ≤ draws.length ∧
      ∃ roll,
        expression.roll draws = (.ok roll, []) ∧ roll.kept.length = 1 ∧
          EndsInNote "advantage" roll.line := by
  intro expression draws
  have valid : expression.Valid := by
    decide
  have enough : expression.physicalDice ≤ draws.length := by
    decide
  obtain ⟨roll, rolled, number, ends, named, _⟩ :=
    kept_number_is_fixed_and_explained valid enough
  obtain ⟨note, ending⟩ := ends.mpr (by decide)
  obtain rfl : "advantage" = note := Option.some.inj (named note ending)
  exact ⟨valid, enough, roll, rolled, number, ending⟩

end Tabletop.Dice
