import Tabletop.Proofs.ErrorLines
import Tabletop.Proofs.WaysOfRolling

/-!
# Notations cut into arguments

The arguments of the program that are no options make up a notation, with or
without the name of the command in front of them. The blanks between them and
in them do not count, so a notation can be cut into arguments anywhere; only the
report of an error shows where it was cut.
-/

namespace Tabletop.CommandLine

open Tabletop.Clock
open Tabletop.Dice
open Tabletop.Session
open Tabletop.Text

variable {Moment : Type} [Calendar Moment]

/-- Words that can stand for a notation without a command in front of them:
none looks like an option, and the first is not the name of a command. -/
structure Rollable (words : List String) : Prop where
  given : words ≠ []
  undashed : ∀ word ∈ words, word.toList.head? ≠ some '-'
  unnamed :
    ∀ name ∈ ["roll", "r", "shell", "help"], words.head? ≠ some name

/-- The words as they are, or with `--json` somewhere among them. -/
def GivenAs (words : List String) (json : Bool) (arguments : List String) :
    Prop :=
  if json then
    ∃ before after,
      before ++ after = words ∧ arguments = before ++ "--json" :: after
  else
    arguments = words

section Reading

variable {words arguments : List String} {json : Bool}
  (rollable : Rollable words) (given : GivenAs words json arguments)

include rollable given

theorem readRollArguments_of_givenAs (program : String)
    (bare : Option Request) :
    readRollArguments program bare [] false arguments =
      some (.roll words json) := by
  have plain :
      ∀ word ∈ words, word.toList.head? = some '-' → word = "-" :=
    fun word member dash => absurd dash (rollable.undashed word member)
  have notEmpty : ¬ words.isEmpty = true := by
    rw [List.isEmpty_iff]
    exact rollable.given
  cases json with
  | false =>
      obtain rfl : arguments = words := given
      rw [readRollArguments_of_words program bare plain, List.nil_append,
        if_neg notEmpty]
  | true =>
      obtain ⟨before, after, rfl, rfl⟩ := given
      rw [List.forall_mem_append] at plain
      have option :
          Argument.classify "--json" = .longOption "json" none := by
        decide
      rw [readRollArguments_append program bare plain.1, List.nil_append,
        readRollArguments, option]
      simp only [if_neg Bool.false_ne_true,
        readRollArguments_of_words program bare plain.2, if_neg notEmpty]

theorem exists_first_of_givenAs :
    ∃ first rest,
      arguments = first :: rest ∧
        ∀ name ∈ ["roll", "r", "shell", "help"], first ≠ name := by
  obtain ⟨word, later, rfl⟩ := List.exists_cons_of_ne_nil rollable.given
  have foreign : ∀ name ∈ ["roll", "r", "shell", "help"], word ≠ name :=
    fun name member same =>
      rollable.unnamed name member (congrArg some same)
  cases json with
  | false =>
      exact ⟨word, later, given, foreign⟩
  | true =>
      obtain ⟨before, after, whole, rfl⟩ := given
      cases before with
      | nil =>
          exact ⟨"--json", after, rfl, by decide⟩
      | cons first rest =>
          obtain rfl : first = word := (List.cons_eq_cons.mp whole).1
          exact ⟨first, rest ++ "--json" :: after, rfl, foreign⟩

theorem request_of_givenAs :
    Request.read arguments = some (.roll words json) ∧
      Request.read ("roll" :: arguments) = some (.roll words json) ∧
      Request.read ("r" :: arguments) = some (.roll words json) := by
  have read := readRollArguments_of_givenAs rollable given
  refine ⟨?_, ?_, ?_⟩
  · obtain ⟨first, rest, rfl, foreign⟩ :=
      exists_first_of_givenAs rollable given
    rw [read_of_foreign foreign, read]
  · rw [Request.read, read]
  · rw [Request.read, read]

end Reading

/-- The program finishes in this way wherever `--json` stands, if it is given,
and whether the command is named by `roll`, by `r`, or not at all. -/
def Finishes (printer : ReportPrinter) (words : List String) (json : Bool)
    (now : Moment) (draws : List UInt64) (finish : Finish) : Prop :=
  ∀ arguments input, GivenAs words json arguments →
    run printer arguments input now draws = finish ∧
      run printer ("roll" :: arguments) input now draws = finish ∧
      run printer ("r" :: arguments) input now draws = finish

theorem finishes_rollWords (printer : ReportPrinter) {words : List String}
    (rollable : Rollable words) (json : Bool) (now : Moment)
    (draws : List UInt64) :
    Finishes printer words json now draws
      (rollWords printer words json draws) := by
  intro arguments input given
  obtain ⟨direct, named, shortened⟩ := request_of_givenAs rollable given
  rw [run, run, run, direct, named, shortened]
  exact ⟨rfl, rfl, rfl⟩

theorem squeeze_intercalate (words : List String) :
    squeeze (" ".intercalate words).toList =
      squeeze (String.join words).toList := by
  induction words with
  | nil =>
      rfl
  | cons word rest inductionHypothesis =>
      cases rest with
      | nil =>
          rw [String.intercalate_singleton, String.join_cons, String.join_nil,
            String.append_empty]
      | cons next later =>
          have space : squeeze " ".toList = [] := by
            decide
          rw [String.intercalate_cons_cons, String.join_cons,
            String.toList_append, String.toList_append, String.toList_append,
            squeeze_append, squeeze_append, squeeze_append, space,
            List.append_nil, inductionHypothesis]

/-- Words that are cut elsewhere are rolled alike but for the report of an
error. -/
theorem rollWords_of_squeeze_eq (printer : ReportPrinter)
    {words others : List String}
    (same :
      squeeze (String.join others).toList =
        squeeze (String.join words).toList)
    (json : Bool) (draws : List UInt64) :
    (rollWords printer others json draws).code =
        (rollWords printer words json draws).code ∧
      (rollWords printer others json draws).output =
        (rollWords printer words json draws).output := by
  rw [← squeeze_intercalate, ← squeeze_intercalate] at same
  cases read : Expression.read (" ".intercalate words) with
  | ok expression =>
      have otherRead :
          Expression.read (" ".intercalate others) = .ok expression :=
        readChars_of_squeeze_eq same.symm read
      rw [rollWords, rollWords, read, otherRead]
      exact ⟨rfl, rfl⟩
  | error error =>
      cases otherRead : Expression.read (" ".intercalate others) with
      | ok expression =>
          have both :
              Expression.read (" ".intercalate words) = .ok expression :=
            readChars_of_squeeze_eq same otherRead
          rw [read] at both
          cases both
      | error otherError =>
          rw [rollWords, rollWords, read, otherRead]
          simp only [Finish.failure, and_self]

/-- The last line of a text. -/
def EndsInLine (text line : String) : Prop :=
  OneLine line ∧
    ∃ before,
      text = before ++ line ++ "\n" ∧
        (before = "" ∨ ∃ earlier, before = earlier ++ "\n")

theorem report_ends (error : NotationError) (printer : ReportPrinter)
    (text : List Char) :
    error.report printer text = "" ∨
      ∃ lines, error.report printer text = lines ++ "\n" := by
  unfold NotationError.report
  split
  · exact Or.inl rfl
  · cases drawn :
        printer.draw? error.message error.fault.label text
          (labelSpan text error.span) with
    | some report =>
        exact printer.ends_of_draw?_eq_some drawn
    | none =>
        exact Or.inr ⟨_, rfl⟩

theorem endsInLine_errorLine {before message : String}
    (whole : before = "" ∨ ∃ earlier, before = earlier ++ "\n")
    (oneLine : OneLine message) :
    EndsInLine (before ++ errorLine message) ("error: " ++ message) := by
  refine ⟨oneLine_append_iff.mpr ⟨by decide, oneLine⟩, before, ?_, whole⟩
  rw [errorLine, String.append_assoc, String.append_assoc,
    String.append_assoc]

/-- The words are a notation, and there is a draw for each die. -/
def CanRoll (words : List String) (draws : List UInt64) : Prop :=
  ∃ expression,
    Expression.read (" ".intercalate words) = .ok expression ∧
      expression.physicalDice ≤ draws.length

/-- The program shows the roll, or says in the last line of its errors why there
is none. -/
inductive Answers (words : List String) (json : Bool) (draws : List UInt64) :
    Finish → Prop
  | rolled {roll : Roll}
      (outcome :
        (rollText (" ".intercalate words) draws).1 = .ok roll) :
      Answers words json draws
        (.success
          ((if json then roll.prettyJson else "🎲 " ++ roll.line) ++ "\n"))
  | failed {error : DiceError} {errors : String}
      (outcome :
        (rollText (" ".intercalate words) draws).1 = .error error)
      (last : EndsInLine errors ("error: " ++ error.message)) :
      Answers words json draws (.failure errors)

theorem answers_rollWords (printer : ReportPrinter) (words : List String)
    (json : Bool) (draws : List UInt64) :
    Answers words json draws (rollWords printer words json draws) := by
  cases read : Expression.read (" ".intercalate words) with
  | error error =>
      have outcome :
          (rollText (" ".intercalate words) draws).1 =
            .error (.unreadable error) := by
        rw [rollText, read]
      have oneLine : OneLine error.message :=
        NotationError.oneLine_message (quotesInk_readChars _ error read)
      rw [rollWords, read]
      exact .failed outcome (endsInLine_errorLine (report_ends _ _ _) oneLine)
  | ok expression =>
      have rolled := rollText_of_read read draws
      rw [rollWords, read]
      dsimp only
      rcases roll_cases_of_read read draws with ⟨roll, left, cast⟩ | exhausted
      · rw [cast] at rolled ⊢
        exact .rolled (congrArg Prod.fst rolled)
      · rw [exhausted] at rolled ⊢
        have last :=
          endsInLine_errorLine (Or.inl rfl)
            (by decide : OneLine RollError.drawsExhausted.message)
        rw [String.empty_append] at last
        exact .failed (congrArg Prod.fst rolled) last

theorem code_rollWords_eq_zero_iff (printer : ReportPrinter)
    (words : List String) (json : Bool) (draws : List UInt64) :
    (rollWords printer words json draws).code = 0 ↔ CanRoll words draws := by
  cases read : Expression.read (" ".intercalate words) with
  | error error =>
      rw [rollWords, CanRoll, read]
      simp [Finish.failure]
  | ok expression =>
      rw [rollWords, CanRoll, read]
      dsimp only
      rw [roll_of_valid (valid_of_read read)]
      by_cases short : draws.length < expression.physicalDice
      · rw [if_pos short]
        simp [Finish.failure, short]
      · rw [if_neg short]
        simp [Finish.success, Nat.le_of_not_lt short]

/-- The arguments that are no options, with or without `--json` among them, end
the program in one way whether or not `roll` or `r` stands in front of them:
the roll is shown exactly if they are a notation and the draws suffice, and
else the last line of the errors says why not. Cut elsewhere, the same notation
gives the same code and the same output. -/
theorem arguments_can_be_cut_anywhere {words : List String}
    (rollable : Rollable words) (printer : ReportPrinter) (json : Bool)
    (now : Moment) (draws : List UInt64) :
    ∃ finish,
      Finishes printer words json now draws finish ∧
        Answers words json draws finish ∧
        (finish.code = 0 ↔ CanRoll words draws) ∧
        ∀ others, Rollable others →
          squeeze (String.join others).toList =
              squeeze (String.join words).toList →
            ∃ other,
              Finishes printer others json now draws other ∧
                other.code = finish.code ∧ other.output = finish.output := by
  refine ⟨rollWords printer words json draws,
    finishes_rollWords printer rollable json now draws,
    answers_rollWords printer words json draws,
    code_rollWords_eq_zero_iff printer words json draws, ?_⟩
  intro others othersRollable same
  exact ⟨rollWords printer others json draws,
    finishes_rollWords printer othersRollable json now draws,
    rollWords_of_squeeze_eq printer same json draws⟩

/-- A number can be cut in two, and a blank put before the letter. -/
theorem arguments_can_be_cut_anywhere_of_tens :
    Rollable ["2d1", "0"] ∧ Rollable ["2 d", "10"] ∧
      run .oneLine ["r", "2d1", "0"] "" Instant.epoch [2, 4] =
        .success "🎲 2d10: [3, 5] = 8\n" ∧
      (run .oneLine ["2 d", "10"] "" Instant.epoch [2, 4]).output =
        "🎲 2d10: [3, 5] = 8\n" := by
  have rollable : Rollable ["2d1", "0"] :=
    ⟨List.cons_ne_nil _ _, by decide, by decide⟩
  have otherRollable : Rollable ["2 d", "10"] :=
    ⟨List.cons_ne_nil _ _, by decide, by decide⟩
  have rolled :
      rollText (" ".intercalate ["2d1", "0"]) [2, 4] =
        (.ok ⟨⟨2, 10, 0, none, false⟩, [⟨3, 10, true⟩, ⟨5, 10, true⟩], 8, 8⟩,
          []) := by
    cbv
  have shown :
      Roll.line
          ⟨⟨2, 10, 0, none, false⟩, [⟨3, 10, true⟩, ⟨5, 10, true⟩], 8, 8⟩ =
        "2d10: [3, 5] = 8" := by
    cbv
  obtain ⟨finish, finishes, answers, _, cut⟩ :=
    arguments_can_be_cut_anywhere rollable .oneLine false Instant.epoch [2, 4]
  obtain ⟨other, otherFinishes, _, output⟩ :=
    cut ["2 d", "10"] otherRollable (by decide)
  obtain ⟨_, _, shortened⟩ := finishes ["2d1", "0"] "" rfl
  obtain ⟨direct, _⟩ := otherFinishes ["2 d", "10"] "" rfl
  refine ⟨rollable, otherRollable, ?_⟩
  rw [shortened, direct, output]
  cases answers with
  | rolled outcome =>
      rw [rolled] at outcome
      cases outcome
      rw [shown]
      exact ⟨rfl, rfl⟩
  | failed outcome _ =>
      rw [rolled] at outcome
      cases outcome

end Tabletop.CommandLine
