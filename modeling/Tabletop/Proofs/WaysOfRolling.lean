import Tabletop.Clock.Instant
import Tabletop.CommandLine
import Tabletop.Proofs.CommandWords
import Tabletop.Proofs.RollLaw

/-!
# Ways of rolling

A notation can be rolled on its own, on a line of a session, on such a line
behind a roll word, and on the command line. Whichever way is taken, the same
draws give the same result line or the same lack of draws.
-/

namespace Tabletop.Dice

open Tabletop.Text

theorem toNat_ofNat_of_le {value : Nat} (small : value ≤ 2 ^ 32 - 1) :
    (UInt32.ofNat value).toNat = value := by
  apply UInt32.toNat_ofNat_of_lt
  unfold UInt32.size
  omega

theorem NotationTree.valid_of_inRange {tree : NotationTree}
    (inRange : tree.InRange) :
    tree.expression.Valid := by
  obtain ⟨counts, sides, clauses⟩ := inRange
  rw [Expression.valid_iff]
  refine ⟨?_, ?_, ?_⟩
  · have bounds :
        1 ≤ (tree.count.map Numeral.value).getD 1 ∧
          (tree.count.map Numeral.value).getD 1 ≤ 1000 := by
      cases given : tree.count with
      | none =>
          exact ⟨le_rfl, by decide⟩
      | some count =>
          exact counts count given
    show 1 ≤ (UInt32.ofNat _).toNat ∧ (UInt32.ofNat _).toNat ≤ 1000
    rw [toNat_ofNat_of_le (by omega)]
    exact bounds
  · rw [UInt32.le_iff_toNat_le]
    show 2 ≤ (UInt32.ofNat _).toNat
    rw [toNat_ofNat_of_le sides.2]
    exact sides.1
  · intro operation last
    have member := List.mem_of_getLast? last
    rw [List.mem_filterMap] at member
    obtain ⟨clause, given, named⟩ := member
    cases clause with
    | advantage =>
        cases named
    | modifier sign magnitude =>
        cases named
    | operation keyword count =>
        have bounds := Clause.inRange_operation.mp (clauses _ given)
        obtain rfl := Option.some_inj.mp named
        intro zero
        have none : count.value = 0 := by
          rw [← toNat_ofNat_of_le bounds.2]
          exact congrArg UInt32.toNat zero
        omega

theorem valid_of_read {text : String} {expression : Expression}
    (reads : Expression.read text = .ok expression) :
    expression.Valid := by
  obtain ⟨tree, written⟩ := exists_tree_of_readChars reads
  obtain ⟨inRange, rfl⟩ := (readChars_eq_ok_iff_of_tree written).mp reads
  exact tree.valid_of_inRange inRange

theorem rollText_of_read {text : String} {expression : Expression}
    (reads : Expression.read text = .ok expression) (draws : List UInt64) :
    rollText text draws =
      ((expression.roll draws).1.mapError .unrolled,
        (expression.roll draws).2) := by
  rw [rollText, reads]

/-- A notation that is read is rolled unless the draws run out. -/
theorem roll_cases_of_read {text : String} {expression : Expression}
    (reads : Expression.read text = .ok expression) (draws : List UInt64) :
    (∃ roll left, expression.roll draws = (.ok roll, left)) ∨
      expression.roll draws = (.error .drawsExhausted, []) := by
  rw [roll_of_valid (valid_of_read reads)]
  split
  · exact Or.inr rfl
  · exact Or.inl ⟨_, _, rfl⟩

end Tabletop.Dice

namespace Tabletop.Session

open Tabletop.Dice
open Tabletop.Text

/-- The lines that roll a notation: the notation itself, and a roll word in
front of it. -/
def RollLine (text line : String) : Prop :=
  line = text ∨
    ∃ word : String,
      Shortens word.toList "roll" ∧ line = word ++ " " ++ text

theorem isInk_of_shortens {word : List Char} (shortens : Shortens word "roll")
    {letter : Char} (member : letter ∈ word) :
    isInk letter = true := by
  have inked : ∀ low ∈ "roll".toList, isInk low = true := by
    simp [isInk, isBlank]
  rw [← isInk_toLower]
  exact inked letter.toLower
    (shortens.2.subset (List.mem_map_of_mem member))

theorem read_of_rollLine {text line : String} {expression : Expression}
    (reads : Expression.read text = .ok expression)
    (rolls : RollLine text line) :
    Command.read (trim line.toList) = .ok (.roll expression) := by
  rcases rolls with rfl | ⟨word, shortens, rfl⟩
  · exact read_of_notation reads
  · obtain ⟨tail, split, shown⟩ :=
      exists_splitFirst_trim shortens.1
        (fun letter member => isInk_of_shortens shortens member)
        (by decide : isBlank ' ' = true) (not_allBlank_of_readChars reads)
    have tailReads := readChars_of_squeeze_eq shown.symm reads
    have given : tail.isEmpty = false := by
      rw [List.isEmpty_eq_false_iff]
      rintro rfl
      exact not_allBlank_of_readChars tailReads (List.forall_mem_nil _)
    have line : (word ++ " " ++ text).toList = word.toList ++ ' ' :: text.toList := by
      simp
    have asked : Shortens (splitFirst (trim (word ++ " " ++ text).toList)).1 "roll" := by
      rw [line, split]
      exact shortens
    rw [read_of_rollWord asked, line, split, readRollArguments, given,
      if_neg Bool.false_ne_true]
    dsimp only
    rw [tailReads]

end Tabletop.Session

namespace Tabletop.CommandLine

open Tabletop.Clock
open Tabletop.Dice
open Tabletop.Session
open Tabletop.Text

variable {Moment : Type} [Calendar Moment]

/-- Arguments that make up a text when they are joined by spaces, none of them
like an option; a dash may stand alone. -/
def MakeUp (text : String) (words : List String) : Prop :=
  " ".intercalate words = text ∧
    ∀ word ∈ words, word.toList.head? = some '-' → word = "-"

theorem classify_of_plain {word : String}
    (plain : word.toList.head? = some '-' → word = "-") :
    Argument.classify word = .word word := by
  unfold Argument.classify
  split
  · rename_i shape
    rw [plain (by rw [shape]; rfl)] at shape
    cases shape
  · rename_i shape
    rw [plain (by rw [shape]; rfl)] at shape
    cases shape
  · rename_i shape
    rw [plain (by rw [shape]; rfl)] at shape
    cases shape
  · rfl

/-- Plain words are put behind those that have been read. -/
theorem readRollArguments_append (program : String) (bare : Option Request)
    {words : List String}
    (plain : ∀ word ∈ words, word.toList.head? = some '-' → word = "-")
    (before : List String) (json : Bool) (rest : List String) :
    readRollArguments program bare before json (words ++ rest) =
      readRollArguments program bare (before ++ words) json rest := by
  induction words generalizing before with
  | nil =>
      rw [List.nil_append, List.append_nil]
  | cons word later inductionHypothesis =>
      rw [List.forall_mem_cons] at plain
      rw [List.cons_append, readRollArguments, classify_of_plain plain.1]
      dsimp only
      rw [inductionHypothesis plain.2, List.append_assoc]
      rfl

theorem readRollArguments_of_words (program : String) (bare : Option Request)
    {words : List String}
    (plain : ∀ word ∈ words, word.toList.head? = some '-' → word = "-")
    (before : List String) (json : Bool) :
    readRollArguments program bare before json words =
      if (before ++ words).isEmpty then bare
      else some (.roll (before ++ words) json) := by
  have read := readRollArguments_append program bare plain before json []
  rwa [List.append_nil, readRollArguments] at read

/-- Arguments that begin with no name of a command are all read as words and
options of a roll. -/
theorem read_of_foreign {first : String} {rest : List String}
    (foreign : ∀ name ∈ ["roll", "r", "shell", "help"], first ≠ name) :
    Request.read (first :: rest) =
      readRollArguments "tavern" (some (.session Settings.standard)) [] false
        (first :: rest) := by
  unfold Request.read
  split
  · rename_i same
    exact absurd (List.cons_eq_cons.mp same).1 (foreign _ (by decide))
  · rename_i same
    exact absurd (List.cons_eq_cons.mp same).1 (foreign _ (by decide))
  · rename_i same
    exact absurd (List.cons_eq_cons.mp same).1 (foreign _ (by decide))
  · rename_i same
    exact absurd (List.cons_eq_cons.mp same).1 (foreign _ (by decide))
  · rfl

theorem exists_append_of_intercalate {text word : String} {rest : List String}
    (joined : " ".intercalate (word :: rest) = text) :
    ∃ tail, text.toList = word.toList ++ tail := by
  subst joined
  cases rest with
  | nil =>
      exact ⟨[], by rw [String.intercalate_singleton, List.append_nil]⟩
  | cons next later =>
      refine ⟨(" " ++ " ".intercalate (next :: later)).toList, ?_⟩
      rw [String.intercalate_cons_cons, String.append_assoc,
        String.toList_append]

section Words

variable {text : String} {expression : Expression}
  (reads : Expression.read text = .ok expression)

include reads

theorem opens_of_read {first : Char} {rest : List Char}
    (shape : text.toList = first :: rest) (ink : isInk first = true) :
    first.isDigit = true ∨ first ∈ ['d', 'D'] := by
  obtain ⟨letter, later, shown, opens⟩ := exists_first_of_readChars reads
  rw [shape, squeeze, List.filter_cons_of_pos ink] at shown
  rwa [(List.cons_eq_cons.mp shown).1]

theorem makeUp_singleton : MakeUp text [text] := by
  refine ⟨String.intercalate_singleton, ?_⟩
  rw [List.forall_mem_singleton]
  intro dash
  obtain ⟨rest, shape⟩ := List.head?_eq_some_iff.mp dash
  have opens := opens_of_read reads shape (by decide)
  exact absurd opens (by decide)

theorem exists_word_of_makeUp {words : List String}
    (makes : MakeUp text words) :
    ∃ word rest,
      words = word :: rest ∧
        ∀ name ∈ ["roll", "r", "shell", "help"], word ≠ name := by
  cases words with
  | nil =>
      have empty : text = "" := makes.1.symm
      rw [empty] at reads
      exact absurd (List.forall_mem_nil _) (not_allBlank_of_readChars reads)
  | cons word rest =>
      refine ⟨word, rest, rfl, ?_⟩
      have known :
          ∀ name ∈ ["roll", "r", "shell", "help"],
            ∃ first more,
              name.toList = first :: more ∧ isInk first = true ∧
                ¬ (first.isDigit = true ∨ first ∈ ['d', 'D']) := by
        simp [isInk, isBlank]
      rintro name member rfl
      obtain ⟨first, more, shape, ink, foreign⟩ := known word member
      obtain ⟨tail, whole⟩ := exists_append_of_intercalate makes.1
      rw [shape, List.cons_append] at whole
      exact foreign (opens_of_read reads whole ink)

theorem request_of_makeUp {words : List String} (makes : MakeUp text words) :
    Request.read words = some (.roll words false) ∧
      Request.read ("roll" :: words) = some (.roll words false) := by
  obtain ⟨word, rest, rfl, foreign⟩ := exists_word_of_makeUp reads makes
  constructor
  · rw [read_of_foreign foreign, readRollArguments_of_words _ _ makes.2]
    rfl
  · show readRollArguments "tavern-roll" none [] false (word :: rest) = _
    rw [readRollArguments_of_words _ _ makes.2]
    rfl

theorem run_of_makeUp {words : List String} (makes : MakeUp text words)
    (printer : ReportPrinter) (input : String) (now : Moment)
    (draws : List UInt64) :
    run printer words input now draws = rollWords printer words false draws ∧
      run printer ("roll" :: words) input now draws =
        rollWords printer words false draws := by
  obtain ⟨direct, named⟩ := request_of_makeUp reads makes
  constructor
  · rw [run, direct]
  · rw [run, named]

end Words

def LinesGive (session : Session Moment) (text : String) (now : Moment)
    (draws : List UInt64) (outcome : Outcome Moment) : Prop :=
  ∀ line, RollLine text line → session.process now draws line = outcome

/-- The program finishes in this way whether or not the notation stands behind
the name of the command. -/
def ProgramGives (printer : ReportPrinter) (text : String) (now : Moment)
    (draws : List UInt64) (finish : Finish) : Prop :=
  ∀ words input, MakeUp text words →
    run printer words input now draws = finish ∧
      run printer ("roll" :: words) input now draws = finish

theorem linesGive_roll {text : String} {expression : Expression}
    (reads : Expression.read text = .ok expression) {session : Session Moment}
    (outside : session.entering = false) (now : Moment)
    (draws : List UInt64) :
    LinesGive session text now draws (session.roll expression draws) := by
  intro line rolls
  rw [process, processChars, outside, if_neg Bool.false_ne_true,
    read_of_rollLine reads rolls]
  rfl

theorem programGives_rollWords {text : String} {expression : Expression}
    (reads : Expression.read text = .ok expression) (printer : ReportPrinter)
    (now : Moment) (draws : List UInt64) :
    ProgramGives printer text now draws
      (rollWords printer [text] false draws) := by
  intro words input makes
  have joined :
      rollWords printer words false draws =
        rollWords printer [text] false draws := by
    rw [rollWords, rollWords, makes.1, String.intercalate_singleton]
  rw [← joined]
  exact run_of_makeUp reads makes printer input now draws

/-- A notation that is read is rolled alike in all ways: a line of a session
shows the result line, remembers it and changes nothing else, and the program
prints it. When the draws run out, all ways fail alike. -/
theorem ways_of_rolling_agree {text : String} {expression : Expression}
    (reads : Expression.read text = .ok expression) {session : Session Moment}
    (outside : session.entering = false) (printer : ReportPrinter)
    (now : Moment) (draws : List UInt64) :
    MakeUp text [text] ∧
      ((∃ roll left,
          rollText text draws = (.ok roll, left) ∧
            LinesGive session text now draws
              ⟨.ok (if session.settings.glyphs then "🎲 " ++ roll.line
                  else roll.line),
                { session with
                  history :=
                    (session.history ++ [roll.line]).rtake
                      session.settings.historyLimit },
                left⟩ ∧
            ProgramGives printer text now draws
              (.success ("🎲 " ++ roll.line ++ "\n"))) ∨
        (rollText text draws = (.error (.unrolled .drawsExhausted), []) ∧
          LinesGive session text now draws
            ⟨.error (.dice (.unrolled .drawsExhausted)), session, []⟩ ∧
          ProgramGives printer text now draws
            (.failure (errorLine RollError.drawsExhausted.message)))) := by
  have lines := linesGive_roll reads outside now draws
  have program := programGives_rollWords reads printer now draws
  rw [Session.roll] at lines
  rw [rollWords, String.intercalate_singleton, reads] at program
  dsimp only at program
  refine ⟨makeUp_singleton reads, ?_⟩
  rw [rollText_of_read reads]
  rcases roll_cases_of_read reads draws with ⟨roll, left, rolled⟩ | exhausted
  · rw [rolled] at lines program ⊢
    exact Or.inl ⟨roll, left, rfl, lines, program⟩
  · rw [exhausted] at lines program ⊢
    exact Or.inr ⟨rfl, lines, program⟩

/-- Behind a shortened roll word in capitals, and spread over three arguments,
two dice show the same faces. -/
theorem ways_of_rolling_agree_of_two_dice :
    let session := Session.new Settings.standard
    Expression.read " 2 d6+1" = .ok ⟨2, 6, 1, none, false⟩ ∧
      session.entering = false ∧
      session.process Instant.epoch [2, 4, 9] "RO  2 d6+1" =
        ⟨.ok "🎲 2d6+1: [3, 5] +1 = 9",
          { session with history := ["2d6+1: [3, 5] +1 = 9"] }, [9]⟩ ∧
      run .oneLine ["", "2", "d6+1"] "" Instant.epoch [2, 4, 9] =
        .success "🎲 2d6+1: [3, 5] +1 = 9\n" := by
  intro session
  have reads : Expression.read " 2 d6+1" = .ok ⟨2, 6, 1, none, false⟩ := by
    cbv
  have outside : session.entering = false := rfl
  have rolls : RollLine " 2 d6+1" "RO  2 d6+1" :=
    Or.inr ⟨"RO", by decide, rfl⟩
  have makes : MakeUp " 2 d6+1" ["", "2", "d6+1"] := by
    refine ⟨rfl, ?_⟩
    simp
  have rolled :
      rollText " 2 d6+1" [2, 4, 9] =
        (.ok ⟨⟨2, 6, 1, none, false⟩, [⟨3, 6, true⟩, ⟨5, 6, true⟩], 8, 9⟩,
          [9]) := by
    cbv
  refine ⟨reads, outside, ?_⟩
  rcases (ways_of_rolling_agree reads outside .oneLine .epoch [2, 4, 9]).2 with
    ⟨roll, left, known, lines, program⟩ | ⟨exhausted, _⟩
  · rw [rolled] at known
    cases known
    have shown :
        Roll.line
            ⟨⟨2, 6, 1, none, false⟩, [⟨3, 6, true⟩, ⟨5, 6, true⟩], 8, 9⟩ =
          "2d6+1: [3, 5] +1 = 9" := by
      cbv
    rw [shown] at lines program
    constructor
    · exact lines "RO  2 d6+1" rolls
    · exact (program ["", "2", "d6+1"] "" makes).1
  · rw [rolled] at exhausted
    cases exhausted

end Tabletop.CommandLine
