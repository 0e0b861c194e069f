import Mathlib
import Tabletop.Clock.Instant
import Tabletop.Proofs.CommandWords
import Tabletop.Proofs.Frames

/-!
# Remembered rolls

A session remembers the result lines of the latest rolls since they were last
cleared, as many as its settings allow. Which rolls those are is told from the
lines alone: a line rolls what stands behind a roll word, or all of it where
there is none, and only outside the entering of participants.
-/

namespace Tabletop.Session

open Tabletop.Clock
open Tabletop.Dice
open Tabletop.Text

variable {Moment : Type} [Calendar Moment]

inductive RollEvent where
  | rolled (roll : Roll)
  | cleared
deriving DecidableEq, Repr

namespace RollEvent

def IsRoll : RollEvent → Bool
  | rolled _ => true
  | cleared => false

def roll? : RollEvent → Option Roll
  | rolled roll => some roll
  | cleared => none

/-- The remembered lines behind an event: a roll is put at the end, and only
the latest lines are kept. -/
def record (limit : Nat) (history : List String) : RollEvent → List String
  | rolled roll => (history ++ [roll.line]).rtake limit
  | cleared => []

end RollEvent

/-- The text that a line asks to be rolled: what stands behind a roll word, or
else the whole line. -/
def rolledText (line : List Char) : List Char :=
  if Shortens (splitFirst line).1 "roll" then (splitFirst line).2 else line

/-- What a step does about rolls: it clears them, or it rolls what can be read
as a notation, if the draws suffice. -/
def rollEvents (session : Session Moment) : Step Moment → List RollEvent
  | .tick _ => []
  | .line _ draws text =>
      let line := trim text.toList
      if session.entering then
        []
      else if Shortens (splitFirst line).1 "clear" then
        [.cleared]
      else
        match (rollText (String.ofList (rolledText line)) draws).1 with
        | .ok roll => [.rolled roll]
        | .error _ => []

/-- The rolls behind the last clearing, the oldest first. -/
def rollsSinceClear (events : List RollEvent) : List Roll :=
  (events.rtakeWhile RollEvent.IsRoll).filterMap RollEvent.roll?

theorem settings_run (session : Session Moment) (now : Moment)
    (draws : List UInt64) (command : Command) :
    (session.run now draws command).session.settings = session.settings := by
  cases command with
  | roll expression =>
      obtain ⟨_, changed⟩ := session.exists_session_roll expression draws
      have kept := congrArg Session.settings changed
      exact kept
  | initiative command =>
      obtain ⟨_, _, changed⟩ := session.initiativeOnly_runInitiative command
      have kept := congrArg Session.settings changed
      exact kept
  | tracker command =>
      obtain ⟨_, changed⟩ := session.exists_session_runTracker command
      have kept := congrArg Session.settings changed
      exact kept
  | nothing | alarms | alarm | help | history | status | quit | clear =>
      rfl

theorem settings_after (session : Session Moment) (step : Step Moment) :
    (session.after step).settings = session.settings := by
  cases step with
  | tick now =>
      rfl
  | line now draws text =>
      rw [after, process, processChars]
      split
      · obtain ⟨_, _, changed⟩ :=
          session.initiativeOnly_runEntry (Entry.read (trim text.toList))
        have kept := congrArg Session.settings changed
        exact kept
      · split
        · rfl
        · exact session.settings_run now draws _

theorem history_run_of_keepsRolls {command : Command}
    (keeps : command.KeepsRolls) (session : Session Moment) (now : Moment)
    (draws : List UInt64) :
    (session.run now draws command).session.history = session.history := by
  cases command with
  | roll | clear =>
      exact keeps.elim
  | initiative command =>
      obtain ⟨_, _, changed⟩ := session.initiativeOnly_runInitiative command
      have kept := congrArg Session.history changed
      exact kept
  | tracker command =>
      obtain ⟨_, changed⟩ := session.exists_session_runTracker command
      have kept := congrArg Session.history changed
      exact kept
  | nothing | alarms | alarm | help | history | status | quit =>
      rfl

theorem read_of_rolledText {text : List Char} {expression : Expression}
    (reads : readChars (rolledText (trim text)) = .ok expression) :
    Command.read (trim text) = .ok (.roll expression) := by
  rw [rolledText] at reads
  split at reads
  · rename_i asked
    have given : (splitFirst (trim text)).2.isEmpty = false := by
      rw [List.isEmpty_eq_false_iff]
      intro empty
      rw [empty] at reads
      exact not_allBlank_of_readChars reads (List.forall_mem_nil _)
    rw [read_of_rollWord asked, readRollArguments, given,
      if_neg Bool.false_ne_true, reads]
  · exact read_of_notation (readChars_of_squeeze_eq (squeeze_trim text) reads)

theorem keepsRolls_of_silent {line : List Char} {error : NotationError}
    (silent : readChars (rolledText line) = .error error)
    (clearless : ¬ Shortens (splitFirst line).1 "clear") {command : Command}
    (reads : Command.read line = .ok command) :
    command.KeepsRolls := by
  rw [rolledText] at silent
  split at silent
  · rename_i asked
    rw [read_of_rollWord asked, readRollArguments, silent] at reads
    split at reads <;> cases reads
  · rename_i rollless
    exact keepsRolls_of_read silent rollless clearless reads

omit [Calendar Moment] in
theorem history_roll (session : Session Moment) (expression : Expression)
    (draws : List UInt64) :
    (session.roll expression draws).session.history =
      match (expression.roll draws).1 with
      | .ok roll =>
          (session.history ++ [roll.line]).rtake session.settings.historyLimit
      | .error _ => session.history := by
  rw [Session.roll]
  split
  · rename_i rolled
    rw [rolled]
    rfl
  · rename_i failed
    rw [failed]

theorem rollText_ofList (text : List Char) (draws : List UInt64) :
    (rollText (String.ofList text) draws).1 =
      match readChars text with
      | .ok expression => (expression.roll draws).1.mapError .unrolled
      | .error error => .error (.unreadable error) := by
  rw [rollText, Expression.read, String.toList_ofList]
  cases readChars text <;> rfl

theorem history_after_line {session : Session Moment}
    (outside : session.entering = false) (now : Moment)
    (draws : List UInt64) (text : String) :
    (session.after (.line now draws text)).history =
      (session.rollEvents (.line now draws text)).foldl
        (RollEvent.record session.settings.historyLimit) session.history := by
  rw [after, process, processChars, rollEvents]
  dsimp only
  rw [if_neg (by rw [outside]; decide), if_neg (by rw [outside]; decide)]
  -- A line clears, or it holds a notation and rolls, or it holds none; only in
  -- the last case does it matter that no other command touches the history.
  by_cases asked : Shortens (splitFirst (trim text.toList)).1 "clear"
  · rw [if_pos asked, read_of_clearWord asked]
    rfl
  · rw [if_neg asked, rollText_ofList]
    cases reading : readChars (rolledText (trim text.toList)) with
    | error error =>
        cases answer : Command.read (trim text.toList) with
        | error error =>
            rfl
        | ok command =>
            have keeps := keepsRolls_of_silent reading asked answer
            exact history_run_of_keepsRolls keeps session now draws
    | ok expression =>
        rw [read_of_rolledText reading]
        dsimp only
        rw [run, history_roll]
        cases (expression.roll draws).1 <;> rfl

/-- The remembered lines change as the rolls and clearings of the step
require. -/
theorem history_after (session : Session Moment) (step : Step Moment) :
    (session.after step).history =
      (session.rollEvents step).foldl
        (RollEvent.record session.settings.historyLimit) session.history := by
  cases step with
  | tick now =>
      rfl
  | line now draws text =>
      by_cases entering : session.entering = true
      · rw [rollEvents, if_pos entering, after, process, processChars]
        dsimp only
        rw [if_pos entering]
        obtain ⟨_, _, changed⟩ :=
          session.initiativeOnly_runEntry (Entry.read (trim text.toList))
        have kept := congrArg Session.history changed
        exact kept
      · exact history_after_line (Bool.eq_false_iff.mpr entering) now draws text

theorem history_afterAll (session : Session Moment)
    (steps : List (Step Moment)) :
    (session.afterAll steps).history =
      (along rollEvents session steps).foldl
        (RollEvent.record session.settings.historyLimit) session.history := by
  induction steps generalizing session with
  | nil =>
      rfl
  | cons step later inductionHypothesis =>
      rw [afterAll_cons, inductionHypothesis, settings_after, history_after,
        along, List.foldl_append]

theorem rtake_rtake_concat {α : Type} (items : List α) (limit : Nat)
    (last : α) :
    (items.rtake limit ++ [last]).rtake limit =
      (items ++ [last]).rtake limit := by
  cases limit with
  | zero =>
      rw [List.rtake_zero, List.rtake_zero]
  | succ limit =>
      rw [List.rtake_concat_succ, List.rtake_concat_succ]
      congr 1
      rw [List.rtake_eq_reverse_take_reverse,
        List.rtake_eq_reverse_take_reverse, List.rtake_eq_reverse_take_reverse,
        List.reverse_reverse, List.take_take, Nat.min_eq_left (Nat.le_succ _)]

theorem rollsSinceClear_rolled (earlier : List RollEvent) (roll : Roll) :
    rollsSinceClear (earlier ++ [.rolled roll]) =
      rollsSinceClear earlier ++ [roll] := by
  rw [rollsSinceClear, List.rtakeWhile_concat_pos _ _ _ rfl,
    List.filterMap_append]
  rfl

theorem rollsSinceClear_cleared (earlier : List RollEvent) :
    rollsSinceClear (earlier ++ [.cleared]) = [] := by
  rw [rollsSinceClear, List.rtakeWhile_concat_neg _ _ _ Bool.false_ne_true]
  rfl

theorem foldl_record_eq_rtake (limit : Nat) (events : List RollEvent) :
    events.foldl (RollEvent.record limit) [] =
      ((rollsSinceClear events).map Roll.line).rtake limit := by
  -- The last event comes first: a clearing makes all earlier ones irrelevant.
  induction events using List.reverseRecOn with
  | nil =>
      exact (List.rtake_nil limit).symm
  | append_singleton earlier last inductionHypothesis =>
      rw [List.foldl_concat, inductionHypothesis]
      cases last with
      | rolled roll =>
          rw [RollEvent.record, rollsSinceClear_rolled, List.map_append,
            rtake_rtake_concat]
          rfl
      | cleared =>
          rw [RollEvent.record, rollsSinceClear_cleared, List.map_nil,
            List.rtake_nil]

/-- The last character of the text is not blank. -/
def ShowsAtEnd (text : String) : Prop :=
  ∃ before last, text.toList = before ++ [last] ∧ isInk last = true

theorem ShowsAtEnd.append {last : String} (shows : ShowsAtEnd last)
    (first : String) :
    ShowsAtEnd (first ++ last) := by
  obtain ⟨before, letter, whole, ink⟩ := shows
  exact ⟨first.toList ++ before, letter,
    by rw [String.toList_append, whole, List.append_assoc], ink⟩

theorem showsAtEnd_natural (number : Nat) : ShowsAtEnd (toString number) := by
  obtain ⟨before, last, whole⟩ :=
    (List.eq_nil_or_concat (Nat.toDigits 10 number)).resolve_left
      Nat.toDigits_ne_nil
  refine ⟨before, last, ?_, ?_⟩
  · rw [Nat.toString_eq_ofList_toDigits, String.toList_ofList, whole,
      List.concat_eq_append]
  · have member : last ∈ Nat.toDigits 10 number := by
      rw [whole, List.concat_eq_append]
      exact List.mem_concat_self
    exact isInk_of_isDigit (isDigit_of_mem_toDigits member)

theorem showsAtEnd_integer (number : Int) : ShowsAtEnd (toString number) := by
  cases number with
  | ofNat size =>
      exact showsAtEnd_natural size
  | negSucc size =>
      exact (showsAtEnd_natural (size + 1)).append "-"

theorem showsAtEnd_line (roll : Roll) : ShowsAtEnd roll.line := by
  rw [Roll.line]
  split
  · rename_i reason given
    apply ShowsAtEnd.append
    exact ⟨(" (" ++ reason).toList, ')', by simp, by decide⟩
  · rw [String.append_empty]
    exact (showsAtEnd_integer roll.total).append _

theorem join_map_append_newline (first : String) (rest : List String) :
    String.join ((first :: rest).map fun line => line ++ "\n") =
      "\n".intercalate (first :: rest) ++ "\n" := by
  induction rest generalizing first with
  | nil =>
      simp [String.join]
  | cons next later inductionHypothesis =>
      rw [List.map_cons, String.join_cons, inductionHypothesis,
        String.intercalate_cons_cons]
      simp [String.append_assoc]

theorem showsAtEnd_intercalate {first : String} {rest : List String}
    (shows : ∀ line ∈ first :: rest, ShowsAtEnd line) :
    ShowsAtEnd ("\n".intercalate (first :: rest)) := by
  induction rest generalizing first with
  | nil =>
      rw [String.intercalate_singleton]
      exact shows first (List.mem_singleton_self first)
  | cons next later inductionHypothesis =>
      rw [String.intercalate_cons_cons]
      apply ShowsAtEnd.append
      exact inductionHypothesis (List.forall_mem_cons.mp shows).2

/-- A listing is its lines with line breaks between them, if there are no
blanks to be taken away from the end of the last one. -/
theorem listing_eq_intercalate {title : String} {lines : List String}
    (shows : ∀ line ∈ title :: lines, ShowsAtEnd line) :
    listing title lines = "\n".intercalate (title :: lines) := by
  have newline : AllBlank "\n".toList := by
    simp [AllBlank, isBlank]
  obtain ⟨before, last, whole, ink⟩ := showsAtEnd_intercalate shows
  rw [listing, ← List.map_cons (f := fun line => line ++ "\n"),
    join_map_append_newline, String.toList_append,
    trimEnd_append_of_allBlank newline, whole, trimEnd_concat ink, ← whole,
    String.ofList_toList]

omit [Calendar Moment] in
theorem historyText_eq_intercalate {session : Session Moment}
    (shows : ∀ line ∈ session.history, ShowsAtEnd line) :
    session.historyText =
      if session.history = [] then
        "No rolls yet."
      else
        "\n".intercalate
          (("Recent rolls (" ++ toString session.history.length ++ "):") ::
            session.history.mapIdx fun place line =>
              "  " ++ toString (place + 1) ++ ". " ++ line) := by
  simp only [historyText, List.isEmpty_iff]
  split
  · rfl
  · rw [listing_eq_intercalate, List.mapIdx_eq_zipIdx_map]
    · rfl
    · rw [List.forall_mem_cons]
      constructor
      · apply ShowsAtEnd.append
        exact ⟨[')'], ':', rfl, by decide⟩
      · rintro line member
        obtain ⟨⟨text, place⟩, entry, rfl⟩ := List.mem_map.mp member
        apply ShowsAtEnd.append
        exact shows text (List.fst_mem_of_mem_zipIdx entry)

/-- The lines that ask for the remembered rolls. A single `h` asks for help
instead. -/
def AsksForHistory (line : List Char) : Prop :=
  Shortens (splitFirst line).1 "history" ∧
    ¬ Shortens (splitFirst line).1 "help"

instance (line : List Char) : Decidable (AsksForHistory line) :=
  inferInstanceAs (Decidable (_ ∧ _))

theorem process_of_asksForHistory {session : Session Moment}
    (outside : session.entering = false) {text : String}
    (asks : AsksForHistory (trim text.toList)) (now : Moment)
    (draws : List UInt64) :
    session.process now draws text =
      ⟨.ok session.historyText, session, draws⟩ := by
  rw [process, processChars, outside, if_neg Bool.false_ne_true,
    read_of_historyWord asks.1 asks.2]
  rfl

/-- After any run, the session remembers the result lines of the latest rolls
since the last clearing: all of them up to the limit, which is at least one,
and the latest ones beyond it. They are what is shown on request. -/
theorem history_is_latest_rolls (base : Settings) (limit : Nat)
    (steps : List (Step Moment)) :
    let settings := base.withHistoryLimit limit
    let session := (Session.new settings).afterAll steps
    let lines :=
      (rollsSinceClear (along rollEvents (Session.new settings) steps)).map
        Roll.line
    settings.historyLimit = max limit 1 ∧
      session.history <:+ lines ∧
      session.history.length = min settings.historyLimit lines.length ∧
      ∀ now draws text,
        session.entering = false →
          AsksForHistory (trim text.toList) →
            session.process now draws text =
              ⟨.ok
                (if session.history = [] then
                  "No rolls yet."
                else
                  "\n".intercalate
                    (("Recent rolls (" ++ toString session.history.length ++
                        "):") ::
                      session.history.mapIdx fun place line =>
                        "  " ++ toString (place + 1) ++ ". " ++ line)),
                session, draws⟩ := by
  intro settings session lines
  have latest : session.history = lines.rtake settings.historyLimit := by
    rw [history_afterAll]
    exact foldl_record_eq_rtake settings.historyLimit _
  have suffix : session.history <:+ lines := by
    rw [latest]
    exact List.drop_suffix _ _
  refine ⟨rfl, suffix, ?_, ?_⟩
  · rw [latest, List.rtake, List.length_drop]
    omega
  · intro now draws text outside asks
    rw [process_of_asksForHistory outside asks, historyText_eq_intercalate]
    intro line member
    obtain ⟨roll, _, rfl⟩ := List.mem_map.mp (suffix.subset member)
    exact showsAtEnd_line roll

/-- Where one roll is remembered, the second roll that succeeds replaces the
first one. -/
theorem history_is_latest_rolls_of_two :
    let session :=
      (Session.new (Settings.standard.withHistoryLimit 0)).afterAll
        [.line Instant.epoch [2] "d6", .line .epoch [] "d6",
          .line .epoch [3, 4] "R 2d6"]
    session.entering = false ∧
      AsksForHistory (trim "HIST".toList) ∧
      session.process .epoch [] "HIST" =
        ⟨.ok "Recent rolls (1):\n  1. 2d6: [4, 5] = 9", session, []⟩ := by
  intro session
  have outside : session.entering = false := by
    decide +kernel
  have asks : AsksForHistory (trim "HIST".toList) := by
    decide
  obtain ⟨_, suffix, length, shown⟩ :=
    history_is_latest_rolls Settings.standard 0
      [.line Instant.epoch [2] "d6", .line .epoch [] "d6",
        .line .epoch [3, 4] "R 2d6"]
  have rolls :
      rollsSinceClear
          (along rollEvents
            (Session.new (Settings.standard.withHistoryLimit 0))
            [.line Instant.epoch [2] "d6", .line .epoch [] "d6",
              .line .epoch [3, 4] "R 2d6"]) =
        [⟨⟨1, 6, 0, none, false⟩, [⟨3, 6, true⟩], 3, 3⟩,
          ⟨⟨2, 6, 0, none, false⟩, [⟨4, 6, true⟩, ⟨5, 6, true⟩], 9, 9⟩] := by
    decide +kernel
  rw [rolls] at suffix length
  have latest : session.history = ["2d6: [4, 5] = 9"] := by
    have single : session.history.length = 1 := length
    rw [List.suffix_iff_eq_drop.mp suffix, single]
    show [Roll.line _] = _
    decide +kernel
  have shownText := shown .epoch [] "HIST" outside asks
  rw [latest] at shownText
  exact ⟨outside, asks, shownText⟩

end Tabletop.Session
