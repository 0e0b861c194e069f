import Tabletop.Proofs.AlarmRuns

/-!
# The part of a session that a line owns

A session has five parts that lines can change. Which of them a line is about
is told by the first row of a table in which a form of its command word stands
and, behind `initiative` and `tracker`, by the same for its second word. Every
line, whether it succeeds or fails, leaves all the other parts as they were.
-/

namespace Tabletop.Session

open Tabletop.Clock
open Tabletop.Dice
open Tabletop.Text

variable {Moment : Type}

/-- The parts of a session: the remembered rolls, the alarms, the number
trackers, the initiative with the mode of entry, and the wish to leave. -/
inductive Part where
  | rolls
  | alarms
  | trackers
  | turns
  | leaving
deriving DecidableEq, Repr

/-- At most the given part is different. -/
def ChangesAtMost : Option Part → Session Moment → Session Moment → Prop
  | none, session, changed => changed = session
  | some .rolls, session, changed =>
      ∃ history, changed = { session with history := history }
  | some .alarms, session, changed =>
      ∃ alarms, changed = { session with alarms := alarms }
  | some .trackers, session, changed =>
      ∃ trackers, changed = { session with trackers := trackers }
  | some .turns, session, changed =>
      ∃ initiative entering,
        changed =
          { session with initiative := initiative, entering := entering }
  | some .leaving, session, changed =>
      ∃ finished, changed = { session with finished := finished }

theorem changesAtMost_refl (part? : Option Part) (session : Session Moment) :
    ChangesAtMost part? session session := by
  cases part? with
  | none =>
      rfl
  | some part =>
      cases part with
      | rolls =>
          exact ⟨session.history, rfl⟩
      | alarms =>
          exact ⟨session.alarms, rfl⟩
      | trackers =>
          exact ⟨session.trackers, rfl⟩
      | turns =>
          exact ⟨session.initiative, session.entering, rfl⟩
      | leaving =>
          exact ⟨session.finished, rfl⟩

/-- What a command word can look like: any shortened form of a full word, the
whole word alone, or either of two. -/
inductive WordForm where
  | shortened (full : String)
  | whole (full : String)
  | either (first second : WordForm)

def WordForm.fits (word : List Char) : WordForm → Bool
  | shortened full => abbreviates word full
  | whole full => isWord word full
  | either first second => first.fits word || second.fits word

/-- The parts that words are about, row by row. -/
abbrev WordTable := List (WordForm × Option Part)

/-- The entry of the first row that fits the word. -/
def WordTable.firstFitting (word : List Char) (otherwise : Option Part) :
    WordTable → Option Part
  | [] => otherwise
  | (form, part?) :: later =>
      if form.fits word then part? else firstFitting word otherwise later

/-- The second words about the initiative. -/
def initiativeTable : WordTable :=
  [(.shortened "start", some .turns),
    (.shortened "add", some .turns),
    (.shortened "next", some .turns),
    (.shortened "back", some .turns),
    (.shortened "kill", some .turns),
    (.shortened "revive", some .turns),
    (.shortened "list", none),
    (.shortened "end", some .turns)]

/-- The second words about number trackers. -/
def trackerTable : WordTable :=
  [(.shortened "add", some .trackers),
    (.shortened "adjust", some .trackers),
    (.shortened "set", some .trackers),
    (.either (.either (.shortened "search") (.whole "f")) (.whole "find"),
      none),
    (.shortened "list", none),
    (.shortened "pin", some .trackers),
    (.either (.shortened "pinall") (.whole "pa"), some .trackers),
    (.shortened "unpin", some .trackers),
    (.shortened "delete", some .trackers),
    (.either (.shortened "deleteall") (.whole "da"), some .trackers)]

/-- The command words; for some of them the second word decides. -/
def commandTable (second : List Char) : WordTable :=
  [(.shortened "roll", some .rolls),
    (.whole "alarms", none),
    (.shortened "alarm", some .alarms),
    (.shortened "initiative", initiativeTable.firstFitting second none),
    (.shortened "tracker", trackerTable.firstFitting second none),
    (.shortened "help", none),
    (.shortened "history", none),
    (.shortened "status", none),
    (.either (.shortened "quit") (.whole "exit"), some .leaving),
    (.shortened "clear", some .rolls)]

/-- A notation that stands alone is rolled. -/
def notationPart? (line : List Char) : Option Part :=
  match readChars line with
  | .ok _ => some .rolls
  | .error _ => none

/-- The part that a line without blanks at its ends is about. -/
def linePart? (line : List Char) : Option Part :=
  if line.isEmpty then
    none
  else
    let (word, rest) := splitCommand line
    (commandTable (splitCommand rest).1).firstFitting word (notationPart? line)

/-- The part that a line is about; every entry is about the turns. -/
def partOf? (session : Session Moment) (line : String) : Option Part :=
  if session.entering then some .turns else linePart? (trim line.toList)

def InitiativeCommand.part? : InitiativeCommand → Option Part
  | .list => none
  | .start _ | .add _ | .next | .back | .kill _ | .revive _ | .finish =>
      some .turns

def TrackerCommand.part? : TrackerCommand → Option Part
  | .search _ | .list => none
  | .add _ _ _ | .adjust _ _ | .set _ _ | .pin _ | .pinAll | .unpin _
  | .delete _ | .deleteAll => some .trackers

def Command.part? : Command → Option Part
  | .roll _ | .clear => some .rolls
  | .alarm _ _ => some .alarms
  | .initiative command => command.part?
  | .tracker command => command.part?
  | .quit => some .leaving
  | .nothing | .alarms | .help | .history | .status => none

theorem changesAtMost_runInitiative (session : Session Moment)
    (command : InitiativeCommand) :
    ChangesAtMost command.part? session
      (session.runInitiative command).session := by
  have turns := session.initiativeOnly_runInitiative command
  cases command with
  | list =>
      simp only [InitiativeCommand.part?, ChangesAtMost, runInitiative]
      split <;> rfl
  | start | add | next | back | kill | revive | finish =>
      exact turns

theorem changesAtMost_runTracker (session : Session Moment)
    (command : TrackerCommand) :
    ChangesAtMost command.part? session
      (session.runTracker command).session := by
  have trackers := session.exists_session_runTracker command
  cases command with
  | search | list =>
      simp only [TrackerCommand.part?, ChangesAtMost, runTracker]
      split <;> rfl
  | add | adjust | set | pin | pinAll | unpin | delete | deleteAll =>
      exact trackers

variable [Calendar Moment]

theorem changesAtMost_run (session : Session Moment) (now : Moment)
    (draws : List UInt64) (command : Command) :
    ChangesAtMost command.part? session
      (session.run now draws command).session := by
  cases command with
  | roll expression =>
      exact session.exists_session_roll expression draws
  | alarm duration label =>
      exact ⟨session.alarms.add ⟨label, now, duration⟩, rfl⟩
  | initiative command =>
      exact session.changesAtMost_runInitiative command
  | tracker command =>
      exact session.changesAtMost_runTracker command
  | quit =>
      exact ⟨true, rfl⟩
  | clear =>
      exact ⟨[], rfl⟩
  | nothing | alarms | help | history | status =>
      rfl

/-- If the reading succeeds, the command is about the given part. -/
def ReadsAbout {command : Type} (about : command → Option Part)
    (part? : Option Part) (read : Except SessionError command) : Prop :=
  ∀ result, read = .ok result → about result = part?

namespace ReadsAbout

variable {arguments command : Type} {about : command → Option Part}
  {part? : Option Part}

theorem ok {result : command} (isAbout : about result = part?) :
    ReadsAbout about part? (.ok result) := by
  intro result reads
  cases reads
  exact isAbout

theorem error {error : SessionError} :
    ReadsAbout about part? (.error error) := by
  intro result reads
  cases reads

/-- Tests in the order of the rows of a table find what the table tells. -/
theorem row {form : WordForm} {word : List Char} {otherwise : Option Part}
    {table : WordTable} {here later : Except SessionError command}
    (readsHere : ReadsAbout about part? here)
    (readsLater :
      ReadsAbout about (table.firstFitting word otherwise) later) :
    ReadsAbout about
      (WordTable.firstFitting word otherwise ((form, part?) :: table))
      (if form.fits word then here else later) := by
  rw [WordTable.firstFitting]
  split
  · exact readsHere
  · exact readsLater

theorem map {read : Except SessionError arguments}
    {aboutArguments : arguments → Option Part}
    {toCommand : arguments → command}
    (reads : ReadsAbout aboutArguments part? read)
    (same : ∀ result, about (toCommand result) = aboutArguments result) :
    ReadsAbout about part? (read.map toCommand) := by
  cases read with
  | error error =>
      exact .error
  | ok result =>
      exact .ok ((same result).trans (reads result rfl))

/-- However its arguments are read, the command is about the same part. -/
theorem map_of_forall {read : Except SessionError arguments}
    {toCommand : arguments → command}
    (isAbout : ∀ result, about (toCommand result) = part?) :
    ReadsAbout about part? (read.map toCommand) :=
  map (fun _ _ => rfl) isAbout

end ReadsAbout

theorem readsAbout_readInitiative (line : List Char) :
    ReadsAbout InitiativeCommand.part?
      (initiativeTable.firstFitting (splitCommand line).1 none)
      (InitiativeCommand.read line) := by
  unfold InitiativeCommand.read initiativeTable
  obtain ⟨word, rest⟩ := splitCommand line
  refine .row (.ok rfl) ?_
  refine .row (.ok rfl) ?_
  refine .row (.ok rfl) ?_
  refine .row (.ok rfl) ?_
  refine .row (.map_of_forall fun _ => rfl) ?_
  refine .row (.map_of_forall fun _ => rfl) ?_
  refine .row (.ok rfl) ?_
  refine .row (.ok rfl) ?_
  split
  · exact .error
  · exact .error

theorem readsAbout_readNewTracker (text : List Char) :
    ReadsAbout TrackerCommand.part? (some .trackers)
      (readNewTracker text) := by
  unfold readNewTracker
  split
  · exact .error
  · exact .map_of_forall fun _ => rfl

theorem readsAbout_readTracker (line : List Char) :
    ReadsAbout TrackerCommand.part?
      (trackerTable.firstFitting (splitCommand line).1 none)
      (TrackerCommand.read line) := by
  unfold TrackerCommand.read trackerTable
  obtain ⟨word, rest⟩ := splitCommand line
  refine .row (readsAbout_readNewTracker rest) ?_
  refine .row (.map_of_forall fun _ => rfl) ?_
  refine .row (.map_of_forall fun _ => rfl) ?_
  refine .row (.map_of_forall fun _ => rfl) ?_
  refine .row (.ok rfl) ?_
  refine .row (.map_of_forall fun _ => rfl) ?_
  refine .row (.ok rfl) ?_
  refine .row (.map_of_forall fun _ => rfl) ?_
  refine .row (.map_of_forall fun _ => rfl) ?_
  refine .row (.ok rfl) ?_
  split
  · exact .error
  · exact .error

/-- Behind `track`, `s` is short for `set` and not for `search`. -/
example : trackerTable.firstFitting ['s'] none = some .trackers := by
  decide

theorem readsAbout_readRollArguments (text : List Char) :
    ReadsAbout Command.part? (some .rolls) (readRollArguments text) := by
  unfold readRollArguments
  split
  · exact .error
  · split
    · exact .ok rfl
    · exact .error

theorem readsAbout_readAlarmArguments (text : List Char) :
    ReadsAbout Command.part? (some .alarms) (readAlarmArguments text) := by
  unfold readAlarmArguments
  dsimp only
  split
  · exact .error
  · split
    · exact .ok rfl
    · exact .error

theorem readsAbout_readBareDice (word line : List Char) :
    ReadsAbout Command.part? (notationPart? line) (readBareDice word line) := by
  unfold readBareDice notationPart?
  cases readChars line with
  | ok expression =>
      exact .ok rfl
  | error error =>
      exact .error

theorem readsAbout_read (line : List Char) :
    ReadsAbout Command.part? (linePart? line) (Command.read line) := by
  unfold Command.read linePart? commandTable
  split
  · exact .ok rfl
  · obtain ⟨word, rest⟩ := splitCommand line
    refine .row (readsAbout_readRollArguments rest) ?_
    refine .row (.ok rfl) ?_
    refine .row (readsAbout_readAlarmArguments rest) ?_
    refine .row ((readsAbout_readInitiative rest).map fun _ => rfl) ?_
    refine .row ((readsAbout_readTracker rest).map fun _ => rfl) ?_
    refine .row (.ok rfl) ?_
    refine .row (.ok rfl) ?_
    refine .row (.ok rfl) ?_
    refine .row (.ok rfl) ?_
    refine .row (.ok rfl) ?_
    exact readsAbout_readBareDice word line

theorem changesAtMost_process (session : Session Moment) (now : Moment)
    (draws : List UInt64) (line : String) :
    ChangesAtMost (session.partOf? line) session
      (session.process now draws line).session := by
  unfold partOf? process processChars
  dsimp only
  split
  · exact session.initiativeOnly_runEntry (Entry.read (trim line.toList))
  · cases read : Command.read (trim line.toList) with
    | error error =>
        exact changesAtMost_refl _ session
    | ok command =>
        rw [← readsAbout_read _ command read]
        exact session.changesAtMost_run now draws command

/-- A line changes at most the part that its words are about, whether it
succeeds or fails: the first row that fits the command word tells the part,
and every entry is about the turns. Of the alarms none is lost and at most one
is added; and a tick changes nothing but the alarms. -/
theorem line_changes_only_its_part (session : Session Moment) (now : Moment)
    (draws : List UInt64) (line : String) :
    let changed := (session.process now draws line).session
    ChangesAtMost (session.partOf? line) session changed ∧
      (∃ added,
        changed.alarms.entries = session.alarms.entries ++ added ∧
          added.length ≤ 1) ∧
      ChangesAtMost (some .alarms) session (session.tick now).2 := by
  intro changed
  refine ⟨session.changesAtMost_process now draws line, ?_, ⟨_, rfl⟩⟩
  have alarms : changed.alarms = _ := session.alarms_after_line now draws line
  rcases session.started_line now draws line with none | ⟨alarm, one, _⟩
  · rw [none] at alarms
    exact ⟨[], by rw [alarms, List.append_nil]; rfl, Nat.zero_le 1⟩
  · rw [one] at alarms
    exact ⟨[(session.alarms.nextTicket, alarm)], by rw [alarms]; rfl,
      Nat.le_refl 1⟩

end Tabletop.Session
