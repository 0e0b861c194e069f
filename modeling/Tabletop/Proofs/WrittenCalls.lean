import Tabletop.Proofs.CommandWords
import Tabletop.Proofs.EntryMode
import Tabletop.Proofs.LastWords

/-!
# Calls written as lines

A call of the trackers or of the rotation that takes a name, and perhaps
numbers, can be written as a line. Command words are split off from the left of
the line and numbers from its right, so that the name is what is left between
them: it may hold blanks, end in a number or be a command word itself. The line
does what the call does, and fails as the call fails.
-/

namespace Tabletop.Session

open Tabletop.Clock
open Tabletop.Text

variable {Moment : Type}

/-- The calls that take a name, with the numbers that they take. -/
inductive NamedCall where
  | addTracker (current max : Int32)
  | setTracker (value : Int32)
  | adjustTracker (delta : Int32)
  | pinTracker
  | unpinTracker
  | deleteTracker
  | addParticipant (initiative : Int32)
  | markOut
  | markIn
deriving DecidableEq, Repr

namespace NamedCall

/-- The first word of the line. -/
def topic : NamedCall → String
  | addTracker _ _ | setTracker _ | adjustTracker _ => "track"
  | pinTracker | unpinTracker | deleteTracker => "track"
  | addParticipant _ | markOut | markIn => "init"

/-- The second word of the line. -/
def verb : NamedCall → String
  | addTracker _ _ | addParticipant _ => "add"
  | setTracker _ => "set"
  | adjustTracker _ => "adjust"
  | pinTracker => "pin"
  | unpinTracker => "unpin"
  | deleteTracker => "delete"
  | markOut => "kill"
  | markIn => "revive"

/-- The name, and behind it the numbers in decimal. -/
def arguments (name : String) : NamedCall → String
  | addTracker current max => name ++ " " ++ inDecimal current ++ " " ++ inDecimal max
  | setTracker value | adjustTracker value | addParticipant value =>
      name ++ " " ++ inDecimal value
  | pinTracker | unpinTracker | deleteTracker | markOut | markIn => name

/-- The call as a line. -/
def line (name : String) (call : NamedCall) : String :=
  call.topic ++ " " ++ call.verb ++ " " ++ call.arguments name

/-- What the call answers, in words, with the session in which its effect is
kept. -/
def answer (session : Session Moment) (name : String) :
    NamedCall → Except TrackError (String × Session Moment)
  | addTracker current max =>
      (session.trackers.add name current max).map fun (tracker, trackers) =>
        ("Added tracker: " ++ tracker.text, { session with trackers := trackers })
  | setTracker value =>
      (session.trackers.set name value).map fun (tracker, trackers) =>
        (tracker.text, { session with trackers := trackers })
  | adjustTracker delta =>
      (session.trackers.adjust name delta).map fun (tracker, trackers) =>
        (tracker.text, { session with trackers := trackers })
  | pinTracker =>
      (session.trackers.setPinned name true).map fun (tracker, trackers) =>
        ("Pinned [" ++ tracker.name ++ "]", { session with trackers := trackers })
  | unpinTracker =>
      (session.trackers.setPinned name false).map fun (tracker, trackers) =>
        ("Unpinned [" ++ tracker.name ++ "]", { session with trackers := trackers })
  | deleteTracker =>
      (session.trackers.delete name).map fun (tracker, trackers) =>
        ("Deleted tracker '" ++ tracker.name ++ "'",
          { session with trackers := trackers })
  | addParticipant value =>
      (session.initiative.add name value).map fun initiative =>
        ("Added " ++ name ++ " (initiative " ++ inDecimal value ++ ")",
          { session with initiative := initiative })
  | markOut =>
      (session.initiative.markOut name).map fun initiative =>
        (name ++ " is out of combat", { session with initiative := initiative })
  | markIn =>
      (session.initiative.markIn name).map fun initiative =>
        (name ++ " is back in combat", { session with initiative := initiative })

/-- The command that the line of the call is read as. -/
def command (name : String) : NamedCall → Command
  | addTracker current max => .tracker (.add name current max)
  | setTracker value => .tracker (.set name value)
  | adjustTracker delta => .tracker (.adjust name delta)
  | pinTracker => .tracker (.pin name)
  | unpinTracker => .tracker (.unpin name)
  | deleteTracker => .tracker (.delete name)
  | addParticipant value =>
      .initiative (.add ((addParticipant value).arguments name).toList)
  | markOut => .initiative (.kill name)
  | markIn => .initiative (.revive name)

/-- What stands behind the two command words, read as these ask for. -/
def readArguments (text : List Char) :
    NamedCall → Except SessionError Command
  | addTracker _ _ => (readNewTracker text).map .tracker
  | setTracker _ =>
      ((readNameAndNumber .trackerSet text).map fun (name, value) =>
        .set name value).map .tracker
  | adjustTracker _ =>
      ((readNameAndNumber .trackerAdjust text).map fun (name, delta) =>
        .adjust name delta).map .tracker
  | pinTracker => ((readName .trackerPin text).map .pin).map .tracker
  | unpinTracker => ((readName .trackerUnpin text).map .unpin).map .tracker
  | deleteTracker => ((readName .trackerDelete text).map .delete).map .tracker
  | addParticipant _ => .ok (.initiative (.add text))
  | markOut => ((readName .kill text).map .kill).map .initiative
  | markIn => ((readName .revive text).map .revive).map .initiative

end NamedCall

/-- What comes of a line on which nothing is drawn. -/
def Reply.undrawn (reply : Reply Moment) (draws : List UInt64) :
    Outcome Moment where
  result := reply.result
  session := reply.session
  draws := draws

/-- What comes of a line that does what a call does: a call that fails changes
nothing, and none draws. -/
def answered (session : Session Moment) (draws : List UInt64) :
    Except TrackError (String × Session Moment) → Outcome Moment
  | .ok (text, changed) => ⟨.ok text, changed, draws⟩
  | .error error => ⟨.error (.track error), session, draws⟩

theorem toList_spaced (first second : String) :
    (first ++ " " ++ second).toList = first.toList ++ ' ' :: second.toList := by
  simp

section Arguments

variable {name : String} (tidy : IsTidy name.toList)
include tidy

theorem isTidy_numbered (value : Int32) :
    IsTidy (name ++ " " ++ inDecimal value).toList := by
  rw [toList_spaced]
  exact tidy.append [' '] (isTidy_inDecimal value)

theorem isTidy_arguments (call : NamedCall) :
    IsTidy (call.arguments name).toList := by
  cases call with
  | addTracker current max =>
      exact isTidy_numbered (isTidy_numbered tidy current) max
  | setTracker value | adjustTracker value | addParticipant value =>
      exact isTidy_numbered tidy value
  | pinTracker | unpinTracker | deleteTracker | markOut | markIn =>
      exact tidy

theorem readNumbered_of_tidy (value : Int32) :
    readNumbered (name ++ " " ++ inDecimal value).toList =
      .ok (name.toList, value) := by
  simp only [toList_spaced, readNumbered, splitLast_inDecimal tidy,
    word32?_inDecimal]

theorem readName_of_tidy (usage : Usage) :
    readName usage name.toList = .ok name := by
  rw [readName, if_neg (by simpa using tidy.ne_nil), String.ofList_toList]

theorem readNameAndNumber_of_tidy (usage : Usage) (value : Int32) :
    readNameAndNumber usage (name ++ " " ++ inDecimal value).toList =
      .ok (name, value) := by
  simp only [readNameAndNumber, readNumbered_of_tidy tidy]
  rw [if_neg (by simpa using tidy.ne_nil), String.ofList_toList]

theorem readParticipant_of_tidy (value : Int32) :
    readParticipant (name ++ " " ++ inDecimal value).toList =
      .ok (name, value) := by
  rw [readParticipant, readNumbered_of_tidy tidy]
  show (readName .participant name.toList).bind _ = _
  rw [readName_of_tidy tidy]
  rfl

theorem readNewTracker_of_tidy (current max : Int32) :
    readNewTracker
        (name ++ " " ++ inDecimal current ++ " " ++ inDecimal max).toList =
      .ok (.add name current max) := by
  rw [readNewTracker, readNumbered_of_tidy (isTidy_numbered tidy current)]
  dsimp only
  rw [readNameAndNumber_of_tidy tidy]
  rfl

end Arguments

theorem bounds_of_isLower {letter : Char} (small : letter.isLower = true) :
    97 ≤ letter.toNat ∧ letter.toNat ≤ 122 := by
  simp only [Char.isLower, Bool.and_eq_true, decide_eq_true_eq] at small
  exact small

theorem isInk_of_isLower {letter : Char} (small : letter.isLower = true) :
    isInk letter = true := by
  have bounds := bounds_of_isLower small
  exact isInk_of_visible (by omega) (by omega)

theorem toLower_of_isLower {letter : Char} (small : letter.isLower = true) :
    letter.toLower = letter := by
  have bounds := bounds_of_isLower small
  exact Dice.toLower_of_lt (by omega)

/-- The word has letters, and all are small ones of the seven-bit range. -/
def IsSmallWord (word : String) : Prop :=
  word.toList ≠ [] ∧ ∀ letter ∈ word.toList, letter.isLower = true

theorem IsSmallWord.isInk_of_mem {word : String} (small : IsSmallWord word) :
    ∀ letter ∈ word.toList, isInk letter = true :=
  fun letter member => isInk_of_isLower (small.2 letter member)

theorem IsSmallWord.lowerChars_eq {word : String} (small : IsSmallWord word) :
    lowerChars word.toList = word.toList := by
  have ascii : ∀ letter ∈ word.toList, letter.toNat < 128 := by
    intro letter member
    have bounds := bounds_of_isLower (small.2 letter member)
    omega
  have same : ∀ letter ∈ word.toList, letter.toLower = letter :=
    fun letter member => toLower_of_isLower (small.2 letter member)
  rw [lowerChars_of_ascii ascii, List.map_congr_left same, List.map_id']

theorem IsSmallWord.isTidy_spaced {word text : String}
    (small : IsSmallWord word) (tidy : IsTidy text.toList) :
    IsTidy (word ++ " " ++ text).toList := by
  rw [toList_spaced]
  exact (isTidy_of_isInk small.1 small.isInk_of_mem).append [' '] tidy

theorem IsSmallWord.splitCommand_spaced {word text : String}
    (small : IsSmallWord word) (tidy : IsTidy text.toList) :
    splitCommand (word ++ " " ++ text).toList = (word.toList, text.toList) := by
  have blank : isBlank ' ' = true := by decide
  simp only [toList_spaced, splitCommand,
    splitFirst_of_tidy small.isInk_of_mem blank tidy, small.lowerChars_eq]

theorem read_of_split_track {line rest : List Char}
    (split : splitCommand line = ("track".toList, rest)) :
    Command.read line = (TrackerCommand.read rest).map .tracker := by
  cases line with
  | nil =>
      cases split
  | cons first more =>
      rw [Command.read, split]
      rfl

theorem read_of_split_init {line rest : List Char}
    (split : splitCommand line = ("init".toList, rest)) :
    Command.read line = (InitiativeCommand.read rest).map .initiative := by
  cases line with
  | nil =>
      cases split
  | cons first more =>
      rw [Command.read, split]
      rfl

namespace NamedCall

theorem readArguments_arguments {name : String}
    (tidy : IsTidy name.toList) (call : NamedCall) :
    call.readArguments (call.arguments name).toList =
      .ok (call.command name) := by
  cases call with
  | addTracker current max =>
      rw [readArguments, arguments, readNewTracker_of_tidy tidy]
      rfl
  | setTracker value | adjustTracker value =>
      rw [readArguments, arguments, readNameAndNumber_of_tidy tidy]
      rfl
  | pinTracker | unpinTracker | deleteTracker | markOut | markIn =>
      rw [readArguments, arguments, readName_of_tidy tidy]
      rfl
  | addParticipant value =>
      rfl

theorem read_of_splits {call : NamedCall} {line text rest : List Char}
    (first : splitCommand line = (call.topic.toList, rest))
    (second : splitCommand rest = (call.verb.toList, text)) :
    Command.read line = call.readArguments text := by
  cases call with
  | addTracker | setTracker | adjustTracker | pinTracker | unpinTracker | deleteTracker =>
      dsimp only [topic, verb] at first second
      rw [read_of_split_track first, TrackerCommand.read, second]
      rfl
  | addParticipant | markOut | markIn =>
      dsimp only [topic, verb] at first second
      rw [read_of_split_init first, InitiativeCommand.read, second]
      rfl

theorem isSmallWord_topic (call : NamedCall) : IsSmallWord call.topic := by
  cases call <;> simp [topic, IsSmallWord]

theorem isSmallWord_verb (call : NamedCall) : IsSmallWord call.verb := by
  cases call <;> simp [verb, IsSmallWord]

theorem line_eq (name : String) (call : NamedCall) :
    call.line name =
      call.topic ++ " " ++ (call.verb ++ " " ++ call.arguments name) := by
  simp only [line, String.append_assoc]

section Lines

variable {name : String} (tidy : IsTidy name.toList) (call : NamedCall)
include tidy

theorem isTidy_behind_topic :
    IsTidy (call.verb ++ " " ++ call.arguments name).toList :=
  call.isSmallWord_verb.isTidy_spaced (isTidy_arguments tidy call)

theorem isTidy_line : IsTidy (call.line name).toList := by
  rw [line_eq]
  exact call.isSmallWord_topic.isTidy_spaced (isTidy_behind_topic tidy call)

theorem splitCommand_line :
    splitCommand (call.line name).toList =
      (call.topic.toList, (call.verb ++ " " ++ call.arguments name).toList) := by
  rw [line_eq]
  exact call.isSmallWord_topic.splitCommand_spaced
    (isTidy_behind_topic tidy call)

theorem splitCommand_behind_topic :
    splitCommand (call.verb ++ " " ++ call.arguments name).toList =
      (call.verb.toList, (call.arguments name).toList) :=
  call.isSmallWord_verb.splitCommand_spaced (isTidy_arguments tidy call)

/-- The line is read as the command of its call. -/
theorem read_line :
    Command.read (call.line name).toList = .ok (call.command name) := by
  rw [read_of_splits (splitCommand_line tidy call)
    (splitCommand_behind_topic tidy call), readArguments_arguments tidy]

end Lines

end NamedCall

theorem answered_keepTracker (session : Session Moment) (draws : List UInt64)
    (describe : Tracker → String)
    (changed : Except TrackError (Tracker × TrackerBoard)) :
    (session.keepTracker describe changed).undrawn draws =
      answered session draws
        (changed.map fun (tracker, trackers) =>
          (describe tracker, { session with trackers := trackers })) := by
  cases changed <;> rfl

theorem answered_keepInitiative (session : Session Moment) (draws : List UInt64)
    (text : String) (changed : Except TrackError Initiative) :
    (session.keepInitiative text changed).undrawn draws =
      answered session draws
        (changed.map fun initiative =>
          (text, { session with initiative := initiative })) := by
  cases changed <;> rfl

theorem addParticipant_of_tidy {name : String} (tidy : IsTidy name.toList)
    (session : Session Moment) (draws : List UInt64) (value : Int32) :
    (session.addParticipant (name ++ " " ++ inDecimal value).toList).undrawn
        draws =
      answered session draws
        ((NamedCall.addParticipant value).answer session name) := by
  simp only [addParticipant, readParticipant_of_tidy tidy, NamedCall.answer]
  cases session.initiative.add name value <;> rfl

theorem add_of_not_running {initiative : Initiative}
    (idle : ¬ initiative.isRunning = true) (name : String) (value : Int32) :
    initiative.add name value = .error .noRotation := by
  rw [Initiative.add, Initiative.change, Option.not_isSome_iff_eq_none.mp idle]

variable [Calendar Moment]

theorem run_command {name : String} (tidy : IsTidy name.toList)
    (session : Session Moment) (now : Moment) (draws : List UInt64)
    (call : NamedCall) :
    session.run now draws (call.command name) =
      answered session draws (call.answer session name) := by
  cases call with
  | addTracker | setTracker | adjustTracker | pinTracker | unpinTracker
  | deleteTracker =>
      exact answered_keepTracker session draws _ _
  | markOut | markIn =>
      exact answered_keepInitiative session draws _ _
  | addParticipant value =>
      have given : (name ++ " " ++ inDecimal value).toList.isEmpty = false :=
        List.isEmpty_eq_false_iff.mpr (isTidy_numbered tidy value).ne_nil
      by_cases running : session.initiative.isRunning = true
      · rw [← addParticipant_of_tidy tidy]
        simp only [run, NamedCall.command, runInitiative, if_pos running, addOrEnter,
          NamedCall.arguments, given, Bool.false_eq_true, if_false, Reply.undrawn]
      · simp only [run, NamedCall.command, runInitiative, if_neg running,
          NamedCall.answer, add_of_not_running running]
        rfl

theorem process_line {session : Session Moment}
    (outside : session.entering = false) {name : String}
    (tidy : IsTidy name.toList) (now : Moment) (draws : List UInt64) (call : NamedCall) :
    session.process now draws (call.line name) =
      answered session draws (call.answer session name) := by
  have commanded : ¬ session.entering = true := by
    rw [outside]
    exact Bool.false_ne_true
  rw [Session.process, processChars]
  dsimp only
  rw [if_neg commanded, (NamedCall.isTidy_line tidy call).trim_eq,
    NamedCall.read_line tidy]
  exact run_command tidy session now draws call

/-- A name with a number behind it has two words, and a word that ends the
entering is one. -/
theorem not_endsEntry_of_tidy {name : String} (tidy : IsTidy name.toList)
    (value : Int32) :
    ¬ EndsEntry (name ++ " " ++ inDecimal value) := by
  have whole := isTidy_numbered tidy value
  rintro (blank | ⟨word, known, same⟩)
  · exact whole.ne_nil (whole.trim_eq.symm.trans (trim_eq_nil_iff.mpr blank))
  · have gap : ' ' ∈ word.toList := by
      rw [← same, whole.trim_eq, toList_spaced, List.map_append]
      exact List.mem_append_right _ (List.mem_cons_self ..)
    simp only [List.mem_cons, List.not_mem_nil, or_false] at known
    rcases known with rfl | rfl
    · exact absurd gap (by decide)
    · exact absurd gap (by decide)

theorem process_entry {session : Session Moment}
    (entering : session.entering = true) {name : String}
    (tidy : IsTidy name.toList) (now : Moment) (draws : List UInt64) (value : Int32) :
    session.process now draws (name ++ " " ++ inDecimal value) =
      answered session draws
        ((NamedCall.addParticipant value).answer session name) := by
  rw [process_of_not_endsEntry entering (not_endsEntry_of_tidy tidy value),
    (isTidy_numbered tidy value).trim_eq]
  exact addParticipant_of_tidy tidy session draws value

/-- Whatever blanks, digits and signs a name holds inside, it is found again in
the line of a call, and so are the numbers: the line answers and changes what
the call answers and changes, or fails with its error. While participants are
entered, a name with a number behind it is added with just this number to the
rotation that is in progress. -/
theorem lines_do_what_calls_do (session : Session Moment) {name : String}
    (tidy : IsTidy name.toList) (now : Moment) (draws : List UInt64) :
    (session.entering = false →
        ∀ call : NamedCall,
          session.process now draws (call.line name) =
            answered session draws (call.answer session name)) ∧
      (session.entering = true →
        ∀ value,
          session.process now draws (name ++ " " ++ inDecimal value) =
              answered session draws
                ((NamedCall.addParticipant value).answer session name) ∧
            (Reachable session →
              ∃ rotation,
                session.initiative.rotation? = some rotation ∧
                  session.process now draws (name ++ " " ++ inDecimal value) =
                    ⟨.ok ("Added " ++ name ++ " (initiative " ++
                        inDecimal value ++ ")"),
                      { session with
                        initiative := ⟨some (rotation.add name value)⟩ },
                      draws⟩)) := by
  constructor
  · intro outside call
    exact process_line outside tidy now draws call
  · intro entering value
    have entered := process_entry entering tidy now draws value
    refine ⟨entered, fun reachable => ?_⟩
    obtain ⟨rotation, running⟩ :=
      Option.isSome_iff_exists.mp (reachable.entersRunning entering)
    refine ⟨rotation, running, ?_⟩
    rw [entered, NamedCall.answer, Initiative.add, Initiative.change, running]
    rfl

/-- A name that begins with the word that ends the entering and ends in a
number. -/
theorem lines_do_what_calls_do_of_done :
    let name := "done  -7 +2"
    let outside := Session.new Settings.standard
    let inside := (outside.process Instant.epoch [] "init start").session
    IsTidy name.toList ∧
      outside.entering = false ∧
      outside.process .epoch [] "track add done  -7 +2 -5 30" =
        ⟨.ok "Added tracker: [done  -7 +2] -5/30",
          { outside with trackers := ⟨[⟨name, -5, 30, false⟩]⟩ }, []⟩ ∧
      inside.entering = true ∧
      Reachable inside ∧
      inside.process .epoch [] "done  -7 +2 -2147483648" =
        ⟨.ok "Added done  -7 +2 (initiative -2147483648)",
          { inside with
            initiative := ⟨some (Rotation.new.add name (-2147483648))⟩ }, []⟩ := by
  intro name outside inside
  have tidy : IsTidy name.toList := by decide
  have reachable : Reachable inside := (Reachable.new _).process _ _ _
  have kept :
      outside.process .epoch [] "track add done  -7 +2 -5 30" = _ :=
    (lines_do_what_calls_do outside tidy .epoch []).1 rfl (.addTracker (-5) 30)
  obtain ⟨rotation, running, added⟩ :=
    ((lines_do_what_calls_do inside tidy .epoch []).2 rfl (-2147483648)).2
      reachable
  obtain rfl : Rotation.new = rotation := Option.some_inj.mp running
  have shown :
      "Added tracker: " ++ (⟨name, -5, 30, false⟩ : Tracker).text =
        "Added tracker: [done  -7 +2] -5/30" := by
    decide
  rw [← shown]
  exact ⟨tidy, rfl, kept, rfl, reachable, added⟩

end Tabletop.Session
