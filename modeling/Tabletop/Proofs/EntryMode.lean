import Tabletop.Clock.Instant
import Tabletop.Proofs.FirstFault
import Tabletop.Proofs.Frames
import Tabletop.Proofs.LetterCase
import Tabletop.Proofs.Trimming
import Tabletop.Proofs.TurnOrder

/-!
# Entering participants

Lines are entries only while a rotation is in progress: the mode is entered
behind `init start` and `init add` alone, which begin a rotation or ask for
one, and the rotation cannot be ended from within the mode. So an entry either
adds one participant to that rotation or cannot be read, and the mode is left
by a blank line and by the words `done` and `end` alone.
-/

namespace Tabletop.Session

open Tabletop.Clock
open Tabletop.Text

variable {Moment : Type}

def EntersRunning (session : Session Moment) : Prop :=
  session.entering = true → session.initiative.isRunning = true

theorem entersRunning_of_outside {session : Session Moment}
    (outside : session.entering = false) :
    session.EntersRunning := by
  intro entering
  rw [outside] at entering
  cases entering

theorem isRunning_of_add {initiative changed : Initiative} {name : String}
    {value : Int32} (added : initiative.add name value = .ok changed) :
    changed.isRunning = true := by
  rw [Initiative.add, Initiative.change] at added
  split at added
  · cases added
    rfl
  · cases added

theorem EntersRunning.addParticipant {session : Session Moment}
    (running : session.EntersRunning) (text : List Char) :
    (session.addParticipant text).session.EntersRunning := by
  unfold Session.addParticipant
  split
  · exact running
  · split
    · exact running
    · rename_i added
      intro _
      exact isRunning_of_add added

theorem entering_addParticipant (session : Session Moment) (text : List Char) :
    (session.addParticipant text).session.entering = session.entering := by
  unfold Session.addParticipant
  split
  · rfl
  · split <;> rfl

theorem EntersRunning.addOrEnter {session : Session Moment}
    (running : session.initiative.isRunning = true) (text : List Char)
    (invitation : String) :
    (session.addOrEnter text invitation).session.EntersRunning := by
  unfold Session.addOrEnter
  split
  · exact fun _ => running
  · exact EntersRunning.addParticipant (fun _ => running) text

theorem entersRunning_runInitiative {session : Session Moment}
    (outside : session.entering = false) (command : InitiativeCommand) :
    (session.runInitiative command).session.EntersRunning := by
  cases command with
  | start text =>
      exact EntersRunning.addOrEnter rfl text _
  | add text =>
      simp only [runInitiative]
      split
      · rename_i running
        exact EntersRunning.addOrEnter running text _
      · exact entersRunning_of_outside outside
  | next | back =>
      simp only [runInitiative, showTurn]
      split <;> exact entersRunning_of_outside outside
  | kill name | revive name =>
      simp only [runInitiative, keepInitiative]
      split <;> exact entersRunning_of_outside outside
  | list | finish =>
      simp only [runInitiative]
      split <;> exact entersRunning_of_outside outside

theorem cases_of_readParticipant_eq_error {text : List Char}
    {error : SessionError}
    (unreadable : readParticipant text = .error error) :
    (∃ word, error = .notANumber word) ∨ error = .usage .participant := by
  rw [readParticipant, Dice.bind_eq_error_iff] at unreadable
  rcases unreadable with notNumbered | ⟨⟨name, value⟩, _, unnamed⟩
  · simp only [readNumbered] at notNumbered
    split at notNumbered
    · cases notNumbered
    · cases notNumbered
      exact Or.inl ⟨_, rfl⟩
  · dsimp only at unnamed
    rw [readName] at unnamed
    split at unnamed
    · cases unnamed
      exact Or.inr rfl
    · cases unnamed

/-- While a rotation is in progress, what is entered joins it or cannot be
read. -/
theorem addParticipant_cases {session : Session Moment} {rotation : Rotation}
    (running : session.initiative.rotation? = some rotation)
    (text : List Char) :
    (∃ name value,
        session.addParticipant text =
          ⟨.ok ("Added " ++ name ++ " (initiative " ++
              toString value.toInt ++ ")"),
            { session with
              initiative := ⟨some (rotation.add name value)⟩ }⟩) ∨
      ∃ error,
        ((∃ word, error = .notANumber word) ∨ error = .usage .participant) ∧
          session.addParticipant text = ⟨.error error, session⟩ := by
  rw [addParticipant]
  cases reading : readParticipant text with
  | error error =>
      exact Or.inr
        ⟨error, cases_of_readParticipant_eq_error reading, rfl⟩
  | ok participant =>
      obtain ⟨name, value⟩ := participant
      left
      refine ⟨name, value, ?_⟩
      dsimp only
      rw [Initiative.add, Initiative.change, running]
      rfl

variable [Calendar Moment]

theorem entersRunning_run {session : Session Moment}
    (outside : session.entering = false) (now : Moment)
    (draws : List UInt64) (command : Command) :
    (session.run now draws command).session.EntersRunning := by
  cases command with
  | initiative command =>
      exact entersRunning_runInitiative outside command
  | roll expression =>
      obtain ⟨history, changed⟩ :=
        session.exists_session_roll expression draws
      have kept := congrArg Session.entering changed
      exact entersRunning_of_outside (kept.trans outside)
  | tracker command =>
      obtain ⟨trackers, changed⟩ := session.exists_session_runTracker command
      have kept := congrArg Session.entering changed
      exact entersRunning_of_outside (kept.trans outside)
  | nothing | alarms | alarm | help | history | status | quit | clear =>
      exact entersRunning_of_outside outside

theorem EntersRunning.process {session : Session Moment}
    (running : session.EntersRunning) (now : Moment) (draws : List UInt64)
    (line : String) :
    (session.process now draws line).session.EntersRunning := by
  rw [Session.process, processChars]
  -- While participants are entered no command is carried out, so the rotation
  -- in progress cannot be ended there.
  by_cases entering : session.entering = true
  · rw [if_pos entering]
    cases Entry.read (trim line.toList) with
    | finish =>
        exact entersRunning_of_outside rfl
    | participant text =>
        exact running.addParticipant text
  · rw [if_neg entering]
    have outside : session.entering = false := Bool.eq_false_iff.mpr entering
    split
    · exact running
    · exact entersRunning_run outside now draws _

theorem Reachable.entersRunning {session : Session Moment}
    (reachable : Reachable session) :
    session.EntersRunning := by
  induction reachable with
  | new settings =>
      exact entersRunning_of_outside rfl
  | process _ now draws line inductionHypothesis =>
      exact inductionHypothesis.process now draws line
  | tick _ now inductionHypothesis =>
      exact inductionHypothesis

/-- A blank line, or one of the two words that end the entering, in any letter
case and with blanks around it. -/
def EndsEntry (line : String) : Prop :=
  AllBlank line.toList ∨
    ∃ word ∈ ["done", "end"],
      (trim line.toList).map Char.toLower = word.toList

theorem isWord_lowerChars_iff {line : List Char} {full : String}
    (steady : ∀ low ∈ full.toList, IsSteady low) :
    isWord (lowerChars line) full = true ↔
      line.map Char.toLower = full.toList := by
  rw [isWord, beq_iff_eq, lowerChars_eq_iff_of_steady steady]

theorem read_of_endsEntry {line : String} (ends : EndsEntry line) :
    Entry.read (trim line.toList) = .finish := by
  apply if_pos
  rw [Bool.or_eq_true, Bool.or_eq_true, List.isEmpty_iff, trim_eq_nil_iff,
    isWord_lowerChars_iff (by simp [IsSteady]),
    isWord_lowerChars_iff (by simp [IsSteady])]
  simpa [EndsEntry, or_assoc] using ends

theorem read_of_not_endsEntry {line : String} (goesOn : ¬ EndsEntry line) :
    Entry.read (trim line.toList) = .participant (trim line.toList) := by
  apply if_neg
  rw [Bool.or_eq_true, Bool.or_eq_true, List.isEmpty_iff, trim_eq_nil_iff,
    isWord_lowerChars_iff (by simp [IsSteady]),
    isWord_lowerChars_iff (by simp [IsSteady])]
  simpa [EndsEntry, or_assoc] using goesOn

theorem process_of_endsEntry {session : Session Moment}
    (entering : session.entering = true) {line : String}
    (ends : EndsEntry line) (now : Moment) (draws : List UInt64) :
    session.process now draws line =
      ⟨.ok "Initiative setup complete. Use 'init next' to advance turns.",
        { session with entering := false }, draws⟩ := by
  rw [Session.process, processChars]
  dsimp only
  rw [if_pos entering, read_of_endsEntry ends]
  rfl

theorem process_of_not_endsEntry {session : Session Moment}
    (entering : session.entering = true) {line : String}
    (goesOn : ¬ EndsEntry line) (now : Moment) (draws : List UInt64) :
    session.process now draws line =
      ⟨(session.addParticipant (trim line.toList)).result,
        (session.addParticipant (trim line.toList)).session, draws⟩ := by
  rw [Session.process, processChars]
  dsimp only
  rw [if_pos entering, read_of_not_endsEntry goesOn]
  rfl

/-- Lines are entries only while a rotation is in progress. Every entry adds
one participant to that rotation or cannot be read; it changes nothing else,
and the next line is an entry again. Blank lines, `done` and `end` alone leave
this mode. -/
theorem entries_join_running_rotation {session : Session Moment}
    (reachable : Reachable session) (entering : session.entering = true) :
    ∃ rotation,
      session.initiative.rotation? = some rotation ∧
        (∀ now draws line, ¬ EndsEntry line →
          (∃ name value,
              session.process now draws line =
                  ⟨.ok ("Added " ++ name ++ " (initiative " ++
                      toString value.toInt ++ ")"),
                    { session with
                      initiative := ⟨some (rotation.add name value)⟩ },
                    draws⟩ ∧
                (rotation.add name value).participants.Perm
                  (⟨name, value, true⟩ :: rotation.participants)) ∨
            ∃ error,
              ((∃ word, error = .notANumber word) ∨
                  error = .usage .participant) ∧
                session.process now draws line =
                  ⟨.error error, session, draws⟩) ∧
        ∀ step,
          (session.after step).entering = false ↔
            ∃ now draws line,
              step = .line now draws line ∧ EndsEntry line := by
  obtain ⟨rotation, running⟩ :=
    Option.isSome_iff_exists.mp (reachable.entersRunning entering)
  refine ⟨rotation, running, ?_, ?_⟩
  · intro now draws line goesOn
    rw [process_of_not_endsEntry entering goesOn]
    rcases addParticipant_cases running (trim line.toList) with
      ⟨name, value, added⟩ | ⟨error, known, refused⟩
    · rw [added]
      refine Or.inl ⟨name, value, rfl, ?_⟩
      exact (rotation.participants_add_perm name value).trans
        List.perm_append_comm
    · rw [refused]
      exact Or.inr ⟨error, known, rfl⟩
  · intro step
    cases step with
    | tick now =>
        apply iff_of_false
        · intro left
          exact absurd (left.symm.trans entering) Bool.false_ne_true
        · rintro ⟨_, _, _, same, _⟩
          cases same
    | line now draws line =>
        rw [Session.after]
        by_cases ends : EndsEntry line
        · rw [process_of_endsEntry entering ends]
          exact iff_of_true rfl ⟨now, draws, line, rfl, ends⟩
        · rw [process_of_not_endsEntry entering ends,
            entering_addParticipant, entering]
          apply iff_of_false
          · exact Bool.noConfusion
          · rintro ⟨_, _, _, same, endsOther⟩
            cases same
            exact ends endsOther

/-- Behind a bare start a goblin is entered, and the word in capitals ends the
entering. -/
theorem entries_join_running_rotation_of_goblin :
    let session :=
      ((Session.new Settings.standard).process Instant.epoch []
        "init start").session
    Reachable session ∧
      session.entering = true ∧
      ¬ EndsEntry "Goblin 12" ∧
      (∃ rotation,
        session.initiative.rotation? = some rotation ∧
          ∃ name value,
            (session.process .epoch [] "Goblin 12").session =
                { session with
                  initiative := ⟨some (rotation.add name value)⟩ } ∧
              (rotation.add name value).participants.Perm
                (⟨name, value, true⟩ :: rotation.participants)) ∧
      (session.after (.line .epoch [] " DONE ")).entering = false := by
  intro session
  have reachable : Reachable session := (Reachable.new _).process _ _ _
  have entering : session.entering = true := rfl
  have goesOn : ¬ EndsEntry "Goblin 12" := by
    rintro (blank | ⟨word, known, same⟩)
    · exact absurd (blank 'G' (by simp)) (by decide)
    · fin_cases known
      · exact absurd same (by decide)
      · exact absurd same (by decide)
  obtain ⟨rotation, running, entries, endings⟩ :=
    entries_join_running_rotation reachable entering
  refine ⟨reachable, entering, goesOn, ⟨rotation, running, ?_⟩, ?_⟩
  · rcases entries .epoch [] "Goblin 12" goesOn with
      ⟨name, value, added, joined⟩ | ⟨error, _, refused⟩
    · refine ⟨name, value, ?_, joined⟩
      rw [added]
    · have accepted :
          (session.process .epoch [] "Goblin 12").result =
            .ok "Added Goblin (initiative 12)" :=
        rfl
      rw [refused] at accepted
      cases accepted
  · refine (endings (.line .epoch [] " DONE ")).mpr ⟨_, _, _, rfl, Or.inr ?_⟩
    exact ⟨"done", by simp, by decide⟩

end Tabletop.Session
