import Tabletop.Clock.Instant
import Tabletop.Proofs.Runs

/-!
# Lines that fail

Every command reads its arguments before it changes anything, so a line that
fails leaves the session as it was. There is one exception: `init start`
begins the new rotation first and reads the participant behind it afterwards,
so that a participant that cannot be read costs the rotation in progress.
-/

namespace Tabletop.Session

open Tabletop.Clock
open Tabletop.Text

variable {Moment : Type}

/-- An error comes with the session as it was. -/
def Reply.Spares (session : Session Moment) (reply : Reply Moment) : Prop :=
  ∀ error, reply.result = .error error → reply.session = session

def Outcome.Spares (session : Session Moment) (outcome : Outcome Moment) :
    Prop :=
  ∀ error, outcome.result = .error error → outcome.session = session

theorem spares_of_ok (session changed : Session Moment) (text : String) :
    Reply.Spares session ⟨.ok text, changed⟩ := by
  intro error failed
  cases failed

theorem spares_of_same (session : Session Moment)
    (result : Except SessionError String) :
    Reply.Spares session ⟨result, session⟩ := by
  intro error failed
  rfl

theorem Reply.Spares.outcome {session : Session Moment} {reply : Reply Moment}
    (spares : reply.Spares session) (draws : List UInt64) :
    Outcome.Spares session ⟨reply.result, reply.session, draws⟩ :=
  spares

theorem outcome_spares_of_ok (session changed : Session Moment) (text : String)
    (draws : List UInt64) :
    Outcome.Spares session ⟨.ok text, changed, draws⟩ :=
  (spares_of_ok session changed text).outcome draws

theorem spares_roll (session : Session Moment) (expression : Dice.Expression)
    (draws : List UInt64) :
    (session.roll expression draws).Spares session := by
  unfold roll
  split
  · exact outcome_spares_of_ok _ _ _ _
  · exact (spares_of_same session _).outcome _

theorem spares_keepTracker (session : Session Moment)
    (describe : Tracker → String)
    (changed : Except TrackError (Tracker × TrackerBoard)) :
    (session.keepTracker describe changed).Spares session := by
  cases changed with
  | ok kept =>
      exact spares_of_ok _ _ _
  | error error =>
      exact spares_of_same _ _

theorem spares_runTracker (session : Session Moment)
    (command : TrackerCommand) :
    (session.runTracker command).Spares session := by
  cases command with
  | add name current max =>
      exact spares_keepTracker _ _ _
  | adjust name delta =>
      exact spares_keepTracker _ _ _
  | set name value =>
      exact spares_keepTracker _ _ _
  | search pattern =>
      simp only [runTracker]
      split <;> exact spares_of_same _ _
  | list =>
      simp only [runTracker]
      split <;> exact spares_of_same _ _
  | pin name =>
      exact spares_keepTracker _ _ _
  | pinAll =>
      exact spares_of_ok _ _ _
  | unpin name =>
      exact spares_keepTracker _ _ _
  | delete name =>
      exact spares_keepTracker _ _ _
  | deleteAll =>
      exact spares_of_ok _ _ _

theorem spares_showTurn (session : Session Moment)
    (passed : Except TrackError (Turn × Initiative)) :
    (session.showTurn passed).Spares session := by
  cases passed with
  | ok turn =>
      exact spares_of_ok _ _ _
  | error error =>
      exact spares_of_same _ _

theorem spares_keepInitiative (session : Session Moment) (text : String)
    (changed : Except TrackError Initiative) :
    (session.keepInitiative text changed).Spares session := by
  cases changed with
  | ok initiative =>
      exact spares_of_ok _ _ _
  | error error =>
      exact spares_of_same _ _

theorem spares_addParticipant (session : Session Moment) (text : List Char) :
    (session.addParticipant text).Spares session := by
  unfold addParticipant
  split
  · exact spares_of_same _ _
  · split
    · exact spares_of_same _ _
    · exact spares_of_ok _ _ _

theorem spares_addOrEnter (session : Session Moment) (text : List Char)
    (invitation : String) :
    (session.addOrEnter text invitation).Spares session := by
  unfold addOrEnter
  split
  · exact spares_of_ok _ _ _
  · exact spares_addParticipant session text

theorem spares_runInitiative (session : Session Moment)
    (command : InitiativeCommand) (other : ∀ text, command ≠ .start text) :
    (session.runInitiative command).Spares session := by
  cases command with
  | start text =>
      exact absurd rfl (other text)
  | add text =>
      simp only [runInitiative]
      split
      · exact spares_addOrEnter _ _ _
      · exact spares_of_same _ _
  | next =>
      exact spares_showTurn _ _
  | back =>
      exact spares_showTurn _ _
  | kill name =>
      exact spares_keepInitiative _ _ _
  | revive name =>
      exact spares_keepInitiative _ _ _
  | list =>
      simp only [runInitiative]
      split <;> exact spares_of_same _ _
  | finish =>
      simp only [runInitiative]
      split
      · exact spares_of_ok _ _ _
      · exact spares_of_same _ _

theorem spares_runEntry (session : Session Moment) (entry : Entry) :
    (session.runEntry entry).Spares session := by
  cases entry with
  | finish =>
      exact spares_of_ok _ _ _
  | participant text =>
      exact spares_addParticipant session text

theorem add_started (initiative : Initiative) (name : String) (value : Int32) :
    initiative.start.add name value =
      .ok ⟨some (Rotation.new.add name value)⟩ :=
  rfl

theorem runInitiative_start_of_unreadable {session : Session Moment}
    {text : List Char} {error : SessionError} (given : text ≠ [])
    (unreadable : readParticipant text = .error error) :
    session.runInitiative (.start text) =
      ⟨.error error, { session with initiative := session.initiative.start }⟩ := by
  have notEmpty : ¬ text.isEmpty = true := by
    rwa [List.isEmpty_iff]
  rw [runInitiative, addOrEnter, if_neg notEmpty, addParticipant, unreadable]

theorem unreadable_of_runInitiative_start {session : Session Moment}
    {text : List Char} {error : SessionError}
    (failed : (session.runInitiative (.start text)).result = .error error) :
    text ≠ [] ∧ readParticipant text = .error error := by
  rw [runInitiative, addOrEnter] at failed
  by_cases empty : text.isEmpty = true
  · rw [if_pos empty] at failed
    cases failed
  · rw [if_neg empty, addParticipant] at failed
    refine ⟨by rwa [List.isEmpty_iff] at empty, ?_⟩
    cases reading : readParticipant text with
    | error unreadable =>
        rw [reading] at failed
        cases failed
        rfl
    | ok participant =>
        rw [reading] at failed
        simp only [add_started] at failed
        cases failed

theorem restarted_eq_self_iff (session : Session Moment) :
    { session with initiative := session.initiative.start } = session ↔
      session.initiative.rotation? = some Rotation.new := by
  constructor
  · intro same
    rw [← same]
    rfl
  · intro fresh
    have same : session.initiative.start = session.initiative := by
      rw [Initiative.start, ← fresh]
    rw [same]

variable [Calendar Moment]

theorem spares_run (session : Session Moment) (now : Moment)
    (draws : List UInt64) (command : Command)
    (other : ∀ text, command ≠ .initiative (.start text)) :
    (session.run now draws command).Spares session := by
  cases command with
  | roll expression =>
      exact spares_roll _ _ _
  | alarm duration label =>
      exact (spares_of_ok _ _ _).outcome _
  | initiative command =>
      have otherCommand : ∀ text, command ≠ .start text := by
        rintro text rfl
        exact other text rfl
      exact (spares_runInitiative _ _ otherCommand).outcome _
  | tracker command =>
      exact (spares_runTracker _ _).outcome _
  | nothing | alarms | help | history | status | quit | clear =>
      exact outcome_spares_of_ok _ _ _ _

/-- Outside of entries, a line asks to begin the initiative with a participant
that cannot be read. -/
def RestartsInVain (session : Session Moment) (line : String) : Prop :=
  session.entering = false ∧
    ∃ text error,
      Command.read (trim line.toList) = .ok (.initiative (.start text)) ∧
        text ≠ [] ∧ readParticipant text = .error error

theorem process_of_restartsInVain {session : Session Moment} {line : String}
    (inVain : session.RestartsInVain line) (now : Moment)
    (draws : List UInt64) :
    ∃ error,
      session.process now draws line =
        ⟨.error error, { session with initiative := session.initiative.start },
          draws⟩ := by
  obtain ⟨commands, text, error, read, given, unreadable⟩ := inVain
  refine ⟨error, ?_⟩
  have notEntering : ¬ session.entering = true := by
    rw [commands]
    decide
  have restarted :
      session.runInitiative (.start text) =
        ⟨.error error,
          { session with initiative := session.initiative.start }⟩ :=
    runInitiative_start_of_unreadable given unreadable
  simp only [process, processChars, if_neg notEntering, read, run, restarted]

theorem process_spares_of_not_restartsInVain {session : Session Moment}
    {line : String} (notInVain : ¬ session.RestartsInVain line)
    (now : Moment) (draws : List UInt64) :
    (session.process now draws line).Spares session := by
  unfold process processChars
  by_cases entering : session.entering = true
  · simp only [if_pos entering]
    exact (spares_runEntry session _).outcome draws
  · simp only [if_neg entering]
    cases reading : Command.read (trim line.toList) with
    | error error =>
        exact (spares_of_same session _).outcome draws
    | ok command =>
        by_cases start : ∃ text, command = .initiative (.start text)
        · obtain ⟨text, rfl⟩ := start
          intro error failed
          obtain ⟨given, unreadable⟩ :=
            unreadable_of_runInitiative_start failed
          exact absurd
            ⟨Bool.eq_false_iff.mpr entering, text, error, reading, given,
              unreadable⟩
            notInVain
        · exact spares_run session now draws command
            fun text same => start ⟨text, same⟩

/-- A line restarts the initiative in vain while a rotation is in progress to
which something has happened, or while there is none. -/
def LosesInitiative (session : Session Moment) (line : String) : Prop :=
  session.RestartsInVain line ∧
    session.initiative.rotation? ≠ some Rotation.new

/-- A line that fails leaves the session as it was, except when it restarts
the initiative in vain: such a line always fails, and all that it changes is
that a new rotation is in progress. -/
theorem failed_line_keeps_session_iff (session : Session Moment) (now : Moment)
    (draws : List UInt64) (line : String) :
    (∀ error,
        (session.process now draws line).result = .error error →
          ((session.process now draws line).session = session ↔
            ¬ session.LosesInitiative line)) ∧
      (session.LosesInitiative line →
        ∃ error,
          session.process now draws line =
            ⟨.error error,
              { session with initiative := session.initiative.start },
              draws⟩) := by
  constructor
  · intro error failed
    by_cases inVain : session.RestartsInVain line
    · obtain ⟨_, processed⟩ := process_of_restartsInVain inVain now draws
      rw [processed]
      show { session with initiative := session.initiative.start } = session ↔ _
      rw [restarted_eq_self_iff]
      constructor
      · intro fresh loses
        exact loses.2 fresh
      · intro keeps
        by_cases fresh : session.initiative.rotation? = some Rotation.new
        · exact fresh
        · exact absurd ⟨inVain, fresh⟩ keeps
    · have kept :=
        process_spares_of_not_restartsInVain inVain now draws error failed
      rw [kept]
      exact iff_of_true rfl fun loses => inVain loses.1
  · intro loses
    exact process_of_restartsInVain loses.1 now draws

/-- A second start with a number missing fails, and the participant that was
in the order is gone. -/
theorem failed_line_loses_participant :
    let session :=
      ((Session.new Settings.standard).process Instant.epoch []
        "init start Aria 18").session
    let outcome := session.process .epoch [] "init start Goblin x"
    Reachable session ∧
      outcome.result = .error (.notANumber "x") ∧
      outcome.session.initiative.rotation? = some Rotation.new ∧
      outcome.session ≠ session := by
  intro session outcome
  have running :
      session.initiative.rotation? = some (Rotation.new.add "Aria" 18) :=
    rfl
  refine ⟨(Reachable.new _).process _ _ _, rfl, rfl, ?_⟩
  intro same
  have emptied :
      some Rotation.new = some (Rotation.new.add "Aria" 18) := by
    rw [← running, ← same]
    rfl
  simp [Rotation.add, Rotation.new] at emptied

end Tabletop.Session
