import Tabletop.Session.Command
import Tabletop.Session.State

/-!
# Initiative of a session

Entering participants, passing the turn, and listing the order.
-/

namespace Tabletop.Session

variable {Moment : Type}

def addParticipant (session : Session Moment) (text : List Char) : Reply Moment :=
  match readParticipant text with
  | .error error => ⟨.error error, session⟩
  | .ok (name, value) =>
      match session.initiative.add name value with
      | .error error => ⟨.error (.track error), session⟩
      | .ok initiative =>
          ⟨.ok ("Added " ++ name ++ " (initiative " ++ toString value.toInt ++ ")"),
            { session with initiative := initiative }⟩

/-- Adds a participant, or lets participants be entered if none is given. -/
def addOrEnter (session : Session Moment) (text : List Char) (invitation : String) :
    Reply Moment :=
  if text.isEmpty then
    ⟨.ok invitation, { session with entering := true }⟩
  else
    session.addParticipant text

def turnText (turn : Turn) : String :=
  "Turn: " ++ turn.participant.name ++ " (initiative " ++
    toString turn.participant.initiative.toInt ++ ") - Round " ++ toString turn.round

/-- Shows a turn, if there is one, and keeps the initiative that goes with
it. -/
def showTurn (session : Session Moment) (passed : Except TrackError (Turn × Initiative)) :
    Reply Moment :=
  match passed with
  | .ok (turn, initiative) => ⟨.ok (turnText turn), { session with initiative := initiative }⟩
  | .error error => ⟨.error (.track error), session⟩

/-- Keeps a changed initiative and says what has happened. -/
def keepInitiative (session : Session Moment) (text : String)
    (changed : Except TrackError Initiative) : Reply Moment :=
  match changed with
  | .ok initiative => ⟨.ok text, { session with initiative := initiative }⟩
  | .error error => ⟨.error (.track error), session⟩

/-- A number filled up with spaces on its left to three characters. -/
def inThreeColumns (value : Int) : String :=
  let written := toString value
  String.ofList (List.replicate (3 - written.length) ' ') ++ written

/-- A participant on a line of the order, the current one marked. -/
def participantLine (turn : Nat) (entry : Participant × Nat) : String :=
  (if entry.2 = turn then ">" else " ") ++ " " ++
    inThreeColumns entry.1.initiative.toInt ++ "  " ++ entry.1.name ++
    (if entry.1.active then "" else " (out)")

def rotationText (rotation : Rotation) : String :=
  let round := "Round " ++ toString rotation.round
  if rotation.isEmpty then
    round ++ ": no participants."
  else
    listing (round ++ ":") (rotation.participants.zipIdx.map (participantLine rotation.turn))

def runInitiative (session : Session Moment) : InitiativeCommand → Reply Moment
  | .start text =>
      { session with initiative := session.initiative.start }.addOrEnter text
        ("Starting initiative. Enter '<name> <initiative>' for each participant.\n" ++
          "Type 'done' when finished.")
  | .add text =>
      if session.initiative.isRunning then
        session.addOrEnter text "Enter '<name> <initiative>' or 'done' to finish."
      else
        ⟨.error (.track .noRotation), session⟩
  | .next => session.showTurn session.initiative.next
  | .back => session.showTurn session.initiative.previous
  | .kill name =>
      session.keepInitiative (name ++ " is out of combat") (session.initiative.markOut name)
  | .revive name =>
      session.keepInitiative (name ++ " is back in combat") (session.initiative.markIn name)
  | .list =>
      match session.initiative.rotation? with
      | some rotation => ⟨.ok (rotationText rotation), session⟩
      | none => ⟨.error (.track .noRotation), session⟩
  | .finish =>
      match session.initiative.finish with
      | .ok (rotation, initiative) =>
          ⟨.ok ("Initiative ended after round " ++ toString rotation.round ++ "."),
            { session with initiative := initiative }⟩
      | .error error => ⟨.error (.track error), session⟩

def runEntry (session : Session Moment) : Entry → Reply Moment
  | .finish =>
      ⟨.ok "Initiative setup complete. Use 'init next' to advance turns.",
        { session with entering := false }⟩
  | .participant text => session.addParticipant text

end Tabletop.Session
