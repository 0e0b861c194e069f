import Tabletop.Text.Lowercase
import Tabletop.TrackError

/-!
# Initiative

The order in which participants take turns. A rotation keeps its participants
sorted, from the highest initiative to the lowest and by name where it is
equal, and knows whose turn it is and in which round. `Initiative` is the place
for the rotation in progress, if there is one.
-/

namespace Tabletop

open Tabletop.Text

/-- Somebody who takes turns; out of the fight when not active. -/
structure Participant where
  name : String
  initiative : Int32
  active : Bool
deriving DecidableEq, Repr

namespace Participant

def answersTo (name : String) (participant : Participant) : Bool :=
  sameName participant.name name

/-- The first participant acts no later: its initiative is higher, or equal
and its name comes no later in the order of code points. -/
def actsUpTo (first second : Participant) : Bool :=
  second.initiative.toInt < first.initiative.toInt ||
    (first.initiative.toInt == second.initiative.toInt && decide (first.name ≤ second.name))

end Participant

/-- The participants in order, the index of the one whose turn it is, the
round, and whether a turn has been passed yet. -/
structure Rotation where
  participants : List Participant
  turn : Nat
  round : Nat
  begun : Bool
deriving DecidableEq, Repr

namespace Rotation

def new : Rotation where
  participants := []
  turn := 0
  round := 1
  begun := false

def current? (rotation : Rotation) : Option Participant :=
  rotation.participants[rotation.turn]?

def activeCount (rotation : Rotation) : Nat :=
  rotation.participants.countP Participant.active

def isEmpty (rotation : Rotation) : Bool :=
  rotation.participants.isEmpty

/-- The turn index that names the same participant in a new order. Before the
first turn is passed the index stays as it is, so the head of the order is
next. -/
def turnAfter (rotation : Rotation) (participants : List Participant) : Nat :=
  if rotation.begun then
    match rotation.current? with
    | some participant => (participants.findIdx? (· == participant)).getD rotation.turn
    | none => rotation.turn
  else
    rotation.turn

def add (rotation : Rotation) (name : String) (initiative : Int32) : Rotation :=
  let newcomer : Participant := ⟨name, initiative, true⟩
  let participants := (rotation.participants ++ [newcomer]).mergeSort Participant.actsUpTo
  { rotation with
    participants := participants
    turn := rotation.turnAfter participants }

/-- One place onward; behind the last place a new round begins. -/
def stepOnward (rotation : Rotation) : Rotation :=
  if rotation.participants.length ≤ rotation.turn + 1 then
    { rotation with turn := 0, round := rotation.round + 1 }
  else
    { rotation with turn := rotation.turn + 1 }

/-- One place back; before the first place the round before it resumes, but
there is no round before the first. -/
def stepBack (rotation : Rotation) : Rotation :=
  if rotation.turn = 0 then
    { rotation with
      turn := rotation.participants.length - 1
      round := max (rotation.round - 1) 1 }
  else
    { rotation with turn := rotation.turn - 1 }

/-- Steps until the turn is back at `start` or with an active participant, at
most the given number of times. No rotation comes out if that is never so, or
if a step leaves the order. -/
def walk (step : Rotation → Rotation) (start : Nat) : (steps : Nat) → Rotation → Option Rotation
  | 0, _ => none
  | steps + 1, rotation =>
      let stepped := step rotation
      if stepped.turn = start then
        some stepped
      else
        match stepped.current? with
        | none => none
        | some participant =>
            if participant.active then some stepped else walk step start steps stepped

/-- Passes the turn along the order in steps. Every place is seen within as
many steps as there are participants. -/
def pass (step : Rotation → Rotation) (rotation : Rotation) :
    Except TrackError (Option Participant × Rotation) :=
  if rotation.isEmpty then
    .ok (none, rotation)
  else
    match walk step rotation.turn rotation.participants.length rotation with
    | some stopped => .ok (stopped.current?, stopped)
    | none => .error .turnOutsideOrder

def next (rotation : Rotation) : Except TrackError (Option Participant × Rotation) :=
  if rotation.isEmpty then
    .ok (none, rotation)
  else
    pass stepOnward { rotation with begun := true }

def previous (rotation : Rotation) : Except TrackError (Option Participant × Rotation) :=
  pass stepBack rotation

def markFirst (active : Bool) (name : String) : List Participant → Option (List Participant)
  | [] => none
  | participant :: rest =>
      if participant.answersTo name then
        some ({ participant with active := active } :: rest)
      else
        (markFirst active name rest).map (participant :: ·)

def setActive (rotation : Rotation) (name : String) (active : Bool) :
    Except TrackError Rotation :=
  match markFirst active name rotation.participants with
  | some participants => .ok { rotation with participants := participants }
  | none => .error (.participantNotFound name)

def markOut (rotation : Rotation) (name : String) : Except TrackError Rotation :=
  rotation.setActive name false

def markIn (rotation : Rotation) (name : String) : Except TrackError Rotation :=
  rotation.setActive name true

end Rotation

/-- The place for a rotation, empty when no initiative is in progress. -/
structure Initiative where
  rotation? : Option Rotation
deriving DecidableEq, Repr

structure Turn where
  participant : Participant
  round : Nat
deriving DecidableEq, Repr

namespace Initiative

def idle : Initiative where
  rotation? := none

def isRunning (initiative : Initiative) : Bool :=
  initiative.rotation?.isSome

/-- Begins a new rotation in place of any other. -/
def start (_ : Initiative) : Initiative where
  rotation? := some Rotation.new

/-- Ends the rotation, and gives its last state. -/
def finish (initiative : Initiative) : Except TrackError (Rotation × Initiative) :=
  match initiative.rotation? with
  | some rotation => .ok (rotation, idle)
  | none => .error .noRotation

def change (initiative : Initiative) (act : Rotation → Except TrackError Rotation) :
    Except TrackError Initiative :=
  match initiative.rotation? with
  | some rotation => (act rotation).map fun changed => ⟨some changed⟩
  | none => .error .noRotation

def add (initiative : Initiative) (name : String) (value : Int32) :
    Except TrackError Initiative :=
  initiative.change fun rotation => .ok (rotation.add name value)

def markOut (initiative : Initiative) (name : String) : Except TrackError Initiative :=
  initiative.change fun rotation => rotation.markOut name

def markIn (initiative : Initiative) (name : String) : Except TrackError Initiative :=
  initiative.change fun rotation => rotation.markIn name

/-- Moves the turn of the rotation in progress; there has to be somebody to
move it to. -/
def move (initiative : Initiative)
    (act : Rotation → Except TrackError (Option Participant × Rotation)) :
    Except TrackError (Turn × Initiative) :=
  match initiative.rotation? with
  | none => .error .noRotation
  | some rotation =>
      match act rotation with
      | .error error => .error error
      | .ok (none, _) => .error .emptyRotation
      | .ok (some participant, moved) => .ok (⟨participant, moved.round⟩, ⟨some moved⟩)

def next (initiative : Initiative) : Except TrackError (Turn × Initiative) :=
  initiative.move Rotation.next

def previous (initiative : Initiative) : Except TrackError (Turn × Initiative) :=
  initiative.move Rotation.previous

def current (initiative : Initiative) : Except TrackError (Turn × Initiative) :=
  initiative.move fun rotation => .ok (rotation.current?, rotation)

end Initiative

end Tabletop
