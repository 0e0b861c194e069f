import Tabletop.Clock.Duration
import Tabletop.Session.Error
import Tabletop.Text.Lowercase

/-!
# Commands of a session

What a line asks for. A line begins with a command word, which may be
shortened to any of its beginnings and written in either case; a line that
begins with none is a dice notation. Reading a line needs nothing but the
line.
-/

namespace Tabletop.Session

open Tabletop.Clock
open Tabletop.Dice
open Tabletop.Text

/-- A word is a shortened or full form of another. -/
def abbreviates (word : List Char) (full : String) : Bool :=
  !word.isEmpty && word.isPrefixOf full.toList

def isWord (word : List Char) (full : String) : Bool :=
  word == full.toList

/-- The first word of a line in lower case, and the rest of the line. -/
def splitCommand (line : List Char) : List Char × List Char :=
  let (word, rest) := splitFirst line
  (lowerChars word, rest)

/-- A text and the whole number that stands as the last word behind it. -/
def readNumbered (text : List Char) : Except SessionError (List Char × Int32) :=
  let (head, last) := splitLast text
  match word32? last with
  | some value => .ok (head, value)
  | none => .error (.notANumber (String.ofList last))

/-- A name and a number. An argument that has only one word gets the usage of
its command for an answer. -/
def readNameAndNumber (usage : Usage) (text : List Char) :
    Except SessionError (String × Int32) :=
  match readNumbered text with
  | .ok (name, value) =>
      if name.isEmpty then .error (.usage usage) else .ok (String.ofList name, value)
  | .error error =>
      if text.any isBlank then .error error else .error (.usage usage)

def readName (usage : Usage) (text : List Char) : Except SessionError String :=
  if text.isEmpty then .error (.usage usage) else .ok (String.ofList text)

def readParticipant (text : List Char) : Except SessionError (String × Int32) := do
  let (name, initiative) ← readNumbered text
  let name ← readName .participant name
  return (name, initiative)

/-- What a line about the initiative asks for. The text behind `start` and
`add` is read as a participant only when the command is carried out. -/
inductive InitiativeCommand where
  | start (participant : List Char)
  | add (participant : List Char)
  | next
  | back
  | kill (name : String)
  | revive (name : String)
  | list
  | finish
deriving DecidableEq, Repr

def InitiativeCommand.read (line : List Char) : Except SessionError InitiativeCommand :=
  let (word, rest) := splitCommand line
  if abbreviates word "start" then .ok (.start rest)
  else if abbreviates word "add" then .ok (.add rest)
  else if abbreviates word "next" then .ok .next
  else if abbreviates word "back" then .ok .back
  else if abbreviates word "kill" then (readName .kill rest).map .kill
  else if abbreviates word "revive" then (readName .revive rest).map .revive
  else if abbreviates word "list" then .ok .list
  else if abbreviates word "end" then .ok .finish
  else if word.isEmpty then .error (.usage .initiative)
  else .error (.unknownCommand ("init " ++ String.ofList word))

inductive TrackerCommand where
  | add (name : String) (current max : Int32)
  | adjust (name : String) (delta : Int32)
  | set (name : String) (value : Int32)
  | search (pattern : String)
  | list
  | pin (name : String)
  | pinAll
  | unpin (name : String)
  | delete (name : String)
  | deleteAll
deriving DecidableEq, Repr

def readNewTracker (text : List Char) : Except SessionError TrackerCommand :=
  match readNumbered text with
  | .error _ => .error (.usage .trackerAdd)
  | .ok (head, max) =>
      (readNameAndNumber .trackerAdd head).map fun (name, current) => .add name current max

def TrackerCommand.read (line : List Char) : Except SessionError TrackerCommand :=
  let (word, rest) := splitCommand line
  if abbreviates word "add" then readNewTracker rest
  else if abbreviates word "adjust" then
    (readNameAndNumber .trackerAdjust rest).map fun (name, delta) => .adjust name delta
  else if abbreviates word "set" then
    (readNameAndNumber .trackerSet rest).map fun (name, value) => .set name value
  else if abbreviates word "search" || isWord word "f" || isWord word "find" then
    (readName .trackerSearch rest).map .search
  else if abbreviates word "list" then .ok .list
  else if abbreviates word "pin" then (readName .trackerPin rest).map .pin
  else if abbreviates word "pinall" || isWord word "pa" then .ok .pinAll
  else if abbreviates word "unpin" then (readName .trackerUnpin rest).map .unpin
  else if abbreviates word "delete" then (readName .trackerDelete rest).map .delete
  else if abbreviates word "deleteall" || isWord word "da" then .ok .deleteAll
  else if word.isEmpty then .error (.usage .tracker)
  else .error (.unknownCommand ("track " ++ String.ofList word))

inductive Command where
  | nothing
  | roll (expression : Expression)
  | alarms
  | alarm (duration : Duration) (label : Option String)
  | initiative (command : InitiativeCommand)
  | tracker (command : TrackerCommand)
  | help
  | history
  | status
  | quit
  | clear
deriving DecidableEq, Repr

def readRollArguments (text : List Char) : Except SessionError Command :=
  if text.isEmpty then
    .error (.usage .roll)
  else
    match readChars text with
    | .ok expression => .ok (.roll expression)
    | .error error => .error (.dice (.unreadable error))

def readAlarmArguments (text : List Char) : Except SessionError Command :=
  let (durationText, label) := splitFirst text
  if durationText.isEmpty then
    .error (.usage .alarm)
  else
    match Duration.read (String.ofList durationText) with
    | .ok duration =>
        .ok (.alarm duration (if label.isEmpty then none else some (String.ofList label)))
    | .error error => .error (.track error)

/-- Reads a line that begins with no command word, the word being given in
lower case. -/
def readBareDice (word line : List Char) : Except SessionError Command :=
  match readChars line with
  | .ok expression => .ok (.roll expression)
  | .error _ => .error (.unknownCommand (String.ofList word))

/-- Reads a line without blanks at its ends. -/
def Command.read (line : List Char) : Except SessionError Command :=
  if line.isEmpty then
    .ok .nothing
  else
    let (word, rest) := splitCommand line
    if abbreviates word "roll" then readRollArguments rest
    else if isWord word "alarms" then .ok .alarms
    else if abbreviates word "alarm" then readAlarmArguments rest
    else if abbreviates word "initiative" then (InitiativeCommand.read rest).map .initiative
    else if abbreviates word "tracker" then (TrackerCommand.read rest).map .tracker
    else if abbreviates word "help" then .ok .help
    else if abbreviates word "history" then .ok .history
    else if abbreviates word "status" then .ok .status
    else if abbreviates word "quit" || isWord word "exit" then .ok .quit
    else if abbreviates word "clear" then .ok .clear
    else readBareDice word line

/-- What a line asks for while participants are entered. -/
inductive Entry where
  | finish
  | participant (text : List Char)
deriving DecidableEq, Repr

def Entry.read (line : List Char) : Entry :=
  let word := lowerChars line
  if line.isEmpty || isWord word "done" || isWord word "end" then
    .finish
  else
    .participant line

end Tabletop.Session
