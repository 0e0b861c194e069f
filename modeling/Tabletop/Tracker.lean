import Tabletop.Text.Lowercase
import Tabletop.TrackError

/-!
# Number trackers

Named numbers with a reference maximum, such as hit points or arrows. A
tracker board holds trackers whose names differ by more than case; trackers
are found by name without regard to case and listed in the order of their
names.
-/

namespace Tabletop

open Tabletop.Text

/-- The sum of two 32-bit numbers, held at the ends of their range. -/
def saturatingAdd (first second : Int32) : Int32 :=
  Int32.ofInt
    (max Int32.minValue.toInt
      (min Int32.maxValue.toInt (first.toInt + second.toInt)))

/-- A named number. It may lie above its maximum or below zero; pinned
trackers are shown in the status. -/
structure Tracker where
  name : String
  current : Int32
  max : Int32
  pinned : Bool
deriving DecidableEq, Repr

namespace Tracker

def text (tracker : Tracker) : String :=
  "[" ++ tracker.name ++ "] " ++ toString tracker.current.toInt ++ "/" ++
    toString tracker.max.toInt

def answersTo (name : String) (tracker : Tracker) : Bool :=
  sameName tracker.name name

/-- The name of the first tracker comes no later in the order of code
points. -/
def namedUpTo (first second : Tracker) : Bool :=
  decide (first.name ≤ second.name)

def adjust (delta : Int32) (tracker : Tracker) : Tracker :=
  { tracker with current := saturatingAdd tracker.current delta }

end Tracker

/-- A text occurs in another as a run of neighbouring characters. -/
def occursIn (pattern : List Char) : (text : List Char) → Bool
  | [] => pattern.isEmpty
  | letter :: rest => pattern.isPrefixOf (letter :: rest) || occursIn pattern rest

/-- Changes the first item that meets a test; gives the item as it is
afterwards, and all items. -/
def updateFirst? {α : Type} (test : α → Bool) (change : α → α) : List α → Option (α × List α)
  | [] => none
  | item :: rest =>
      if test item then
        some (change item, change item :: rest)
      else
        (updateFirst? test change rest).map fun (changed, later) => (changed, item :: later)

structure TrackerBoard where
  trackers : List Tracker
deriving DecidableEq, Repr

namespace TrackerBoard

def empty : TrackerBoard where
  trackers := []

def get? (board : TrackerBoard) (name : String) : Option Tracker :=
  board.trackers.find? (Tracker.answersTo name)

/-- Adds a tracker that is not pinned, unless its name is taken. -/
def add (board : TrackerBoard) (name : String) (current max : Int32) :
    Except TrackError (Tracker × TrackerBoard) :=
  if board.trackers.any (Tracker.answersTo name) then
    .error (.duplicateTracker name)
  else
    let tracker : Tracker := ⟨name, current, max, false⟩
    .ok (tracker, ⟨board.trackers ++ [tracker]⟩)

def update (board : TrackerBoard) (name : String) (change : Tracker → Tracker) :
    Except TrackError (Tracker × TrackerBoard) :=
  match updateFirst? (Tracker.answersTo name) change board.trackers with
  | some (tracker, trackers) => .ok (tracker, ⟨trackers⟩)
  | none => .error (.trackerNotFound name)

def set (board : TrackerBoard) (name : String) (value : Int32) :
    Except TrackError (Tracker × TrackerBoard) :=
  board.update name fun tracker => { tracker with current := value }

def adjust (board : TrackerBoard) (name : String) (delta : Int32) :
    Except TrackError (Tracker × TrackerBoard) :=
  board.update name (Tracker.adjust delta)

def setPinned (board : TrackerBoard) (name : String) (pinned : Bool) :
    Except TrackError (Tracker × TrackerBoard) :=
  board.update name fun tracker => { tracker with pinned := pinned }

def pinnedCount (board : TrackerBoard) : Nat :=
  board.trackers.countP Tracker.pinned

/-- Pins every tracker; gives the number of those that were not pinned. -/
def pinAll (board : TrackerBoard) : Nat × TrackerBoard :=
  (board.trackers.countP fun tracker => !tracker.pinned,
    ⟨board.trackers.map fun tracker => { tracker with pinned := true }⟩)

def delete (board : TrackerBoard) (name : String) :
    Except TrackError (Tracker × TrackerBoard) :=
  match board.get? name with
  | some tracker => .ok (tracker, ⟨board.trackers.eraseP (Tracker.answersTo name)⟩)
  | none => .error (.trackerNotFound name)

def count (board : TrackerBoard) : Nat :=
  board.trackers.length

def collect (board : TrackerBoard) (test : Tracker → Bool) : List Tracker :=
  (board.trackers.filter test).mergeSort Tracker.namedUpTo

def list (board : TrackerBoard) : List Tracker :=
  board.collect fun _ => true

def pinned (board : TrackerBoard) : List Tracker :=
  board.collect Tracker.pinned

/-- The trackers whose names hold a pattern, case aside, in the order of their
names. -/
def search (board : TrackerBoard) (pattern : String) : List Tracker :=
  board.collect fun tracker =>
    occursIn (lowerChars pattern.toList) (lowerChars tracker.name.toList)

end TrackerBoard

end Tabletop
