/-!
# Errors of the trackers

What can go wrong with alarms, number trackers and the initiative order, and
how it is said.
-/

namespace Tabletop

inductive DurationFault where
  | empty
  | expectedNumber (rest : List Char)
  | badNumber (number : List Char)
  | missingUnit (number : List Char)
  | unknownUnit (unit : List Char)
  | notPositive
  | tooLong
deriving DecidableEq, Repr

namespace DurationFault

def message : DurationFault → String
  | empty => "empty duration"
  | expectedNumber rest => "expected a number at '" ++ String.ofList rest ++ "'"
  | badNumber number => "bad number '" ++ String.ofList number ++ "'"
  | missingUnit number => "missing unit after '" ++ String.ofList number ++ "'"
  | unknownUnit unit => "unknown unit '" ++ String.ofList unit ++ "'"
  | notPositive => "must be positive"
  | tooLong => "cannot convert float seconds to Duration: value is either too big or NaN"

end DurationFault

/-- The errors of the trackers. The last one arises only for an initiative
order whose turn index was set from outside and lies beyond its end. -/
inductive TrackError where
  | trackerNotFound (name : String)
  | duplicateTracker (name : String)
  | participantNotFound (name : String)
  | noRotation
  | emptyRotation
  | invalidDuration (input : String) (fault : DurationFault)
  | turnOutsideOrder
deriving DecidableEq, Repr

namespace TrackError

def message : TrackError → String
  | trackerNotFound name => "tracker '" ++ name ++ "' not found"
  | duplicateTracker name => "tracker '" ++ name ++ "' already exists"
  | participantNotFound name => "participant '" ++ name ++ "' not found"
  | noRotation => "no initiative in progress"
  | emptyRotation => "no participants in initiative"
  | invalidDuration input fault =>
      "invalid duration '" ++ input ++ "': " ++ fault.message
  | turnOutsideOrder => "the turn lies outside the order"

end TrackError

end Tabletop
