import Tabletop.Session.Alarms
import Tabletop.Session.Turns

/-!
# Status of a session

What deserves attention: pinned trackers, alarms that run, and the current
turn.
-/

namespace Tabletop.Session

open Tabletop.Clock

variable {Moment : Type} [Calendar Moment]

def pinnedStatus (session : Session Moment) : List String :=
  let pinned := session.trackers.pinned
  if pinned.isEmpty then
    []
  else
    ["Pinned: " ++ "  ".intercalate (pinned.map Tracker.text)]

def alarmStatus (session : Session Moment) (now : Moment) : List String :=
  let active := session.alarms.active now
  if active.isEmpty then
    []
  else
    [session.marked alarmGlyph
      ("Alarms: " ++ ", ".intercalate (active.map (alarmSummary now)))]

def turnStatus (session : Session Moment) : List String :=
  match session.initiative.rotation? with
  | none => []
  | some rotation =>
      match rotation.current? with
      | some participant => [turnText ⟨participant, rotation.round⟩]
      | none => ["Initiative running, no participants yet."]

def statusText (session : Session Moment) (now : Moment) : String :=
  let lines := session.pinnedStatus ++ session.alarmStatus now ++ session.turnStatus
  if lines.isEmpty then
    "Nothing to report."
  else
    "\n".intercalate lines

end Tabletop.Session
