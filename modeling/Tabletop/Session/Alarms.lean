import Tabletop.Session.State

/-!
# Alarms of a session

Starting alarms, listing those that run, and announcing those that have
expired.
-/

namespace Tabletop.Session

open Tabletop.Clock

variable {Moment : Type} [Calendar Moment]

def startAlarm (session : Session Moment) (now : Moment) (duration : Duration)
    (label : Option String) : Reply Moment :=
  let text :=
    match label with
    | some label => "Started alarm '" ++ label ++ "' for " ++ duration.text
    | none => "Started alarm for " ++ duration.text
  ⟨.ok (session.marked alarmGlyph text),
    { session with alarms := session.alarms.add ⟨label, now, duration⟩ }⟩

/-- An alarm with the time it has left and its whole duration. -/
def alarmSummary (now : Moment) (alarm : Alarm Moment) : String :=
  alarm.label.getD "(unnamed)" ++ " " ++ (alarm.remaining now).shortText ++ "/" ++
    alarm.duration.shortText

def alarmsText (session : Session Moment) (now : Moment) : String :=
  let active := session.alarms.active now
  if active.isEmpty then
    "No alarms running."
  else
    listing ("Alarms (" ++ toString active.length ++ "):")
      (active.map fun alarm => "  " ++ alarmSummary now alarm)

def announcement (alarm : Alarm Moment) : String :=
  match alarm.label with
  | some label => "Alarm '" ++ label ++ "' finished (" ++ alarm.duration.text ++ ")"
  | none => "Alarm finished (" ++ alarm.duration.text ++ ")"

/-- Announces the alarms that have expired, and lets go of them. -/
def tick (session : Session Moment) (now : Moment) : List String × Session Moment :=
  let (expired, alarms) := session.alarms.popExpired now
  (expired.map fun alarm => session.marked alarmGlyph (announcement alarm),
    { session with alarms := alarms })

end Tabletop.Session
