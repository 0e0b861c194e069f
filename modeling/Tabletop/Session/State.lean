import Tabletop.Clock.Alarm
import Tabletop.Initiative
import Tabletop.Session.Error
import Tabletop.Text.Blank
import Tabletop.Tracker

/-!
# The state of a session

A session at the table keeps alarms, number trackers, the initiative and the
recent rolls. This module holds that state, the settings of a session, and
what comes of a line.
-/

namespace Tabletop.Session

structure Settings where
  historyLimit : Nat
  glyphs : Bool
deriving DecidableEq, Repr

namespace Settings

def standard : Settings where
  historyLimit := 100
  glyphs := true

/-- The settings with another number of remembered rolls, at least one. -/
def withHistoryLimit (settings : Settings) (limit : Nat) : Settings :=
  { settings with historyLimit := max limit 1 }

def withGlyphs (settings : Settings) (glyphs : Bool) : Settings :=
  { settings with glyphs := glyphs }

end Settings

end Tabletop.Session

namespace Tabletop

open Tabletop.Clock
open Tabletop.Session

/-- Everything that a session keeps. While `entering`, lines are entries for
the initiative; `finished` is set once the user has asked to leave. -/
structure Session (Moment : Type) where
  settings : Settings
  alarms : AlarmBook Moment
  trackers : TrackerBoard
  initiative : Initiative
  history : List String
  entering : Bool
  finished : Bool
deriving DecidableEq, Repr

end Tabletop

namespace Tabletop.Session

open Tabletop.Clock
open Tabletop.Text

variable {Moment : Type}

def new (settings : Settings) : Session Moment where
  settings := settings
  alarms := AlarmBook.empty
  trackers := TrackerBoard.empty
  initiative := Initiative.idle
  history := []
  entering := false
  finished := false

def prompt (session : Session Moment) : String :=
  if session.entering then "init> " else "> "

/-- A text behind a glyph, if glyphs are turned on. -/
def marked (session : Session Moment) (glyph text : String) : String :=
  if session.settings.glyphs then glyph ++ " " ++ text else text

def diceGlyph : String := "🎲"

def alarmGlyph : String := "⏰"

/-- A title and indented lines below it, without blanks at the end. -/
def listing (title : String) (lines : List String) : String :=
  let all := (title ++ "\n") :: lines.map fun line => line ++ "\n"
  String.ofList (trimEnd (String.join all).toList)

/-- What comes of a line: what is shown or what went wrong, the session
afterwards, and the draws that are left. -/
structure Outcome (Moment : Type) where
  result : Except SessionError String
  session : Session Moment
  draws : List UInt64

/-- What comes of a step that draws nothing. -/
structure Reply (Moment : Type) where
  result : Except SessionError String
  session : Session Moment

end Tabletop.Session
