import Tabletop.Session.Help
import Tabletop.Session.Rolls
import Tabletop.Session.Status
import Tabletop.Session.Trackers

/-!
# Lines of a session

A session is driven by lines: each line is read as a command, or as an entry
while participants are being entered, and carried out at a moment that the
caller names with draws that the caller supplies.
-/

namespace Tabletop.Session

open Tabletop.Clock
open Tabletop.Text

variable {Moment : Type} [Calendar Moment]

def run (session : Session Moment) (now : Moment) (draws : List UInt64) (command : Command) :
    Outcome Moment :=
  let undrawn (reply : Reply Moment) : Outcome Moment := ⟨reply.result, reply.session, draws⟩
  let shown (text : String) : Outcome Moment := ⟨.ok text, session, draws⟩
  match command with
  | .nothing => shown ""
  | .roll expression => session.roll expression draws
  | .alarms => shown (session.alarmsText now)
  | .alarm duration label => undrawn (session.startAlarm now duration label)
  | .initiative command => undrawn (session.runInitiative command)
  | .tracker command => undrawn (session.runTracker command)
  | .help => shown helpText
  | .history => shown session.historyText
  | .status => shown (session.statusText now)
  | .quit => ⟨.ok "Goodbye!", { session with finished := true }, draws⟩
  | .clear => ⟨.ok "History cleared.", { session with history := [] }, draws⟩

def processChars (session : Session Moment) (now : Moment) (draws : List UInt64)
    (line : List Char) : Outcome Moment :=
  let line := trim line
  if session.entering then
    let reply := session.runEntry (Entry.read line)
    ⟨reply.result, reply.session, draws⟩
  else
    match Command.read line with
    | .error error => ⟨.error error, session, draws⟩
    | .ok command => session.run now draws command

/-- Reads a line and carries it out. -/
def process (session : Session Moment) (now : Moment) (draws : List UInt64) (line : String) :
    Outcome Moment :=
  session.processChars now draws line.toList

end Tabletop.Session
