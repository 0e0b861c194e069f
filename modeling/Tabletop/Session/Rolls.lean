import Tabletop.Session.State

/-!
# Rolls of a session

Rolling an expression, and remembering as many result lines as the settings
allow.
-/

namespace Tabletop.Session

open Tabletop.Dice

variable {Moment : Type}

/-- The latest lines, as many as the settings allow. -/
def remember (session : Session Moment) (line : String) : Session Moment :=
  let history := session.history ++ [line]
  { session with history := history.drop (history.length - session.settings.historyLimit) }

def roll (session : Session Moment) (expression : Expression) (draws : List UInt64) :
    Outcome Moment :=
  match expression.roll draws with
  | (.ok roll, left) =>
      ⟨.ok (session.marked diceGlyph roll.line), session.remember roll.line, left⟩
  | (.error error, left) => ⟨.error (.dice (.unrolled error)), session, left⟩

def historyLine (entry : String × Nat) : String :=
  "  " ++ toString (entry.2 + 1) ++ ". " ++ entry.1

def historyText (session : Session Moment) : String :=
  if session.history.isEmpty then
    "No rolls yet."
  else
    listing ("Recent rolls (" ++ toString session.history.length ++ "):")
      (session.history.zipIdx.map historyLine)

end Tabletop.Session
