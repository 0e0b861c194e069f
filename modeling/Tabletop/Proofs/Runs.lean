import Tabletop.Session.Process

/-!
# Runs of a session

The sessions that come about from a new one by lines and ticks, with any
clock, any draws and any settings; and what is seen along the way.
-/

namespace Tabletop.Session

open Tabletop.Clock

section Reached

variable {Moment : Type} [Calendar Moment]

/-- A session that lines and ticks can lead to. -/
inductive Reachable : Session Moment → Prop where
  | new (settings : Settings) : Reachable (Session.new settings)
  | process {session : Session Moment} (earlier : Reachable session)
      (now : Moment) (draws : List UInt64) (line : String) :
      Reachable (session.process now draws line).session
  | tick {session : Session Moment} (earlier : Reachable session)
      (now : Moment) :
      Reachable (session.tick now).2

end Reached

/-- What can happen to a session, and when. -/
inductive Step (Moment : Type) where
  | line (now : Moment) (draws : List UInt64) (text : String)
  | tick (now : Moment)
deriving DecidableEq, Repr

variable {Moment : Type}

def Step.moment : Step Moment → Moment
  | .line now _ _ => now
  | .tick now => now

variable [Calendar Moment]

def after (session : Session Moment) : Step Moment → Session Moment
  | .line now draws text => (session.process now draws text).session
  | .tick now => (session.tick now).2

def afterAll (session : Session Moment) (steps : List (Step Moment)) :
    Session Moment :=
  steps.foldl after session

theorem afterAll_cons (session : Session Moment) (step : Step Moment)
    (later : List (Step Moment)) :
    session.afterAll (step :: later) = (session.after step).afterAll later :=
  List.foldl_cons ..

/-- All that is observed along the steps, each one in the session that it
meets. -/
def along {α : Type} (observe : Session Moment → Step Moment → List α)
    (session : Session Moment) : List (Step Moment) → List α
  | [] => []
  | step :: later =>
      observe session step ++ along observe (session.after step) later

end Tabletop.Session
