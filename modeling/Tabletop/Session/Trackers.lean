import Tabletop.Session.Command
import Tabletop.Session.State

/-!
# Number trackers of a session

Carrying out commands about number trackers.
-/

namespace Tabletop.Session

variable {Moment : Type}

def trackerLine (tracker : Tracker) : String :=
  "  " ++ tracker.text ++ (if tracker.pinned then " (pinned)" else "")

/-- Keeps a changed board and says what has become of a tracker. -/
def keepTracker (session : Session Moment) (describe : Tracker → String)
    (changed : Except TrackError (Tracker × TrackerBoard)) : Reply Moment :=
  match changed with
  | .ok (tracker, trackers) => ⟨.ok (describe tracker), { session with trackers := trackers }⟩
  | .error error => ⟨.error (.track error), session⟩

def runTracker (session : Session Moment) : TrackerCommand → Reply Moment
  | .add name current max =>
      session.keepTracker (fun tracker => "Added tracker: " ++ tracker.text)
        (session.trackers.add name current max)
  | .adjust name delta => session.keepTracker Tracker.text (session.trackers.adjust name delta)
  | .set name value => session.keepTracker Tracker.text (session.trackers.set name value)
  | .search pattern =>
      let found := session.trackers.search pattern
      if found.isEmpty then
        ⟨.ok ("No trackers matching '" ++ pattern ++ "'"), session⟩
      else
        ⟨.ok (listing ("Trackers matching '" ++ pattern ++ "':") (found.map trackerLine)),
          session⟩
  | .list =>
      let all := session.trackers.list
      if all.isEmpty then
        ⟨.ok "No trackers.", session⟩
      else
        ⟨.ok (listing "Trackers:" (all.map trackerLine)), session⟩
  | .pin name =>
      session.keepTracker (fun tracker => "Pinned [" ++ tracker.name ++ "]")
        (session.trackers.setPinned name true)
  | .pinAll =>
      let (pinned, trackers) := session.trackers.pinAll
      ⟨.ok ("Pinned " ++ toString pinned ++ " tracker(s)"), { session with trackers := trackers }⟩
  | .unpin name =>
      session.keepTracker (fun tracker => "Unpinned [" ++ tracker.name ++ "]")
        (session.trackers.setPinned name false)
  | .delete name =>
      session.keepTracker (fun tracker => "Deleted tracker '" ++ tracker.name ++ "'")
        (session.trackers.delete name)
  | .deleteAll =>
      ⟨.ok ("Deleted " ++ toString session.trackers.count ++ " tracker(s)"),
        { session with trackers := TrackerBoard.empty }⟩

end Tabletop.Session
