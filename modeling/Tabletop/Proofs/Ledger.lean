import Mathlib.Data.List.Infix
import Mathlib.Logic.Function.Basic
import Tabletop.Tracker

/-!
# Ledgers of trackers

What a tracker board promises, told without the board. A ledger is a map from
lower-cased names to trackers. Each request is answered from the ledger, and
from its listing in the order of the names where all trackers are asked for. A
ledger has at most one listing, so the answers to a run of requests are
determined.
-/

namespace Tabletop

open Tabletop.Text

/-- What can be asked of a tracker board. -/
inductive TrackerRequest where
  | add (name : String) (current max : Int32)
  | get (name : String)
  | set (name : String) (value : Int32)
  | adjust (name : String) (delta : Int32)
  | pin (name : String)
  | unpin (name : String)
  | pinAll
  | delete (name : String)
  | deleteAll
  | list
  | pinned
  | search (pattern : String)
  | count
  | pinnedCount
deriving DecidableEq, Repr

inductive TrackerAnswer where
  | tracker (tracker : Tracker)
  | refused (error : TrackError)
  | found (tracker : Option Tracker)
  | trackers (trackers : List Tracker)
  | number (number : Nat)
  | done
deriving DecidableEq, Repr

/-- The sum of two numbers where it fits, else the end of the range that it
lies beyond. -/
def boundedSum (first second : Int32) : Int32 :=
  if first.toInt + second.toInt < Int32.minValue.toInt then
    Int32.minValue
  else if Int32.maxValue.toInt < first.toInt + second.toInt then
    Int32.maxValue
  else
    first + second

namespace Tracker

/-- The name by which a tracker is found. -/
def key (tracker : Tracker) : String :=
  lowercase tracker.name

/-- The lower-cased pattern stands somewhere in the key of the tracker. -/
def Mentions (pattern : String) (tracker : Tracker) : Prop :=
  (lowercase pattern).toList <:+: tracker.key.toList

instance (pattern : String) (tracker : Tracker) :
    Decidable (tracker.Mentions pattern) :=
  inferInstanceAs (Decidable (_ <:+: _))

end Tracker

/-- The trackers by their keys. -/
abbrev Ledger : Type :=
  String → Option Tracker

namespace Ledger

def empty : Ledger :=
  fun _ => none

def write (ledger : Ledger) (key : String) (entry : Option Tracker) : Ledger :=
  Function.update ledger key entry

theorem write_self (ledger : Ledger) (key : String) (entry : Option Tracker) :
    ledger.write key entry key = entry := by
  rw [write, Function.update_self]

theorem write_of_ne (ledger : Ledger) {key other : String}
    (different : other ≠ key) (entry : Option Tracker) :
    ledger.write key entry other = ledger other := by
  rw [write, Function.update_of_ne different]

theorem write_write (ledger : Ledger) (key : String)
    (first second : Option Tracker) :
    (ledger.write key first).write key second = ledger.write key second := by
  rw [write, write, write, Function.update_idem]

/-- All entries, strictly in the order of the names. -/
structure Lists (ledger : Ledger) (all : List Tracker) : Prop where
  increasing : all.Pairwise fun first second => first.name < second.name
  mem_iff : ∀ tracker, tracker ∈ all ↔ ∃ key, ledger key = some tracker

theorem eq_of_increasing {first second : List Tracker}
    (firstIncreasing : first.Pairwise fun one other => one.name < other.name)
    (secondIncreasing : second.Pairwise fun one other => one.name < other.name)
    (permutation : first.Perm second) :
    first = second := by
  apply permutation.eq_of_pairwise _ firstIncreasing secondIncreasing
  intro one other _ _ below above
  exact absurd (String.lt_trans below above) (String.lt_irrefl _)

theorem nodup_of_increasing {trackers : List Tracker}
    (increasing : trackers.Pairwise fun one other => one.name < other.name) :
    trackers.Nodup := by
  apply increasing.imp
  rintro one other below rfl
  exact String.lt_irrefl _ below

theorem Lists.unique {ledger : Ledger} {first second : List Tracker}
    (firstLists : ledger.Lists first) (secondLists : ledger.Lists second) :
    first = second := by
  apply eq_of_increasing firstLists.increasing secondLists.increasing
  rw [List.perm_ext_iff_of_nodup (nodup_of_increasing firstLists.increasing)
    (nodup_of_increasing secondLists.increasing)]
  intro tracker
  rw [firstLists.mem_iff, secondLists.mem_iff]

/-- Changes the entry that goes by a name; nothing else, and nothing at all if
there is none. -/
def change (ledger : Ledger) (name : String) (revise : Tracker → Tracker) :
    TrackerAnswer × Ledger :=
  match ledger (lowercase name) with
  | some tracker =>
      (.tracker (revise tracker),
        ledger.write (lowercase name) (some (revise tracker)))
  | none => (.refused (.trackerNotFound name), ledger)

/-- The answer to a request and the ledger afterwards, where `all` is the
listing of the ledger. -/
def serve (ledger : Ledger) (all : List Tracker) :
    TrackerRequest → TrackerAnswer × Ledger
  | .add name current max =>
      match ledger (lowercase name) with
      | some _ => (.refused (.duplicateTracker name), ledger)
      | none =>
          let tracker : Tracker := ⟨name, current, max, false⟩
          (.tracker tracker, ledger.write (lowercase name) (some tracker))
  | .get name => (.found (ledger (lowercase name)), ledger)
  | .set name value =>
      ledger.change name fun tracker => { tracker with current := value }
  | .adjust name delta =>
      ledger.change name fun tracker =>
        { tracker with current := boundedSum tracker.current delta }
  | .pin name =>
      ledger.change name fun tracker => { tracker with pinned := true }
  | .unpin name =>
      ledger.change name fun tracker => { tracker with pinned := false }
  | .pinAll =>
      (.number (all.length - (all.filter Tracker.pinned).length),
        fun key =>
          (ledger key).map fun tracker => { tracker with pinned := true })
  | .delete name =>
      match ledger (lowercase name) with
      | some tracker =>
          (.tracker tracker, ledger.write (lowercase name) none)
      | none => (.refused (.trackerNotFound name), ledger)
  | .deleteAll => (.done, empty)
  | .list => (.trackers all, ledger)
  | .pinned => (.trackers (all.filter Tracker.pinned), ledger)
  | .search pattern =>
      (.trackers (all.filter fun tracker => tracker.Mentions pattern), ledger)
  | .count => (.number all.length, ledger)
  | .pinnedCount => (.number (all.filter Tracker.pinned).length, ledger)

/-- The requests are answered one after the other, each from the ledger that
the one before it left. -/
inductive Run :
    Ledger → List TrackerRequest → List TrackerAnswer → Ledger → Prop where
  | done (ledger : Ledger) : Run ledger [] [] ledger
  | serve {ledger after final : Ledger} {all : List Tracker}
      {request : TrackerRequest} {requests : List TrackerRequest}
      {answer : TrackerAnswer} {answers : List TrackerAnswer}
      (lists : ledger.Lists all)
      (served : ledger.serve all request = (answer, after))
      (run : Run after requests answers final) :
      Run ledger (request :: requests) (answer :: answers) final

theorem Run.unique {ledger first second : Ledger}
    {requests : List TrackerRequest}
    {firstAnswers secondAnswers : List TrackerAnswer}
    (firstRun : Run ledger requests firstAnswers first)
    (secondRun : Run ledger requests secondAnswers second) :
    firstAnswers = secondAnswers ∧ first = second := by
  induction firstRun generalizing secondAnswers with
  | done ledger =>
      cases secondRun
      exact ⟨rfl, rfl⟩
  | serve lists served run inductionHypothesis =>
      cases secondRun with
      | serve secondLists secondServed secondRun =>
          rw [← lists.unique secondLists, served] at secondServed
          obtain ⟨rfl, rfl⟩ := Prod.mk.inj secondServed
          obtain ⟨rfl, rfl⟩ := inductionHypothesis secondRun
          exact ⟨rfl, rfl⟩

end Ledger

end Tabletop
