import Mathlib
import Tabletop.Proofs.TurnOrder
import Tabletop.Proofs.TurnPassing

/-!
# Runs of a rotation

The rotations that come about from a new one by adding participants, passing
the turn either way, and marking participants out and in; and the same when an
initiative holds the rotation. What each move preserves is said once, for the
rotation and those who were added to it (`InOrder`); that the turn lies within
the order is what lets every pass of the turn end.
-/

namespace Tabletop

/-- What can be done with a rotation. -/
inductive Move where
  | add (name : String) (initiative : Int32)
  | next
  | previous
  | markOut (name : String)
  | markIn (name : String)
deriving DecidableEq, Repr

/-- The name and the initiative that a move adds. -/
def Move.entry? : Move → Option (String × Int32)
  | .add name initiative => some (name, initiative)
  | .next | .previous | .markOut _ | .markIn _ => none

/-- The names and the initiatives that moves add. -/
def enteredBy (moves : List Move) : List (String × Int32) :=
  moves.filterMap Move.entry?

/-- The name and the initiative with which a participant was added. -/
def Participant.entry (participant : Participant) : String × Int32 :=
  (participant.name, participant.initiative)

/-- What a change leads to; the state as it was if the change is refused. -/
def keep {α : Type} (state : α) (changed : Except TrackError α) : α :=
  match changed with
  | .ok changed => changed
  | .error _ => state

namespace Rotation

/-- The rotation after a move. -/
def after (rotation : Rotation) : Move → Rotation
  | .add name initiative => rotation.add name initiative
  | .next => keep rotation (rotation.next.map Prod.snd)
  | .previous => keep rotation (rotation.previous.map Prod.snd)
  | .markOut name => keep rotation (rotation.markOut name)
  | .markIn name => keep rotation (rotation.markIn name)

/-- The rotation that moves lead to from a new one. -/
def run (moves : List Move) : Rotation :=
  moves.foldl after new

theorem run_append (earlier later : List Move) :
    run (earlier ++ later) = later.foldl after (run earlier) :=
  List.foldl_append

theorem run_concat (moves : List Move) (move : Move) :
    run (moves ++ [move]) = (run moves).after move :=
  run_append moves [move]

/-- The rotation holds exactly those who were entered, in the order of their
turns; the turn lies within the order, and the rounds count from one. -/
structure InOrder (entries : List (String × Int32)) (rotation : Rotation) :
    Prop where
  sorted : rotation.Sorted
  entries_perm :
    (rotation.participants.map Participant.entry).Perm entries
  turn_inside :
    rotation.turn < rotation.participants.length ∨
      (rotation.turn = 0 ∧ rotation.participants.length = 0)
  one_le_round : 1 ≤ rotation.round

theorem sorted_iff_pairwise_entries (rotation : Rotation) :
    rotation.Sorted ↔
      (rotation.participants.map Participant.entry).Pairwise
        fun first second =>
          second.2 < first.2 ∨ (first.2 = second.2 ∧ first.1 ≤ second.1) := by
  rw [List.pairwise_map]
  rfl

theorem sorted_of_entries_eq {rotation changed : Rotation}
    (same :
      changed.participants.map Participant.entry =
        rotation.participants.map Participant.entry)
    (sorted : rotation.Sorted) :
    changed.Sorted := by
  rw [sorted_iff_pairwise_entries] at sorted ⊢
  rwa [same]

theorem inOrder_new : InOrder [] new where
  sorted := List.Pairwise.nil
  entries_perm := List.Perm.nil
  turn_inside := Or.inr ⟨rfl, rfl⟩
  one_le_round := Nat.le_refl 1

/-- A change that leaves the entries alone and the turn where there is
somebody keeps the order. -/
theorem InOrder.of_entries_eq {entries : List (String × Int32)}
    {rotation changed : Rotation} (inOrder : InOrder entries rotation)
    (same :
      changed.participants.map Participant.entry =
        rotation.participants.map Participant.entry)
    (inside :
      changed.turn < rotation.participants.length ∨
        (changed.turn = 0 ∧ rotation.participants.length = 0))
    (round : 1 ≤ changed.round) :
    InOrder entries changed := by
  have length : changed.participants.length = rotation.participants.length := by
    simpa only [List.length_map] using congrArg List.length same
  exact
    { sorted := sorted_of_entries_eq same inOrder.sorted
      entries_perm := same ▸ inOrder.entries_perm
      turn_inside := by rwa [length]
      one_le_round := round }

theorem length_add (rotation : Rotation) (name : String)
    (initiative : Int32) :
    (rotation.add name initiative).participants.length =
      rotation.participants.length + 1 := by
  rw [(participants_add_perm rotation name initiative).length_eq,
    List.length_append]
  rfl

/-- The turn stays within the order when somebody is added. -/
theorem InOrder.turn_add_lt {entries : List (String × Int32)}
    {rotation : Rotation} (inOrder : InOrder entries rotation)
    (name : String) (initiative : Int32) :
    (rotation.add name initiative).turn ≤ rotation.participants.length := by
  have bound : rotation.turn ≤ rotation.participants.length := by
    rcases inOrder.turn_inside with inside | ⟨turn, _⟩ <;> omega
  cases begun : rotation.begun with
  | false =>
      rwa [turn_add_of_not_begun begun]
  | true =>
      cases holds : rotation.current? with
      | none =>
          simpa [add, turnAfter, begun, holds] using bound
      | some current =>
          obtain ⟨first, atMost, firstPlace⟩ := exists_firstPlace holds
          have inside := (List.getElem?_eq_some_iff.mp firstPlace.1).1
          rw [inOrder.sorted.turn_add_of_begun begun holds firstPlace,
            indexBehind]
          split <;> omega

theorem InOrder.add {entries : List (String × Int32)} {rotation : Rotation}
    (inOrder : InOrder entries rotation) (name : String)
    (initiative : Int32) :
    InOrder (entries ++ [(name, initiative)])
      (rotation.add name initiative) where
  sorted := sorted_add rotation name initiative
  entries_perm := by
    have entered :=
      (participants_add_perm rotation name initiative).map Participant.entry
    rw [List.map_append] at entered
    exact entered.trans (inOrder.entries_perm.append_right _)
  turn_inside := by
    left
    rw [length_add]
    exact Nat.lt_succ_of_le (inOrder.turn_add_lt name initiative)
  one_le_round := inOrder.one_le_round

theorem InOrder.passesTo {entries : List (String × Int32)}
    {rotation stopped : Rotation} {moved : Nat → Rotation}
    {participant : Participant} (inOrder : InOrder entries rotation)
    (loop : Loop rotation moved)
    (round : ∀ steps, 1 ≤ (moved steps).round)
    (passes : PassesTo rotation moved participant stopped) :
    InOrder entries stopped := by
  obtain ⟨steps, _, within, rfl, _⟩ := passes.within_loop
  refine inOrder.of_entries_eq ?_ (Or.inl (loop.inside steps within))
    (round steps)
  rw [loop.participants_eq]

theorem one_le_round_turnedOn {rotation : Rotation}
    (round : 1 ≤ rotation.round) (steps : Nat) :
    1 ≤ (rotation.turnedOn steps).round :=
  Nat.le_add_right_of_le round

theorem one_le_round_turnedBack {rotation : Rotation}
    (round : 1 ≤ rotation.round) (steps : Nat) :
    1 ≤ (rotation.turnedBack steps).round := by
  unfold turnedBack
  split
  · exact round
  · exact Nat.le_max_right _ _

theorem map_entry_markFirst {active : Bool} {name : String}
    {participants marked : List Participant}
    (found : markFirst active name participants = some marked) :
    marked.map Participant.entry = participants.map Participant.entry := by
  induction participants generalizing marked with
  | nil =>
      cases found
  | cons participant rest inductionHypothesis =>
      rw [markFirst] at found
      split at found
      · cases found
        rfl
      · obtain ⟨markedRest, foundRest, rfl⟩ := Option.map_eq_some_iff.mp found
        rw [List.map_cons, List.map_cons, inductionHypothesis foundRest]

theorem exists_of_setActive_eq_ok {rotation changed : Rotation}
    {name : String} {active : Bool}
    (marked : rotation.setActive name active = .ok changed) :
    ∃ participants,
      markFirst active name rotation.participants = some participants ∧
        changed = { rotation with participants := participants } := by
  unfold setActive at marked
  split at marked
  · next participants found =>
      cases marked
      exact ⟨participants, found, rfl⟩
  · cases marked

theorem InOrder.keep_setActive {entries : List (String × Int32)}
    {rotation : Rotation} (inOrder : InOrder entries rotation)
    (name : String) (active : Bool) :
    InOrder entries (keep rotation (rotation.setActive name active)) := by
  cases marked : rotation.setActive name active with
  | error error =>
      exact inOrder
  | ok changed =>
      obtain ⟨participants, found, rfl⟩ := exists_of_setActive_eq_ok marked
      exact inOrder.of_entries_eq (map_entry_markFirst found)
        inOrder.turn_inside inOrder.one_le_round

/-- A rotation in order has no participants, or the turn is with one. -/
theorem InOrder.inside_of_ne_nil {entries : List (String × Int32)}
    {rotation : Rotation} (inOrder : InOrder entries rotation)
    (somebody : rotation.participants ≠ []) :
    rotation.turn < rotation.participants.length := by
  rcases inOrder.turn_inside with inside | ⟨_, empty⟩
  · exact inside
  · exact absurd (List.eq_nil_of_length_eq_zero empty) somebody

theorem after_next_eq {rotation stopped : Rotation}
    {participant? : Option Participant}
    (passed : rotation.next = .ok (participant?, stopped)) :
    rotation.after .next = stopped := by
  rw [Rotation.after, passed]
  rfl

theorem after_previous_eq {rotation stopped : Rotation}
    {participant? : Option Participant}
    (passed : rotation.previous = .ok (participant?, stopped)) :
    rotation.after .previous = stopped := by
  rw [Rotation.after, passed]
  rfl

/-- The turn passes onward to somebody, after at most a loop. -/
def PassesOnward (rotation : Rotation) : Prop :=
  ∃ participant stopped,
    rotation.next = .ok (some participant, stopped) ∧
      PassesTo rotation rotation.turnedOn participant stopped

/-- The turn passes back to somebody, after at most a loop. -/
def PassesBack (rotation : Rotation) : Prop :=
  ∃ participant stopped,
    rotation.previous = .ok (some participant, stopped) ∧
      PassesTo rotation rotation.turnedBack participant stopped

theorem InOrder.after_next {entries : List (String × Int32)}
    {rotation : Rotation} (inOrder : InOrder entries rotation) :
    InOrder entries (rotation.after .next) := by
  by_cases empty : rotation.participants = []
  · rwa [after_next_eq (next_of_empty empty)]
  · have inside := inOrder.inside_of_ne_nil empty
    obtain ⟨participant, stopped, passed, passes⟩ := exists_next_eq inside
    rw [after_next_eq passed]
    exact inOrder.passesTo (loop_turnedOn inside)
      (one_le_round_turnedOn inOrder.one_le_round) passes

theorem InOrder.after_previous {entries : List (String × Int32)}
    {rotation : Rotation} (inOrder : InOrder entries rotation) :
    InOrder entries (rotation.after .previous) := by
  by_cases empty : rotation.participants = []
  · rwa [after_previous_eq (previous_of_empty empty)]
  · have inside := inOrder.inside_of_ne_nil empty
    obtain ⟨participant, stopped, passed, passes⟩ := exists_previous_eq inside
    rw [after_previous_eq passed]
    exact inOrder.passesTo (loop_turnedBack inside)
      (one_le_round_turnedBack inOrder.one_le_round) passes

/-- Every move keeps the order, and adds whom it adds. -/
theorem InOrder.after {entries : List (String × Int32)}
    {rotation : Rotation} (inOrder : InOrder entries rotation)
    (move : Move) :
    InOrder (entries ++ move.entry?.toList) (rotation.after move) := by
  cases move with
  | add name initiative =>
      exact inOrder.add name initiative
  | next =>
      rw [Move.entry?, Option.toList_none, List.append_nil]
      exact inOrder.after_next
  | previous =>
      rw [Move.entry?, Option.toList_none, List.append_nil]
      exact inOrder.after_previous
  | markOut name =>
      rw [Move.entry?, Option.toList_none, List.append_nil]
      exact inOrder.keep_setActive name false
  | markIn name =>
      rw [Move.entry?, Option.toList_none, List.append_nil]
      exact inOrder.keep_setActive name true

theorem enteredBy_append (earlier later : List Move) :
    enteredBy (earlier ++ later) = enteredBy earlier ++ enteredBy later :=
  List.filterMap_append

theorem inOrder_run (moves : List Move) :
    InOrder (enteredBy moves) (run moves) := by
  induction moves using List.reverseRecOn with
  | nil =>
      exact inOrder_new
  | append_singleton moves move inductionHypothesis =>
      rw [run_concat, enteredBy_append]
      exact inductionHypothesis.after move

theorem participants_run_eq_nil_iff (moves : List Move) :
    (run moves).participants = [] ↔ enteredBy moves = [] := by
  have entered := (inOrder_run moves).entries_perm
  constructor
  · intro empty
    rw [empty] at entered
    exact List.nil_perm.mp entered
  · intro nobody
    rw [nobody, List.perm_nil, List.map_eq_nil_iff] at entered
    exact entered

end Rotation

/-! ## Runs of an initiative -/

namespace Initiative

/-- What can be asked of an initiative. -/
inductive Call where
  | start
  | finish
  | current
  | move (move : Move)
deriving DecidableEq, Repr

/-- The initiative after a call. -/
def after (initiative : Initiative) : Call → Initiative
  | .start => initiative.start
  | .finish => keep initiative (initiative.finish.map Prod.snd)
  | .current => keep initiative (initiative.current.map Prod.snd)
  | .move (.add name value) => keep initiative (initiative.add name value)
  | .move .next => keep initiative (initiative.next.map Prod.snd)
  | .move .previous => keep initiative (initiative.previous.map Prod.snd)
  | .move (.markOut name) => keep initiative (initiative.markOut name)
  | .move (.markIn name) => keep initiative (initiative.markIn name)

/-- The initiative that calls lead to from an idle one. -/
def run (calls : List Call) : Initiative :=
  calls.foldl after idle

/-- The moves since the rotation in progress began, and one call more. -/
def extendMoves (moves : List Move) : Call → List Move
  | .start | .finish => []
  | .current => moves
  | .move move => moves ++ [move]

/-- The moves among the calls since the last start. -/
def movesSinceStart (calls : List Call) : List Move :=
  calls.foldl extendMoves []

theorem run_concat (calls : List Call) (call : Call) :
    run (calls ++ [call]) = (run calls).after call :=
  List.foldl_append

theorem movesSinceStart_concat (calls : List Call) (call : Call) :
    movesSinceStart (calls ++ [call]) =
      extendMoves (movesSinceStart calls) call :=
  List.foldl_append

theorem move_eq_ok {initiative : Initiative} {rotation stopped : Rotation}
    {participant : Participant}
    {act : Rotation → Except TrackError (Option Participant × Rotation)}
    (running : initiative.rotation? = some rotation)
    (passed : act rotation = .ok (some participant, stopped)) :
    initiative.move act =
      .ok (⟨participant, stopped.round⟩, ⟨some stopped⟩) := by
  rw [move, running]
  simp only [passed]

theorem rotation?_after_current (initiative : Initiative) :
    (initiative.after .current).rotation? = initiative.rotation? := by
  cases running : initiative.rotation? with
  | none =>
      simp [after, current, Initiative.move, keep, running, Except.map]
  | some rotation =>
      cases holds : rotation.current? with
      | none =>
          simp [after, current, Initiative.move, keep, running, holds,
            Except.map]
      | some participant =>
          simp [after, current, Initiative.move, keep, running, holds,
            Except.map]

/-- An idle initiative refuses every move. -/
theorem after_move_of_idle {initiative : Initiative}
    (waiting : initiative.rotation? = none) (move : Move) :
    initiative.after (.move move) = initiative := by
  cases move <;>
    simp [after, add, next, previous, markOut, markIn, change,
      Initiative.move, keep, waiting, Except.map]

theorem rotation?_after_change {initiative : Initiative} {rotation : Rotation}
    (running : initiative.rotation? = some rotation)
    (act : Rotation → Except TrackError Rotation) :
    (keep initiative (initiative.change act)).rotation? =
      some (keep rotation (act rotation)) := by
  rw [change, running]
  cases acted : act rotation with
  | ok changed =>
      simp only [acted]
      rfl
  | error error =>
      simp only [acted]
      exact running

theorem rotation?_after_pass {initiative : Initiative}
    {rotation stopped : Rotation} {participant : Participant}
    {act : Rotation → Except TrackError (Option Participant × Rotation)}
    (running : initiative.rotation? = some rotation)
    (passed : act rotation = .ok (some participant, stopped)) :
    (keep initiative ((initiative.move act).map Prod.snd)).rotation? =
      some (keep rotation ((act rotation).map Prod.snd)) := by
  rw [move_eq_ok running passed, passed]
  rfl

theorem rotation?_after_pass_of_empty {initiative : Initiative}
    {rotation : Rotation}
    {act : Rotation → Except TrackError (Option Participant × Rotation)}
    (running : initiative.rotation? = some rotation)
    (passed : act rotation = .ok (none, rotation)) :
    (keep initiative ((initiative.move act).map Prod.snd)).rotation? =
      some (keep rotation ((act rotation).map Prod.snd)) := by
  rw [move, running]
  simp only [passed]
  exact running

/-- A move of the initiative is the same move of its rotation. -/
theorem rotation?_after_move {initiative : Initiative} {rotation : Rotation}
    {entries : List (String × Int32)}
    (running : initiative.rotation? = some rotation)
    (inOrder : Rotation.InOrder entries rotation) (move : Move) :
    (initiative.after (.move move)).rotation? = some (rotation.after move) := by
  cases move with
  | add name value =>
      exact rotation?_after_change running _
  | next =>
      by_cases empty : rotation.participants = []
      · exact rotation?_after_pass_of_empty running
          (Rotation.next_of_empty empty)
      · obtain ⟨participant, stopped, passed, _⟩ :=
          Rotation.exists_next_eq (inOrder.inside_of_ne_nil empty)
        exact rotation?_after_pass running passed
  | previous =>
      by_cases empty : rotation.participants = []
      · exact rotation?_after_pass_of_empty running
          (Rotation.previous_of_empty empty)
      · obtain ⟨participant, stopped, passed, _⟩ :=
          Rotation.exists_previous_eq (inOrder.inside_of_ne_nil empty)
        exact rotation?_after_pass running passed
  | markOut name =>
      exact rotation?_after_change running _
  | markIn name =>
      exact rotation?_after_change running _

theorem rotation?_after_finish (initiative : Initiative) :
    (initiative.after .finish).rotation? = none := by
  cases running : initiative.rotation? with
  | none =>
      simp [after, finish, keep, running, Except.map]
  | some rotation =>
      simp [after, finish, keep, running, Except.map, idle]

/-- The rotation in progress is the one that the moves since the last start
lead to. -/
theorem eq_run_of_running {calls : List Call} {rotation : Rotation}
    (running : (run calls).rotation? = some rotation) :
    rotation = Rotation.run (movesSinceStart calls) := by
  induction calls using List.reverseRecOn generalizing rotation with
  | nil =>
      cases running
  | append_singleton calls call inductionHypothesis =>
      rw [movesSinceStart_concat]
      rw [run_concat] at running
      cases call with
      | start =>
          cases running
          rfl
      | finish =>
          rw [rotation?_after_finish] at running
          cases running
      | current =>
          rw [rotation?_after_current] at running
          exact inductionHypothesis running
      | move move =>
          cases before : (run calls).rotation? with
          | none =>
              rw [after_move_of_idle before, before] at running
              cases running
          | some earlier =>
              have same := inductionHypothesis before
              have inOrder := Rotation.inOrder_run (movesSinceStart calls)
              rw [← same] at inOrder
              rw [rotation?_after_move before inOrder] at running
              rw [extendMoves, Rotation.run_concat, ← same]
              exact (Option.some.inj running).symm

end Initiative

/-- The initiative passes the turn of its rotation onward to somebody, after
at most a loop, and tells the round. -/
def Initiative.PassesOnward (initiative : Initiative) (rotation : Rotation) :
    Prop :=
  ∃ participant stopped,
    initiative.next = .ok (⟨participant, stopped.round⟩, ⟨some stopped⟩) ∧
      Rotation.PassesTo rotation rotation.turnedOn participant stopped

/-- The initiative passes the turn of its rotation back to somebody, after at
most a loop, and tells the round. -/
def Initiative.PassesBack (initiative : Initiative) (rotation : Rotation) :
    Prop :=
  ∃ participant stopped,
    initiative.previous =
        .ok (⟨participant, stopped.round⟩, ⟨some stopped⟩) ∧
      Rotation.PassesTo rotation rotation.turnedBack participant stopped

theorem Initiative.passes_of_running {initiative : Initiative}
    {rotation : Rotation} (running : initiative.rotation? = some rotation)
    (passesOnward : rotation.PassesOnward) (passesBack : rotation.PassesBack) :
    initiative.PassesOnward rotation ∧ initiative.PassesBack rotation := by
  obtain ⟨next, afterNext, nextPassed, nextPasses⟩ := passesOnward
  obtain ⟨previous, afterPrevious, previousPassed, previousPasses⟩ :=
    passesBack
  exact
    ⟨⟨next, afterNext, move_eq_ok running nextPassed, nextPasses⟩,
      ⟨previous, afterPrevious, move_eq_ok running previousPassed,
        previousPasses⟩⟩

namespace Rotation

theorem passes_run {moves : List Move}
    (somebody : (run moves).participants ≠ []) :
    (run moves).PassesOnward ∧ (run moves).PassesBack := by
  have inside := (inOrder_run moves).inside_of_ne_nil somebody
  exact ⟨exists_next_eq inside, exists_previous_eq inside⟩

/-- However a rotation came about, by moves of its own or by calls to the
initiative that holds it, it is in order, and as soon as somebody takes part
the turn can be passed either way. -/
theorem run_in_order_and_passes :
    (∀ moves,
      InOrder (enteredBy moves) (run moves) ∧
        ((run moves).participants ≠ [] →
          (run moves).PassesOnward ∧ (run moves).PassesBack)) ∧
      ∀ calls rotation,
        (Initiative.run calls).rotation? = some rotation →
          InOrder (enteredBy (Initiative.movesSinceStart calls)) rotation ∧
            (rotation.participants ≠ [] →
              (Initiative.run calls).PassesOnward rotation ∧
                (Initiative.run calls).PassesBack rotation) := by
  constructor
  · intro moves
    exact ⟨inOrder_run moves, passes_run⟩
  · intro calls rotation running
    have same := Initiative.eq_run_of_running running
    subst same
    refine ⟨inOrder_run _, ?_⟩
    intro somebody
    obtain ⟨onward, back⟩ := passes_run somebody
    exact Initiative.passes_of_running running onward back

/-- Aria has the turn, in the second round and out of the fight; the turn
passes to somebody else, who is active. -/
theorem run_in_order_and_passes_of_goblins :
    let calls : List Initiative.Call :=
      [.move .next, .start, .move (.add "Goblin" 12), .move (.add "Aria" 18),
        .move (.add "Goblin" 12), .move .previous, .move .next,
        .move (.markOut "ARIA")]
    let rotation : Rotation :=
      ⟨[⟨"Aria", 18, false⟩, ⟨"Goblin", 12, true⟩, ⟨"Goblin", 12, true⟩],
        0, 2, true⟩
    (Initiative.run calls).rotation? = some rotation ∧
      InOrder [("Goblin", 12), ("Aria", 18), ("Goblin", 12)] rotation ∧
      ∃ participant stopped,
        (Initiative.run calls).next =
            .ok (⟨participant, stopped.round⟩, ⟨some stopped⟩) ∧
          stopped.current? = some participant ∧ participant.active = true := by
  intro calls rotation
  have running : (Initiative.run calls).rotation? = some rotation := by
    cbv
  obtain ⟨inOrder, passes⟩ :=
    run_in_order_and_passes.2 calls rotation running
  obtain ⟨⟨participant, stopped, passed, passesTo⟩, _⟩ :=
    passes (List.cons_ne_nil _ _)
  refine ⟨running, inOrder, participant, stopped, passed, passesTo.holds, ?_⟩
  exact passesTo.active_of_any
    ⟨⟨"Goblin", 12, true⟩, by simp [rotation], rfl⟩

/-- Two goblins of equal initiative behind Aria: the first of them has the turn,
and Aria has left the fight. -/
theorem run_eq_of_goblins_behind_aria :
    run [.add "Goblin" 12, .add "Goblin" 12, .add "Aria" 18, .next,
        .markOut "ARIA"] =
      ⟨[⟨"Aria", 18, false⟩, ⟨"Goblin", 12, true⟩, ⟨"Goblin", 12, true⟩],
        1, 1, true⟩ := by
  cbv

end Rotation

end Tabletop
