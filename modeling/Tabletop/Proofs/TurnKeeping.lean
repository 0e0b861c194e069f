import Tabletop.Proofs.RotationRuns

/-!
# Keeping the turn

Whose turn it is when somebody joins. Once the turn has been passed on, the
current participant is looked up again by value: the turn stays where it was,
unless an equal participant stands further ahead, who then has the turn. Before
that the turn keeps its index, so it is with the head of the order as long as
it has not been passed back from there.
-/

namespace Tabletop.Rotation

/-- In the course of the moves the turn was passed on to somebody. -/
def TurnPassed (moves : List Move) : Prop :=
  ∃ earlier later participant stopped,
    moves = earlier ++ .next :: later ∧
      (run earlier).next = .ok (some participant, stopped)

/-- The moves up to the last time that the turn was passed back; none if it
never was. -/
def throughLastBack (moves : List Move) : List Move :=
  moves.rdropWhile (· != .previous)

theorem keep_setActive_turn (rotation : Rotation) (name : String)
    (active : Bool) :
    (keep rotation (rotation.setActive name active)).turn = rotation.turn ∧
      (keep rotation (rotation.setActive name active)).begun =
        rotation.begun := by
  cases marked : rotation.setActive name active with
  | error error =>
      exact ⟨rfl, rfl⟩
  | ok changed =>
      obtain ⟨participants, _, rfl⟩ := exists_of_setActive_eq_ok marked
      exact ⟨rfl, rfl⟩

theorem begun_turnedBack (rotation : Rotation) (steps : Nat) :
    (rotation.turnedBack steps).begun = rotation.begun := by
  unfold turnedBack
  split <;> rfl

theorem InOrder.begun_after_previous {entries : List (String × Int32)}
    {rotation : Rotation} (inOrder : InOrder entries rotation) :
    (rotation.after .previous).begun = rotation.begun := by
  by_cases empty : rotation.participants = []
  · rw [after_previous_eq (previous_of_empty empty)]
  · obtain ⟨participant, stopped, passed, passes⟩ :=
      exists_previous_eq (inOrder.inside_of_ne_nil empty)
    obtain ⟨steps, _, _, rfl, _⟩ := passes.within_loop
    rw [after_previous_eq passed, begun_turnedBack]

/-- Only passing the turn on can begin the turns. -/
theorem InOrder.begun_after {entries : List (String × Int32)}
    {rotation : Rotation} (inOrder : InOrder entries rotation) {move : Move}
    (other : move ≠ .next) :
    (rotation.after move).begun = rotation.begun := by
  cases move with
  | add name initiative =>
      rfl
  | next =>
      exact absurd rfl other
  | previous =>
      exact inOrder.begun_after_previous
  | markOut name =>
      exact (rotation.keep_setActive_turn name false).2
  | markIn name =>
      exact (rotation.keep_setActive_turn name true).2

theorem InOrder.begun_after_next {entries : List (String × Int32)}
    {rotation : Rotation} (inOrder : InOrder entries rotation)
    (somebody : rotation.participants ≠ []) :
    (rotation.after .next).begun = true := by
  obtain ⟨participant, stopped, passed, passes⟩ :=
    exists_next_eq (inOrder.inside_of_ne_nil somebody)
  obtain ⟨steps, _, _, rfl, _⟩ := passes.within_loop
  rw [after_next_eq passed]
  rfl

theorem InOrder.begun_after_of_begun {entries : List (String × Int32)}
    {rotation : Rotation} (inOrder : InOrder entries rotation)
    (begun : rotation.begun = true) (move : Move) :
    (rotation.after move).begun = true := by
  by_cases passing : move = .next
  · subst passing
    by_cases empty : rotation.participants = []
    · rwa [after_next_eq (next_of_empty empty)]
    · exact inOrder.begun_after_next empty
  · rw [inOrder.begun_after passing, begun]

theorem begun_run_of_turnPassed {moves : List Move}
    (passed : TurnPassed moves) :
    (run moves).begun = true := by
  obtain ⟨earlier, later, participant, stopped, rfl, passedOn⟩ := passed
  have somebody : (run earlier).participants ≠ [] := by
    intro empty
    rw [next_of_empty empty] at passedOn
    cases passedOn
  induction later using List.reverseRecOn with
  | nil =>
      rw [run_concat]
      exact (inOrder_run earlier).begun_after_next somebody
  | append_singleton later move inductionHypothesis =>
      rw [← List.cons_append, ← List.append_assoc, run_concat]
      exact (inOrder_run _).begun_after_of_begun inductionHypothesis move

theorem begun_run_of_no_next {moves : List Move}
    (noNext : Move.next ∉ moves) :
    (run moves).begun = false := by
  induction moves using List.reverseRecOn with
  | nil =>
      rfl
  | append_singleton moves move inductionHypothesis =>
      rw [List.mem_append, not_or, List.mem_singleton] at noNext
      rw [run_concat, (inOrder_run moves).begun_after (Ne.symm noNext.2)]
      exact inductionHypothesis noNext.1

/-- The turn can be passed on as soon as somebody was added. -/
theorem turnPassed_of_entered {earlier : List Move}
    (entered : enteredBy earlier ≠ []) (later : List Move) :
    TurnPassed (earlier ++ .next :: later) := by
  have somebody : (run earlier).participants ≠ [] :=
    fun empty => entered ((participants_run_eq_nil_iff earlier).mp empty)
  obtain ⟨⟨participant, stopped, passed, _⟩, _⟩ := passes_run somebody
  exact ⟨earlier, later, participant, stopped, rfl, passed⟩

theorem exists_current_of_turnPassed {moves : List Move}
    (passed : TurnPassed moves) :
    ∃ current, (run moves).current? = some current := by
  obtain ⟨earlier, later, participant, stopped, rfl, passedOn⟩ := passed
  apply exists_current
  apply (inOrder_run _).inside_of_ne_nil
  intro empty
  rw [participants_run_eq_nil_iff, enteredBy_append,
    List.append_eq_nil_iff] at empty
  rw [next_of_empty ((participants_run_eq_nil_iff earlier).mpr empty.1)]
    at passedOn
  cases passedOn

/-- Once the turn has been passed, a newcomer is inserted behind those who act
no later, the round goes on, and the turn is with the first participant who
equals the current one; so it has not moved to somebody else exactly when no
equal participant stands ahead of the current one. -/
theorem add_keeps_turn_iff {moves : List Move} (passed : TurnPassed moves)
    (name : String) (initiative : Int32) :
    let rotation := run moves
    let newcomer : Participant := ⟨name, initiative, true⟩
    let place := rotation.placeFor newcomer
    let joined := rotation.add name initiative
    joined.participants = rotation.participants.insertIdx place newcomer ∧
      joined.round = rotation.round ∧
      ∃ current,
        rotation.current? = some current ∧
          joined.current? = some current ∧
          (∃ first,
            FirstPlace rotation.participants current first ∧
              joined.turn = indexBehind place first) ∧
          (joined.turn = indexBehind place rotation.turn ↔
            ∀ earlier < rotation.turn,
              rotation.participants[earlier]? ≠ some current) := by
  intro rotation newcomer place joined
  have inOrder := inOrder_run moves
  obtain ⟨current, holds⟩ := exists_current_of_turnPassed passed
  obtain ⟨first, atMost, firstPlace⟩ := exists_firstPlace holds
  have participants :
      joined.participants = rotation.participants.insertIdx place newcomer :=
    inOrder.sorted.participants_add name initiative
  have turn : joined.turn = indexBehind place first :=
    inOrder.sorted.turn_add_of_begun (begun_run_of_turnPassed passed) holds
      firstPlace name initiative
  refine ⟨participants, rfl, current, holds, ?_, ⟨first, firstPlace, turn⟩, ?_⟩
  · rw [current?, participants, turn, getElem?_insertIdx_indexBehind]
    exact firstPlace.1
  · rw [turn, indexBehind_inj]
    constructor
    · rintro rfl
      exact firstPlace.2
    · intro noneBefore
      by_contra different
      exact noneBefore first (Nat.lt_of_le_of_ne atMost different)
        firstPlace.1

/-- The turn is with the goblin behind Aria; a rogue joins in front of both,
and the turn moves on with the goblin. -/
theorem add_keeps_turn_iff_of_rogue :
    let moves : List Move := [.add "Goblin" 12, .add "Aria" 18, .next]
    let joined := (run moves).add "Rogue" 20
    TurnPassed moves ∧ (run moves).turn = 1 ∧ joined.turn = 2 ∧
      joined.current? = some ⟨"Goblin", 12, true⟩ := by
  have state :
      run [.add "Goblin" 12, .add "Aria" 18, .next] =
        ⟨[⟨"Aria", 18, true⟩, ⟨"Goblin", 12, true⟩], 1, 1, true⟩ := by
    cbv
  have entered : enteredBy [.add "Goblin" 12, .add "Aria" 18] ≠ [] := by
    decide
  have passed : TurnPassed [.add "Goblin" 12, .add "Aria" 18, .next] :=
    turnPassed_of_entered entered []
  obtain ⟨_, _, current, holds, joinedHolds, _, keeps⟩ :=
    add_keeps_turn_iff passed "Rogue" 20
  rw [state] at holds joinedHolds keeps
  obtain rfl : ⟨"Goblin", 12, true⟩ = current := Option.some.inj holds
  have noneBefore :
      ∀ earlier < 1,
        [(⟨"Aria", 18, true⟩ : Participant), ⟨"Goblin", 12, true⟩][earlier]? ≠
          some ⟨"Goblin", 12, true⟩ := by
    decide
  intro moves joined
  have place :
      joined =
        Rotation.add
          ⟨[⟨"Aria", 18, true⟩, ⟨"Goblin", 12, true⟩], 1, 1, true⟩
          "Rogue" 20 :=
    congrArg (fun rotation => rotation.add "Rogue" 20) state
  rw [place]
  exact ⟨passed, congrArg turn state, keeps.mpr noneBefore, joinedHolds⟩

/-- Of two equal goblins the second has the turn; when somebody joins behind
them, the turn is with the first again. -/
theorem add_moves_turn_between_equals :
    let moves : List Move := [.add "Goblin" 12, .add "Goblin" 12, .next]
    let rotation := run moves
    let place := rotation.placeFor ⟨"Imp", 5, true⟩
    TurnPassed moves ∧ rotation.turn = 1 ∧ place = 2 ∧
      (rotation.add "Imp" 5).turn = 0 ∧
      (rotation.add "Imp" 5).turn ≠ indexBehind place rotation.turn := by
  have state :
      run [.add "Goblin" 12, .add "Goblin" 12, .next] =
        ⟨[⟨"Goblin", 12, true⟩, ⟨"Goblin", 12, true⟩], 1, 1, true⟩ := by
    cbv
  have joinedTurn :
      (Rotation.add
        ⟨[⟨"Goblin", 12, true⟩, ⟨"Goblin", 12, true⟩], 1, 1, true⟩
        "Imp" 5).turn = 0 := by
    cbv
  have entered : enteredBy [.add "Goblin" 12, .add "Goblin" 12] ≠ [] := by
    decide
  have passed : TurnPassed [.add "Goblin" 12, .add "Goblin" 12, .next] :=
    turnPassed_of_entered entered []
  simp only [state, joinedTurn]
  exact ⟨passed, by decide⟩

/-- Until the turn is passed on, its index is the one at which it was last
passed back. -/
theorem turn_run_of_no_next {moves : List Move}
    (noNext : Move.next ∉ moves) :
    (run moves).turn = (run (throughLastBack moves)).turn := by
  induction moves using List.reverseRecOn with
  | nil =>
      rfl
  | append_singleton moves move inductionHypothesis =>
      rw [List.mem_append, not_or, List.mem_singleton] at noNext
      by_cases back : move = .previous
      · rw [throughLastBack, List.rdropWhile_concat_neg _ _ _ (by simp [back])]
      · have same : throughLastBack (moves ++ [move]) = throughLastBack moves :=
          List.rdropWhile_concat_pos _ _ _ (by simp [back])
        rw [same, ← inductionHypothesis noNext.1, run_concat]
        cases move with
        | add name initiative =>
            exact turn_add_of_not_begun (begun_run_of_no_next noNext.1) name
              initiative
        | next =>
            exact absurd rfl noNext.2
        | previous =>
            exact absurd rfl back
        | markOut name =>
            exact ((run moves).keep_setActive_turn name false).1
        | markIn name =>
            exact ((run moves).keep_setActive_turn name true).1

theorem current?_eq_head? {rotation : Rotation} (turn : rotation.turn = 0) :
    rotation.current? = rotation.participants.head? := by
  rw [current?, turn, List.head?_eq_getElem?]

/-- A newcomer whose initiative is above all others heads the order. -/
theorem Sorted.head?_add_of_highest {rotation : Rotation}
    (sorted : rotation.Sorted) {name : String} {initiative : Int32}
    (highest :
      ∀ other ∈ rotation.participants, other.initiative < initiative) :
    (rotation.add name initiative).participants.head? =
      some ⟨name, initiative, true⟩ := by
  have place : rotation.placeFor ⟨name, initiative, true⟩ = 0 := by
    rw [placeFor, List.countP_eq_zero]
    intro other member noLater
    have below := highest other member
    rcases of_decide_eq_true noLater with above | ⟨equal, _⟩
    · exact Int32.lt_asymm below above
    · exact Int32.lt_irrefl (equal ▸ below)
  rw [sorted.participants_add, place, List.insertIdx_zero, List.head?_cons]

/-- The turn is with the last active participant of the order, or with its
head if nobody else is active. -/
def WithLastActive (rotation : Rotation) (participant : Participant) : Prop :=
  rotation.current? = some participant ∧
    (rotation.turn = 0 ∨ participant.active = true) ∧
      ∀ place other,
        rotation.turn < place →
          rotation.participants[place]? = some other → other.active = false

/-- From the head of the order the turn goes back to the last active
participant. -/
theorem withLastActive_of_passesTo {rotation stopped : Rotation}
    {participant : Participant} (turn : rotation.turn = 0)
    (passes : PassesTo rotation rotation.turnedBack participant stopped) :
    stopped.WithLastActive participant := by
  have resting : stopped.turn = 0 ∨ participant.active = true := by
    by_cases anybody : ∃ other ∈ rotation.participants, other.active = true
    · exact Or.inr (passes.active_of_any anybody)
    · left
      rw [passes.turn_eq_of_none, turn]
      intro other member
      exact Bool.eq_false_iff.mpr fun active =>
        anybody ⟨other, member, active⟩
  refine ⟨passes.holds, resting, ?_⟩
  obtain ⟨steps, positive, within, rfl, passedOver⟩ := passes.within_loop
  intro place other behind holds
  rw [participants_turnedBack] at holds
  have inside := (List.getElem?_eq_some_iff.mp holds).1
  rw [turn_turnedBack, if_neg (by omega)] at behind
  -- The place was passed over, as many steps back as it lies before the end.
  obtain ⟨passed, passedHolds, inactive⟩ :=
    passedOver (rotation.participants.length - place) (by omega) (by omega)
  have passedTurn :
      (rotation.turnedBack (rotation.participants.length - place)).turn =
        place := by
    rw [turn_turnedBack, if_neg (by omega)]
    omega
  rw [current?, participants_turnedBack, passedTurn, holds] at passedHolds
  rwa [Option.some.inj passedHolds]

/-- As long as the turn has not been passed on, and has not been passed back
from the head of the order, the head has the turn: whoever joins with the
highest initiative has it from then on, and passing it back hands it to the
last active participant. -/
theorem head_has_turn_before_next {moves : List Move}
    (noNext : Move.next ∉ moves)
    (atHead : (run (throughLastBack moves)).turn = 0)
    (somebody : (run moves).participants ≠ []) :
    (∃ head,
      (run moves).participants.head? = some head ∧
        (run moves).current? = some head) ∧
      (∀ name initiative,
        (∀ other ∈ (run moves).participants, other.initiative < initiative) →
          ((run moves).add name initiative).current? =
            some ⟨name, initiative, true⟩) ∧
      ∃ participant stopped,
        (run moves).previous = .ok (some participant, stopped) ∧
          stopped.WithLastActive participant := by
  have turn := (turn_run_of_no_next noNext).trans atHead
  have current := current?_eq_head? turn
  refine ⟨?_, ?_, ?_⟩
  · obtain ⟨head, rest, split⟩ := List.exists_cons_of_ne_nil somebody
    have first : (run moves).participants.head? = some head := by
      rw [split, List.head?_cons]
    exact ⟨head, first, current.trans first⟩
  · intro name initiative highest
    have joinedTurn : ((run moves).add name initiative).turn = 0 := by
      rw [turn_add_of_not_begun (begun_run_of_no_next noNext), turn]
    rw [current?_eq_head? joinedTurn]
    exact (inOrder_run moves).sorted.head?_add_of_highest highest
  · obtain ⟨_, participant, stopped, passed, passes⟩ := passes_run somebody
    exact
      ⟨participant, stopped, passed, withLastActive_of_passesTo turn passes⟩

/-- Passing the turn back from a goblin who is alone leaves it there; Aria
joins in front of the goblin and has the turn although she is out. -/
theorem head_has_turn_before_next_of_aria :
    let moves : List Move :=
      [.add "Goblin" 12, .previous, .add "Aria" 18, .markOut "ARIA"]
    Move.next ∉ moves ∧ (run (throughLastBack moves)).turn = 0 ∧
      (run moves).current? = some ⟨"Aria", 18, false⟩ ∧
      ((run moves).add "Rogue" 20).current? = some ⟨"Rogue", 20, true⟩ := by
  have state :
      run [.add "Goblin" 12, .previous, .add "Aria" 18, .markOut "ARIA"] =
        ⟨[⟨"Aria", 18, false⟩, ⟨"Goblin", 12, true⟩], 0, 1, false⟩ := by
    cbv
  intro moves
  have throughBack :
      throughLastBack moves = [.add "Goblin" 12, .previous] := by
    decide
  have noNext : Move.next ∉ moves := by
    decide
  have atHead : (run (throughLastBack moves)).turn = 0 := by
    rw [throughBack]
    cbv
  have somebody : (run moves).participants ≠ [] := by
    rw [state]
    decide
  obtain ⟨⟨head, first, current⟩, joins, _⟩ :=
    head_has_turn_before_next noNext atHead somebody
  refine ⟨noNext, atHead, ?_, joins "Rogue" 20 ?_⟩
  · rw [current, ← first, state]
    rfl
  · rw [state]
    decide

/-- Passed back from Aria, who heads the order, the turn is with the goblin
before it was ever passed on. -/
theorem tail_has_turn_before_next :
    let moves : List Move := [.add "Aria" 18, .add "Goblin" 12, .previous]
    Move.next ∉ moves ∧
      (run moves).participants.head? = some ⟨"Aria", 18, true⟩ ∧
      (run moves).current? = some ⟨"Goblin", 12, true⟩ := by
  have state :
      run [.add "Aria" 18, .add "Goblin" 12, .previous] =
        ⟨[⟨"Aria", 18, true⟩, ⟨"Goblin", 12, true⟩], 1, 1, false⟩ := by
    cbv
  intro moves
  exact ⟨by decide, congrArg (fun rotation => rotation.participants.head?) state,
    congrArg current? state⟩

end Tabletop.Rotation
