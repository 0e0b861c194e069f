import Tabletop.Proofs.RotationRuns

/-!
# Turns passed back and on

Passing the turn back retraces the steps of passing it on, and the other way
round. Between the two stops only inactive participants were passed over, so
they are passed over again and the turn comes home; all that can be lost is the
round, which is never counted back below one.
-/

namespace Tabletop.Rotation

/-- The turn is with somebody active, or nobody is active. -/
def Settled (rotation : Rotation) : Prop :=
  (∃ current,
      rotation.current? = some current ∧ current.active = true) ∨
    ∀ other ∈ rotation.participants, other.active = false

/-- If stepping along a second loop retraces the steps that a pass has made
along a first one, the pass along the second ends where the first began. -/
theorem Settled.eq_of_retraced {rotation stopped : Rotation}
    (settled : rotation.Settled) {moved returned : Nat → Rotation}
    (loop : Loop rotation moved) {participant other : Participant}
    {steps : Nat} (positive : 0 < steps)
    (within : steps ≤ rotation.participants.length)
    (passedOver :
      ∀ earlier, 0 < earlier → earlier < steps →
        ∃ skipped,
          (moved earlier).current? = some skipped ∧ skipped.active = false)
    (passes : PassesTo rotation moved participant (moved steps))
    (loopBack : Loop (moved steps) returned)
    (retraces :
      ∀ made left, made + left = steps →
        (returned made).turn = (moved left).turn)
    (home : (moved 0).turn = rotation.turn)
    (passesBack : PassesTo (moved steps) returned other stopped) :
    stopped = returned steps := by
  have standing {made left : Nat} (whole : made + left = steps) :
      (returned made).current? = (moved left).current? := by
    rw [current?, current?, loopBack.participants_eq, loop.participants_eq,
      loop.participants_eq, retraces made left whole]
  refine loopBack.eq_of_passesTo passesBack positive
    (loop.participants_eq steps ▸ within) ?_ ?_
  · intro made madePositive before
    obtain ⟨left, rfl⟩ := Nat.exists_eq_add_of_lt before
    rw [standing (Nat.add_assoc made left 1).symm]
    exact passedOver (left + 1) (Nat.succ_pos left) (by omega)
  · rcases settled with ⟨current, holds, active⟩ | nobody
    · right
      refine ⟨current, ?_, active⟩
      rw [standing (Nat.add_zero steps), current?, loop.participants_eq, home]
      exact holds
    · left
      rw [loop.participants_eq]
      by_contra partly
      exact loop.away steps positive (by omega) (passes.turn_eq_of_none nobody)

section Steps

variable {rotation : Rotation}
  (inside : rotation.turn < rotation.participants.length) {made left : Nat}
  (within : made + left ≤ rotation.participants.length)

include inside within

theorem turn_turnedOn_turnedBack :
    ((rotation.turnedOn (made + left)).turnedBack made).turn =
      (rotation.turnedOn left).turn := by
  have far := turn_turnedOn inside within
  have near := turn_turnedOn inside (Nat.le_of_add_left_le within)
  have places : (rotation.turnedOn (made + left)).participants.length =
      rotation.participants.length := rfl
  rw [turn_turnedBack, places]
  split_ifs at far near ⊢ <;> omega

theorem turn_turnedBack_turnedOn :
    ((rotation.turnedBack (made + left)).turnedOn made).turn =
      (rotation.turnedBack left).turn := by
  have far := turn_turnedBack rotation (made + left)
  have near := turn_turnedBack rotation left
  have places := congrArg List.length
    (participants_turnedBack rotation (made + left))
  have farInside := (loop_turnedBack inside).inside _ within
  rw [turn_turnedOn (by omega) (by omega), places]
  split_ifs at far near ⊢ <;> omega

end Steps

theorem round_turnedOn_turnedBack {rotation : Rotation}
    (inside : rotation.turn < rotation.participants.length) {steps : Nat}
    (within : steps ≤ rotation.participants.length)
    (counted : 1 ≤ rotation.round) :
    ((rotation.turnedOn steps).turnedBack steps).round = rotation.round := by
  have turn := turn_turnedOn inside within
  have round := round_turnedOn inside within
  unfold turnedBack
  split_ifs at turn round ⊢
  · exact round
  · omega
  · omega
  · show max ((rotation.turnedOn steps).round - 1) 1 = rotation.round
    omega

theorem round_turnedBack_turnedOn {rotation : Rotation}
    (inside : rotation.turn < rotation.participants.length) {steps : Nat}
    (within : steps ≤ rotation.participants.length) :
    ((rotation.turnedBack steps).turnedOn steps).round =
      if steps ≤ rotation.turn then
        rotation.round
      else
        max (rotation.round - 1) 1 + 1 := by
  have turn := turn_turnedBack rotation steps
  have places := congrArg List.length (participants_turnedBack rotation steps)
  have backInside := (loop_turnedBack inside).inside steps within
  rw [round_turnedOn (by omega) (by omega), places]
  by_cases noWrap : steps ≤ rotation.turn
  · rw [if_pos noWrap] at turn ⊢
    rw [if_pos (by omega), turnedBack, if_pos noWrap]
  · rw [if_neg noWrap] at turn ⊢
    rw [if_neg (by omega), turnedBack, if_neg noWrap]

/-- The turn was passed back from the head of the order to its end. -/
def WrapsBack (rotation back : Rotation) : Prop :=
  rotation.participants ≠ [] ∧ rotation.turn ≤ back.turn

/-- Passing the turn back restores what passing it on has changed. -/
def RestoredBack (rotation onward : Rotation) : Prop :=
  ∃ restored,
    onward.previous = .ok (rotation.current?, restored) ∧
      restored.turn = rotation.turn ∧ restored.round = rotation.round

/-- Passing the turn on restores what passing it back has changed, unless there
was no round to go back to: then the second round begins. -/
def RestoredOnward (rotation back : Rotation) : Prop :=
  ∃ restored,
    back.next = .ok (rotation.current?, restored) ∧
      restored.turn = rotation.turn ∧
      (rotation.WrapsBack back ∧ rotation.round = 1 → restored.round = 2) ∧
      (¬ (rotation.WrapsBack back ∧ rotation.round = 1) →
        restored.round = rotation.round)

theorem current?_eq_of_turn_eq {rotation restored : Rotation}
    (same : restored.participants = rotation.participants)
    (turn : restored.turn = rotation.turn) :
    restored.current? = rotation.current? := by
  rw [current?, current?, same, turn]

section

variable {rotation : Rotation}
  (inside : rotation.turn < rotation.participants.length)

include inside

theorem exists_next_restoredBack (counted : 1 ≤ rotation.round) :
    ∃ participant onward,
      rotation.next = .ok (some participant, onward) ∧
        onward.participants = rotation.participants ∧
        (rotation.Settled → rotation.RestoredBack onward) := by
  obtain ⟨participant, onward, passed, passes⟩ := exists_next_eq inside
  have loop := loop_turnedOn inside
  obtain ⟨steps, positive, within, rfl, passedOver⟩ := passes.within_loop
  refine ⟨participant, _, passed, rfl, fun settled => ?_⟩
  obtain ⟨other, restored, passedBack, passesBack⟩ :=
    exists_previous_eq (loop.inside steps within)
  have loopBack := loop_turnedBack (loop.inside steps within)
  have retraces (made left : Nat) (whole : made + left = steps) :
      ((rotation.turnedOn steps).turnedBack made).turn =
        (rotation.turnedOn left).turn := by
    subst whole
    exact turn_turnedOn_turnedBack inside within
  have home : (rotation.turnedOn 0).turn = rotation.turn :=
    Nat.mod_eq_of_lt inside
  obtain rfl := settled.eq_of_retraced loop positive within passedOver passes
    loopBack retraces home passesBack
  have turn := (retraces steps 0 (Nat.add_zero steps)).trans home
  have same :
      ((rotation.turnedOn steps).turnedBack steps).participants =
        rotation.participants :=
    loopBack.participants_eq steps
  refine ⟨_, ?_, turn, round_turnedOn_turnedBack inside within counted⟩
  rw [passedBack, ← passesBack.holds, current?_eq_of_turn_eq same turn]

theorem exists_previous_restoredOnward (counted : 1 ≤ rotation.round) :
    ∃ participant back,
      rotation.previous = .ok (some participant, back) ∧
        back.participants = rotation.participants ∧
        (rotation.Settled → rotation.RestoredOnward back) := by
  obtain ⟨participant, back, passed, passes⟩ := exists_previous_eq inside
  have loop := loop_turnedBack inside
  obtain ⟨steps, positive, within, rfl, passedOver⟩ := passes.within_loop
  have places := loop.participants_eq steps
  have backInside :
      (rotation.turnedBack steps).turn <
        (rotation.turnedBack steps).participants.length :=
    places ▸ loop.inside steps within
  refine ⟨participant, _, passed, places, fun settled => ?_⟩
  obtain ⟨other, restored, passedOn, passesOn⟩ := exists_next_eq backInside
  have loopOn := loop_turnedOn backInside
  have retraces (made left : Nat) (whole : made + left = steps) :
      ((rotation.turnedBack steps).turnedOn made).turn =
        (rotation.turnedBack left).turn := by
    subst whole
    exact turn_turnedBack_turnedOn inside within
  have home : (rotation.turnedBack 0).turn = rotation.turn := rfl
  obtain rfl := settled.eq_of_retraced loop positive within passedOver passes
    loopOn retraces home passesOn
  have turn := (retraces steps 0 (Nat.add_zero steps)).trans home
  have round := round_turnedBack_turnedOn inside within
  have wraps :
      rotation.WrapsBack (rotation.turnedBack steps) ↔
        ¬ steps ≤ rotation.turn := by
    have somebody : rotation.participants ≠ [] :=
      List.ne_nil_of_length_pos (Nat.zero_lt_of_lt inside)
    rw [WrapsBack, turn_turnedBack]
    split <;> simp only [somebody, ne_eq, not_false_eq_true, true_and] <;> omega
  refine ⟨_, ?_, turn, ?_, ?_⟩
  · rw [passedOn, ← passesOn.holds,
      current?_eq_of_turn_eq ((loopOn.participants_eq steps).trans places) turn]
  · rintro ⟨wrapped, first⟩
    rw [round, if_neg (wraps.mp wrapped), first]
    rfl
  · intro otherwise
    rw [round]
    split
    · rfl
    · next wrapped =>
        have later : rotation.round ≠ 1 :=
          fun first => otherwise ⟨wraps.mpr wrapped, first⟩
        omega

end

/-- Passing the turn on or back never changes who takes part. While the current
participant is active, or nobody is, passing it back after passing it on
restores the turn and the round, and so does passing it on after passing it
back, except that the second round begins when the turn went back behind the
head of the order in the first. -/
theorem passing_back_mirrors_passing_on (moves : List Move) :
    let rotation := run moves
    ∃ next? previous? onward back,
      rotation.next = .ok (next?, onward) ∧
        rotation.previous = .ok (previous?, back) ∧
        onward.participants = rotation.participants ∧
        back.participants = rotation.participants ∧
        (rotation.Settled →
          rotation.RestoredBack onward ∧ rotation.RestoredOnward back) := by
  intro rotation
  have inOrder := inOrder_run moves
  by_cases empty : rotation.participants = []
  · have current : rotation.current? = none := by
      rw [current?, empty]
      rfl
    refine ⟨none, none, rotation, rotation, next_of_empty empty,
      previous_of_empty empty, rfl, rfl, fun _ => ⟨?_, ?_⟩⟩
    · exact ⟨rotation, current ▸ previous_of_empty empty, rfl, rfl⟩
    · exact ⟨rotation, current ▸ next_of_empty empty, rfl,
        fun wrapped => absurd empty wrapped.1.1, fun _ => rfl⟩
  · have inside := inOrder.inside_of_ne_nil empty
    obtain ⟨_, onward, passedOn, samePlaces, restoredBack⟩ :=
      exists_next_restoredBack inside inOrder.one_le_round
    obtain ⟨_, back, passedBack, samePlacesBack, restoredOnward⟩ :=
      exists_previous_restoredOnward inside inOrder.one_le_round
    exact ⟨_, _, onward, back, passedOn, passedBack, samePlaces,
      samePlacesBack,
      fun settled => ⟨restoredBack settled, restoredOnward settled⟩⟩

/-- Aria, who heads the order, is out, and the first of two equal goblins has
the turn: both ways it comes to the second goblin and home to the first, but
back over Aria it left the first round, so it comes home in the second. -/
theorem passing_back_mirrors_passing_on_of_goblins :
    let rotation :=
      run [.add "Goblin" 12, .add "Goblin" 12, .add "Aria" 18, .next,
        .markOut "ARIA"]
    rotation.Settled ∧
      ∃ onward back,
        rotation.next = .ok (some ⟨"Goblin", 12, true⟩, onward) ∧
          rotation.previous = .ok (some ⟨"Goblin", 12, true⟩, back) ∧
          onward.turn = 2 ∧ back.turn = 2 ∧
          (∃ restored,
            onward.previous = .ok (some ⟨"Goblin", 12, true⟩, restored) ∧
              restored.turn = 1 ∧ restored.round = 1) ∧
          ∃ restored,
            back.next = .ok (some ⟨"Goblin", 12, true⟩, restored) ∧
              restored.turn = 1 ∧ restored.round = 2 := by
  have state := run_eq_of_goblins_behind_aria
  have mirrors :=
    passing_back_mirrors_passing_on
      [.add "Goblin" 12, .add "Goblin" 12, .add "Aria" 18, .next,
        .markOut "ARIA"]
  rw [state] at mirrors
  obtain ⟨_, _, onward, back, passedOn, passedBack, _, _, restored⟩ := mirrors
  have settled :
      Settled
        ⟨[⟨"Aria", 18, false⟩, ⟨"Goblin", 12, true⟩, ⟨"Goblin", 12, true⟩],
          1, 1, true⟩ :=
    Or.inl ⟨⟨"Goblin", 12, true⟩, rfl, rfl⟩
  obtain ⟨restoredBack, again, cameOn, turn, second, _⟩ := restored settled
  rw [state]
  cases passedOn
  cases passedBack
  refine ⟨settled, _, _, rfl, rfl, rfl, rfl, restoredBack, again, cameOn, turn,
    second ⟨⟨List.cons_ne_nil _ _, ?_⟩, rfl⟩⟩
  exact Nat.le_succ 1

end Tabletop.Rotation
