import Mathlib
import Tabletop.Proofs.TurnPassing

/-!
# Restored rotations

A rotation that is restored from its parts may hold any turn, also one outside
the order. Passing the turn on then begins anew at the head of the order, but
the place where it began is never met again, so only somebody active ends it.
Passing it back from directly behind the order is the same from its end; from
further behind, the first step leads to a place that does not exist. In all
other cases a pass rests within a loop, as it does from inside the order.
-/

namespace Tabletop.Rotation

/-- Stepping from `rotation` first rests after so many steps, each of which
leads to somebody in the order. -/
structure StopsAfter (step : Rotation → Rotation) (rotation : Rotation)
    (steps : Nat) (stopped : Rotation) : Prop where
  positive : 0 < steps
  inside :
    ∀ made, 0 < made → made ≤ steps →
      (step^[made] rotation).turn < rotation.participants.length
  passedOver :
    ∀ made, 0 < made → made < steps →
      ¬ Rests rotation.turn (step^[made] rotation)
  rests : Rests rotation.turn stopped
  stopped_eq : stopped = step^[steps] rotation

/-- Stepping from `rotation` goes on in the order without ever resting. -/
def NeverStops (step : Rotation → Rotation) (rotation : Rotation) : Prop :=
  ∀ made, 0 < made →
    (step^[made] rotation).turn < rotation.participants.length ∧
      ¬ Rests rotation.turn (step^[made] rotation)

/-- The first step from `rotation` leads to a place that does not exist and is
not the one where it began. -/
def LeavesOrder (step : Rotation → Rotation) (rotation : Rotation) : Prop :=
  rotation.participants.length ≤ (step rotation).turn ∧
    (step rotation).turn ≠ rotation.turn

theorem turn_stepOnward_lt {rotation : Rotation}
    (somebody : 0 < rotation.participants.length) :
    (stepOnward rotation).turn < rotation.participants.length := by
  unfold stepOnward
  split
  · exact somebody
  · next noWrap =>
      exact Nat.lt_of_not_le noWrap

theorem turn_stepBack_lt {rotation : Rotation}
    (somebody : 0 < rotation.participants.length)
    (within : rotation.turn ≤ rotation.participants.length) :
    (stepBack rotation).turn < rotation.participants.length := by
  unfold stepBack
  split
  · exact Nat.sub_lt somebody Nat.one_pos
  · show rotation.turn - 1 < rotation.participants.length
    omega

/-- A step leaves the participants as they are, does not lead out of the order,
and adds at most one round. -/
structure StepsAlong (step : Rotation → Rotation) : Prop where
  participants_eq :
    ∀ rotation, (step rotation).participants = rotation.participants
  turn_lt :
    ∀ rotation : Rotation,
      rotation.turn < rotation.participants.length →
        (step rotation).turn < rotation.participants.length
  round_le : ∀ rotation, (step rotation).round ≤ rotation.round + 1

theorem stepsAlong_stepOnward : StepsAlong stepOnward where
  participants_eq rotation := by
    unfold stepOnward
    split <;> rfl
  turn_lt _ inside := turn_stepOnward_lt (Nat.zero_lt_of_lt inside)
  round_le rotation := by
    unfold stepOnward
    split
    · exact Nat.le_refl _
    · exact Nat.le_succ _

theorem stepsAlong_stepBack : StepsAlong stepBack where
  participants_eq rotation := by
    unfold stepBack
    split <;> rfl
  turn_lt _ inside := turn_stepBack_lt (Nat.zero_lt_of_lt inside)
    (Nat.le_of_lt inside)
  round_le rotation := by
    unfold stepBack
    split
    · show max (rotation.round - 1) 1 ≤ rotation.round + 1
      omega
    · exact Nat.le_succ _

namespace StepsAlong

variable {step : Rotation → Rotation} (along : StepsAlong step)
  (rotation : Rotation)

include along

theorem participants_iterate (made : Nat) :
    (step^[made] rotation).participants = rotation.participants := by
  induction made with
  | zero =>
      rfl
  | succ made inductionHypothesis =>
      rw [Function.iterate_succ_apply', along.participants_eq,
        inductionHypothesis]

theorem turn_iterate_lt
    (first : (step rotation).turn < rotation.participants.length) (made : Nat) :
    (step^[made + 1] rotation).turn < rotation.participants.length := by
  induction made with
  | zero =>
      exact first
  | succ made inductionHypothesis =>
      rw [Function.iterate_succ_apply',
        ← along.participants_iterate rotation (made + 1)]
      apply along.turn_lt
      rwa [along.participants_iterate]

theorem round_iterate_le (made : Nat) :
    (step^[made] rotation).round ≤ rotation.round + made := by
  induction made with
  | zero =>
      exact Nat.le_refl _
  | succ made inductionHypothesis =>
      rw [Function.iterate_succ_apply']
      have once := along.round_le (step^[made] rotation)
      omega

end StepsAlong

theorem walk_eq_none_of_not_rests {step : Rotation → Rotation}
    {start limit : Nat} {rotation : Rotation}
    (passedOver : ∀ made, ¬ Rests start (step^[made + 1] rotation)) :
    walk step start limit rotation = none := by
  induction limit generalizing rotation with
  | zero =>
      rfl
  | succ limit inductionHypothesis =>
      have first := passedOver 0
      rw [Function.iterate_one, Rests, not_or] at first
      obtain ⟨notBack, notActive⟩ := first
      simp only [walk, if_neg notBack]
      split
      · rfl
      · next participant holds =>
          rw [if_neg fun active => notActive ⟨participant, holds, active⟩]
          refine inductionHypothesis fun made => ?_
          rw [← Function.iterate_succ_apply]
          exact passedOver (made + 1)

theorem NeverStops.pass_eq {step : Rotation → Rotation} {rotation : Rotation}
    (never : NeverStops step rotation) (somebody : rotation.participants ≠ []) :
    pass step rotation = .error .turnOutsideOrder := by
  rw [pass, isEmpty, if_neg (by simpa using somebody),
    walk_eq_none_of_not_rests fun made => (never _ (Nat.succ_pos made)).2]

theorem LeavesOrder.pass_eq {step : Rotation → Rotation} {rotation : Rotation}
    (along : StepsAlong step) (leaves : LeavesOrder step rotation)
    (somebody : rotation.participants ≠ []) :
    pass step rotation = .error .turnOutsideOrder := by
  obtain ⟨outside, notBack⟩ := leaves
  have nobody : (step rotation).current? = none := by
    rw [current?, along.participants_eq, List.getElem?_eq_none outside]
  obtain ⟨first, others, order⟩ := List.exists_cons_of_ne_nil somebody
  rw [pass, isEmpty, if_neg (by simpa using somebody), order,
    List.length_cons, walk]
  simp only [if_neg notBack, nobody]

theorem StopsAfter.pass_eq {step : Rotation → Rotation}
    {rotation stopped : Rotation} {steps : Nat} (along : StepsAlong step)
    (stops : StopsAfter step rotation steps stopped)
    (within : steps ≤ rotation.participants.length) :
    pass step rotation = .ok (stopped.current?, stopped) := by
  obtain ⟨steps, rfl⟩ :=
    Nat.exists_eq_succ_of_ne_zero (Nat.ne_of_gt stops.positive)
  have somebody : ¬ rotation.isEmpty = true := by
    rw [isEmpty, List.isEmpty_iff_length_eq_zero]
    omega
  have walked :
      walk step rotation.turn rotation.participants.length rotation =
        some (step^[steps + 1] rotation) := by
    apply walk_eq_some within
    · intro earlier below
      refine ⟨stops.passedOver _ (Nat.succ_pos _) (by omega), ?_⟩
      apply exists_current
      rw [along.participants_iterate]
      exact stops.inside _ (Nat.succ_pos _) (by omega)
    · rw [← stops.stopped_eq]
      exact stops.rests
  rw [pass, if_neg somebody, walked]
  simp only [← stops.stopped_eq]

section

variable {step : Rotation → Rotation} (along : StepsAlong step)
  {rotation : Rotation}
  (first : (step rotation).turn < rotation.participants.length)

include along first

/-- Where a rest is met and the first step does not leave the order, there is
a first rest. -/
theorem exists_stopsAfter {made : Nat}
    (rests : Rests rotation.turn (step^[made + 1] rotation)) :
    ∃ steps ≤ made + 1,
      StopsAfter step rotation steps (step^[steps] rotation) := by
  classical
  have somewhere :
      ∃ steps, 0 < steps ∧ Rests rotation.turn (step^[steps] rotation) :=
    ⟨made + 1, Nat.succ_pos made, rests⟩
  obtain ⟨positive, firstRests⟩ := Nat.find_spec somewhere
  refine ⟨Nat.find somewhere,
    Nat.find_min' somewhere ⟨Nat.succ_pos made, rests⟩, positive, ?_, ?_,
    firstRests, rfl⟩
  · intro made positive _
    rw [← Nat.sub_add_cancel positive]
    exact along.turn_iterate_lt rotation first (made - 1)
  · intro earlier positive below earlierRests
    exact Nat.find_min somewhere below ⟨positive, earlierRests⟩

/-- From outside the order the steps inside it never rest when nobody is
active. -/
theorem neverStops_of_nobody
    (outside : rotation.participants.length ≤ rotation.turn)
    (nobody : ∀ other ∈ rotation.participants, other.active = false) :
    NeverStops step rotation := by
  intro made positive
  have inside := along.turn_iterate_lt rotation first (made - 1)
  rw [Nat.sub_add_cancel positive] at inside
  refine ⟨inside, ?_⟩
  rintro (back | ⟨participant, holds, active⟩)
  · omega
  · rw [current?, along.participants_iterate] at holds
    rw [nobody participant (List.mem_of_getElem? holds)] at active
    cases active

end

/-! ## Where a pass rests -/

/-- Somebody in the order is active. -/
def AnyActive (rotation : Rotation) : Prop :=
  ∃ other ∈ rotation.participants, other.active = true

instance (rotation : Rotation) : Decidable rotation.AnyActive :=
  inferInstanceAs (Decidable (∃ other ∈ rotation.participants, _))

theorem AnyActive.exists_place {rotation : Rotation}
    (anyActive : rotation.AnyActive) :
    ∃ (place : Nat) (participant : Participant),
      rotation.participants[place]? = some participant ∧
        participant.active = true := by
  obtain ⟨participant, member, active⟩ := anyActive
  obtain ⟨place, inside, holds⟩ := List.getElem_of_mem member
  exact ⟨place, participant, List.getElem?_eq_some_iff.mpr ⟨inside, holds⟩,
    active⟩

/-- Passing the turn on rests within a loop, from inside the order at the
latest where it began and from outside with somebody active. -/
theorem exists_rests_onward {rotation : Rotation}
    (somebody : 0 < rotation.participants.length)
    (ends : rotation.turn < rotation.participants.length ∨ rotation.AnyActive) :
    ∃ made < rotation.participants.length,
      Rests rotation.turn
        (stepOnward^[made + 1] { rotation with begun := true }) := by
  by_cases inside : rotation.turn < rotation.participants.length
  · refine ⟨rotation.participants.length - 1, by omega, Or.inl ?_⟩
    rw [Nat.sub_add_cancel somebody, stepOnward_iterate inside]
    exact (loop_turnedOn inside).back
  · obtain ⟨place, participant, holds, active⟩ :=
      (ends.resolve_left inside).exists_place
    have placeInside := (List.getElem?_eq_some_iff.mp holds).1
    refine ⟨place, placeInside, Or.inr ⟨participant, ?_, active⟩⟩
    -- The first step leads to the head of the order.
    have head :
        stepOnward { rotation with begun := true } =
          { rotation with
            turn := 0, round := rotation.round + 1, begun := true } := by
      exact if_pos (Nat.le_succ_of_le (Nat.le_of_not_lt inside))
    have iterate :=
      @stepOnward_iterate
        { rotation with turn := 0, round := rotation.round + 1 } somebody place
    rw [Function.iterate_succ_apply, head, iterate, current?, turnedOn]
    show rotation.participants[(0 + place) % rotation.participants.length]? = _
    rw [Nat.zero_add, Nat.mod_eq_of_lt placeInside, holds]

/-- Passing the turn back rests within a loop, from inside the order at the
latest where it began and from directly behind it with somebody active. -/
theorem exists_rests_back {rotation : Rotation}
    (somebody : 0 < rotation.participants.length)
    (ends :
      rotation.turn < rotation.participants.length ∨
        (rotation.turn = rotation.participants.length ∧ rotation.AnyActive)) :
    ∃ made < rotation.participants.length,
      Rests rotation.turn (stepBack^[made + 1] rotation) := by
  rcases ends with inside | ⟨behind, anyActive⟩
  · refine ⟨rotation.participants.length - 1, by omega, Or.inl ?_⟩
    rw [Nat.sub_add_cancel somebody, stepBack_iterate (Nat.le_refl _)]
    exact (loop_turnedBack inside).back
  · obtain ⟨place, participant, holds, active⟩ := anyActive.exists_place
    have placeInside := (List.getElem?_eq_some_iff.mp holds).1
    refine ⟨rotation.participants.length - 1 - place, by omega,
      Or.inr ⟨participant, ?_, active⟩⟩
    have steps :
        rotation.participants.length - 1 - place + 1 =
          rotation.participants.length - place := by
      omega
    rw [steps, stepBack_iterate (by omega), current?, participants_turnedBack,
      turn_turnedBack, if_pos (by omega), behind,
      Nat.sub_sub_self (Nat.le_of_lt placeInside), holds]

/-- The index behind the turn and the round can be held in words of 64 and of
32 bits. -/
def FitsWords (rotation : Rotation) : Prop :=
  rotation.turn + 1 < 2 ^ 64 ∧ rotation.round < 2 ^ 32

/-- The parts of a rotation fit their words, with room for the rounds that a
loop can add. -/
structure HasRoom (rotation : Rotation) : Prop where
  places : rotation.participants.length < 2 ^ 64
  turn : rotation.turn + 1 < 2 ^ 64
  rounds : rotation.round + rotation.participants.length < 2 ^ 32 - 1

/-- The turn is passed within a loop to somebody in the order, and on the way
no place outside it was looked at and no counter left its word. -/
def PassesSafely (step : Rotation → Rotation) (rotation : Rotation)
    (outcome : Except TrackError (Option Participant × Rotation)) : Prop :=
  ∃ steps participant stopped,
    StopsAfter step rotation steps stopped ∧
      steps ≤ rotation.participants.length ∧
      outcome = .ok (some participant, stopped) ∧
      stopped.current? = some participant ∧
      stopped.turn < stopped.participants.length ∧
      ∀ made ≤ steps, (step^[made] rotation).FitsWords

theorem StepsAlong.passesSafely {step : Rotation → Rotation}
    (along : StepsAlong step) {rotation : Rotation} (room : rotation.HasRoom)
    (first : (step rotation).turn < rotation.participants.length)
    (rests :
      ∃ made < rotation.participants.length,
        Rests rotation.turn (step^[made + 1] rotation)) :
    PassesSafely step rotation (pass step rotation) := by
  obtain ⟨made, within, rests⟩ := rests
  obtain ⟨steps, atMost, stops⟩ := exists_stopsAfter along first rests
  have inside :
      (step^[steps] rotation).turn <
        (step^[steps] rotation).participants.length := by
    rw [along.participants_iterate]
    exact stops.inside steps stops.positive (Nat.le_refl _)
  obtain ⟨participant, holds⟩ := exists_current inside
  refine ⟨steps, participant, _, stops, by omega, ?_, holds, inside, ?_⟩
  · rw [stops.pass_eq along (by omega), holds]
  · intro earlier below
    have rounds := along.round_iterate_le rotation earlier
    obtain ⟨places, turn, limit⟩ := room
    refine ⟨?_, by omega⟩
    rcases Nat.eq_zero_or_pos earlier with rfl | positive
    · exact turn
    · have earlierInside := stops.inside earlier positive below
      omega

theorem NeverStops.not_passesSafely {step : Rotation → Rotation}
    {rotation : Rotation} (never : NeverStops step rotation)
    (outcome : Except TrackError (Option Participant × Rotation)) :
    ¬ PassesSafely step rotation outcome := by
  rintro ⟨steps, _, _, stops, _⟩
  have rests := stops.rests
  rw [stops.stopped_eq] at rests
  exact (never steps stops.positive).2 rests

theorem LeavesOrder.not_passesSafely {step : Rotation → Rotation}
    {rotation : Rotation} (leaves : LeavesOrder step rotation)
    (outcome : Except TrackError (Option Participant × Rotation)) :
    ¬ PassesSafely step rotation outcome := by
  rintro ⟨steps, _, _, stops, _⟩
  have inside := stops.inside 1 Nat.one_pos stops.positive
  rw [Function.iterate_one] at inside
  exact absurd inside (Nat.not_lt.mpr leaves.1)

/-- A step back lowers the turn by one, or leads from the first place to the
last. -/
theorem stepBack_exact {rotation : Rotation}
    (somebody : rotation.participants ≠ []) :
    (stepBack rotation).turn + 1 =
      if rotation.turn = 0 then
        rotation.participants.length
      else
        rotation.turn := by
  have positive := List.length_pos_iff.mpr somebody
  unfold stepBack
  split
  · exact Nat.sub_add_cancel positive
  · exact Nat.sub_add_cancel (by omega)

section Passing

variable {rotation : Rotation} (somebody : rotation.participants ≠ [])

theorem next_eq_pass (somebody : rotation.participants ≠ []) :
    rotation.next = pass stepOnward { rotation with begun := true } := by
  rw [next, isEmpty, if_neg (by simpa using somebody)]

theorem inactive_of_not_anyActive (nobody : ¬ rotation.AnyActive) :
    ∀ other ∈ rotation.participants, other.active = false := by
  intro other member
  exact Bool.eq_false_iff.mpr fun active => nobody ⟨other, member, active⟩

include somebody

/-- From outside the order the turn is passed on for ever when nobody is
active. -/
theorem neverStops_onward
    (outside : rotation.participants.length ≤ rotation.turn)
    (nobody : ¬ rotation.AnyActive) :
    NeverStops stepOnward { rotation with begun := true } :=
  neverStops_of_nobody stepsAlong_stepOnward
    (turn_stepOnward_lt (List.length_pos_iff.mpr somebody)) outside
    (inactive_of_not_anyActive nobody)

/-- From directly behind the order the turn is passed back for ever when nobody
is active. -/
theorem neverStops_back
    (behind : rotation.turn = rotation.participants.length)
    (nobody : ¬ rotation.AnyActive) :
    NeverStops stepBack rotation :=
  neverStops_of_nobody stepsAlong_stepBack
    (turn_stepBack_lt (List.length_pos_iff.mpr somebody)
      (Nat.le_of_eq behind))
    (Nat.le_of_eq behind.symm) (inactive_of_not_anyActive nobody)

omit somebody in
/-- From further behind, the first step back leads to a place that does not
exist. -/
theorem leavesOrder_back
    (beyond : rotation.participants.length < rotation.turn) :
    LeavesOrder stepBack rotation := by
  have moved : (stepBack rotation).turn = rotation.turn - 1 := by
    rw [stepBack, if_neg (by omega)]
  unfold LeavesOrder
  omega

theorem next_passesSafely_iff (room : rotation.HasRoom) :
    PassesSafely stepOnward { rotation with begun := true } rotation.next ↔
      rotation.turn < rotation.participants.length ∨ rotation.AnyActive := by
  have positive := List.length_pos_iff.mpr somebody
  constructor
  · intro safely
    by_contra neither
    obtain ⟨outside, nobody⟩ := not_or.mp neither
    exact (neverStops_onward somebody (Nat.le_of_not_lt outside)
      nobody).not_passesSafely _ safely
  · intro ends
    rw [next_eq_pass somebody]
    exact stepsAlong_stepOnward.passesSafely { room with }
      (turn_stepOnward_lt positive) (exists_rests_onward positive ends)

theorem previous_passesSafely_iff (room : rotation.HasRoom) :
    PassesSafely stepBack rotation rotation.previous ↔
      rotation.turn < rotation.participants.length ∨
        (rotation.turn = rotation.participants.length ∧
          rotation.AnyActive) := by
  have positive := List.length_pos_iff.mpr somebody
  constructor
  · intro safely
    by_contra neither
    obtain ⟨outside, otherwise⟩ := not_or.mp neither
    rcases Nat.lt_or_eq_of_le (Nat.le_of_not_lt outside) with beyond | behind
    · exact (leavesOrder_back beyond).not_passesSafely _ safely
    · have nobody : ¬ rotation.AnyActive :=
        fun anyActive => otherwise ⟨behind.symm, anyActive⟩
      exact (neverStops_back somebody behind.symm nobody).not_passesSafely _
        safely
  · intro ends
    have within : rotation.turn ≤ rotation.participants.length := by
      rcases ends with inside | ⟨behind, _⟩ <;> omega
    exact stepsAlong_stepBack.passesSafely room
      (turn_stepBack_lt positive within) (exists_rests_back positive ends)

end Passing

/-- Whatever parts a rotation is restored from, with room in their words:
passing the turn of an empty one does nothing; of any other it is safe onward
just when the turn is inside the order or somebody is active, and back just
when it is inside, or directly behind and somebody is active. Otherwise the
steps never end, or the first one back leaves the order. No step back goes
below the first place. -/
theorem restored_passes_safely_iff {rotation : Rotation}
    (room : rotation.HasRoom) :
    (rotation.participants = [] →
        rotation.next = .ok (none, rotation) ∧
          rotation.previous = .ok (none, rotation)) ∧
      (rotation.participants ≠ [] →
        (PassesSafely stepOnward { rotation with begun := true }
              rotation.next ↔
            rotation.turn < rotation.participants.length ∨
              rotation.AnyActive) ∧
          (PassesSafely stepBack rotation rotation.previous ↔
            rotation.turn < rotation.participants.length ∨
              (rotation.turn = rotation.participants.length ∧
                rotation.AnyActive)) ∧
          (rotation.participants.length ≤ rotation.turn →
            ¬ rotation.AnyActive →
              NeverStops stepOnward { rotation with begun := true } ∧
                rotation.next = .error .turnOutsideOrder) ∧
          (rotation.turn = rotation.participants.length →
            ¬ rotation.AnyActive →
              NeverStops stepBack rotation ∧
                rotation.previous = .error .turnOutsideOrder) ∧
          (rotation.participants.length < rotation.turn →
            LeavesOrder stepBack rotation ∧
              rotation.previous = .error .turnOutsideOrder) ∧
          ∀ made,
            (stepBack^[made + 1] rotation).turn + 1 =
              if (stepBack^[made] rotation).turn = 0 then
                rotation.participants.length
              else
                (stepBack^[made] rotation).turn) := by
  refine ⟨fun empty => ⟨next_of_empty empty, previous_of_empty empty⟩, ?_⟩
  intro somebody
  refine ⟨next_passesSafely_iff somebody room,
    previous_passesSafely_iff somebody room, ?_, ?_, ?_, ?_⟩
  · intro outside nobody
    have never := neverStops_onward somebody outside nobody
    refine ⟨never, ?_⟩
    rw [next_eq_pass somebody]
    exact never.pass_eq somebody
  · intro behind nobody
    have never := neverStops_back somebody behind nobody
    exact ⟨never, never.pass_eq somebody⟩
  · intro beyond
    have leaves := leavesOrder_back beyond
    exact ⟨leaves, leaves.pass_eq stepsAlong_stepBack somebody⟩
  · intro made
    have places := stepsAlong_stepBack.participants_iterate rotation made
    rw [Function.iterate_succ_apply', stepBack_exact (places ▸ somebody), places]

/-- The turn is restored far behind two participants of whom only the second
is active: passing it on is safe, passing it back leaves the order. -/
theorem restored_passes_safely_iff_of_goblin :
    let rotation : Rotation :=
      ⟨[⟨"Aria", 18, false⟩, ⟨"Goblin", 12, true⟩], 7, 3, true⟩
    rotation.HasRoom ∧
      PassesSafely stepOnward { rotation with begun := true } rotation.next ∧
      ¬ PassesSafely stepBack rotation rotation.previous ∧
      rotation.previous = .error .turnOutsideOrder := by
  intro rotation
  have room : rotation.HasRoom := ⟨by decide, by decide, by decide⟩
  have somebody : rotation.participants ≠ [] := List.cons_ne_nil _ _
  have anyActive : rotation.AnyActive :=
    ⟨⟨"Goblin", 12, true⟩, by decide, rfl⟩
  obtain ⟨onward, back, _, _, leaves, _⟩ :=
    (restored_passes_safely_iff room).2 somebody
  have beyond : rotation.participants.length < rotation.turn := by
    decide
  refine ⟨room, onward.mpr (Or.inr anyActive), ?_, (leaves beyond).2⟩
  rw [back]
  decide

/-- With the turn restored behind a single participant, who is active, passing
it back leaves the order; with nobody active, passing it on never ends. -/
theorem restored_turn_outside_order :
    let active : Rotation := ⟨[⟨"Aria", 18, true⟩], 5, 1, true⟩
    let inactive : Rotation := ⟨[⟨"Aria", 18, false⟩], 1, 1, true⟩
    (active.HasRoom ∧ LeavesOrder stepBack active ∧
        active.previous = .error .turnOutsideOrder) ∧
      inactive.HasRoom ∧ NeverStops stepOnward inactive ∧
        inactive.next = .error .turnOutsideOrder := by
  intro active inactive
  have leaves : LeavesOrder stepBack active := leavesOrder_back (by decide)
  have somebody : inactive.participants ≠ [] := List.cons_ne_nil _ _
  have never : NeverStops stepOnward inactive :=
    neverStops_onward somebody (by decide) (by decide)
  refine ⟨⟨⟨by decide, by decide, by decide⟩, leaves, ?_⟩,
    ⟨by decide, by decide, by decide⟩, never, ?_⟩
  · exact leaves.pass_eq stepsAlong_stepBack (List.cons_ne_nil _ _)
  · rw [next_eq_pass somebody]
    exact never.pass_eq somebody

end Tabletop.Rotation
