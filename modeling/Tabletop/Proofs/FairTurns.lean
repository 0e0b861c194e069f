import Mathlib.Data.List.Rotate
import Tabletop.Proofs.RotationRuns

/-!
# Fair turns

The lap of a turn is the order as the turn comes by it: from the place behind
the current one, over the end, to the current place itself. Every pass takes
the turn further along the lap, to the next place where somebody active stands.
So when the turn is passed as often as somebody is active, the passes make the
lap once: they stop once with each of those who are active, and the end of the
order is crossed once.
-/

namespace Tabletop.Rotation

def lap (rotation : Rotation) : List Nat :=
  (List.range rotation.participants.length).rotate (rotation.turn + 1)

/-- Somebody active stands at a place. -/
def activeAt (rotation : Rotation) (place : Nat) : Bool :=
  rotation.participants[place]?.any Participant.active

/-- The places where somebody active stands, in the order of the lap. -/
def due (rotation : Rotation) : List Nat :=
  rotation.lap.filter rotation.activeAt

theorem activeAt_iff {rotation : Rotation} {place : Nat} :
    rotation.activeAt place = true ↔
      ∃ participant,
        rotation.participants[place]? = some participant ∧
          participant.active = true := by
  rw [activeAt, Option.any_eq_true]

theorem lap_perm (rotation : Rotation) :
    rotation.lap.Perm (List.range rotation.participants.length) :=
  List.rotate_perm _ _

theorem length_lap (rotation : Rotation) :
    rotation.lap.length = rotation.participants.length := by
  rw [rotation.lap_perm.length_eq, List.length_range]

theorem nodup_due (rotation : Rotation) : rotation.due.Nodup :=
  (List.nodup_rotate.mpr List.nodup_range).filter _

theorem mem_due_iff {rotation : Rotation} {place : Nat} :
    place ∈ rotation.due ↔
      ∃ participant,
        rotation.participants[place]? = some participant ∧
          participant.active = true := by
  rw [due, List.mem_filter, rotation.lap_perm.mem_iff, List.mem_range,
    activeAt_iff, and_iff_right_iff_imp]
  rintro ⟨participant, holds, _⟩
  exact (List.getElem?_eq_some_iff.mp holds).1

theorem length_due (rotation : Rotation) :
    rotation.due.length = rotation.activeCount := by
  have standing :
      rotation.participants.map some =
        (List.range rotation.participants.length).map
          (rotation.participants[·]?) := by
    apply List.ext_getElem?
    intro place
    by_cases inside : place < rotation.participants.length
    · simp [inside]
    · simp [inside]
  calc
    rotation.due.length = rotation.lap.countP rotation.activeAt :=
      List.countP_eq_length_filter.symm
    _ = (List.range rotation.participants.length).countP
          rotation.activeAt :=
      rotation.lap_perm.countP_eq _
    _ = ((List.range rotation.participants.length).map
          (rotation.participants[·]?)).countP
          (·.any Participant.active) :=
      List.countP_map.symm
    _ = rotation.activeCount := by
      rw [← standing, List.countP_map]
      rfl

/-- Going on one place takes the turn to the first place of the lap, and so
on. -/
theorem getElem?_lap (rotation : Rotation) {steps : Nat}
    (within : steps < rotation.participants.length) :
    rotation.lap[steps]? = some (rotation.turnedOn (steps + 1)).turn := by
  have positive : 0 < rotation.participants.length := by
    omega
  rw [lap, List.getElem?_rotate (by rwa [List.length_range]),
    List.length_range, List.getElem?_range (Nat.mod_lt _ positive), turnedOn]
  simp only [Nat.add_left_comm]

/-- What stands on the lap behind its beginning is where the turn comes by. -/
theorem turn_along_lap {rotation : Rotation} {before ahead : List Nat}
    (split : rotation.lap = before ++ ahead) {steps place : Nat}
    (there : ahead[steps]? = some place) :
    (rotation.turnedOn (before.length + (steps + 1))).turn = place := by
  have onLap : rotation.lap[before.length + steps]? = some place := by
    rw [split, List.getElem?_append_right (Nat.le_add_right _ _),
      Nat.add_sub_cancel_left, there]
  have within : before.length + steps < rotation.participants.length := by
    rw [← length_lap]
    exact (List.getElem?_eq_some_iff.mp onLap).1
  rw [getElem?_lap rotation within] at onLap
  exact Option.some.inj onLap

/-- The rotation, its first turn being over. -/
def underWay (rotation : Rotation) : Rotation :=
  { rotation with begun := true }

theorem next_underWay {rotation : Rotation}
    (inside : rotation.turn < rotation.participants.length) :
    rotation.underWay.next = rotation.next := by
  have insideToo :
      rotation.underWay.turn < rotation.underWay.participants.length :=
    inside
  rw [next, next, if_neg (not_isEmpty inside), if_neg (not_isEmpty insideToo)]
  rfl

/-- A pass crosses the end of the order exactly if it does not lead further
back in the order. -/
theorem round_of_next {rotation stopped : Rotation}
    {participant? : Option Participant}
    (inside : rotation.turn < rotation.participants.length)
    (passed : rotation.next = .ok (participant?, stopped)) :
    stopped.round =
      rotation.round + if stopped.turn ≤ rotation.turn then 1 else 0 := by
  obtain ⟨participant, reached, known, passes⟩ := exists_next_eq inside
  rw [known] at passed
  cases passed
  obtain ⟨steps, positive, within, rfl, _⟩ := passes.within_loop
  rw [round_turnedOn inside within, turn_turnedOn inside within]
  by_cases noWrap : rotation.turn + steps < rotation.participants.length
  · rw [if_pos noWrap, if_pos noWrap, if_neg (by omega), Nat.add_zero]
  · rw [if_neg noWrap, if_neg noWrap, if_pos (by omega)]

/-- From any point of the lap a pass leads to the next place where somebody
active stands. -/
theorem next_along_lap {rotation : Rotation}
    (inside : rotation.turn < rotation.participants.length)
    {before skipped ahead : List Nat} {place : Nat}
    (split : rotation.lap = before ++ (skipped ++ place :: ahead))
    (idle : ∀ other ∈ skipped, ¬ rotation.activeAt other = true)
    (active : rotation.activeAt place = true) :
    ∃ participant,
      rotation.participants[place]? = some participant ∧
        participant.active = true ∧
        (rotation.turnedOn before.length).next =
          .ok (some participant,
            rotation.turnedOn (before.length + (skipped.length + 1))) := by
  have positive : 0 < rotation.participants.length := by
    omega
  have whole :
      before.length + (skipped.length + (ahead.length + 1)) =
        rotation.participants.length := by
    rw [← length_lap, split]
    simp only [List.length_append, List.length_cons]
  have insideThere :
      (rotation.turnedOn before.length).turn <
        rotation.participants.length :=
    Nat.mod_lt _ positive
  have standing {steps other : Nat}
      (there : (skipped ++ place :: ahead)[steps]? = some other) :
      ((rotation.turnedOn before.length).turnedOn (steps + 1)).current? =
        rotation.participants[other]? := by
    rw [turnedOn_turnedOn positive, current?, turn_along_lap split there]
    rfl
  obtain ⟨participant, holds, isActive⟩ := activeAt_iff.mp active
  obtain ⟨resting, stopped, passed, passes⟩ := exists_next_eq insideThere
  have atPlace :
      ((rotation.turnedOn before.length).turnedOn
          (skipped.length + 1)).current? = some participant := by
    have there : (skipped ++ place :: ahead)[skipped.length]? = some place := by
      simp
    rw [standing there, holds]
  have loop := loop_turnedOn insideThere
  have first :
      stopped =
        (rotation.turnedOn before.length).turnedOn (skipped.length + 1) := by
    refine loop.eq_of_passesTo passes (Nat.succ_pos _)
      (show skipped.length + 1 ≤ rotation.participants.length by omega)
      ?_ (Or.inr ⟨participant, atPlace, isActive⟩)
    intro earlier earlierPositive below
    obtain ⟨earlier, rfl⟩ :=
      Nat.exists_eq_succ_of_ne_zero (Nat.ne_of_gt earlierPositive)
    have inSkipped : earlier < skipped.length := by
      omega
    obtain ⟨other, otherHolds⟩ :=
      loop.exists_current
        (show earlier + 1 ≤ rotation.participants.length by omega)
    refine ⟨other, otherHolds, Bool.eq_false_iff.mpr fun otherActive => ?_⟩
    have there :
        (skipped ++ place :: ahead)[earlier]? = some skipped[earlier] := by
      rw [List.getElem?_append_left inSkipped,
        List.getElem?_eq_getElem inSkipped]
    rw [standing there] at otherHolds
    exact idle _ (List.getElem_mem inSkipped)
      (activeAt_iff.mpr ⟨other, otherHolds, otherActive⟩)
  rw [first, turnedOn_turnedOn positive] at passes passed
  rw [turnedOn_turnedOn positive, passes.holds] at atPlace
  rw [Option.some.inj atPlace] at passed
  exact ⟨participant, holds, isActive, passed⟩

/-- The rotation after so many passes onward with nothing in between. -/
def passedOn (rotation : Rotation) (passes : Nat) : Rotation :=
  (List.replicate passes Move.next).foldl after rotation

theorem passedOn_succ (rotation : Rotation) (passes : Nat) :
    rotation.passedOn (passes + 1) = (rotation.passedOn passes).after .next := by
  rw [passedOn, List.replicate_succ', List.foldl_append]
  rfl

/-- So many passes have taken the turn along a beginning of its lap, and have
stopped at the places in it that were due. -/
structure ComeAlong (rotation : Rotation) (passes : Nat)
    (before ahead : List Nat) : Prop where
  lap_eq : rotation.lap = before ++ ahead
  met : before.filter rotation.activeAt = rotation.due.take passes
  reached :
    (rotation.passedOn passes).underWay = rotation.turnedOn before.length

/-- A pass leaves the participants as they are and stops with one who is
active; the round grows if it does not lead further back in the order. -/
structure HandedOn (rotation stopped : Rotation) : Prop where
  passed :
    ∃ participant,
      rotation.next = .ok (some participant, stopped) ∧
        rotation.participants[stopped.turn]? = some participant ∧
        participant.active = true
  participants_eq : stopped.participants = rotation.participants
  round_eq :
    stopped.round =
      rotation.round + if stopped.turn ≤ rotation.turn then 1 else 0

theorem comeAlong_zero {rotation : Rotation}
    (inside : rotation.turn < rotation.participants.length) :
    ComeAlong rotation 0 [] rotation.lap where
  lap_eq := rfl
  met := rfl
  reached := stepOnward_iterate inside 0

namespace ComeAlong

variable {rotation : Rotation} {passes : Nat} {before ahead : List Nat}

theorem participants_eq (come : ComeAlong rotation passes before ahead) :
    (rotation.passedOn passes).participants = rotation.participants := by
  have same := congrArg Rotation.participants come.reached
  exact same

theorem inside (come : ComeAlong rotation passes before ahead)
    (inside : rotation.turn < rotation.participants.length) :
    (rotation.passedOn passes).turn <
      (rotation.passedOn passes).participants.length := by
  have there :=
    Nat.mod_lt (rotation.turn + before.length)
      (show 0 < rotation.participants.length by omega)
  have same := congrArg Rotation.turn come.reached
  rw [come.participants_eq]
  exact lt_of_eq_of_lt same there

theorem filter_ahead (come : ComeAlong rotation passes before ahead) :
    ahead.filter rotation.activeAt = rotation.due.drop passes := by
  have whole :
      rotation.due.take passes ++ ahead.filter rotation.activeAt =
        rotation.due.take passes ++ rotation.due.drop passes := by
    rw [List.take_append_drop, ← come.met, ← List.filter_append, ← come.lap_eq,
      due]
  exact List.append_cancel_left whole

/-- As long as a place is due, one more pass stops at it. -/
theorem pass (come : ComeAlong rotation passes before ahead)
    (inside : rotation.turn < rotation.participants.length) {place : Nat}
    (isDue : rotation.due[passes]? = some place) :
    (rotation.passedOn (passes + 1)).turn = place ∧
      HandedOn (rotation.passedOn passes) (rotation.passedOn (passes + 1)) ∧
      ∃ further later,
        ComeAlong rotation (passes + 1) (before ++ further) later := by
  obtain ⟨within, atPasses⟩ := List.getElem?_eq_some_iff.mp isDue
  have left := come.filter_ahead
  rw [List.drop_eq_getElem_cons within, atPasses] at left
  obtain ⟨skipped, later, rfl, idle, active, _⟩ :=
    List.filter_eq_cons_iff.mp left
  obtain ⟨participant, holds, isActive, passed⟩ :=
    next_along_lap inside come.lap_eq idle active
  rw [← come.reached, next_underWay (come.inside inside)] at passed
  have stopped :
      rotation.passedOn (passes + 1) =
        rotation.turnedOn (before.length + (skipped.length + 1)) := by
    rw [passedOn_succ, after_next_eq passed]
  rw [← stopped] at passed
  have lapEq :
      rotation.lap = before ++ (skipped ++ [place]) ++ later := by
    rw [come.lap_eq]
    simp only [List.append_assoc, List.singleton_append]
  have length :
      (before ++ (skipped ++ [place])).length =
        before.length + (skipped.length + 1) := by
    simp only [List.length_append, List.length_singleton]
  have metNow :
      (before ++ (skipped ++ [place])).filter rotation.activeAt =
        rotation.due.take (passes + 1) := by
    rw [List.filter_append, List.filter_append, come.met,
      List.filter_eq_nil_iff.mpr idle, List.nil_append,
      List.filter_cons_of_pos active, List.filter_nil, List.take_add_one,
      isDue, Option.toList_some]
  have turn : (rotation.passedOn (passes + 1)).turn = place := by
    rw [stopped]
    exact turn_along_lap come.lap_eq (by simp)
  refine ⟨turn, ⟨⟨participant, passed, ?_, isActive⟩, ?_, ?_⟩,
    skipped ++ [place], later, lapEq, metNow, ?_⟩
  · rw [turn, come.participants_eq, holds]
  · rw [come.participants_eq, stopped]
    rfl
  · exact round_of_next (come.inside inside) passed
  · rw [length, stopped]
    rfl

/-- When nothing is due any more and the current participant is active, the
whole lap is made. -/
theorem back (come : ComeAlong rotation rotation.due.length before ahead)
    (inside : rotation.turn < rotation.participants.length)
    (active : rotation.activeAt rotation.turn = true) :
    (rotation.passedOn rotation.due.length).turn = rotation.turn ∧
      (rotation.passedOn rotation.due.length).round = rotation.round + 1 := by
  have loop := loop_turnedOn inside
  have whole : before.length = rotation.participants.length := by
    by_contra partly
    have lengths := congrArg List.length come.lap_eq
    rw [length_lap, List.length_append] at lengths
    -- The lap ends with the place of the turn, which would still be due.
    have last :=
      getElem?_lap rotation
        (show rotation.participants.length - 1 < rotation.participants.length
          by omega)
    rw [Nat.sub_add_cancel (by omega), loop.back, come.lap_eq,
      List.getElem?_append_right (by omega)] at last
    have idle := come.filter_ahead
    rw [List.drop_length, List.filter_eq_nil_iff] at idle
    exact idle rotation.turn (List.mem_of_getElem? last) active
  have turn := congrArg Rotation.turn come.reached
  have round := congrArg Rotation.round come.reached
  rw [whole, loop.back] at turn
  rw [whole, round_turnedOn inside (Nat.le_refl _), if_neg (by omega)] at round
  exact ⟨turn, round⟩

end ComeAlong

theorem exists_comeAlong {rotation : Rotation}
    (inside : rotation.turn < rotation.participants.length) {passes : Nat}
    (within : passes ≤ rotation.due.length) :
    ∃ before ahead, ComeAlong rotation passes before ahead := by
  induction passes with
  | zero =>
      exact ⟨_, _, comeAlong_zero inside⟩
  | succ passes inductionHypothesis =>
      obtain ⟨before, ahead, come⟩ := inductionHypothesis (by omega)
      obtain ⟨_, _, further, later, comeFurther⟩ :=
        come.pass inside (List.getElem?_eq_getElem within)
      exact ⟨_, _, comeFurther⟩

theorem inside_of_due {moves : List Move} {place : Nat}
    (isDue : place ∈ (run moves).due) :
    (run moves).turn < (run moves).participants.length := by
  apply (inOrder_run moves).inside_of_ne_nil
  obtain ⟨participant, holds, _⟩ := mem_due_iff.mp isDue
  exact List.ne_nil_of_mem (List.mem_of_getElem? holds)

theorem handedOn_due {moves : List Move} {passes place : Nat}
    (isDue : (run moves).due[passes]? = some place) :
    ((run moves).passedOn (passes + 1)).turn = place ∧
      HandedOn ((run moves).passedOn passes)
        ((run moves).passedOn (passes + 1)) := by
  have inside := inside_of_due (List.mem_of_getElem? isDue)
  have within := (List.getElem?_eq_some_iff.mp isDue).1
  obtain ⟨before, ahead, come⟩ :=
    exists_comeAlong inside (Nat.le_of_lt within)
  obtain ⟨turn, handedOn, _⟩ := come.pass inside isDue
  exact ⟨turn, handedOn⟩

/-- The places at which so many passes in a row stop. -/
def stops (rotation : Rotation) (passes : Nat) : List Nat :=
  (List.range passes).map fun earlier => (rotation.passedOn (earlier + 1)).turn

theorem stops_eq_due (moves : List Move) :
    (run moves).stops (run moves).activeCount = (run moves).due := by
  rw [← length_due]
  apply List.ext_getElem
  · rw [stops, List.length_map, List.length_range]
  · intro passes _ isDue
    simp only [stops, List.getElem_map, List.getElem_range,
      (handedOn_due (List.getElem?_eq_getElem isDue)).1]

/-- Passed on as often as somebody is active, with nothing in between, the turn
stops once at every place where somebody active stands and nowhere else, in the
order of the places from behind the current one around to it. The round grows
with exactly those passes that do not lead further back in the order; and if the
current participant is active, the turn is back in the end and the round has
grown by one. -/
theorem turns_are_fair (moves : List Move) :
    let rotation := run moves
    let count := rotation.activeCount
    (∀ passes < count,
        HandedOn (rotation.passedOn passes) (rotation.passedOn (passes + 1))) ∧
      rotation.stops count =
        ((List.range rotation.participants.length).rotate
          (rotation.turn + 1)).filter rotation.activeAt ∧
      (rotation.stops count).Nodup ∧
      (∀ place,
        place ∈ rotation.stops count ↔
          ∃ participant,
            rotation.participants[place]? = some participant ∧
              participant.active = true) ∧
      ∀ current,
        rotation.current? = some current → current.active = true →
          (rotation.passedOn count).turn = rotation.turn ∧
            (rotation.passedOn count).round = rotation.round + 1 := by
  intro rotation count
  have stopsDue : rotation.stops count = rotation.due := stops_eq_due moves
  refine ⟨?_, stopsDue, stopsDue ▸ rotation.nodup_due, ?_, ?_⟩
  · intro passes within
    have isDue : passes < rotation.due.length :=
      lt_of_lt_of_eq within rotation.length_due.symm
    exact (handedOn_due (List.getElem?_eq_getElem isDue)).2
  · intro place
    rw [stopsDue, mem_due_iff]
  · intro current holds active
    have inside := (List.getElem?_eq_some_iff.mp holds).1
    obtain ⟨before, ahead, come⟩ :=
      exists_comeAlong inside (Nat.le_refl rotation.due.length)
    have atTurn : rotation.activeAt rotation.turn = true :=
      activeAt_iff.mpr ⟨current, holds, active⟩
    have back := come.back inside atTurn
    rwa [length_due] at back

/-- The first of two equal goblins has the turn and Aria, who heads the order,
is out: the turn goes to the second goblin and, in a new round, back to the
first. -/
theorem turns_are_fair_of_goblins :
    let moves : List Move :=
      [.add "Goblin" 12, .add "Goblin" 12, .add "Aria" 18, .next,
        .markOut "ARIA"]
    let rotation := run moves
    rotation.current? = some ⟨"Goblin", 12, true⟩ ∧
      rotation.activeCount = 2 ∧ rotation.stops 2 = [2, 1] ∧
      (rotation.passedOn 2).turn = 1 ∧ (rotation.passedOn 2).round = 2 := by
  have state := run_eq_of_goblins_behind_aria
  obtain ⟨_, stops, _, _, back⟩ :=
    turns_are_fair
      [.add "Goblin" 12, .add "Goblin" 12, .add "Aria" 18, .next,
        .markOut "ARIA"]
  have holds :
      (run [.add "Goblin" 12, .add "Goblin" 12, .add "Aria" 18, .next,
          .markOut "ARIA"]).current? = some ⟨"Goblin", 12, true⟩ := by
    rw [state]
    rfl
  have returned := back _ holds rfl
  rw [state] at holds stops returned
  intro moves rotation
  rw [show rotation = _ from state]
  exact ⟨holds, rfl, stops, returned⟩

end Tabletop.Rotation
