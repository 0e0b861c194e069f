import Mathlib.Data.Nat.Find
import Mathlib.Logic.Function.Iterate
import Tabletop.Initiative

/-!
# Passing the turn

Passing the turn steps along the order until the turn is with somebody active
or back where it was. As long as the turn lies within the order, the places
stepped on form a loop: every place is met within as many steps as there are
participants, and the start is met last. So a pass always ends, and it ends
with somebody active if anybody is.
-/

namespace Tabletop.Rotation

/-- A pass that began at `start` ends here: the turn is back, or with somebody
active. -/
def Rests (start : Nat) (rotation : Rotation) : Prop :=
  rotation.turn = start ∨
    ∃ participant,
      rotation.current? = some participant ∧ participant.active = true

theorem walk_eq_some {step : Rotation → Rotation} {start steps limit : Nat}
    {rotation : Rotation} (enough : steps < limit)
    (passedOver : ∀ earlier < steps,
      ¬ Rests start (step^[earlier + 1] rotation) ∧
        ∃ participant,
          (step^[earlier + 1] rotation).current? = some participant)
    (rests : Rests start (step^[steps + 1] rotation)) :
    walk step start limit rotation = some (step^[steps + 1] rotation) := by
  induction steps generalizing limit rotation with
  | zero =>
      obtain ⟨limit, rfl⟩ := Nat.exists_eq_succ_of_ne_zero (by omega : limit ≠ 0)
      rw [Function.iterate_one] at rests ⊢
      rw [walk]
      by_cases back : (step rotation).turn = start
      · rw [if_pos back]
      · obtain ⟨participant, holds, active⟩ := rests.resolve_left back
        simp only [if_neg back, holds, if_pos active]
  | succ steps inductionHypothesis =>
      obtain ⟨limit, rfl⟩ := Nat.exists_eq_succ_of_ne_zero (by omega : limit ≠ 0)
      obtain ⟨notRests, participant, holds⟩ := passedOver 0 (Nat.succ_pos steps)
      rw [Function.iterate_one] at notRests holds
      have notBack : ¬ (step rotation).turn = start :=
        fun back => notRests (Or.inl back)
      have notActive : ¬ participant.active = true :=
        fun active => notRests (Or.inr ⟨participant, holds, active⟩)
      rw [walk]
      simp only [if_neg notBack, holds, if_neg notActive]
      rw [Function.iterate_succ_apply] at rests ⊢
      refine inductionHypothesis (Nat.lt_of_succ_lt_succ enough) ?_ rests
      intro earlier below
      exact passedOver (earlier + 1) (Nat.succ_lt_succ below)

/-- The rotations that stepping from `rotation` leads to form a loop: the
order stays, each place is met within as many steps as there are participants,
and the start only with the last of them. -/
structure Loop (rotation : Rotation) (moved : Nat → Rotation) : Prop where
  participants_eq :
    ∀ steps, (moved steps).participants = rotation.participants
  inside :
    ∀ steps ≤ rotation.participants.length,
      (moved steps).turn < rotation.participants.length
  back : (moved rotation.participants.length).turn = rotation.turn
  away :
    ∀ steps, 0 < steps → steps < rotation.participants.length →
      (moved steps).turn ≠ rotation.turn
  visits :
    ∀ place < rotation.participants.length,
      ∃ steps,
        0 < steps ∧ steps ≤ rotation.participants.length ∧
          (moved steps).turn = place

/-- What passing the turn along a loop comes to: after at most one loop, in
which only inactive participants are passed over, the turn is with a
participant who is active if anybody is; if nobody is, it is back. -/
structure PassesTo (rotation : Rotation) (moved : Nat → Rotation)
    (participant : Participant) (stopped : Rotation) : Prop where
  holds : stopped.current? = some participant
  within_loop :
    ∃ steps,
      0 < steps ∧ steps ≤ rotation.participants.length ∧
        stopped = moved steps ∧
        ∀ earlier, 0 < earlier → earlier < steps →
          ∃ other,
            (moved earlier).current? = some other ∧ other.active = false
  active_of_any :
    (∃ other ∈ rotation.participants, other.active = true) →
      participant.active = true
  turn_eq_of_none :
    (∀ other ∈ rotation.participants, other.active = false) →
      stopped.turn = rotation.turn

theorem exists_current {rotation : Rotation}
    (inside : rotation.turn < rotation.participants.length) :
    ∃ participant, rotation.current? = some participant :=
  ⟨_, List.getElem?_eq_getElem inside⟩

theorem not_isEmpty {rotation : Rotation}
    (inside : rotation.turn < rotation.participants.length) :
    ¬ rotation.isEmpty = true := by
  rw [isEmpty, List.isEmpty_iff_length_eq_zero]
  omega

namespace Loop

variable {rotation : Rotation} {moved : Nat → Rotation}

theorem exists_current (loop : Loop rotation moved) {steps : Nat}
    (within : steps ≤ rotation.participants.length) :
    ∃ participant, (moved steps).current? = some participant := by
  apply Rotation.exists_current
  rw [loop.participants_eq]
  exact loop.inside steps within

theorem current_mem (loop : Loop rotation moved) {steps : Nat}
    {participant : Participant}
    (holds : (moved steps).current? = some participant) :
    participant ∈ rotation.participants := by
  rw [← loop.participants_eq steps]
  exact List.mem_of_getElem? holds

/-- Whoever is active is met on the loop. -/
theorem exists_rests (loop : Loop rotation moved) {participant : Participant}
    (member : participant ∈ rotation.participants) :
    ∃ steps,
      0 < steps ∧ steps ≤ rotation.participants.length ∧
        (moved steps).current? = some participant := by
  obtain ⟨place, inside, atPlace⟩ := List.getElem_of_mem member
  obtain ⟨steps, positive, within, turn⟩ := loop.visits place inside
  refine ⟨steps, positive, within, ?_⟩
  rw [current?, loop.participants_eq, turn, List.getElem?_eq_getElem inside,
    atPlace]

/-- The first rest on a loop is where a pass along it ends. -/
theorem passesTo (loop : Loop rotation moved) {steps : Nat}
    {participant : Participant}
    (within : steps < rotation.participants.length)
    (rests : Rests rotation.turn (moved (steps + 1)))
    (first :
      ∀ earlier < steps, ¬ Rests rotation.turn (moved (earlier + 1)))
    (holds : (moved (steps + 1)).current? = some participant) :
    PassesTo rotation moved participant (moved (steps + 1)) where
  holds := holds
  within_loop := by
    refine ⟨steps + 1, Nat.succ_pos steps, within, rfl, ?_⟩
    intro earlier positive below
    obtain ⟨earlier, rfl⟩ :=
      Nat.exists_eq_succ_of_ne_zero (Nat.ne_of_gt positive)
    obtain ⟨other, otherHolds⟩ :=
      loop.exists_current (by omega : earlier + 1 ≤ _)
    refine ⟨other, otherHolds, Bool.eq_false_iff.mpr ?_⟩
    exact fun active =>
      first earlier (by omega) (Or.inr ⟨other, otherHolds, active⟩)
  active_of_any := by
    rintro ⟨other, member, active⟩
    rcases rests with back | ⟨resting, restingHolds, restingActive⟩
    · -- The whole loop has been made, so the stop is where `other` was met.
      have whole : steps + 1 = rotation.participants.length := by
        by_contra partly
        exact loop.away (steps + 1) (Nat.succ_pos steps) (by omega) back
      obtain ⟨met, positive, inLoop, metHolds⟩ := loop.exists_rests member
      have last : met = steps + 1 := by
        by_contra before
        refine first (met - 1) (by omega) (Or.inr ⟨other, ?_, active⟩)
        rwa [Nat.sub_add_cancel positive]
      rw [last, holds] at metHolds
      rwa [Option.some.inj metHolds]
    · rw [holds] at restingHolds
      rwa [Option.some.inj restingHolds]
  turn_eq_of_none := by
    intro none
    rcases rests with back | ⟨resting, restingHolds, restingActive⟩
    · exact back
    · have inactive := none resting (loop.current_mem restingHolds)
      rw [inactive] at restingActive
      cases restingActive

theorem participants_of_passesTo (loop : Loop rotation moved)
    {participant : Participant} {stopped : Rotation}
    (passes : PassesTo rotation moved participant stopped) :
    stopped.participants = rotation.participants := by
  obtain ⟨steps, _, _, rfl, _⟩ := passes.within_loop
  exact loop.participants_eq steps

/-- A pass along a loop ends at the first place where it can rest: with an
active participant behind inactive ones, or at the start after a whole loop. -/
theorem eq_of_passesTo (loop : Loop rotation moved)
    {participant : Participant} {stopped : Rotation}
    (passes : PassesTo rotation moved participant stopped) {steps : Nat}
    (positive : 0 < steps) (within : steps ≤ rotation.participants.length)
    (passedOver :
      ∀ earlier, 0 < earlier → earlier < steps →
        ∃ other,
          (moved earlier).current? = some other ∧ other.active = false)
    (rests :
      steps = rotation.participants.length ∨
        ∃ other,
          (moved steps).current? = some other ∧ other.active = true) :
    stopped = moved steps := by
  obtain ⟨made, madePositive, madeWithin, rfl, madeOver⟩ := passes.within_loop
  rcases Nat.lt_trichotomy made steps with before | same | behind
  · -- The pass would end with somebody inactive, so nobody is active and it
    -- ends at the start, which is not met before the loop is whole.
    obtain ⟨other, holds, inactive⟩ := passedOver made madePositive before
    rw [passes.holds] at holds
    obtain rfl := Option.some.inj holds
    have back : (moved made).turn = rotation.turn := by
      apply passes.turn_eq_of_none
      intro member known
      refine Bool.eq_false_iff.mpr fun active => ?_
      rw [passes.active_of_any ⟨member, known, active⟩] at inactive
      cases inactive
    exact absurd back (loop.away made madePositive (by omega))
  · rw [same]
  · obtain ⟨other, holds, inactive⟩ := madeOver steps positive behind
    rcases rests with whole | ⟨resting, restingHolds, active⟩
    · omega
    · rw [holds] at restingHolds
      obtain rfl := Option.some.inj restingHolds
      rw [inactive] at active
      cases active

theorem exists_first_rests (loop : Loop rotation moved)
    (inside : rotation.turn < rotation.participants.length) :
    ∃ steps < rotation.participants.length,
      Rests rotation.turn (moved (steps + 1)) ∧
        ∀ earlier < steps, ¬ Rests rotation.turn (moved (earlier + 1)) := by
  classical
  have wholeLoop :
      Rests rotation.turn (moved (rotation.participants.length - 1 + 1)) := by
    rw [Nat.sub_add_cancel (by omega)]
    exact Or.inl loop.back
  have somewhere : ∃ steps, Rests rotation.turn (moved (steps + 1)) :=
    ⟨_, wholeLoop⟩
  have within : Nat.find somewhere ≤ rotation.participants.length - 1 :=
    Nat.find_min' somewhere wholeLoop
  exact ⟨Nat.find somewhere, by omega, Nat.find_spec somewhere,
    fun _ below => Nat.find_min somewhere below⟩

/-- Passing the turn in steps that form a loop always ends. -/
theorem exists_pass_eq (loop : Loop rotation moved)
    {step : Rotation → Rotation}
    (inside : rotation.turn < rotation.participants.length)
    (iterate :
      ∀ steps ≤ rotation.participants.length,
        step^[steps] rotation = moved steps) :
    ∃ participant stopped,
      pass step rotation = .ok (some participant, stopped) ∧
        PassesTo rotation moved participant stopped := by
  obtain ⟨steps, within, rests, first⟩ := loop.exists_first_rests inside
  have walked :
      walk step rotation.turn rotation.participants.length rotation =
        some (moved (steps + 1)) := by
    rw [← iterate (steps + 1) within]
    apply walk_eq_some within
    · intro earlier below
      rw [iterate (earlier + 1) (by omega)]
      exact ⟨first earlier below, loop.exists_current (by omega)⟩
    · rw [iterate (steps + 1) within]
      exact rests
  obtain ⟨participant, holds⟩ :
      ∃ participant, (moved (steps + 1)).current? = some participant :=
    loop.exists_current within
  refine ⟨participant, moved (steps + 1), ?_,
    loop.passesTo within rests first holds⟩
  rw [pass, if_neg (not_isEmpty inside)]
  simp only [walked, holds]

end Loop

/-- The rotation after steps onward. -/
def turnedOn (rotation : Rotation) (steps : Nat) : Rotation :=
  { rotation with
    turn := (rotation.turn + steps) % rotation.participants.length
    round :=
      rotation.round +
        (rotation.turn + steps) / rotation.participants.length
    begun := true }

theorem succ_div_mod_of_wrap {steps places : Nat} (positive : 0 < places)
    (wrap : places ≤ steps % places + 1) :
    (steps + 1) / places = steps / places + 1 ∧ (steps + 1) % places = 0 := by
  have whole := Nat.div_add_mod steps places
  have below := Nat.mod_lt steps positive
  rw [Nat.div_mod_unique positive, Nat.mul_succ]
  omega

theorem succ_div_mod_of_no_wrap {steps places : Nat} (positive : 0 < places)
    (inside : steps % places + 1 < places) :
    (steps + 1) / places = steps / places ∧
      (steps + 1) % places = steps % places + 1 := by
  have whole := Nat.div_add_mod steps places
  rw [Nat.div_mod_unique positive]
  omega

theorem stepOnward_iterate {rotation : Rotation}
    (inside : rotation.turn < rotation.participants.length) (steps : Nat) :
    stepOnward^[steps] { rotation with begun := true } =
      rotation.turnedOn steps := by
  have positive : 0 < rotation.participants.length := by
    omega
  induction steps with
  | zero =>
      simp [turnedOn, Nat.mod_eq_of_lt inside, Nat.div_eq_of_lt inside]
  | succ steps inductionHypothesis =>
      rw [Function.iterate_succ_apply', inductionHypothesis, stepOnward]
      by_cases wrap :
          (rotation.turnedOn steps).participants.length ≤
            (rotation.turnedOn steps).turn + 1
      · obtain ⟨quotient, remainder⟩ := succ_div_mod_of_wrap positive wrap
        rw [if_pos wrap]
        simp only [turnedOn, ← Nat.add_assoc]
        rw [quotient, remainder, Nat.add_assoc]
      · obtain ⟨quotient, remainder⟩ :=
          succ_div_mod_of_no_wrap positive (Nat.lt_of_not_le wrap)
        rw [if_neg wrap]
        simp only [turnedOn, ← Nat.add_assoc]
        rw [quotient, remainder]

/-- Within one loop the turn wraps at most once. -/
theorem turn_turnedOn {rotation : Rotation}
    (inside : rotation.turn < rotation.participants.length) {steps : Nat}
    (within : steps ≤ rotation.participants.length) :
    (rotation.turnedOn steps).turn =
      if rotation.turn + steps < rotation.participants.length then
        rotation.turn + steps
      else
        rotation.turn + steps - rotation.participants.length := by
  rw [turnedOn]
  split
  · next noWrap =>
      exact Nat.mod_eq_of_lt noWrap
  · next wrap =>
      rw [Nat.mod_eq_sub_mod (by omega)]
      exact Nat.mod_eq_of_lt (by omega)

theorem round_turnedOn {rotation : Rotation}
    (inside : rotation.turn < rotation.participants.length) {steps : Nat}
    (within : steps ≤ rotation.participants.length) :
    (rotation.turnedOn steps).round =
      if rotation.turn + steps < rotation.participants.length then
        rotation.round
      else
        rotation.round + 1 := by
  rw [turnedOn]
  split
  · next noWrap =>
      rw [Nat.div_eq_of_lt noWrap, Nat.add_zero]
  · next wrap =>
      have once :
          (rotation.turn + steps) / rotation.participants.length = 1 :=
        Nat.div_eq_of_lt_le (by omega) (by omega)
      rw [once]

theorem turnedOn_turnedOn {rotation : Rotation}
    (somebody : 0 < rotation.participants.length) (first second : Nat) :
    (rotation.turnedOn first).turnedOn second =
      rotation.turnedOn (first + second) := by
  have whole :=
    Nat.div_add_mod (rotation.turn + first) rotation.participants.length
  have quotient :
      (rotation.turn + (first + second)) / rotation.participants.length =
        (rotation.turn + first) / rotation.participants.length +
          ((rotation.turn + first) % rotation.participants.length + second) /
            rotation.participants.length := by
    rw [← Nat.add_assoc, ← Nat.mul_add_div somebody, ← Nat.add_assoc, whole]
  simp only [turnedOn, Nat.mod_add_mod, quotient, Nat.add_assoc]

theorem loop_turnedOn {rotation : Rotation}
    (inside : rotation.turn < rotation.participants.length) :
    Loop rotation rotation.turnedOn where
  participants_eq _ := rfl
  inside steps within := by
    rw [turn_turnedOn inside within]
    split <;> omega
  back := by
    rw [turn_turnedOn inside (Nat.le_refl _), if_neg (by omega)]
    omega
  away steps positive below := by
    rw [turn_turnedOn inside (Nat.le_of_lt below)]
    split <;> omega
  visits place placeInside := by
    by_cases ahead : rotation.turn < place
    · refine ⟨place - rotation.turn, by omega, by omega, ?_⟩
      rw [turn_turnedOn inside (by omega), if_pos (by omega)]
      omega
    · refine ⟨place + rotation.participants.length - rotation.turn,
        by omega, by omega, ?_⟩
      rw [turn_turnedOn inside (by omega), if_neg (by omega)]
      omega

/-- The rotation after steps back, at most a loop of them. -/
def turnedBack (rotation : Rotation) (steps : Nat) : Rotation :=
  if steps ≤ rotation.turn then
    { rotation with turn := rotation.turn - steps }
  else
    { rotation with
      turn := rotation.turn + rotation.participants.length - steps
      round := max (rotation.round - 1) 1 }

theorem turn_turnedBack (rotation : Rotation) (steps : Nat) :
    (rotation.turnedBack steps).turn =
      if steps ≤ rotation.turn then
        rotation.turn - steps
      else
        rotation.turn + rotation.participants.length - steps := by
  unfold turnedBack
  split <;> rfl

theorem participants_turnedBack (rotation : Rotation) (steps : Nat) :
    (rotation.turnedBack steps).participants = rotation.participants := by
  unfold turnedBack
  split <;> rfl

theorem stepBack_iterate {rotation : Rotation} {steps : Nat}
    (within : steps ≤ rotation.participants.length) :
    stepBack^[steps] rotation = rotation.turnedBack steps := by
  induction steps with
  | zero =>
      rfl
  | succ steps inductionHypothesis =>
      rw [Function.iterate_succ_apply',
        inductionHypothesis (Nat.le_of_succ_le within)]
      unfold turnedBack
      by_cases first : rotation.turn = steps
      · -- This is the step from the first place to the last.
        rw [if_pos (by omega), if_neg (by omega), stepBack,
          if_pos (Nat.sub_eq_zero_of_le (Nat.le_of_eq first))]
        simp only [first, Rotation.mk.injEq, true_and, and_true]
        omega
      · by_cases before : steps < rotation.turn
        · rw [if_pos (by omega), if_pos (by omega), stepBack,
            if_neg (Nat.sub_ne_zero_of_lt before)]
          rfl
        · have notFirst :
              rotation.turn + rotation.participants.length - steps ≠ 0 := by
            omega
          rw [if_neg (by omega), if_neg (by omega), stepBack,
            if_neg notFirst]
          rfl

theorem loop_turnedBack {rotation : Rotation}
    (inside : rotation.turn < rotation.participants.length) :
    Loop rotation rotation.turnedBack where
  participants_eq := participants_turnedBack rotation
  inside steps within := by
    rw [turn_turnedBack]
    split <;> omega
  back := by
    rw [turn_turnedBack, if_neg (by omega)]
    omega
  away steps positive below := by
    rw [turn_turnedBack]
    split <;> omega
  visits place placeInside := by
    by_cases behind : place < rotation.turn
    · refine ⟨rotation.turn - place, by omega, by omega, ?_⟩
      rw [turn_turnedBack, if_pos (by omega)]
      omega
    · refine ⟨rotation.turn + rotation.participants.length - place,
        by omega, by omega, ?_⟩
      rw [turn_turnedBack, if_neg (by omega)]
      omega

/-- Nobody has a turn in an empty rotation, and it stays as it is. -/
theorem next_of_empty {rotation : Rotation}
    (empty : rotation.participants = []) :
    rotation.next = .ok (none, rotation) := by
  rw [next, if_pos (by rw [isEmpty, empty]; rfl)]

theorem previous_of_empty {rotation : Rotation}
    (empty : rotation.participants = []) :
    rotation.previous = .ok (none, rotation) := by
  rw [previous, pass, if_pos (by rw [isEmpty, empty]; rfl)]

theorem exists_next_eq {rotation : Rotation}
    (inside : rotation.turn < rotation.participants.length) :
    ∃ participant stopped,
      rotation.next = .ok (some participant, stopped) ∧
        PassesTo rotation rotation.turnedOn participant stopped := by
  have loop : Loop { rotation with begun := true } rotation.turnedOn :=
    { loop_turnedOn inside with }
  obtain ⟨participant, stopped, passed, passes⟩ :=
    loop.exists_pass_eq inside fun steps _ => stepOnward_iterate inside steps
  refine ⟨participant, stopped, ?_, { passes with }⟩
  rw [next, if_neg (not_isEmpty inside), passed]

theorem exists_previous_eq {rotation : Rotation}
    (inside : rotation.turn < rotation.participants.length) :
    ∃ participant stopped,
      rotation.previous = .ok (some participant, stopped) ∧
        PassesTo rotation rotation.turnedBack participant stopped :=
  (loop_turnedBack inside).exists_pass_eq inside
    fun _ within => stepBack_iterate within

end Tabletop.Rotation
