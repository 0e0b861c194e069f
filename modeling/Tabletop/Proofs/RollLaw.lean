import Mathlib
import Tabletop.Dice.Roll
import Tabletop.Proofs.Ranks

/-!
# The law of a roll

What rolling an expression gives for every list of draws. An expression out of
bounds is refused before any draw is taken; a valid one needs a draw for each
die, takes no more than these, and returns the roll that `RollLaw` describes.
-/

namespace Tabletop.Dice

theorem roll_of_not_valid {expression : Expression}
    (invalid : ¬ expression.Valid) :
    ∃ fault, ∀ draws,
      expression.roll draws = (.error (.invalidExpression fault), draws) := by
  cases broken : expression.fault? with
  | none =>
      exact absurd broken invalid
  | some fault =>
      refine ⟨fault, ?_⟩
      intro draws
      rw [Expression.roll, broken]

theorem roll_of_valid {expression : Expression}
    (valid : expression.Valid) (draws : List UInt64) :
    expression.roll draws =
      if draws.length < expression.physicalDice then
        (.error .drawsExhausted, [])
      else
        (.ok (Roll.ofFaces expression
            (facesOf expression.sides (draws.take expression.physicalDice))),
          draws.drop expression.physicalDice) := by
  rw [Expression.roll, valid]

/-- The face that the draw for a place gives on a die with `sides` sides. -/
def drawnFace (sides : UInt32) (draws : List UInt64) (place : Nat) : Nat :=
  (draws.getD place 0).toNat % sides.toNat + 1

theorem toNat_faceOf {sides : UInt32} (positive : 0 < sides.toNat)
    (draw : UInt64) :
    (faceOf sides draw).toNat = draw.toNat % sides.toNat + 1 := by
  have remainder := Nat.mod_lt draw.toNat positive
  have bound := sides.toNat_lt
  rw [faceOf, UInt32.toNat_ofNat', Nat.mod_eq_of_lt]
  omega

theorem facesOf_take (sides : UInt32) {draws : List UInt64} {thrown : Nat}
    (enough : thrown ≤ draws.length) :
    facesOf sides (draws.take thrown) =
      (List.range thrown).map fun place =>
        faceOf sides (draws.getD place 0) := by
  have taken :
      draws.take thrown =
        (List.range thrown).map fun place => draws.getD place 0 := by
    apply List.ext_getElem
    · rw [List.length_take, List.length_map, List.length_range,
        Nat.min_eq_left enough]
    · intro place inTaken inRange
      rw [List.getElem_take, List.getElem_map, List.getElem_range]
      exact List.getElem_eq_getD 0
  rw [facesOf, taken, List.map_map]
  rfl

theorem toNat_facesOf_take {sides : UInt32} (positive : 0 < sides.toNat)
    {draws : List UInt64} {thrown : Nat} (enough : thrown ≤ draws.length) :
    (facesOf sides (draws.take thrown)).map UInt32.toNat =
      (List.range thrown).map (drawnFace sides draws) := by
  rw [facesOf_take sides enough, List.map_map]
  apply List.map_congr_left
  intro place _
  exact toNat_faceOf positive (draws.getD place 0)

/-- The die that the draw for a place throws, with the flag it has by its
rank. -/
def drawnDie (expression : Expression) (draws : List UInt64) (place : Nat) :
    Die where
  value := faceOf expression.sides (draws.getD place 0)
  sides := expression.sides
  kept := decide (expression.Counts (drawnFace expression.sides draws) place)

theorem diceOf_facesOf_take {expression : Expression}
    (positive : 0 < expression.sides.toNat) {draws : List UInt64}
    (enough : expression.physicalDice ≤ draws.length) :
    diceOf expression
        (facesOf expression.sides (draws.take expression.physicalDice)) =
      (List.range expression.physicalDice).map
        (drawnDie expression draws) := by
  rw [diceOf, toNat_facesOf_take positive enough, keptDice_map_range,
    facesOf_take expression.sides enough, List.zipWith_map,
    List.zipWith_self]
  rfl

theorem toNat_value_drawnDie {expression : Expression}
    (positive : 0 < expression.sides.toNat) (draws : List UInt64)
    (place : Nat) :
    (drawnDie expression draws place).value.toNat =
      drawnFace expression.sides draws place :=
  toNat_faceOf positive (draws.getD place 0)

theorem keptSum_eq_sum (dice : List Die) :
    keptSum dice =
      ((dice.filter Die.kept).map fun die => die.value.toNat).sum := by
  rw [keptSum, List.sum_eq_foldr, List.foldr_map]

theorem keptSum_drawnDice {expression : Expression}
    (positive : 0 < expression.sides.toNat) (draws : List UInt64)
    (thrown : Nat) :
    keptSum ((List.range thrown).map (drawnDie expression draws)) =
      (((List.range thrown).filter fun place =>
          decide
            (expression.Counts (drawnFace expression.sides draws) place)).map
        (drawnFace expression.sides draws)).sum := by
  rw [keptSum_eq_sum, List.filter_map, List.map_map]
  congr 1
  apply List.map_congr_left
  intro place _
  exact toNat_value_drawnDie positive draws place

/-- What a roll over sufficient draws shows: a die for each draw in the order
of the draws, kept when it counts by its rank, and the sums. -/
structure RollLaw (expression : Expression) (draws : List UInt64)
    (roll : Roll) : Prop where
  expression_eq : roll.expression = expression
  length_dice : roll.dice.length = expression.physicalDice
  die_at :
    ∀ place < expression.physicalDice,
      ∃ die,
        roll.dice[place]? = some die ∧
          die.sides = expression.sides ∧
          die.value.toNat = drawnFace expression.sides draws place ∧
          (die.kept = true ↔
            expression.Counts (drawnFace expression.sides draws) place)
  keptTotal_eq :
    roll.keptTotal =
      (((List.range expression.physicalDice).filter fun place =>
          decide
            (expression.Counts (drawnFace expression.sides draws) place)).map
        (drawnFace expression.sides draws)).sum
  total_eq : roll.total = roll.keptTotal + expression.modifier.toInt

theorem rollLaw_ofFaces {expression : Expression}
    (positive : 0 < expression.sides.toNat) {draws : List UInt64}
    (enough : expression.physicalDice ≤ draws.length) :
    RollLaw expression draws
      (Roll.ofFaces expression
        (facesOf expression.sides (draws.take expression.physicalDice))) where
  expression_eq := rfl
  length_dice := by
    rw [Roll.ofFaces, diceOf_facesOf_take positive enough, List.length_map,
      List.length_range]
  die_at := by
    intro place thrown
    refine ⟨drawnDie expression draws place, ?_, rfl, ?_, decide_eq_true_iff⟩
    · rw [Roll.ofFaces, diceOf_facesOf_take positive enough,
        List.getElem?_map, List.getElem?_range thrown]
      rfl
    · exact toNat_value_drawnDie positive draws place
  keptTotal_eq := by
    rw [Roll.ofFaces, diceOf_facesOf_take positive enough,
      keptSum_drawnDice positive]
  total_eq := rfl

theorem Expression.Valid.sides_pos {expression : Expression}
    (valid : expression.Valid) : 0 < expression.sides.toNat := by
  have sides : 2 ≤ expression.sides.toNat :=
    UInt32.le_iff_toNat_le.mp (expression.valid_iff.mp valid).2.1
  omega

/-- The law leaves no choice of the dice. -/
theorem RollLaw.dice_eq {expression : Expression} {draws : List UInt64}
    {roll : Roll} (law : RollLaw expression draws roll)
    (positive : 0 < expression.sides.toNat) :
    roll.dice =
      (List.range expression.physicalDice).map
        (drawnDie expression draws) := by
  apply List.ext_getElem?
  intro place
  by_cases thrown : place < expression.physicalDice
  · obtain ⟨die, holds, sides, value, kept⟩ := law.die_at place thrown
    have sameValue : die.value = (drawnDie expression draws place).value := by
      rw [← UInt32.toNat_inj, value, toNat_value_drawnDie positive]
    have sameKept : die.kept = (drawnDie expression draws place).kept := by
      rw [Bool.eq_iff_iff, kept]
      exact decide_eq_true_iff.symm
    rw [holds, List.getElem?_map, List.getElem?_range thrown, Option.map_some,
      Option.some.injEq]
    cases die
    simp_all [drawnDie]
  · rw [List.getElem?_eq_none (by rw [law.length_dice]; omega),
      List.getElem?_eq_none (by
        rw [List.length_map, List.length_range]; omega)]

theorem RollLaw.keptTotal_eq_keptSum {expression : Expression}
    {draws : List UInt64} {roll : Roll} (law : RollLaw expression draws roll)
    (positive : 0 < expression.sides.toNat) :
    roll.keptTotal = keptSum roll.dice := by
  rw [law.keptTotal_eq, law.dice_eq positive, keptSum_drawnDice positive]

/-- Sufficient draws are taken one for each die, and the roll is by the law. -/
theorem exists_roll_of_enough {expression : Expression}
    (valid : expression.Valid) {draws : List UInt64}
    (enough : expression.physicalDice ≤ draws.length) :
    ∃ roll,
      expression.roll draws = (.ok roll, draws.drop expression.physicalDice) ∧
        RollLaw expression draws roll := by
  rw [roll_of_valid valid, if_neg (Nat.not_lt.mpr enough)]
  exact ⟨_, rfl, rollLaw_ofFaces valid.sides_pos enough⟩

/-- A valid expression fails for want of draws when there are fewer of them
than dice, and otherwise takes one for each die and rolls by the law. -/
theorem roll_takes_one_draw_per_die {expression : Expression}
    (valid : expression.Valid) (draws : List UInt64) :
    (draws.length < expression.physicalDice →
        (expression.roll draws).1 = .error .drawsExhausted) ∧
      (expression.physicalDice ≤ draws.length →
        ∃ roll,
          expression.roll draws =
              (.ok roll, draws.drop expression.physicalDice) ∧
            RollLaw expression draws roll) := by
  constructor
  · intro short
    rw [roll_of_valid valid, if_pos short]
  · exact exists_roll_of_enough valid

/-- Two sixes, a three and a draw too many, of which the highest die is kept:
the sixes tie and the later one counts. -/
theorem roll_takes_one_draw_per_die_of_three :
    let expression : Expression :=
      ⟨3, 6, -1, some ⟨.keepHighest, 1⟩, false⟩
    let draws : List UInt64 := [5, 11, 2, 7]
    expression.Valid ∧
      ∃ roll,
        expression.roll draws = (.ok roll, [7]) ∧
          RollLaw expression draws roll ∧
          expression.Counts (drawnFace expression.sides draws) 1 ∧
          ¬ expression.Counts (drawnFace expression.sides draws) 0 := by
  intro expression draws
  have valid : expression.Valid := by
    decide
  obtain ⟨roll, rolled, law⟩ :=
    (roll_takes_one_draw_per_die valid draws).2 (by decide)
  exact ⟨valid, roll, rolled, law, by decide, by decide⟩

end Tabletop.Dice
