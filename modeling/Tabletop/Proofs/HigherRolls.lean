import Tabletop.Proofs.KeptDice

/-!
# Higher rolls

To raise some dice may change which of them count, but it raises the ranking as
a whole: at each place of the ranking of the raised dice stands a face that is
no lower than the one at this place before. An operation keeps its quota from
one end of the ranking, and so what it keeps is raised place by place, and the
total does not fall.
-/

namespace Tabletop.Dice

theorem orderedInsert_of_forall_le {face : Nat} {faces : List Nat}
    (least : ∀ other ∈ faces, face ≤ other) :
    faces.orderedInsert (· ≤ ·) face = face :: faces := by
  cases faces with
  | nil =>
      rfl
  | cons first rest =>
      exact List.orderedInsert_cons_of_le _ rest (least first List.mem_cons_self)

/-- To put a raised face among raised faces raises the faces at all places. -/
theorem forall₂_orderedInsert {faces raised : List Nat}
    (upTo : List.Forall₂ (· ≤ ·) faces raised)
    (sorted : faces.Pairwise (· ≤ ·)) (raisedSorted : raised.Pairwise (· ≤ ·))
    {lower upper : Nat} (newUpTo : lower ≤ upper) :
    List.Forall₂ (· ≤ ·) (faces.orderedInsert (· ≤ ·) lower)
      (raised.orderedInsert (· ≤ ·) upper) := by
  induction upTo generalizing lower upper with
  | nil =>
      exact List.Forall₂.cons newUpTo List.Forall₂.nil
  | @cons face other faces raised headUpTo restUpTo inductionHypothesis =>
      obtain ⟨faceLeast, sortedRest⟩ := List.pairwise_cons.mp sorted
      obtain ⟨otherLeast, raisedRest⟩ := List.pairwise_cons.mp raisedSorted
      rw [List.orderedInsert_cons, List.orderedInsert_cons]
      by_cases first : lower ≤ face
      · by_cases second : upper ≤ other
        · rw [if_pos first, if_pos second]
          exact List.Forall₂.cons newUpTo (List.Forall₂.cons headUpTo restUpTo)
        · -- The old face moves up by one place, and so it meets a later one.
          have later :=
            inductionHypothesis sortedRest raisedRest
              (show face ≤ upper by omega)
          rw [orderedInsert_of_forall_le faceLeast] at later
          rw [if_pos first, if_neg second]
          exact List.Forall₂.cons (first.trans headUpTo) later
      · by_cases second : upper ≤ other
        · have later :=
            inductionHypothesis sortedRest raisedRest (newUpTo.trans second)
          rw [orderedInsert_of_forall_le otherLeast] at later
          rw [if_neg first, if_pos second]
          exact List.Forall₂.cons (by omega) later
        · rw [if_neg first, if_neg second]
          exact List.Forall₂.cons headUpTo
            (inductionHypothesis sortedRest raisedRest newUpTo)

theorem forall₂_insertionSort {faces raised : List Nat}
    (upTo : List.Forall₂ (· ≤ ·) faces raised) :
    List.Forall₂ (· ≤ ·) (faces.insertionSort (· ≤ ·))
      (raised.insertionSort (· ≤ ·)) := by
  induction upTo with
  | nil =>
      exact List.Forall₂.nil
  | cons headUpTo _ inductionHypothesis =>
      exact forall₂_orderedInsert inductionHypothesis
        (List.pairwise_insertionSort _ _) (List.pairwise_insertionSort _ _)
        headUpTo

theorem eq_insertionSort {faces ranked : List Nat} (perm : ranked.Perm faces)
    (sorted : ranked.Pairwise (· ≤ ·)) :
    ranked = faces.insertionSort (· ≤ ·) :=
  (perm.trans (List.perm_insertionSort _ _).symm).eq_of_pairwise' sorted
    (List.pairwise_insertionSort _ _)

theorem forall₂_higherFaces :
    {faces raised : List Nat} → List.Forall₂ (· ≤ ·) faces raised →
      List.Forall₂ (· ≤ ·) (higherFaces faces) (higherFaces raised)
  | _, _, .nil => .nil
  | _, _, .cons alone .nil => .cons alone .nil
  | _, _, .cons first (.cons second later) =>
      .cons (max_le_max first second) (forall₂_higherFaces later)

theorem forall₂_eligibleFaces (advantage : Bool) {faces raised : List Nat}
    (upTo : List.Forall₂ (· ≤ ·) faces raised) :
    List.Forall₂ (· ≤ ·) (eligibleFaces advantage faces)
      (eligibleFaces advantage raised) := by
  unfold eligibleFaces
  split
  · exact forall₂_higherFaces upTo
  · exact upTo

theorem Operation.forall₂_keptOf (operation : Operation)
    {ranked raised : List Nat} (upTo : List.Forall₂ (· ≤ ·) ranked raised) :
    List.Forall₂ (· ≤ ·) (operation.keptOf ranked)
      (operation.keptOf raised) := by
  unfold keptOf
  rw [upTo.length_eq]
  split
  · exact List.forall₂_drop _ upTo
  · exact List.forall₂_take _ upTo

namespace Expression

variable (expression : Expression)

theorem forall₂_keptOf {ranked raised : List Nat}
    (upTo : List.Forall₂ (· ≤ ·) ranked raised) :
    List.Forall₂ (· ≤ ·) (expression.keptOf ranked)
      (expression.keptOf raised) := by
  unfold keptOf
  split
  · exact upTo
  · exact Operation.forall₂_keptOf _ upTo

/-- The ranking of raised dice is raised place by place. -/
theorem forall₂_rankedFaces {face raised : Nat → Nat}
    (upTo : ∀ place < expression.physicalDice, face place ≤ raised place) :
    List.Forall₂ (· ≤ ·) (expression.rankedFaces face)
      (expression.rankedFaces raised) := by
  have thrown :
      List.Forall₂ (· ≤ ·) ((List.range expression.physicalDice).map face)
        ((List.range expression.physicalDice).map raised) := by
    rw [List.forall₂_map_left_iff, List.forall₂_map_right_iff,
      List.forall₂_same]
    exact fun place member => upTo place (List.mem_range.mp member)
  rw [eq_insertionSort (expression.rankedFaces_perm face)
      (expression.rankedFaces_sorted face),
    eq_insertionSort (expression.rankedFaces_perm raised)
      (expression.rankedFaces_sorted raised)]
  exact forall₂_insertionSort (forall₂_eligibleFaces _ thrown)

end Expression

/-- Die by die, the second throw shows no less than the first. -/
def ThrownUpTo (dice raised : List Die) : Prop :=
  List.Forall₂ (fun die other => die.value ≤ other.value) dice raised

theorem RollLaw.drawnFace_le {expression : Expression}
    (positive : 0 < expression.sides.toNat) {draws others : List UInt64}
    {roll other : Roll} (law : RollLaw expression draws roll)
    (otherLaw : RollLaw expression others other)
    (upTo : ThrownUpTo roll.dice other.dice) :
    ∀ place < expression.physicalDice,
      drawnFace expression.sides draws place ≤
        drawnFace expression.sides others place := by
  rw [ThrownUpTo, law.dice_eq positive, otherLaw.dice_eq positive,
    List.forall₂_map_left_iff, List.forall₂_map_right_iff,
    List.forall₂_same] at upTo
  intro place thrown
  have values := upTo place (List.mem_range.mpr thrown)
  rwa [UInt32.le_iff_toNat_le, toNat_value_drawnDie positive,
    toNat_value_drawnDie positive] at values

/-- Two lists of sufficient draws roll an expression. If die by die the second
roll shows no less than the first, its total is no less. -/
theorem higher_dice_score_no_less {expression : Expression}
    (valid : expression.Valid) {draws others : List UInt64}
    (enough : expression.physicalDice ≤ draws.length)
    (othersEnough : expression.physicalDice ≤ others.length) :
    ∃ roll other,
      expression.roll draws = (.ok roll, draws.drop expression.physicalDice) ∧
        expression.roll others =
          (.ok other, others.drop expression.physicalDice) ∧
        (ThrownUpTo roll.dice other.dice → roll.total ≤ other.total) := by
  obtain ⟨roll, rolled, law⟩ := exists_roll_of_enough valid enough
  obtain ⟨other, otherRolled, otherLaw⟩ :=
    exists_roll_of_enough valid othersEnough
  refine ⟨roll, other, rolled, otherRolled, ?_⟩
  intro upTo
  have faces := law.drawnFace_le valid.sides_pos otherLaw upTo
  have kept :=
    (expression.forall₂_keptOf
      (expression.forall₂_rankedFaces faces)).sum_le_sum
  have keptTotals : roll.keptTotal ≤ other.keptTotal := by
    rw [law.keptTotal_eq_sum valid.sides_pos,
      otherLaw.keptTotal_eq_sum valid.sides_pos]
    exact Int.ofNat_le.mpr kept
  rw [law.total_eq, otherLaw.total_eq]
  omega

/-- To raise the second die of the first of two pairs makes it the better one
of its pair, and then the other pair is the lowest. -/
theorem higher_dice_score_no_less_of_two_pairs :
    let expression : Expression := ⟨2, 6, -1, some ⟨.keepLowest, 1⟩, true⟩
    let draws : List UInt64 := [3, 2, 4, 1]
    let others : List UInt64 := [3, 5, 4, 1]
    expression.Valid ∧ expression.physicalDice ≤ draws.length ∧
      expression.physicalDice ≤ others.length ∧
      ∃ roll other,
        expression.roll draws = (.ok roll, []) ∧
          expression.roll others = (.ok other, []) ∧
          ThrownUpTo roll.dice other.dice ∧
          roll.dice.map Die.kept = [true, false, false, false] ∧
          other.dice.map Die.kept = [false, false, true, false] ∧
          roll.total ≤ other.total := by
  intro expression draws others
  have valid : expression.Valid := by
    decide
  have enough : expression.physicalDice ≤ draws.length := by
    decide
  have othersEnough : expression.physicalDice ≤ others.length := by
    decide
  have thrown :
      (expression.roll draws).1.toOption.map Roll.dice =
        some
          [⟨4, 6, true⟩, ⟨3, 6, false⟩, ⟨5, 6, false⟩, ⟨2, 6, false⟩] := by
    cbv
  have otherThrown :
      (expression.roll others).1.toOption.map Roll.dice =
        some
          [⟨4, 6, false⟩, ⟨6, 6, false⟩, ⟨5, 6, true⟩, ⟨2, 6, false⟩] := by
    cbv
  obtain ⟨roll, other, rolled, otherRolled, scores⟩ :=
    higher_dice_score_no_less valid enough othersEnough
  rw [rolled] at thrown
  rw [otherRolled] at otherThrown
  have dice := Option.some.inj thrown
  have otherDice := Option.some.inj otherThrown
  have upTo : ThrownUpTo roll.dice other.dice := by
    rw [ThrownUpTo, dice, otherDice]
    simp
  refine ⟨valid, enough, othersEnough, roll, other, rolled, otherRolled, upTo,
    ?_, ?_, scores upTo⟩
  · rw [dice]
    rfl
  · rw [otherDice]
    rfl

end Tabletop.Dice
