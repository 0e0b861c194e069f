import Tabletop.Proofs.Quotas

/-!
# Best scores

What an operation promises to whoever rolls: of all choices of so many eligible
dice, none adds up to more than the highest ones that are kept, and none to
less than the lowest ones. In a sorted list each item of a choice is no less
than the item at the same place of the list, and so the choice adds up to no
less than a beginning of the list of equal length; the same holds from the end.
-/

namespace Tabletop.Dice

/-- The higher face of each pair. -/
def higherFaces : List Nat → List Nat
  | first :: second :: rest => max first second :: higherFaces rest
  | [face] => [face]
  | [] => []

/-- The faces among which an operation chooses: the higher of each pair under
advantage, and all of them otherwise. -/
def eligibleFaces (advantage : Bool) (faces : List Nat) : List Nat :=
  if advantage then higherFaces faces else faces

theorem higherFaces_map_range' (face : Nat → Nat) (pairs : Nat) {start : Nat}
    (even : start % 2 = 0) :
    higherFaces ((List.range' start (pairs * 2)).map face) =
      ((List.range' start (pairs * 2)).filter
        fun place => decide (Survives true face place)).map face := by
  induction pairs generalizing start with
  | zero =>
      rfl
  | succ pairs inductionHypothesis =>
      have evenNext : (start + 1 + 1) % 2 = 0 := by
        omega
      rw [Nat.succ_mul, List.range'_succ, List.range'_succ, List.map_cons,
        List.map_cons, higherFaces, inductionHypothesis evenNext]
      by_cases first : face (start + 1) ≤ face start
      · rw [List.filter_cons_of_pos, List.filter_cons_of_neg, List.map_cons,
          Nat.max_eq_left first]
        · simpa [survives_succ_iff_of_even even] using first
        · simpa [survives_iff_of_even even] using first
      · rw [List.filter_cons_of_neg, List.filter_cons_of_pos, List.map_cons,
          Nat.max_eq_right (Nat.le_of_not_le first)]
        · simpa [survives_succ_iff_of_even even] using first
        · simpa [survives_iff_of_even even] using first

/-- The eligible faces are those that the eligible dice show. -/
theorem eligibleFaces_map_range (expression : Expression) (face : Nat → Nat) :
    eligibleFaces expression.advantage
        ((List.range expression.physicalDice).map face) =
      ((List.range expression.physicalDice).filter fun place =>
        decide (Survives expression.advantage face place)).map face := by
  unfold Expression.physicalDice
  cases expression.advantage with
  | false =>
      simp [eligibleFaces, Survives]
  | true =>
      rw [eligibleFaces, if_pos rfl, if_pos rfl, List.range_eq_range']
      exact higherFaces_map_range' face _ rfl

/-- What so many of the faces, chosen in any way, can add up to. -/
def sumsOf (number : Nat) (faces : List Nat) : Set Nat :=
  {sum | ∃ chosen : List Nat,
    chosen.Sublist faces ∧ chosen.length = number ∧ chosen.sum = sum}

theorem sumsOf_subset_of_perm {faces others : List Nat}
    (perm : faces.Perm others) (number : Nat) :
    sumsOf number faces ⊆ sumsOf number others := by
  rintro sum ⟨chosen, sublist, length, rfl⟩
  obtain ⟨same, samePerm, sameSublist⟩ := sublist.subperm.trans perm.subperm
  exact ⟨same, sameSublist, samePerm.length_eq.trans length, samePerm.sum_eq⟩

theorem sumsOf_eq_of_perm {faces others : List Nat}
    (perm : faces.Perm others) (number : Nat) :
    sumsOf number faces = sumsOf number others :=
  Set.Subset.antisymm (sumsOf_subset_of_perm perm number)
    (sumsOf_subset_of_perm perm.symm number)

/-- The items of a choice from a sorted list come no earlier than those at the
same places of the list. -/
theorem forall₂_take_of_sublist {α : Type} {upTo : α → α → Prop}
    (reflexive : ∀ item, upTo item item) {items chosen : List α}
    (sorted : items.Pairwise upTo) (sublist : chosen.Sublist items) :
    List.Forall₂ upTo (items.take chosen.length) chosen := by
  induction items generalizing chosen with
  | nil =>
      rw [List.sublist_nil.mp sublist]
      exact List.Forall₂.nil
  | cons head rest inductionHypothesis =>
      obtain ⟨headUpTo, restSorted⟩ := List.pairwise_cons.mp sorted
      cases chosen with
      | nil =>
          exact List.Forall₂.nil
      | cons first others =>
          rw [List.length_cons, List.take_succ_cons]
          refine List.Forall₂.cons ?_
            (inductionHypothesis restSorted sublist.tail)
          rcases List.mem_cons.mp (sublist.subset List.mem_cons_self)
            with rfl | inRest
          · exact reflexive first
          · exact headUpTo first inRest

section Sorted

variable {faces : List Nat} (sorted : faces.Pairwise (· ≤ ·)) {number : Nat}
  (within : number ≤ faces.length)

include sorted within

/-- The lowest faces add up to the least sum. -/
theorem isLeast_sumsOf_take :
    IsLeast (sumsOf number faces) (faces.take number).sum := by
  refine ⟨⟨_, List.take_sublist _ _, List.length_take_of_le within, rfl⟩, ?_⟩
  rintro sum ⟨chosen, sublist, rfl, rfl⟩
  exact (forall₂_take_of_sublist Nat.le_refl sorted sublist).sum_le_sum

/-- The highest faces add up to the greatest sum. -/
theorem isGreatest_sumsOf_drop :
    IsGreatest (sumsOf number faces)
      (faces.drop (faces.length - number)).sum := by
  refine ⟨⟨_, List.drop_sublist _ _, ?_, rfl⟩, ?_⟩
  · rw [List.length_drop, Nat.sub_sub_self within]
  · rintro sum ⟨chosen, sublist, rfl, rfl⟩
    have descending : faces.reverse.Pairwise (· ≥ ·) :=
      List.pairwise_reverse.mpr sorted
    have reflexive : ∀ face : Nat, face ≥ face := Nat.le_refl
    have above :=
      forall₂_take_of_sublist reflexive descending
        (List.reverse_sublist.mpr sublist)
    have sums := above.flip.sum_le_sum
    rwa [List.length_reverse, List.take_reverse, List.sum_reverse,
      List.sum_reverse] at sums

end Sorted

/-- What an operation promises of the sum of the dice that count when `count`
of them are eligible: the extreme sum of its end over all choices of as many
dice as it keeps. To drop more dice than there are is to drop none. -/
def Operation.Promises (count : Nat) (faces : List Nat) (sum : Nat) :
    Operation → Prop
  | ⟨.keepHighest, number⟩ =>
      IsGreatest (sumsOf (min number.toNat count) faces) sum
  | ⟨.keepLowest, number⟩ =>
      IsLeast (sumsOf (min number.toNat count) faces) sum
  | ⟨.dropHighest, number⟩ =>
      if number.toNat ≤ count then
        IsLeast (sumsOf (count - number.toNat) faces) sum
      else
        sum = faces.sum
  | ⟨.dropLowest, number⟩ =>
      if number.toNat ≤ count then
        IsGreatest (sumsOf (count - number.toNat) faces) sum
      else
        sum = faces.sum

namespace Operation

theorem Promises.of_perm {operation : Operation} {count sum : Nat}
    {faces others : List Nat} (promises : operation.Promises count faces sum)
    (perm : faces.Perm others) :
    operation.Promises count others sum := by
  obtain ⟨cut, number⟩ := operation
  cases cut <;>
    simpa only [Promises, sumsOf_eq_of_perm perm, perm.sum_eq] using promises

theorem keptOf_map {α β : Type} (operation : Operation) (change : α → β)
    (ranked : List α) :
    (operation.keptOf ranked).map change =
      operation.keptOf (ranked.map change) := by
  unfold keptOf
  rw [List.length_map]
  split
  · exact List.map_drop
  · exact List.map_take

/-- What an operation keeps of the faces in their order is what it promises. -/
theorem promises_keptOf (operation : Operation) {faces : List Nat}
    (sorted : faces.Pairwise (· ≤ ·)) :
    operation.Promises faces.length faces (operation.keptOf faces).sum := by
  have within := operation.quota_le faces.length
  have least := isLeast_sumsOf_take sorted within
  have greatest := isGreatest_sumsOf_drop sorted within
  obtain ⟨cut, number⟩ := operation
  cases cut with
  | keepHighest =>
      exact greatest
  | keepLowest =>
      exact least
  | dropHighest =>
      by_cases enough : number.toNat ≤ faces.length
      · simp only [Promises, keptOf, quota, Cut.keepsUpper, if_pos enough]
          at least ⊢
        exact least
      · simp only [Promises, keptOf, quota, Cut.keepsUpper, if_neg enough]
        simp
  | dropLowest =>
      by_cases enough : number.toNat ≤ faces.length
      · simp only [Promises, keptOf, quota, Cut.keepsUpper, if_pos enough]
          at greatest ⊢
        exact greatest
      · simp only [Promises, keptOf, quota, Cut.keepsUpper, if_neg enough]
        simp

end Operation

/-- The faces of the ranked dice, from the lowest to the highest. -/
def Expression.rankedFaces (expression : Expression) (face : Nat → Nat) :
    List Nat :=
  (expression.rankedPlaces face).map face

theorem Expression.rankedFaces_perm (expression : Expression)
    (face : Nat → Nat) :
    (expression.rankedFaces face).Perm
      (eligibleFaces expression.advantage
        ((List.range expression.physicalDice).map face)) := by
  rw [eligibleFaces_map_range]
  exact (expression.rankedPlaces_perm face).map face

theorem Expression.rankedFaces_sorted (expression : Expression)
    (face : Nat → Nat) :
    (expression.rankedFaces face).Pairwise (· ≤ ·) := by
  refine List.pairwise_map.mpr ((rankedPlaces_sorted _ _ _).imp ?_)
  intro lower upper outranks
  unfold Outranks at outranks
  omega

theorem Expression.length_rankedFaces (expression : Expression)
    (face : Nat → Nat) :
    (expression.rankedFaces face).length = expression.count.toNat := by
  rw [rankedFaces, List.length_map, length_rankedPlaces]

/-- The sum of the dice that count is the one that the operation promises. -/
theorem Expression.promises_counted {expression : Expression}
    {operation : Operation} (chosen : expression.operation = some operation)
    (face : Nat → Nat) :
    operation.Promises expression.count.toNat
      (eligibleFaces expression.advantage
        ((List.range expression.physicalDice).map face))
      (((List.range expression.physicalDice).filter fun place =>
        decide (expression.Counts face place)).map face).sum := by
  have counted := (counted_perm chosen face).map face
  have promises := operation.promises_keptOf (expression.rankedFaces_sorted face)
  rw [expression.length_rankedFaces face] at promises
  rw [counted.sum_eq, operation.keptOf_map]
  exact promises.of_perm (expression.rankedFaces_perm face)

/-- Enough draws give every valid expression as many eligible faces as it asks
for dice. Without an operation the kept total is the sum of them all, and with
one it is what the operation promises. -/
theorem kept_total_is_optimal {expression : Expression}
    (valid : expression.Valid) {draws : List UInt64}
    (enough : expression.physicalDice ≤ draws.length) :
    let faces :=
      eligibleFaces expression.advantage
        ((List.range expression.physicalDice).map
          (drawnFace expression.sides draws))
    faces.length = expression.count.toNat ∧
      ∃ roll, ∃ sum : Nat,
        expression.roll draws =
            (.ok roll, draws.drop expression.physicalDice) ∧
          roll.keptTotal = sum ∧
          (expression.operation = none → sum = faces.sum) ∧
          ∀ operation ∈ expression.operation,
            operation.Promises expression.count.toNat faces sum := by
  intro faces
  have length : faces.length = expression.count.toNat := by
    rw [← (expression.rankedFaces_perm _).length_eq,
      expression.length_rankedFaces]
  obtain ⟨roll, rolled, law⟩ := exists_roll_of_enough valid enough
  refine ⟨length, roll, _, rolled, law.keptTotal_eq, ?_, ?_⟩
  · intro plain
    show _ = (eligibleFaces _ _).sum
    rw [eligibleFaces_map_range]
    simp [Expression.Counts, plain]
  · intro operation chosen
    exact Expression.promises_counted chosen _

/-- Three dice under advantage show a six, a two and a five; dropping the
lowest keeps eleven, the most that two of them can add up to. -/
theorem kept_total_is_optimal_of_three_pairs :
    let expression : Expression := ⟨3, 6, 0, some ⟨.dropLowest, 1⟩, true⟩
    let draws : List UInt64 := [5, 11, 1, 0, 2, 4]
    expression.Valid ∧ expression.physicalDice ≤ draws.length ∧
      ∃ roll,
        expression.roll draws = (.ok roll, []) ∧ roll.keptTotal = 11 ∧
          IsGreatest (sumsOf 2 [6, 2, 5]) 11 := by
  intro expression draws
  have valid : expression.Valid := by
    decide
  have enough : expression.physicalDice ≤ draws.length := by
    decide
  have shown :
      eligibleFaces true ((List.range 6).map (drawnFace 6 draws)) =
        [6, 2, 5] := by
    decide
  have scored :
      (expression.roll draws).1.toOption.map Roll.keptTotal = some 11 := by
    cbv
  obtain ⟨_, roll, sum, rolled, total, _, promises⟩ :=
    kept_total_is_optimal valid enough
  have greatest : IsGreatest (sumsOf 2 [6, 2, 5]) sum :=
    shown ▸ promises _ rfl
  rw [rolled] at scored
  have eleven : roll.keptTotal = 11 := Option.some.inj scored
  obtain rfl : sum = 11 := Int.ofNat.inj (total.symm.trans eleven)
  exact ⟨valid, enough, roll, rolled, eleven, greatest⟩

end Tabletop.Dice
