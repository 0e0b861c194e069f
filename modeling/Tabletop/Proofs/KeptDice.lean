import Tabletop.Proofs.BestScores

/-!
# The dice that count

The dice that count, of an expression with an operation or without one, are a
part of the ranking of the eligible dice: an operation keeps its quota from one
end, and without one all of them count. So a roll by the law keeps as many dice
as the expression says, and their faces are a part of the ranked faces.
-/

namespace Tabletop.Dice

namespace Expression

/-- The part of a ranking that counts: what the operation keeps of it, and all
of it without one. -/
def keptOf {α : Type} (expression : Expression) (ranked : List α) : List α :=
  match expression.operation with
  | none => ranked
  | some operation => operation.keptOf ranked

/-- The number of dice that count. -/
def keptNumber (expression : Expression) : Nat :=
  match expression.operation with
  | none => expression.count.toNat
  | some operation => operation.quota expression.count.toNat

theorem keptNumber_le (expression : Expression) :
    expression.keptNumber ≤ expression.count.toNat := by
  unfold keptNumber
  split
  · exact Nat.le_refl _
  · exact Operation.quota_le _ _

theorem keptOf_map {α β : Type} (expression : Expression) (change : α → β)
    (ranked : List α) :
    (expression.keptOf ranked).map change =
      expression.keptOf (ranked.map change) := by
  unfold keptOf
  split
  · rfl
  · exact Operation.keptOf_map _ change ranked

theorem length_keptOf {α : Type} (expression : Expression) {ranked : List α}
    (whole : ranked.length = expression.count.toNat) :
    (expression.keptOf ranked).length = expression.keptNumber := by
  unfold keptOf keptNumber
  split
  · exact whole
  · rename_i operation _
    have within := operation.quota_le ranked.length
    rw [← whole, Operation.keptOf]
    split
    · rw [List.length_drop]
      omega
    · exact List.length_take_of_le within

/-- The dice that count are those in the kept part of the ranking. -/
theorem counted_perm_keptOf (expression : Expression) (face : Nat → Nat) :
    ((List.range expression.physicalDice).filter
        fun place => decide (expression.Counts face place)).Perm
      (expression.keptOf (expression.rankedPlaces face)) := by
  unfold keptOf
  split
  · rename_i plain
    have eligible :
        ∀ place,
          expression.Counts face place ↔
            Survives expression.advantage face place := by
      intro place
      simp [Counts, plain]
    simp only [eligible]
    exact (expression.rankedPlaces_perm face).symm
  · rename_i operation chosen
    exact counted_perm chosen face

end Expression

section Kept

variable {expression : Expression} {draws : List UInt64} {roll : Roll}
  (law : RollLaw expression draws roll)
  (positive : 0 < expression.sides.toNat)

include law positive

theorem RollLaw.kept_eq :
    roll.kept =
      ((List.range expression.physicalDice).filter fun place =>
          decide
            (expression.Counts (drawnFace expression.sides draws) place)).map
        (drawnDie expression draws) := by
  rw [Roll.kept, law.dice_eq positive, List.filter_map]
  rfl

/-- The kept dice show the kept part of the ranked faces. -/
theorem RollLaw.keptFaces_perm :
    (roll.kept.map fun die => die.value.toNat).Perm
      (expression.keptOf
        (expression.rankedFaces (drawnFace expression.sides draws))) := by
  have counted :=
    (expression.counted_perm_keptOf (drawnFace expression.sides draws)).map
      (drawnFace expression.sides draws)
  rw [Expression.keptOf_map, ← Expression.rankedFaces] at counted
  rw [law.kept_eq positive, List.map_map]
  simpa only [Function.comp_def, toNat_value_drawnDie positive] using counted

/-- The sum is over the kept dice. -/
theorem RollLaw.keptTotal_eq_sum_kept :
    roll.keptTotal = (roll.kept.map fun die => die.value.toNat).sum := by
  rw [law.keptTotal_eq_keptSum positive, keptSum_eq_sum, Roll.kept]

theorem RollLaw.keptTotal_eq_sum :
    roll.keptTotal =
      (expression.keptOf
        (expression.rankedFaces (drawnFace expression.sides draws))).sum := by
  rw [law.keptTotal_eq_sum_kept positive, (law.keptFaces_perm positive).sum_eq]

theorem RollLaw.length_kept : roll.kept.length = expression.keptNumber := by
  have length := (law.keptFaces_perm positive).length_eq
  rwa [List.length_map,
    expression.length_keptOf (expression.length_rankedFaces _)] at length

end Kept

/-- Every die counts or is dropped. -/
theorem Roll.kept_append_dropped_perm (roll : Roll) :
    (roll.kept ++ roll.dropped).Perm roll.dice :=
  List.filter_append_perm Die.kept roll.dice

end Tabletop.Dice
