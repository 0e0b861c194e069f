import Tabletop.Proofs.RollLaw

/-!
# Quotas

Whichever end of the ranking an operation names, and whether it keeps or drops
there, it comes to one cut: a number of dice that the expression fixes, the
quota, is kept from one end. A die counts when fewer eligible dice than the
quota stand between it and that end. So operations that keep equally many dice
from the same end are one operation, and operations that meet from both ends
divide the eligible dice among them.
-/

namespace Tabletop.Dice

/-- The dice that are kept are those at the upper end of the ranking. -/
def Cut.keepsUpper : Cut → Bool
  | .keepHighest | .dropLowest => true
  | .keepLowest | .dropHighest => false

namespace Operation

/-- The number of dice that an operation keeps of `count` eligible ones. -/
def quota (count : Nat) : Operation → Nat
  | ⟨.keepHighest, number⟩ | ⟨.keepLowest, number⟩ => min number.toNat count
  | ⟨.dropHighest, number⟩ | ⟨.dropLowest, number⟩ =>
      if number.toNat ≤ count then count - number.toNat else count

/-- The number of dice between a die and the end from which an operation
keeps. -/
def rank (operation : Operation) (above below : Nat) : Nat :=
  if operation.cut.keepsUpper then above else below

theorem quota_le (count : Nat) (operation : Operation) :
    operation.quota count ≤ count := by
  obtain ⟨cut, number⟩ := operation
  cases cut <;> simp only [quota]
  · exact Nat.min_le_right _ _
  · exact Nat.min_le_right _ _
  · split <;> omega
  · split <;> omega

/-- An operation keeps the dice that rank within its quota. -/
theorem keeps_iff_rank_lt_quota {count above below : Nat}
    (whole : above + below + 1 = count) (operation : Operation) :
    operation.Keeps count above below ↔
      operation.rank above below < operation.quota count := by
  obtain ⟨cut, number⟩ := operation
  cases cut <;>
    simp only [Keeps, quota, rank, Cut.keepsUpper, Bool.false_eq_true,
      ↓reduceIte]
  · omega
  · omega
  · split <;> omega
  · split <;> omega

end Operation

/-- The places of the eligible dice of an expression, from the lowest die to
the highest. -/
def Expression.rankedPlaces (expression : Expression) (face : Nat → Nat) :
    List Nat :=
  Dice.rankedPlaces face
    (fun place => decide (Survives expression.advantage face place))
    expression.physicalDice

namespace Expression

variable (expression : Expression) (face : Nat → Nat)

theorem rankedPlaces_perm :
    (expression.rankedPlaces face).Perm
      ((List.range expression.physicalDice).filter
        fun place => decide (Survives expression.advantage face place)) :=
  Dice.rankedPlaces_perm _ _ _

theorem length_rankedPlaces :
    (expression.rankedPlaces face).length = expression.count.toNat := by
  rw [rankedPlaces, Dice.length_rankedPlaces, countP_survives]

theorem mem_rankedPlaces_iff {place : Nat} :
    place ∈ expression.rankedPlaces face ↔
      place < expression.physicalDice ∧
        Survives expression.advantage face place := by
  rw [(expression.rankedPlaces_perm face).mem_iff, List.mem_filter,
    List.mem_range, decide_eq_true_iff]

theorem nodup_rankedPlaces : (expression.rankedPlaces face).Nodup :=
  (expression.rankedPlaces_perm face).nodup_iff.mpr
    (List.nodup_range.filter _)

/-- An eligible die stands in the ranking behind the dice that it outranks and
in front of those that outrank it. -/
theorem exists_split_of_survives {place : Nat}
    (thrown : place < expression.physicalDice)
    (survives : Survives expression.advantage face place) :
    ∃ before after,
      expression.rankedPlaces face = before ++ place :: after ∧
        place ∉ before ∧ place ∉ after ∧
        rankedBelow expression.advantage face expression.physicalDice place =
          before.length ∧
        rankedAbove expression.advantage face expression.physicalDice place =
          after.length := by
  have asymmetric :
      ∀ lower upper, Outranks face upper lower → ¬ Outranks face lower upper :=
    outranks_asymmetric face
  obtain ⟨before, after, split, notBefore, notAfter, below, above⟩ :=
    exists_split_of_sorted asymmetric (rankedPlaces_sorted _ _ _)
      ((expression.mem_rankedPlaces_iff face).mpr ⟨thrown, survives⟩)
  rw [countP_rankedPlaces] at below above
  refine ⟨before, after, split, notBefore, notAfter, ?_, ?_⟩
  · rw [← below]
    simp only [rankedBelow, Bool.decide_and, Bool.and_comm]
  · rw [← above]
    simp only [rankedAbove, Bool.decide_and, Bool.and_comm]

/-- The dice above an eligible die, those below it and the die itself are all
that are eligible. -/
theorem rankedAbove_add_rankedBelow {place : Nat}
    (thrown : place < expression.physicalDice)
    (survives : Survives expression.advantage face place) :
    rankedAbove expression.advantage face expression.physicalDice place +
        rankedBelow expression.advantage face expression.physicalDice place +
        1 =
      expression.count.toNat := by
  obtain ⟨before, after, split, _, _, below, above⟩ :=
    expression.exists_split_of_survives face thrown survives
  rw [below, above, ← expression.length_rankedPlaces face, split,
    List.length_append, List.length_cons]
  omega

end Expression

/-- With the operation given, an eligible die counts when it ranks within the
quota. -/
theorem Expression.counts_iff_rank_lt_quota {expression : Expression}
    {operation : Operation} (chosen : expression.operation = some operation)
    (face : Nat → Nat) {place : Nat} (thrown : place < expression.physicalDice)
    (survives : Survives expression.advantage face place) :
    expression.Counts face place ↔
      operation.rank
          (rankedAbove expression.advantage face expression.physicalDice place)
          (rankedBelow expression.advantage face expression.physicalDice
            place) <
        operation.quota expression.count.toNat := by
  rw [← Operation.keeps_iff_rank_lt_quota
    (expression.rankedAbove_add_rankedBelow face thrown survives)]
  simp [Expression.Counts, chosen, survives]

/-- The part of a ranking that an operation keeps. -/
def Operation.keptOf {α : Type} (operation : Operation) (ranked : List α) :
    List α :=
  if operation.cut.keepsUpper then
    ranked.drop (ranked.length - operation.quota ranked.length)
  else
    ranked.take (operation.quota ranked.length)

theorem Operation.keptOf_sublist {α : Type} (operation : Operation)
    (ranked : List α) :
    (operation.keptOf ranked).Sublist ranked := by
  unfold keptOf
  split
  · exact List.drop_sublist _ _
  · exact List.take_sublist _ _

/-- Of a ranking an operation keeps the items that rank within its quota. -/
theorem Operation.mem_keptOf_iff {α : Type} (operation : Operation)
    {before after : List α} {item : α} (notBefore : item ∉ before)
    (notAfter : item ∉ after) :
    item ∈ operation.keptOf (before ++ item :: after) ↔
      operation.rank after.length before.length <
        operation.quota (before ++ item :: after).length := by
  have within := operation.quota_le (before ++ item :: after).length
  have length : (before ++ item :: after).length =
      before.length + (after.length + 1) := by
    rw [List.length_append, List.length_cons]
  unfold keptOf rank
  split
  · rw [mem_drop_split_iff notAfter]
    omega
  · exact mem_take_split_iff notBefore _

/-- The dice that count are those that the operation keeps of the ranking. -/
theorem Expression.counted_perm {expression : Expression}
    {operation : Operation} (chosen : expression.operation = some operation)
    (face : Nat → Nat) :
    ((List.range expression.physicalDice).filter
        fun place => decide (expression.Counts face place)).Perm
      (operation.keptOf (expression.rankedPlaces face)) := by
  have kept := operation.keptOf_sublist (expression.rankedPlaces face)
  refine (List.perm_ext_iff_of_nodup (List.nodup_range.filter _)
    ((expression.nodup_rankedPlaces face).sublist kept)).mpr ?_
  intro place
  rw [List.mem_filter, List.mem_range, decide_eq_true_iff]
  by_cases eligible :
      place < expression.physicalDice ∧
        Survives expression.advantage face place
  · obtain ⟨thrown, survives⟩ := eligible
    obtain ⟨before, after, split, notBefore, notAfter, below, above⟩ :=
      expression.exists_split_of_survives face thrown survives
    have length := expression.length_rankedPlaces face
    rw [counts_iff_rank_lt_quota chosen face thrown survives, below, above,
      ← length, split, operation.mem_keptOf_iff notBefore notAfter]
    exact and_iff_right thrown
  · refine iff_of_false ?_ ?_
    · rintro ⟨thrown, counts⟩
      exact eligible ⟨thrown, counts.1⟩
    · intro isKept
      exact eligible
        ((expression.mem_rankedPlaces_iff face).mp (kept.subset isKept))

/-- The expression with another operation in place of its own, if any. -/
def Expression.cutBy (expression : Expression) (cut : Cut) (number : UInt32) :
    Expression :=
  { expression with operation := some ⟨cut, number⟩ }

theorem Expression.Valid.cutBy {expression : Expression}
    (valid : expression.Valid) (cut : Cut) {number : UInt32}
    (positive : 1 ≤ number.toNat) :
    (expression.cutBy cut number).Valid := by
  obtain ⟨count, sides, _⟩ := expression.valid_iff.mp valid
  refine (valid_iff _).mpr ⟨count, sides, ?_⟩
  intro operation chosen
  cases chosen
  rintro rfl
  cases positive

theorem Expression.counts_cutBy_iff (expression : Expression) (cut : Cut)
    (number : UInt32) (face : Nat → Nat) {place : Nat}
    (thrown : place < expression.physicalDice)
    (survives : Survives expression.advantage face place) :
    (expression.cutBy cut number).Counts face place ↔
      Operation.rank ⟨cut, number⟩
          (rankedAbove expression.advantage face expression.physicalDice place)
          (rankedBelow expression.advantage face expression.physicalDice
            place) <
        Operation.quota expression.count.toNat ⟨cut, number⟩ :=
  @counts_iff_rank_lt_quota (expression.cutBy cut number) _ rfl face _ thrown
    survives

/-- By the law, rolls that agree on which dice count show the same dice and
sums. -/
theorem RollLaw.same_outcome {expression other : Expression}
    {draws : List UInt64} {roll otherRoll : Roll}
    (law : RollLaw expression draws roll)
    (otherLaw : RollLaw other draws otherRoll)
    (positive : 0 < expression.sides.toNat)
    (thrown : other.physicalDice = expression.physicalDice)
    (sides : other.sides = expression.sides)
    (modifier : other.modifier = expression.modifier)
    (agree :
      ∀ place < expression.physicalDice,
        (other.Counts (drawnFace expression.sides draws) place ↔
          expression.Counts (drawnFace expression.sides draws) place)) :
    roll.dice = otherRoll.dice ∧
      roll.keptTotal = otherRoll.keptTotal ∧ roll.total = otherRoll.total := by
  have otherPositive : 0 < other.sides.toNat := by
    rwa [sides]
  have dice : roll.dice = otherRoll.dice := by
    rw [law.dice_eq positive, otherLaw.dice_eq otherPositive, thrown]
    apply List.map_congr_left
    intro place member
    have same := agree place (List.mem_range.mp member)
    rw [drawnDie, drawnDie, sides]
    simp only [same]
  have keptTotal : roll.keptTotal = otherRoll.keptTotal := by
    rw [law.keptTotal_eq_keptSum positive,
      otherLaw.keptTotal_eq_keptSum otherPositive, dice]
  refine ⟨dice, keptTotal, ?_⟩
  rw [law.total_eq, otherLaw.total_eq, keptTotal, modifier]

/-- The draws suffice for both expressions, which then show the same dice and
sums and leave the same draws. -/
def RollAlike (draws : List UInt64) (expression other : Expression) : Prop :=
  ∃ roll otherRoll left,
    expression.roll draws = (.ok roll, left) ∧
      other.roll draws = (.ok otherRoll, left) ∧
      roll.dice = otherRoll.dice ∧
      roll.keptTotal = otherRoll.keptTotal ∧ roll.total = otherRoll.total

/-- The draws suffice for both expressions, and of the dice that are eligible
the first counts exactly those that the second drops. -/
def DivideDice (draws : List UInt64) (expression other : Expression) : Prop :=
  ∃ roll otherRoll left,
    expression.roll draws = (.ok roll, left) ∧
      other.roll draws = (.ok otherRoll, left) ∧
      ∀ place < expression.physicalDice,
        ∃ die otherDie,
          roll.dice[place]? = some die ∧
            otherRoll.dice[place]? = some otherDie ∧
            (die.kept = true ↔
              Survives expression.advantage
                  (drawnFace expression.sides draws) place ∧
                otherDie.kept = false)

section Meeting

variable {expression : Expression} (valid : expression.Valid)
  {number rest : UInt32} (number_pos : 1 ≤ number.toNat)
  (rest_pos : 1 ≤ rest.toNat) {draws : List UInt64}
  (enough : expression.physicalDice ≤ draws.length)

include valid number_pos rest_pos enough

/-- Two cuts give the same roll when they keep equally many dice from the same
end. -/
theorem rollAlike_of_quota_eq {cut other : Cut}
    (ends : other.keepsUpper = cut.keepsUpper)
    (quotas :
      Operation.quota expression.count.toNat ⟨other, rest⟩ =
        Operation.quota expression.count.toNat ⟨cut, number⟩) :
    RollAlike draws (expression.cutBy cut number)
      (expression.cutBy other rest) := by
  obtain ⟨roll, rolled, law⟩ :=
    exists_roll_of_enough (valid.cutBy cut number_pos) enough
  obtain ⟨otherRoll, otherRolled, otherLaw⟩ :=
    exists_roll_of_enough (valid.cutBy other rest_pos) enough
  refine ⟨roll, otherRoll, _, rolled, otherRolled,
    law.same_outcome otherLaw valid.sides_pos rfl rfl rfl ?_⟩
  intro place thrown
  by_cases survives :
      Survives expression.advantage (drawnFace expression.sides draws) place
  · have counts := expression.counts_cutBy_iff cut number _ thrown survives
    have otherCounts := expression.counts_cutBy_iff other rest _ thrown survives
    rw [quotas, Operation.rank, ends] at otherCounts
    exact otherCounts.trans counts.symm
  · exact iff_of_false (fun counts => survives counts.1)
      (fun counts => survives counts.1)

/-- Two cuts divide the eligible dice when they keep all of them together, each
from its own end. -/
theorem divideDice_of_quota_add {cut other : Cut}
    (upper : cut.keepsUpper = true) (lower : other.keepsUpper = false)
    (quotas :
      Operation.quota expression.count.toNat ⟨cut, number⟩ +
          Operation.quota expression.count.toNat ⟨other, rest⟩ =
        expression.count.toNat) :
    DivideDice draws (expression.cutBy cut number)
      (expression.cutBy other rest) := by
  obtain ⟨roll, rolled, law⟩ :=
    exists_roll_of_enough (valid.cutBy cut number_pos) enough
  obtain ⟨otherRoll, otherRolled, otherLaw⟩ :=
    exists_roll_of_enough (valid.cutBy other rest_pos) enough
  refine ⟨roll, otherRoll, _, rolled, otherRolled, ?_⟩
  intro place thrown
  obtain ⟨die, holds, _, _, kept⟩ := law.die_at place thrown
  obtain ⟨otherDie, otherHolds, _, _, otherKept⟩ :=
    otherLaw.die_at place thrown
  refine ⟨die, otherDie, holds, otherHolds, ?_⟩
  rw [← Bool.not_eq_true, kept, otherKept]
  by_cases survives :
      Survives expression.advantage (drawnFace expression.sides draws) place
  · have whole :=
      expression.rankedAbove_add_rankedBelow (drawnFace expression.sides draws)
        thrown survives
    have counts := expression.counts_cutBy_iff cut number _ thrown survives
    have otherCounts := expression.counts_cutBy_iff other rest _ thrown survives
    rw [Operation.rank, if_pos upper] at counts
    rw [Operation.rank, if_neg (Bool.eq_false_iff.mp lower)] at otherCounts
    refine counts.trans (Iff.trans ?_ (and_iff_right survives).symm)
    refine Iff.trans ?_ (not_congr otherCounts).symm
    omega
  · exact iff_of_false (fun counts => survives counts.1)
      (fun counts => survives counts.1)

end Meeting

/-- Keeping some of the highest dice is dropping the rest from below, keeping
as many of the lowest is dropping the rest from above, and the highest dice
that are kept are those that remain when the rest is kept from below. -/
theorem four_cuts_are_one {expression : Expression}
    (valid : expression.Valid) {number : UInt32} (positive : 1 ≤ number)
    (below : number < expression.count) {draws : List UInt64}
    (enough : expression.physicalDice ≤ draws.length) :
    RollAlike draws (expression.cutBy .keepHighest number)
        (expression.cutBy .dropLowest (expression.count - number)) ∧
      RollAlike draws (expression.cutBy .keepLowest number)
        (expression.cutBy .dropHighest (expression.count - number)) ∧
      DivideDice draws (expression.cutBy .keepHighest number)
        (expression.cutBy .keepLowest (expression.count - number)) := by
  have number_pos : 1 ≤ number.toNat := UInt32.le_iff_toNat_le.mp positive
  have below : number.toNat < expression.count.toNat :=
    UInt32.lt_iff_toNat_lt.mp below
  have rest :
      (expression.count - number).toNat =
        expression.count.toNat - number.toNat :=
    UInt32.toNat_sub_of_le _ _ (UInt32.le_iff_toNat_le.mpr below.le)
  have rest_pos : 1 ≤ (expression.count - number).toNat := by
    omega
  refine ⟨?_, ?_, ?_⟩
  · refine rollAlike_of_quota_eq valid number_pos rest_pos enough rfl ?_
    simp only [Operation.quota, rest]
    split <;> omega
  · refine rollAlike_of_quota_eq valid number_pos rest_pos enough rfl ?_
    simp only [Operation.quota, rest]
    split <;> omega
  · refine divideDice_of_quota_add valid number_pos rest_pos enough rfl rfl ?_
    simp only [Operation.quota, rest]
    omega

/-- Two pairs, of sixes and of a three and a one: the first six is the highest
eligible die and the three the lowest, and the four cuts agree on them. -/
theorem four_cuts_are_one_of_two_pairs :
    let expression : Expression := ⟨2, 6, 1, none, true⟩
    let draws : List UInt64 := [5, 11, 2, 0]
    let highest := expression.cutBy .keepHighest 1
    expression.Valid ∧ expression.physicalDice ≤ draws.length ∧
      highest.Counts (drawnFace 6 draws) 0 ∧
      ¬ highest.Counts (drawnFace 6 draws) 2 ∧
      RollAlike draws highest (expression.cutBy .dropLowest 1) ∧
      RollAlike draws (expression.cutBy .keepLowest 1)
        (expression.cutBy .dropHighest 1) ∧
      DivideDice draws highest (expression.cutBy .keepLowest 1) := by
  intro expression draws highest
  have valid : expression.Valid := by
    decide
  have enough : expression.physicalDice ≤ draws.length := by
    decide
  have counts : highest.Counts (drawnFace 6 draws) 0 := by
    decide
  have falls : ¬ highest.Counts (drawnFace 6 draws) 2 := by
    decide
  have number_pos : (1 : UInt32) ≤ 1 := by
    decide
  have below : 1 < expression.count := by
    decide
  have rest : expression.count - 1 = 1 := by
    decide
  have meet := four_cuts_are_one valid number_pos below enough
  rw [rest] at meet
  exact ⟨valid, enough, counts, falls, meet⟩

end Tabletop.Dice
