import Tabletop.Proofs.KeptDice

/-!
# Rearranged dice

The order in which dice fall does not affect what they score. Where the faces
of two dice are equal their places decide which of them counts, but the faces
that count are a part of the ranked faces, and these are the same for any order
of the dice, or of the pairs and of the dice in each pair under advantage.
-/

namespace Tabletop.Dice

section Pairs

variable {α : Type}

/-- The items two by two, each two of them without an order. -/
def pairsOf : List α → List (Sym2 α)
  | first :: second :: rest => s(first, second) :: pairsOf rest
  | _ => []

/-- The same items in another order. Under advantage only whole pairs change
their places, and the two items of a pair with each other. -/
def Rearranged (advantage : Bool) (items others : List α) : Prop :=
  match advantage with
  | true => (pairsOf items).Perm (pairsOf others)
  | false => items.Perm others

theorem pairsOf_map {β : Type} (change : α → β) :
    (items : List α) →
      pairsOf (items.map change) = (pairsOf items).map (Sym2.map change)
  | [] => rfl
  | [_] => rfl
  | _ :: _ :: rest => by
      rw [List.map_cons, List.map_cons, pairsOf, pairsOf_map change rest,
        pairsOf, List.map_cons, Sym2.map_mk]

theorem Rearranged.map {β : Type} {advantage : Bool} {items others : List α}
    (rearranged : Rearranged advantage items others) (change : α → β) :
    Rearranged advantage (items.map change) (others.map change) := by
  cases advantage with
  | true =>
      rw [Rearranged, pairsOf_map, pairsOf_map]
      exact List.Perm.map (Sym2.map change) rearranged
  | false =>
      exact List.Perm.map change rearranged

theorem coe_eq_sum_pairsOf :
    (items : List α) → items.length % 2 = 0 →
      (items : Multiset α) = ((pairsOf items).map Sym2.toMultiset).sum
  | [], _ => rfl
  | [_], odd => nomatch odd
  | first :: second :: rest, even => by
      have evenRest : rest.length % 2 = 0 := by
        rw [List.length_cons, List.length_cons] at even
        omega
      rw [pairsOf, List.map_cons, List.sum_cons,
        ← coe_eq_sum_pairsOf rest evenRest]
      rfl

theorem Rearranged.perm {advantage : Bool} {items others : List α}
    (rearranged : Rearranged advantage items others)
    (paired : advantage = true → items.length % 2 = 0)
    (othersPaired : advantage = true → others.length % 2 = 0) :
    items.Perm others := by
  cases advantage with
  | true =>
      rw [← Multiset.coe_eq_coe, coe_eq_sum_pairsOf items (paired rfl),
        coe_eq_sum_pairsOf others (othersPaired rfl)]
      exact (List.Perm.map Sym2.toMultiset rearranged).sum_eq
  | false =>
      exact rearranged

end Pairs

theorem higherFaces_eq_map_sup :
    (faces : List Nat) → faces.length % 2 = 0 →
      higherFaces faces = (pairsOf faces).map Sym2.sup
  | [], _ => rfl
  | [_], odd => nomatch odd
  | first :: second :: rest, even => by
      have evenRest : rest.length % 2 = 0 := by
        rw [List.length_cons, List.length_cons] at even
        omega
      rw [higherFaces, pairsOf, List.map_cons, Sym2.sup_mk,
        higherFaces_eq_map_sup rest evenRest]

theorem Rearranged.eligibleFaces_perm {advantage : Bool}
    {faces others : List Nat}
    (rearranged : Rearranged advantage faces others)
    (paired : advantage = true → faces.length % 2 = 0)
    (othersPaired : advantage = true → others.length % 2 = 0) :
    (eligibleFaces advantage faces).Perm (eligibleFaces advantage others) := by
  cases advantage with
  | true =>
      rw [eligibleFaces, eligibleFaces, if_pos rfl, if_pos rfl,
        higherFaces_eq_map_sup faces (paired rfl),
        higherFaces_eq_map_sup others (othersPaired rfl)]
      exact List.Perm.map Sym2.sup rearranged
  | false =>
      exact rearranged

/-- Rearranged dice have the same ranked faces. -/
theorem Expression.rankedFaces_eq_of_rearranged (expression : Expression)
    {face other : Nat → Nat}
    (rearranged :
      Rearranged expression.advantage
        ((List.range expression.physicalDice).map face)
        ((List.range expression.physicalDice).map other)) :
    expression.rankedFaces face = expression.rankedFaces other := by
  have paired :
      ∀ shown : Nat → Nat,
        expression.advantage = true →
          ((List.range expression.physicalDice).map shown).length % 2 = 0 := by
    intro shown advantaged
    rw [List.length_map, List.length_range]
    exact physicalDice_paired expression advantaged
  have eligible :=
    rearranged.eligibleFaces_perm (paired face) (paired other)
  have perm :=
    ((expression.rankedFaces_perm face).trans eligible).trans
      (expression.rankedFaces_perm other).symm
  exact perm.eq_of_pairwise' (expression.rankedFaces_sorted face)
    (expression.rankedFaces_sorted other)

section Outcome

variable {expression : Expression} {draws others : List UInt64}
  {roll other : Roll} (law : RollLaw expression draws roll)
  (otherLaw : RollLaw expression others other)
  (positive : 0 < expression.sides.toNat)
  (rearranged :
    Rearranged expression.advantage (roll.dice.map Die.value)
      (other.dice.map Die.value))

include law positive

theorem RollLaw.faces_eq :
    (roll.dice.map Die.value).map UInt32.toNat =
      (List.range expression.physicalDice).map
        (drawnFace expression.sides draws) := by
  rw [law.dice_eq positive, List.map_map, List.map_map]
  exact List.map_congr_left
    fun place _ => toNat_value_drawnDie positive draws place

include otherLaw rearranged

theorem RollLaw.rankedFaces_eq :
    expression.rankedFaces (drawnFace expression.sides draws) =
      expression.rankedFaces (drawnFace expression.sides others) := by
  have faces := rearranged.map UInt32.toNat
  rw [law.faces_eq positive, otherLaw.faces_eq positive] at faces
  exact expression.rankedFaces_eq_of_rearranged faces

theorem RollLaw.kept_values_perm :
    (roll.kept.map Die.value).Perm (other.kept.map Die.value) := by
  have faces := law.keptFaces_perm positive
  rw [law.rankedFaces_eq otherLaw positive rearranged] at faces
  have same := faces.trans (otherLaw.keptFaces_perm positive).symm
  rw [← List.map_perm_map_iff (f := UInt32.toNat)
    (fun _ _ => UInt32.toNat_inj.mp), List.map_map, List.map_map]
  exact same

theorem RollLaw.dropped_values_perm :
    (roll.dropped.map Die.value).Perm (other.dropped.map Die.value) := by
  have paired :
      ∀ {shown : Roll} {script : List UInt64},
        RollLaw expression script shown → expression.advantage = true →
          (shown.dice.map Die.value).length % 2 = 0 := by
    intro shown script shownLaw advantaged
    rw [List.length_map, shownLaw.length_dice]
    exact physicalDice_paired expression advantaged
  have kept := law.kept_values_perm otherLaw positive rearranged
  have all := roll.kept_append_dropped_perm.map Die.value
  have otherAll := other.kept_append_dropped_perm.map Die.value
  rw [List.map_append] at all otherAll
  have whole :=
    (all.trans (rearranged.perm (paired law) (paired otherLaw))).trans
      otherAll.symm
  exact (List.perm_append_left_iff _).mp
    (whole.trans (kept.symm.append_right _))

end Outcome

/-- Two lists of sufficient draws roll an expression. If the dice of the second
roll are those of the first in another order, by whole pairs under advantage,
both rolls have the same totals, keep the same values and drop the same
values. -/
theorem rearranged_dice_score_alike {expression : Expression}
    (valid : expression.Valid) {draws others : List UInt64}
    (enough : expression.physicalDice ≤ draws.length)
    (othersEnough : expression.physicalDice ≤ others.length) :
    ∃ roll other,
      expression.roll draws = (.ok roll, draws.drop expression.physicalDice) ∧
        expression.roll others =
          (.ok other, others.drop expression.physicalDice) ∧
        (Rearranged expression.advantage (roll.dice.map Die.value)
            (other.dice.map Die.value) →
          roll.keptTotal = other.keptTotal ∧ roll.total = other.total ∧
            (roll.kept.map Die.value).Perm (other.kept.map Die.value) ∧
            (roll.dropped.map Die.value).Perm
              (other.dropped.map Die.value)) := by
  obtain ⟨roll, rolled, law⟩ := exists_roll_of_enough valid enough
  obtain ⟨other, otherRolled, otherLaw⟩ :=
    exists_roll_of_enough valid othersEnough
  refine ⟨roll, other, rolled, otherRolled, ?_⟩
  intro rearranged
  have positive := valid.sides_pos
  have keptTotal : roll.keptTotal = other.keptTotal := by
    rw [law.keptTotal_eq_sum positive, otherLaw.keptTotal_eq_sum positive,
      law.rankedFaces_eq otherLaw positive rearranged]
  refine ⟨keptTotal, ?_,
    law.kept_values_perm otherLaw positive rearranged,
    law.dropped_values_perm otherLaw positive rearranged⟩
  rw [law.total_eq, otherLaw.total_eq, keptTotal]

/-- Of the two eligible fours the later one counts: the four of the mixed pair
in one throw, and the first of the two fours of the other pair once the pairs,
and the dice of the mixed pair, have changed places. -/
theorem rearranged_dice_score_alike_of_two_pairs :
    let expression : Expression := ⟨2, 6, 0, some ⟨.keepHighest, 1⟩, true⟩
    let draws : List UInt64 := [3, 3, 1, 3]
    let others : List UInt64 := [3, 1, 3, 3]
    expression.Valid ∧ expression.physicalDice ≤ draws.length ∧
      expression.physicalDice ≤ others.length ∧
      ∃ roll other,
        expression.roll draws = (.ok roll, []) ∧
          expression.roll others = (.ok other, []) ∧
          Rearranged true (roll.dice.map Die.value)
            (other.dice.map Die.value) ∧
          roll.dice.map Die.kept = [false, false, false, true] ∧
          other.dice.map Die.kept = [false, false, true, false] ∧
          roll.total = other.total ∧
          (roll.dropped.map Die.value).Perm
            (other.dropped.map Die.value) := by
  intro expression draws others
  have valid : expression.Valid := by
    decide
  have enough : expression.physicalDice ≤ draws.length := by
    decide
  have othersEnough : expression.physicalDice ≤ others.length := by
    decide
  have thrown :
      (expression.roll draws).1.toOption.map Roll.dice =
        some
          [⟨4, 6, false⟩, ⟨4, 6, false⟩, ⟨2, 6, false⟩, ⟨4, 6, true⟩] := by
    cbv
  have otherThrown :
      (expression.roll others).1.toOption.map Roll.dice =
        some
          [⟨4, 6, false⟩, ⟨2, 6, false⟩, ⟨4, 6, true⟩, ⟨4, 6, false⟩] := by
    cbv
  obtain ⟨roll, other, rolled, otherRolled, scores⟩ :=
    rearranged_dice_score_alike valid enough othersEnough
  rw [rolled] at thrown
  rw [otherRolled] at otherThrown
  have dice := Option.some.inj thrown
  have otherDice := Option.some.inj otherThrown
  have rearranged :
      Rearranged true (roll.dice.map Die.value)
        (other.dice.map Die.value) := by
    rw [dice, otherDice]
    show [s((4 : UInt32), 4), s(2, 4)].Perm [s(4, 2), s(4, 4)]
    rw [Sym2.eq_swap (a := 4) (b := 2)]
    exact List.Perm.swap _ _ _
  obtain ⟨_, total, _, dropped⟩ := scores rearranged
  refine ⟨valid, enough, othersEnough, roll, other, rolled, otherRolled,
    rearranged, ?_, ?_, total, dropped⟩
  · rw [dice]
    rfl
  · rw [otherDice]
    rfl

end Tabletop.Dice
