import Tabletop.Dice.Selection

/-!
# Kept dice by rank

Which dice of a throw count, said without sorting anything: a die is compared
with its partner under advantage, and an operation looks only at how many of
the eligible dice rank above it or below it. The selection that sorts and cuts
agrees with this description (`keptDice_map_range`).
-/

namespace Tabletop.Dice

/-- A die is eligible without advantage; with it, the first of a pair is when
it shows no less than the second, and the second when it shows more. -/
def Survives (advantage : Bool) (face : Nat → Nat) (place : Nat) : Prop :=
  advantage = false ∨
    (place % 2 = 0 ∧ face (place + 1) ≤ face place) ∨
    (place % 2 = 1 ∧ face (place - 1) < face place)

instance (advantage : Bool) (face : Nat → Nat) (place : Nat) :
    Decidable (Survives advantage face place) :=
  inferInstanceAs (Decidable (_ ∨ _))

/-- One die shows more than another, or as much and was thrown later. -/
def Outranks (face : Nat → Nat) (upper lower : Nat) : Prop :=
  face lower < face upper ∨ (face lower = face upper ∧ lower < upper)

instance (face : Nat → Nat) (upper lower : Nat) :
    Decidable (Outranks face upper lower) :=
  inferInstanceAs (Decidable (_ ∨ _))

/-- The number of eligible dice, of those thrown, that outrank a die. -/
def rankedAbove (advantage : Bool) (face : Nat → Nat) (thrown place : Nat) :
    Nat :=
  (List.range thrown).countP fun other =>
    decide (Survives advantage face other ∧ Outranks face other place)

/-- The number of eligible dice, of those thrown, that a die outranks. -/
def rankedBelow (advantage : Bool) (face : Nat → Nat) (thrown place : Nat) :
    Nat :=
  (List.range thrown).countP fun other =>
    decide (Survives advantage face other ∧ Outranks face place other)

/-- What an operation asks of the numbers of dice above and below a die in
order to keep it; to drop more than all `count` dice is to drop none. -/
def Operation.Keeps (count above below : Nat) : Operation → Prop
  | ⟨.keepHighest, number⟩ => above < number.toNat
  | ⟨.keepLowest, number⟩ => below < number.toNat
  | ⟨.dropHighest, number⟩ => count < number.toNat ∨ number.toNat ≤ above
  | ⟨.dropLowest, number⟩ => count < number.toNat ∨ number.toNat ≤ below

instance (count above below : Nat) :
    (operation : Operation) → Decidable (operation.Keeps count above below)
  | ⟨.keepHighest, _⟩ => inferInstanceAs (Decidable (_ < _))
  | ⟨.keepLowest, _⟩ => inferInstanceAs (Decidable (_ < _))
  | ⟨.dropHighest, _⟩ => inferInstanceAs (Decidable (_ ∨ _))
  | ⟨.dropLowest, _⟩ => inferInstanceAs (Decidable (_ ∨ _))

/-- A die counts when it is eligible and the operation, where there is one,
keeps it. -/
def Expression.Counts (expression : Expression) (face : Nat → Nat)
    (place : Nat) : Prop :=
  Survives expression.advantage face place ∧
    ∀ operation ∈ expression.operation,
      operation.Keeps expression.count.toNat
        (rankedAbove expression.advantage face expression.physicalDice place)
        (rankedBelow expression.advantage face expression.physicalDice place)

instance (expression : Expression) (face : Nat → Nat) (place : Nat) :
    Decidable (expression.Counts face place) :=
  inferInstanceAs (Decidable (_ ∧ ∀ operation ∈ expression.operation, _))

theorem survives_iff_of_even {face : Nat → Nat} {place : Nat}
    (even : place % 2 = 0) :
    Survives true face place ↔ face (place + 1) ≤ face place := by
  simp [Survives, even]

theorem survives_succ_iff_of_even {face : Nat → Nat} {place : Nat}
    (even : place % 2 = 0) :
    Survives true face (place + 1) ↔ face place < face (place + 1) := by
  have odd : (place + 1) % 2 = 1 := by
    omega
  simp [Survives, odd]

theorem betterOfPairs_map_range' (face : Nat → Nat) (pairs : Nat) {start : Nat}
    (even : start % 2 = 0) :
    betterOfPairs ((List.range' start (pairs * 2)).map face) =
      (List.range' start (pairs * 2)).map
        fun place => decide (Survives true face place) := by
  induction pairs generalizing start with
  | zero =>
      rfl
  | succ pairs inductionHypothesis =>
      have evenNext : (start + 1 + 1) % 2 = 0 := by
        omega
      have places :
          List.range' start ((pairs + 1) * 2) =
            start :: (start + 1) :: List.range' (start + 1 + 1) (pairs * 2) := by
        rw [Nat.succ_mul, List.range'_succ, List.range'_succ]
      rw [places, List.map_cons, List.map_cons, betterOfPairs,
        inductionHypothesis evenNext, List.map_cons, List.map_cons]
      simp only [survives_iff_of_even even, survives_succ_iff_of_even even]

theorem eligibleDice_map_range (advantage : Bool) (face : Nat → Nat)
    {thrown : Nat} (paired : advantage = true → thrown % 2 = 0) :
    eligibleDice advantage ((List.range thrown).map face) =
      (List.range thrown).map
        fun place => decide (Survives advantage face place) := by
  cases advantage with
  | false =>
      simp [eligibleDice, Survives]
  | true =>
      obtain ⟨pairs, rfl⟩ : ∃ pairs, thrown = pairs * 2 :=
        ⟨thrown / 2, by have := paired rfl; omega⟩
      rw [eligibleDice, if_pos rfl, List.range_eq_range']
      exact betterOfPairs_map_range' face pairs rfl

/-- Just one die of every pair is eligible. -/
theorem countP_survives_pairs (face : Nat → Nat) (pairs : Nat) :
    (List.range (pairs * 2)).countP
        (fun place => decide (Survives true face place)) = pairs := by
  induction pairs with
  | zero =>
      rfl
  | succ pairs inductionHypothesis =>
      have even : pairs * 2 % 2 = 0 := by
        omega
      rw [Nat.succ_mul, List.range_succ, List.range_succ, List.countP_append,
        List.countP_append, inductionHypothesis]
      simp only [List.countP_singleton, survives_iff_of_even even,
        survives_succ_iff_of_even even, decide_eq_true_eq]
      split <;> split <;> omega

theorem countP_survives (expression : Expression) (face : Nat → Nat) :
    (List.range expression.physicalDice).countP
        (fun place => decide (Survives expression.advantage face place)) =
      expression.count.toNat := by
  unfold Expression.physicalDice
  cases expression.advantage with
  | false =>
      simp [Survives]
  | true =>
      exact countP_survives_pairs face expression.count.toNat

section Sorted

variable {α : Type} {precedes : α → α → Prop} [DecidableRel precedes]

theorem countP_split_of_not {before after : List α} {item : α}
    {test : α → Bool} (fails : test item = false) :
    (before ++ item :: after).countP test =
      before.countP test + after.countP test := by
  rw [List.countP_append, List.countP_cons, fails]
  rfl

/-- In a list sorted by an asymmetric relation an item stands behind those
that precede it and in front of those that it precedes. -/
theorem exists_split_of_sorted {items : List α} {item : α}
    (asymmetric : ∀ first second, precedes first second → ¬ precedes second first)
    (sorted : items.Pairwise precedes) (member : item ∈ items) :
    ∃ before after,
      items = before ++ item :: after ∧ item ∉ before ∧ item ∉ after ∧
        items.countP (fun other => decide (precedes other item)) =
          before.length ∧
        items.countP (fun other => decide (precedes item other)) =
          after.length := by
  obtain ⟨before, after, rfl⟩ := List.append_of_mem member
  obtain ⟨_, sortedAfter, across⟩ := List.pairwise_append.mp sorted
  have irreflexive : ¬ precedes item item :=
    fun related => asymmetric item item related related
  have below : ∀ other ∈ before, precedes other item :=
    fun other inBefore => across other inBefore item List.mem_cons_self
  have above : ∀ other ∈ after, precedes item other :=
    (List.pairwise_cons.mp sortedAfter).1
  refine ⟨before, after, rfl, ?_, ?_, ?_, ?_⟩
  · exact fun inBefore => irreflexive (below item inBefore)
  · exact fun inAfter => irreflexive (above item inAfter)
  · have all : before.countP (fun other => decide (precedes other item)) =
        before.length := by
      rw [List.countP_eq_length]
      exact fun other inBefore => decide_eq_true (below other inBefore)
    have none : after.countP (fun other => decide (precedes other item)) =
        0 := by
      rw [List.countP_eq_zero]
      intro other inAfter related
      exact asymmetric item other (above other inAfter)
        (of_decide_eq_true related)
    rw [countP_split_of_not, all, none, Nat.add_zero]
    exact decide_eq_false irreflexive
  · have all : after.countP (fun other => decide (precedes item other)) =
        after.length := by
      rw [List.countP_eq_length]
      exact fun other inAfter => decide_eq_true (above other inAfter)
    have none : before.countP (fun other => decide (precedes item other)) =
        0 := by
      rw [List.countP_eq_zero]
      intro other inBefore related
      exact asymmetric other item (below other inBefore)
        (of_decide_eq_true related)
    rw [countP_split_of_not, all, none, Nat.zero_add]
    exact decide_eq_false irreflexive

theorem mem_take_split_iff {before after : List α} {item : α}
    (notBefore : item ∉ before) (number : Nat) :
    item ∈ (before ++ item :: after).take number ↔
      before.length < number := by
  rw [List.take_append, List.mem_append]
  constructor
  · rintro (inBefore | behind)
    · exact absurd (List.mem_of_mem_take inBefore) notBefore
    · by_cases short : number ≤ before.length
      · rw [Nat.sub_eq_zero_of_le short] at behind
        cases behind
      · omega
  · intro long
    right
    obtain ⟨more, enough⟩ : ∃ more, number - before.length = more + 1 :=
      ⟨number - before.length - 1, by omega⟩
    rw [enough]
    exact List.mem_cons_self

theorem mem_drop_split_iff {before after : List α} {item : α}
    (notAfter : item ∉ after) (number : Nat) :
    item ∈ (before ++ item :: after).drop number ↔
      number ≤ before.length := by
  rw [List.drop_append, List.mem_append]
  constructor
  · intro found
    by_cases short : number ≤ before.length
    · exact short
    · obtain ⟨more, enough⟩ : ∃ more, number - before.length = more + 1 :=
        ⟨number - before.length - 1, by omega⟩
      rw [List.drop_eq_nil_of_le (by omega), enough, List.drop_succ_cons]
        at found
      rcases found with inNone | inAfter
      · cases inNone
      · exact absurd (List.mem_of_mem_drop inAfter) notAfter
  · intro short
    right
    rw [Nat.sub_eq_zero_of_le short]
    exact List.mem_cons_self

/-- An operation drops the items of a sorted list that it does not keep
according to the numbers of items on either side. -/
theorem mem_dropped_iff {items : List α} {item : α}
    (asymmetric : ∀ first second, precedes first second → ¬ precedes second first)
    (sorted : items.Pairwise precedes) (member : item ∈ items)
    (operation : Operation) :
    item ∈ operation.dropped items ↔
      ¬ operation.Keeps items.length
        (items.countP fun other => decide (precedes item other))
        (items.countP fun other => decide (precedes other item)) := by
  obtain ⟨before, after, split, notBefore, notAfter, below, above⟩ :=
    exists_split_of_sorted asymmetric sorted member
  rw [below, above]
  subst split
  have length : (before ++ item :: after).length =
      before.length + (after.length + 1) := by
    rw [List.length_append, List.length_cons]
  obtain ⟨cut, number⟩ := operation
  cases cut with
  | keepHighest =>
      simp only [Operation.dropped, Operation.Keeps,
        mem_take_split_iff notBefore, length]
      omega
  | keepLowest =>
      simp only [Operation.dropped, Operation.Keeps,
        mem_drop_split_iff notAfter]
      omega
  | dropHighest =>
      simp only [Operation.dropped, Operation.Keeps]
      split
      · rw [mem_drop_split_iff notAfter, length]
        omega
      · simp only [List.not_mem_nil, false_iff, Decidable.not_not]
        omega
  | dropLowest =>
      simp only [Operation.dropped, Operation.Keeps]
      split
      · rw [mem_take_split_iff notBefore]
        omega
      · simp only [List.not_mem_nil, false_iff, Decidable.not_not]
        omega

end Sorted

theorem eligibleFrom_map_range' (face : Nat → Nat) (eligible : Nat → Bool)
    (start thrown : Nat) :
    eligibleFrom start ((List.range' start thrown).map face)
        ((List.range' start thrown).map eligible) =
      ((List.range' start thrown).filter eligible).map
        fun place => ⟨face place, place⟩ := by
  induction thrown generalizing start with
  | zero =>
      rfl
  | succ thrown inductionHypothesis =>
      rw [List.range'_succ, List.map_cons, List.map_cons, eligibleFrom,
        inductionHypothesis, List.filter_cons]
      split <;> simp

theorem strikeFrom_map_range' (struck : List Nat) (flag : Nat → Bool)
    (start thrown : Nat) :
    strikeFrom start struck ((List.range' start thrown).map flag) =
      (List.range' start thrown).map
        fun place => flag place && !struck.contains place := by
  induction thrown generalizing start with
  | zero =>
      rfl
  | succ thrown inductionHypothesis =>
      rw [List.range'_succ, List.map_cons, strikeFrom, inductionHypothesis,
        List.map_cons]

theorem rankedUpTo_trans (first second third : RankedDie)
    (firstUpTo : first.rankedUpTo second = true)
    (secondUpTo : second.rankedUpTo third = true) :
    first.rankedUpTo third = true := by
  simp only [RankedDie.rankedUpTo, Bool.or_eq_true, Bool.and_eq_true,
    decide_eq_true_eq, beq_iff_eq] at *
  omega

theorem rankedUpTo_total (first second : RankedDie) :
    (first.rankedUpTo second || second.rankedUpTo first) = true := by
  simp only [RankedDie.rankedUpTo, Bool.or_eq_true, Bool.and_eq_true,
    decide_eq_true_eq, beq_iff_eq]
  omega

theorem outranks_asymmetric (face : Nat → Nat) (lower upper : Nat)
    (outranks : Outranks face upper lower) :
    ¬ Outranks face lower upper := by
  unfold Outranks at *
  omega

theorem outranks_of_rankedUpTo {face : Nat → Nat} {lower upper : Nat}
    (upTo : RankedDie.rankedUpTo ⟨face lower, lower⟩ ⟨face upper, upper⟩ = true)
    (different : lower ≠ upper) :
    Outranks face upper lower := by
  simp only [RankedDie.rankedUpTo, Bool.or_eq_true, Bool.and_eq_true,
    decide_eq_true_eq, beq_iff_eq] at upTo
  unfold Outranks
  omega

/-- The places of the eligible dice, from the lowest to the highest die. -/
def rankedPlaces (face : Nat → Nat) (eligible : Nat → Bool) (thrown : Nat) :
    List Nat :=
  (ranking ((List.range thrown).map face)
    ((List.range thrown).map eligible)).map RankedDie.place

theorem ranking_perm (face : Nat → Nat) (eligible : Nat → Bool) (thrown : Nat) :
    (ranking ((List.range thrown).map face)
        ((List.range thrown).map eligible)).Perm
      (((List.range thrown).filter eligible).map
        fun place => ⟨face place, place⟩) := by
  unfold ranking
  rw [List.range_eq_range', eligibleFrom_map_range']
  exact List.mergeSort_perm _ _

theorem rankedPlaces_perm (face : Nat → Nat) (eligible : Nat → Bool)
    (thrown : Nat) :
    (rankedPlaces face eligible thrown).Perm
      ((List.range thrown).filter eligible) := by
  have forgets :
      (RankedDie.place ∘ fun place => ⟨face place, place⟩) = id :=
    rfl
  have places := (ranking_perm face eligible thrown).map RankedDie.place
  rw [List.map_map, forgets, List.map_id] at places
  exact places

theorem rankedPlaces_sorted (face : Nat → Nat) (eligible : Nat → Bool)
    (thrown : Nat) :
    (rankedPlaces face eligible thrown).Pairwise
      fun lower upper => Outranks face upper lower := by
  have distinct : (rankedPlaces face eligible thrown).Nodup :=
    (rankedPlaces_perm face eligible thrown).nodup_iff.mpr
      (List.nodup_range.filter eligible)
  have shows :
      ∀ die ∈ ranking ((List.range thrown).map face)
          ((List.range thrown).map eligible),
        die = ⟨face die.place, die.place⟩ := by
    intro die member
    have given := (ranking_perm face eligible thrown).mem_iff.mp member
    obtain ⟨place, _, rfl⟩ := List.mem_map.mp given
    rfl
  have sorted :
      (ranking ((List.range thrown).map face)
          ((List.range thrown).map eligible)).Pairwise
        fun lower upper => lower.rankedUpTo upper = true :=
    List.pairwise_mergeSort rankedUpTo_trans rankedUpTo_total _
  unfold rankedPlaces at distinct ⊢
  rw [List.nodup_iff_pairwise_ne, List.pairwise_map] at distinct
  rw [List.pairwise_map]
  refine (sorted.and distinct).imp_of_mem ?_
  intro lower upper lowerMember upperMember related
  obtain ⟨upTo, different⟩ := related
  rw [shows lower lowerMember, shows upper upperMember] at upTo
  exact outranks_of_rankedUpTo upTo different

theorem countP_rankedPlaces (face : Nat → Nat) (eligible : Nat → Bool)
    (thrown : Nat) (test : Nat → Bool) :
    (rankedPlaces face eligible thrown).countP test =
      (List.range thrown).countP fun place => test place && eligible place := by
  rw [(rankedPlaces_perm face eligible thrown).countP_eq, List.countP_filter]

theorem length_rankedPlaces (face : Nat → Nat) (eligible : Nat → Bool)
    (thrown : Nat) :
    (rankedPlaces face eligible thrown).length =
      (List.range thrown).countP eligible := by
  rw [(rankedPlaces_perm face eligible thrown).length_eq,
    List.countP_eq_length_filter]

theorem dropped_map {α β : Type} (operation : Operation) (change : α → β)
    (ranked : List α) :
    (operation.dropped ranked).map change =
      operation.dropped (ranked.map change) := by
  obtain ⟨cut, number⟩ := operation
  cases cut <;> simp only [Operation.dropped, List.length_map]
  · exact List.map_take
  · exact List.map_drop
  · split
    · exact List.map_drop
    · rfl
  · split
    · exact List.map_take
    · rfl

theorem physicalDice_paired (expression : Expression)
    (advantage : expression.advantage = true) :
    expression.physicalDice % 2 = 0 := by
  unfold Expression.physicalDice
  rw [if_pos advantage]
  omega

/-- An eligible die is dropped by an operation exactly when the operation does
not keep it by its rank. -/
theorem mem_dropped_rankedPlaces_iff (expression : Expression)
    (operation : Operation) (face : Nat → Nat) {place : Nat}
    (thrown : place < expression.physicalDice)
    (survives : Survives expression.advantage face place) :
    place ∈ operation.dropped
        (rankedPlaces face
          (fun place => decide (Survives expression.advantage face place))
          expression.physicalDice) ↔
      ¬ operation.Keeps expression.count.toNat
        (rankedAbove expression.advantage face expression.physicalDice place)
        (rankedBelow expression.advantage face expression.physicalDice
          place) := by
  have ranked :
      place ∈ rankedPlaces face
        (fun place => decide (Survives expression.advantage face place))
        expression.physicalDice := by
    rw [(rankedPlaces_perm _ _ _).mem_iff, List.mem_filter]
    exact ⟨List.mem_range.mpr thrown, decide_eq_true survives⟩
  have asymmetric :
      ∀ lower upper, Outranks face upper lower → ¬ Outranks face lower upper :=
    outranks_asymmetric face
  rw [mem_dropped_iff asymmetric (rankedPlaces_sorted _ _ _) ranked,
    length_rankedPlaces, countP_survives, countP_rankedPlaces,
    countP_rankedPlaces]
  simp only [rankedAbove, rankedBelow, Bool.decide_and, Bool.and_comm]

/-- What sorting and cutting leaves are the dice that count by rank. -/
theorem keptDice_map_range (expression : Expression) (face : Nat → Nat) :
    keptDice expression ((List.range expression.physicalDice).map face) =
      (List.range expression.physicalDice).map
        fun place => decide (expression.Counts face place) := by
  have eligible :=
    eligibleDice_map_range expression.advantage face
      (physicalDice_paired expression)
  unfold keptDice
  cases chosen : expression.operation with
  | none =>
      simp [eligible, Expression.Counts, chosen]
  | some operation =>
      simp only [eligible, applyOperation, dropped_map]
      rw [← rankedPlaces, List.range_eq_range', strikeFrom_map_range',
        ← List.range_eq_range']
      apply List.map_congr_left
      intro place member
      have thrown := List.mem_range.mp member
      by_cases survives : Survives expression.advantage face place
      · have dropped :=
          mem_dropped_rankedPlaces_iff expression operation face thrown survives
        simp [Expression.Counts, chosen, survives, dropped]
      · simp [Expression.Counts, survives]

end Tabletop.Dice
