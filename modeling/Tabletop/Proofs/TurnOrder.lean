import Mathlib.Data.List.InsertIdx
import Mathlib.Data.Nat.Find
import Tabletop.Initiative

/-!
# The order of turns

Participants act from the highest initiative to the lowest, and by name where
it is equal. A rotation sorts anew whenever somebody joins; because that sort
is stable, a newcomer to a sorted order takes the place behind all those who
act no later, and everybody else stays where they are.
-/

namespace Tabletop

/-- The first participant acts no later than the second: its initiative is
higher, or equal and its name comes no later. -/
def Participant.NoLater (first second : Participant) : Prop :=
  second.initiative < first.initiative ∨
    (first.initiative = second.initiative ∧ first.name ≤ second.name)

instance (first second : Participant) :
    Decidable (first.NoLater second) :=
  inferInstanceAs (Decidable (_ ∨ _))

theorem actsUpTo_iff (first second : Participant) :
    first.actsUpTo second = true ↔ first.NoLater second := by
  simp only [Participant.actsUpTo, Participant.NoLater, Bool.or_eq_true,
    Bool.and_eq_true, decide_eq_true_eq, beq_iff_eq, Int32.toInt_inj,
    Int32.lt_iff_toInt_lt]

theorem actsUpTo_trans (first second third : Participant)
    (firstUpTo : first.actsUpTo second = true)
    (secondUpTo : second.actsUpTo third = true) :
    first.actsUpTo third = true := by
  rw [actsUpTo_iff] at *
  rcases firstUpTo with higher | ⟨equal, named⟩
  · rcases secondUpTo with stillHigher | ⟨nextEqual, _⟩
    · exact Or.inl (Int32.lt_trans stillHigher higher)
    · exact Or.inl (nextEqual ▸ higher)
  · rcases secondUpTo with higher | ⟨nextEqual, nextNamed⟩
    · exact Or.inl (equal ▸ higher)
    · exact Or.inr ⟨equal.trans nextEqual, String.le_trans named nextNamed⟩

theorem actsUpTo_total (first second : Participant) :
    (first.actsUpTo second || second.actsUpTo first) = true := by
  rw [Bool.or_eq_true, actsUpTo_iff, actsUpTo_iff]
  rcases Int.lt_trichotomy first.initiative.toInt second.initiative.toInt
    with lower | equal | higher
  · exact Or.inr (Or.inl (Int32.lt_iff_toInt_lt.mpr lower))
  · rcases String.le_total first.name second.name with named | named
    · exact Or.inl (Or.inr ⟨Int32.toInt_inj.mp equal, named⟩)
    · exact Or.inr (Or.inr ⟨(Int32.toInt_inj.mp equal).symm, named⟩)
  · exact Or.inl (Or.inl (Int32.lt_iff_toInt_lt.mpr higher))

section Joining

variable {α : Type} {upTo : α → α → Bool}

/-- The number of items that come no later than a newcomer. -/
def placeBehind (upTo : α → α → Bool) (newcomer : α) (items : List α) : Nat :=
  items.countP fun item => upTo item newcomer

theorem placeBehind_cons_of_upTo {head newcomer : α} (rest : List α)
    (upToNewcomer : upTo head newcomer = true) :
    placeBehind upTo newcomer (head :: rest) =
      placeBehind upTo newcomer rest + 1 :=
  List.countP_cons_of_pos upToNewcomer

theorem not_upTo_of_head_not
    (transitive : ∀ first second third,
      upTo first second = true → upTo second third = true →
        upTo first third = true)
    {head newcomer : α} {rest : List α}
    (sorted : (head :: rest).Pairwise fun first second => upTo first second)
    (later : ¬ upTo head newcomer = true) :
    ∀ item ∈ head :: rest, ¬ upTo item newcomer = true := by
  intro item member
  rcases List.mem_cons.mp member with rfl | inRest
  · exact later
  · have headUpTo : upTo head item = true :=
      (List.pairwise_cons.mp sorted).1 item inRest
    exact fun upToNewcomer =>
      later (transitive head item newcomer headUpTo upToNewcomer)

theorem placeBehind_eq_zero {newcomer : α} {items : List α}
    (later : ∀ item ∈ items, ¬ upTo item newcomer = true) :
    placeBehind upTo newcomer items = 0 :=
  List.countP_eq_zero.mpr later

/-- In a sorted list the items that come no later than a newcomer are those
in front of the place behind them. -/
theorem lt_placeBehind_iff
    (transitive : ∀ first second third,
      upTo first second = true → upTo second third = true →
        upTo first third = true)
    {items : List α}
    (sorted : items.Pairwise fun first second => upTo first second)
    (newcomer : α) {place : Nat} (inside : place < items.length) :
    place < placeBehind upTo newcomer items ↔
      upTo items[place] newcomer = true := by
  induction items generalizing place with
  | nil =>
      cases inside
  | cons head rest inductionHypothesis =>
      by_cases upToNewcomer : upTo head newcomer = true
      · rw [placeBehind_cons_of_upTo rest upToNewcomer]
        cases place with
        | zero =>
            simp [upToNewcomer]
        | succ place =>
            rw [Nat.succ_lt_succ_iff, List.getElem_cons_succ]
            exact inductionHypothesis (List.pairwise_cons.mp sorted).2
              (Nat.lt_of_succ_lt_succ inside)
      · have later := not_upTo_of_head_not transitive sorted upToNewcomer
        rw [placeBehind_eq_zero later]
        exact iff_of_false (Nat.not_lt_zero place)
          (later _ (List.getElem_mem inside))

theorem eq_nil_of_upTo {head : α} {items : List α}
    (upToAll : ∀ item ∈ items, upTo head item = true)
    (notUpTo : ∀ item ∈ items, (!upTo head item) = true) :
    items = [] := by
  rw [List.eq_nil_iff_forall_not_mem]
  intro item member
  simpa [upToAll item member] using notUpTo item member

/-- A head that comes later than a newcomer, but no later than the rest, is
sorted in directly behind the newcomer. -/
theorem eq_singleton_of_head_not {head newcomer : α}
    {rest before after : List α}
    (sorted :
      (before ++ head :: after).Pairwise fun first second => upTo first second)
    (tail : newcomer :: rest = before ++ after)
    (later : ¬ upTo head newcomer = true)
    (headUpTo : ∀ item ∈ rest, upTo head item = true)
    (notUpTo : ∀ item ∈ before, (!upTo head item) = true) :
    before = [newcomer] ∧ after = rest := by
  cases before with
  | nil =>
      rw [List.nil_append] at sorted tail
      have newcomerAfter : newcomer ∈ after := by
        rw [← tail]
        exact List.mem_cons_self
      exact absurd
        ((List.pairwise_cons.mp sorted).1 newcomer newcomerAfter) later
  | cons first others =>
      rw [List.cons_append, List.cons.injEq] at tail
      obtain ⟨rfl, split⟩ := tail
      have othersNil : others = [] := by
        refine eq_nil_of_upTo ?_ fun item member =>
          notUpTo item (List.mem_cons_of_mem _ member)
        intro item member
        apply headUpTo
        rw [split]
        exact List.mem_append_left after member
      rw [split, othersNil]
      exact ⟨rfl, rfl⟩

/-- Sorting a sorted list with a newcomer at its end puts the newcomer behind
all items that come no later. -/
theorem mergeSort_append_newcomer
    (transitive : ∀ first second third,
      upTo first second = true → upTo second third = true →
        upTo first third = true)
    (total : ∀ first second, (upTo first second || upTo second first) = true)
    {items : List α}
    (sorted : items.Pairwise fun first second => upTo first second)
    (newcomer : α) :
    (items ++ [newcomer]).mergeSort upTo =
      items.insertIdx (placeBehind upTo newcomer items) newcomer := by
  induction items with
  | nil =>
      exact List.mergeSort_singleton newcomer
  | cons head rest inductionHypothesis =>
      obtain ⟨headUpTo, restSorted⟩ := List.pairwise_cons.mp sorted
      -- The head is sorted into the sorted tail, behind `before`.
      obtain ⟨before, after, whole, tail, notUpTo⟩ :=
        List.mergeSort_cons transitive total head (rest ++ [newcomer])
      rw [inductionHypothesis restSorted] at tail
      rw [List.cons_append, whole]
      by_cases upToNewcomer : upTo head newcomer = true
      · have beforeNil : before = [] := by
          refine eq_nil_of_upTo ?_ notUpTo
          intro item inBefore
          have inTail : item ∈ before ++ after :=
            List.mem_append_left after inBefore
          rw [← tail] at inTail
          rcases List.eq_or_mem_of_mem_insertIdx inTail with rfl | inRest
          · exact upToNewcomer
          · exact headUpTo item inRest
        rw [beforeNil, List.nil_append] at tail ⊢
        rw [placeBehind_cons_of_upTo rest upToNewcomer,
          List.insertIdx_succ_cons, tail]
      · have later := not_upTo_of_head_not transitive sorted upToNewcomer
        have laterRest : placeBehind upTo newcomer rest = 0 :=
          placeBehind_eq_zero fun item inRest =>
            later item (List.mem_cons_of_mem head inRest)
        have sortedWhole :=
          List.pairwise_mergeSort transitive total
            (head :: (rest ++ [newcomer]))
        rw [whole] at sortedWhole
        rw [laterRest, List.insertIdx_zero] at tail
        obtain ⟨rfl, rfl⟩ :=
          eq_singleton_of_head_not sortedWhole tail upToNewcomer headUpTo
            notUpTo
        rw [placeBehind_eq_zero later, List.insertIdx_zero]
        rfl

end Joining

section FirstPlace

variable {α : Type}

/-- The first place in a list that holds an item. -/
def FirstPlace (items : List α) (item : α) (place : Nat) : Prop :=
  items[place]? = some item ∧
    ∀ earlier < place, items[earlier]? ≠ some item

theorem findIdx?_beq_eq_some [DecidableEq α] {items : List α} {item : α} {place : Nat}
    (first : FirstPlace items item place) :
    items.findIdx? (· == item) = some place := by
  obtain ⟨holds, before⟩ := first
  obtain ⟨inside, holds⟩ := List.getElem?_eq_some_iff.mp holds
  rw [List.findIdx?_eq_some_iff_getElem]
  refine ⟨inside, beq_iff_eq.mpr holds, ?_⟩
  intro earlier below equal
  exact before earlier below
    ((List.getElem_eq_iff _).mp (beq_iff_eq.mp equal))

theorem exists_firstPlace [DecidableEq α] {items : List α} {item : α} {place : Nat}
    (holds : items[place]? = some item) :
    ∃ first ≤ place, FirstPlace items item first := by
  have somewhere : ∃ place, items[place]? = some item := ⟨place, holds⟩
  exact ⟨Nat.find somewhere, Nat.find_min' somewhere holds,
    Nat.find_spec somewhere, fun _ below => Nat.find_min somewhere below⟩

/-- The index behind an insertion of the item that was at an index. -/
def indexBehind (place index : Nat) : Nat :=
  if index < place then index else index + 1

theorem indexBehind_inj {place first second : Nat} :
    indexBehind place first = indexBehind place second ↔ first = second := by
  unfold indexBehind
  split <;> split <;> omega

theorem getElem?_insertIdx_indexBehind (items : List α) (newcomer : α)
    (place index : Nat) :
    (items.insertIdx place newcomer)[indexBehind place index]? =
      items[index]? := by
  rw [List.getElem?_insertIdx, indexBehind]
  by_cases before : index < place
  · rw [if_pos before, if_pos before]
  · rw [if_neg before, if_neg (by omega), if_neg (by omega),
      Nat.add_sub_cancel]

/-- An item inserted behind the first of its equals, or different from them,
leaves the first of them the first. -/
theorem FirstPlace.insertIdx {items : List α} {item newcomer : α}
    {place first : Nat} (firstPlace : FirstPlace items item first)
    (inside : place ≤ items.length)
    (behind : newcomer = item → first < place) :
    FirstPlace (items.insertIdx place newcomer) item
      (indexBehind place first) := by
  obtain ⟨holds, before⟩ := firstPlace
  refine ⟨(getElem?_insertIdx_indexBehind _ _ _ _).trans holds, ?_⟩
  intro earlier below
  have bound : earlier ≤ first := by
    unfold indexBehind at below
    split at below <;> omega
  rw [List.getElem?_insertIdx]
  by_cases beforePlace : earlier < place
  · rw [if_pos beforePlace]
    refine before earlier ?_
    unfold indexBehind at below
    split at below <;> omega
  · rw [if_neg beforePlace]
    by_cases atPlace : earlier = place
    · rw [if_pos atPlace, if_pos (atPlace ▸ inside)]
      intro equal
      have := behind (Option.some.inj equal)
      omega
    · rw [if_neg atPlace]
      exact before (earlier - 1) (by omega)

end FirstPlace

namespace Rotation

/-- The participants stand in the order in which they act. -/
def Sorted (rotation : Rotation) : Prop :=
  rotation.participants.Pairwise Participant.NoLater

/-- The number of participants who act no later than a newcomer would. -/
def placeFor (rotation : Rotation) (newcomer : Participant) : Nat :=
  rotation.participants.countP
    fun participant => decide (participant.NoLater newcomer)

theorem placeFor_eq_placeBehind (rotation : Rotation)
    (newcomer : Participant) :
    rotation.placeFor newcomer =
      placeBehind Participant.actsUpTo newcomer rotation.participants := by
  unfold placeFor placeBehind
  congr 1
  funext participant
  rw [Bool.eq_iff_iff, decide_eq_true_iff, actsUpTo_iff]

theorem placeFor_le_length (rotation : Rotation) (newcomer : Participant) :
    rotation.placeFor newcomer ≤ rotation.participants.length :=
  List.countP_le_length

theorem Sorted.pairwise_actsUpTo {rotation : Rotation}
    (sorted : rotation.Sorted) :
    rotation.participants.Pairwise
      fun first second => first.actsUpTo second = true :=
  sorted.imp fun {first second} => (actsUpTo_iff first second).mpr

theorem Sorted.lt_placeFor_iff {rotation : Rotation}
    (sorted : rotation.Sorted) (newcomer : Participant) {place : Nat}
    {participant : Participant}
    (holds : rotation.participants[place]? = some participant) :
    place < rotation.placeFor newcomer ↔ participant.NoLater newcomer := by
  obtain ⟨inside, holds⟩ := List.getElem?_eq_some_iff.mp holds
  rw [placeFor_eq_placeBehind,
    lt_placeBehind_iff actsUpTo_trans sorted.pairwise_actsUpTo newcomer inside,
    actsUpTo_iff, holds]

theorem sorted_add (rotation : Rotation) (name : String)
    (initiative : Int32) :
    (rotation.add name initiative).Sorted := by
  have sorted :=
    List.pairwise_mergeSort actsUpTo_trans actsUpTo_total
      (rotation.participants ++ [⟨name, initiative, true⟩])
  exact sorted.imp fun {first second} => (actsUpTo_iff first second).mp

theorem participants_add_perm (rotation : Rotation) (name : String)
    (initiative : Int32) :
    (rotation.add name initiative).participants.Perm
      (rotation.participants ++ [⟨name, initiative, true⟩]) :=
  List.mergeSort_perm _ _

/-- A newcomer to a sorted rotation takes the place behind those who act no
later. -/
theorem Sorted.participants_add {rotation : Rotation}
    (sorted : rotation.Sorted) (name : String) (initiative : Int32) :
    (rotation.add name initiative).participants =
      rotation.participants.insertIdx
        (rotation.placeFor ⟨name, initiative, true⟩)
        ⟨name, initiative, true⟩ := by
  rw [placeFor_eq_placeBehind]
  exact mergeSort_append_newcomer actsUpTo_trans actsUpTo_total
    sorted.pairwise_actsUpTo _

theorem turn_add_of_not_begun {rotation : Rotation}
    (fresh : rotation.begun = false) (name : String) (initiative : Int32) :
    (rotation.add name initiative).turn = rotation.turn := by
  simp [add, turnAfter, fresh]

/-- Once the turn has been passed, the turn goes to the first participant who
equals the current one. -/
theorem Sorted.turn_add_of_begun {rotation : Rotation}
    (sorted : rotation.Sorted) (begun : rotation.begun = true)
    {current : Participant} (holds : rotation.current? = some current)
    {first : Nat}
    (firstPlace : FirstPlace rotation.participants current first)
    (name : String) (initiative : Int32) :
    (rotation.add name initiative).turn =
      indexBehind (rotation.placeFor ⟨name, initiative, true⟩) first := by
  have behind :
      (⟨name, initiative, true⟩ : Participant) = current →
        first < rotation.placeFor ⟨name, initiative, true⟩ := by
    intro same
    rw [sorted.lt_placeFor_iff _ firstPlace.1, same]
    exact Or.inr ⟨rfl, String.le_refl _⟩
  have found :=
    findIdx?_beq_eq_some
      (firstPlace.insertIdx (rotation.placeFor_le_length _) behind)
  rw [← sorted.participants_add] at found
  show rotation.turnAfter (rotation.add name initiative).participants = _
  rw [turnAfter, if_pos begun, holds]
  simp only [found, Option.getD_some]

end Rotation

end Tabletop
