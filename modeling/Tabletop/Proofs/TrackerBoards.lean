import Mathlib
import Tabletop.Proofs.Ledger

/-!
# Tracker boards answer as ledgers

A board holds a ledger when no two of its trackers share a key and its trackers
are the entries of the ledger. Its order is then of no account: the one tracker
with a key is found wherever it stands, and the listings are sorted by names
that are all different. So the trackers may be shuffled before every request,
and the board still answers as the ledger does.
-/

namespace Tabletop

open Tabletop.Text

theorem answersTo_iff (name : String) (tracker : Tracker) :
    tracker.answersTo name = true ↔ tracker.key = lowercase name := by
  rw [Tracker.answersTo, sameName, beq_iff_eq, Tracker.key]

theorem answersTo_eq_false_iff (name : String) (tracker : Tracker) :
    tracker.answersTo name = false ↔ tracker.key ≠ lowercase name := by
  rw [Bool.eq_false_iff, ne_eq, answersTo_iff]

theorem updateFirst?_of_none {α : Type} {test : α → Bool} {items : List α}
    (noneMeets : ∀ item ∈ items, test item = false) (change : α → α) :
    updateFirst? test change items = none := by
  induction items with
  | nil =>
      rfl
  | cons head rest inductionHypothesis =>
      rw [List.forall_mem_cons] at noneMeets
      rw [updateFirst?, noneMeets.1, inductionHypothesis noneMeets.2]
      rfl

theorem updateFirst?_of_split {α : Type} {test : α → Bool}
    {before after : List α} {item : α}
    (noneBefore : ∀ other ∈ before, test other = false)
    (meets : test item = true) (change : α → α) :
    updateFirst? test change (before ++ item :: after) =
      some (change item, before ++ change item :: after) := by
  induction before with
  | nil =>
      rw [List.nil_append, updateFirst?, if_pos meets, List.nil_append]
  | cons head rest inductionHypothesis =>
      rw [List.forall_mem_cons] at noneBefore
      rw [List.cons_append, updateFirst?, noneBefore.1,
        inductionHypothesis noneBefore.2]
      rfl

theorem occursIn_iff (pattern text : List Char) :
    occursIn pattern text = true ↔ pattern <:+: text := by
  induction text with
  | nil =>
      rw [occursIn, List.isEmpty_iff, List.infix_nil]
  | cons letter rest inductionHypothesis =>
      rw [occursIn, Bool.or_eq_true, List.isPrefixOf_iff_prefix,
        inductionHypothesis, List.infix_cons_iff]

theorem saturatingAdd_eq_boundedSum (first second : Int32) :
    saturatingAdd first second = boundedSum first second := by
  have smallest : Int32.minValue.toInt = -2 ^ 31 := Int32.toInt_minValue
  have largest : Int32.maxValue.toInt = 2 ^ 31 - 1 := by decide
  rw [boundedSum, smallest, largest, ← Int32.toInt_inj, saturatingAdd,
    Int32.toInt_ofInt_of_le (by omega) (by omega)]
  by_cases below : first.toInt + second.toInt < -2 ^ 31
  · rw [if_pos below, smallest]
    omega
  · rw [if_neg below]
    by_cases above : 2 ^ 31 - 1 < first.toInt + second.toInt
    · rw [if_pos above, largest]
      omega
    · rw [if_neg above, Int32.toInt_add, Int.bmod_eq_of_le (by omega) (by omega)]
      omega

namespace TrackerBoard

/-- A request that is refused leaves the board as it was. -/
def settle (board : TrackerBoard) :
    Except TrackError (Tracker × TrackerBoard) → TrackerAnswer × TrackerBoard
  | .ok (tracker, changed) => (.tracker tracker, changed)
  | .error error => (.refused error, board)

def serve (board : TrackerBoard) :
    TrackerRequest → TrackerAnswer × TrackerBoard
  | .add name current max => board.settle (board.add name current max)
  | .get name => (.found (board.get? name), board)
  | .set name value => board.settle (board.set name value)
  | .adjust name delta => board.settle (board.adjust name delta)
  | .pin name => board.settle (board.setPinned name true)
  | .unpin name => board.settle (board.setPinned name false)
  | .pinAll =>
      let (pinned, changed) := board.pinAll
      (.number pinned, changed)
  | .delete name => board.settle (board.delete name)
  | .deleteAll => (.done, empty)
  | .list => (.trackers board.list, board)
  | .pinned => (.trackers board.pinned, board)
  | .search pattern => (.trackers (board.search pattern), board)
  | .count => (.number board.count, board)
  | .pinnedCount => (.number board.pinnedCount, board)

/-- The requests are answered one after the other. Before each of them the
trackers may change places. -/
inductive Run :
    TrackerBoard → List TrackerRequest → List TrackerAnswer →
      TrackerBoard → Prop where
  | done (board : TrackerBoard) : Run board [] [] board
  | serve {board shuffled after final : TrackerBoard}
      {request : TrackerRequest} {requests : List TrackerRequest}
      {answer : TrackerAnswer} {answers : List TrackerAnswer}
      (shuffle : shuffled.trackers.Perm board.trackers)
      (served : shuffled.serve request = (answer, after))
      (run : Run after requests answers final) :
      Run board (request :: requests) (answer :: answers) final

theorem exists_run (requests : List TrackerRequest) (board : TrackerBoard) :
    ∃ answers final, Run board requests answers final := by
  induction requests generalizing board with
  | nil =>
      exact ⟨[], board, .done board⟩
  | cons request requests inductionHypothesis =>
      obtain ⟨answers, final, run⟩ :=
        inductionHypothesis (board.serve request).2
      exact
        ⟨(board.serve request).1 :: answers, final, .serve (.refl _) rfl run⟩

/-- No two trackers share a key, and the trackers are the entries of the
ledger. -/
structure Holds (board : TrackerBoard) (ledger : Ledger) : Prop where
  distinct : (board.trackers.map Tracker.key).Nodup
  entry_iff : ∀ key tracker,
    ledger key = some tracker ↔ tracker ∈ board.trackers ∧ tracker.key = key

section Holds

variable {board : TrackerBoard} {ledger : Ledger}

theorem holds_empty : empty.Holds Ledger.empty where
  distinct := List.nodup_nil
  entry_iff := by
    intro key tracker
    simp [empty, Ledger.empty]

theorem Holds.of_perm (holds : board.Holds ledger) {shuffled : TrackerBoard}
    (shuffle : shuffled.trackers.Perm board.trackers) :
    shuffled.Holds ledger where
  distinct := (shuffle.map Tracker.key).nodup_iff.mpr holds.distinct
  entry_iff := by
    intro key tracker
    rw [holds.entry_iff, shuffle.mem_iff]

theorem Holds.eq_none_iff (holds : board.Holds ledger) (key : String) :
    ledger key = none ↔ ∀ tracker ∈ board.trackers, tracker.key ≠ key := by
  rw [Option.eq_none_iff_forall_ne_some]
  simp only [ne_eq, holds.entry_iff, not_and]

theorem Holds.get?_eq (holds : board.Holds ledger) (name : String) :
    board.get? name = ledger (lowercase name) := by
  cases finds : board.get? name with
  | none =>
      rw [get?, List.find?_eq_none] at finds
      symm
      rw [holds.eq_none_iff]
      intro tracker member key
      exact finds tracker member ((answersTo_iff name tracker).mpr key)
  | some tracker =>
      have member := List.mem_of_find?_eq_some finds
      have answers := (answersTo_iff name tracker).mp (List.find?_some finds)
      exact ((holds.entry_iff _ tracker).mpr ⟨member, answers⟩).symm

theorem Holds.of_cons {tracker : Tracker} {others : List Tracker}
    (holds : Holds ⟨tracker :: others⟩ ledger) :
    Holds ⟨others⟩ (ledger.write tracker.key none) := by
  have distinct := holds.distinct
  rw [List.map_cons, List.nodup_cons] at distinct
  refine ⟨distinct.2, ?_⟩
  intro key other
  by_cases same : key = tracker.key
  · subst same
    rw [Ledger.write_self]
    constructor
    · intro impossible
      cases impossible
    · rintro ⟨member, key⟩
      exact absurd (key ▸ List.mem_map_of_mem member) distinct.1
  · rw [ledger.write_of_ne same, holds.entry_iff, List.mem_cons]
    constructor
    · rintro ⟨rfl | member, key⟩
      · exact absurd key.symm same
      · exact ⟨member, key⟩
    · rintro ⟨member, key⟩
      exact ⟨Or.inr member, key⟩

theorem Holds.cons {others : List Tracker} (holds : Holds ⟨others⟩ ledger)
    {tracker : Tracker} (unused : ledger tracker.key = none) :
    Holds ⟨tracker :: others⟩ (ledger.write tracker.key (some tracker)) := by
  have different := (holds.eq_none_iff tracker.key).mp unused
  refine ⟨?_, ?_⟩
  · rw [List.map_cons, List.nodup_cons]
    refine ⟨?_, holds.distinct⟩
    intro member
    obtain ⟨other, otherMember, key⟩ := List.mem_map.mp member
    exact different other otherMember key
  · intro key other
    by_cases same : key = tracker.key
    · subst same
      rw [Ledger.write_self, Option.some.injEq, List.mem_cons]
      constructor
      · rintro rfl
        exact ⟨Or.inl rfl, rfl⟩
      · rintro ⟨rfl | member, key⟩
        · rfl
        · exact absurd key (different other member)
    · rw [ledger.write_of_ne same, holds.entry_iff, List.mem_cons]
      constructor
      · rintro ⟨member, key⟩
        exact ⟨Or.inr member, key⟩
      · rintro ⟨rfl | member, key⟩
        · exact absurd key.symm same
        · exact ⟨member, key⟩

/-- The tracker with a name, between those that are looked at before it and
those behind it. -/
theorem Holds.exists_split (holds : board.Holds ledger) {name : String}
    {tracker : Tracker} (entry : ledger (lowercase name) = some tracker) :
    ∃ before after,
      board.trackers = before ++ tracker :: after ∧
        tracker.answersTo name = true ∧
        (∀ other ∈ before, other.answersTo name = false) ∧
        Holds ⟨before ++ after⟩ (ledger.write (lowercase name) none) := by
  obtain ⟨member, key⟩ := (holds.entry_iff _ tracker).mp entry
  obtain ⟨before, after, split⟩ := List.append_of_mem member
  have shuffle : (tracker :: (before ++ after)).Perm board.trackers := by
    rw [split]
    exact List.perm_middle.symm
  have first : Holds ⟨tracker :: (before ++ after)⟩ ledger :=
    holds.of_perm shuffle
  refine ⟨before, after, split, (answersTo_iff name tracker).mpr key, ?_,
    key ▸ first.of_cons⟩
  have distinct := first.distinct
  rw [List.map_cons, List.nodup_cons] at distinct
  intro other otherMember
  rw [answersTo_eq_false_iff, ← key]
  intro same
  exact distinct.1
    (same ▸ List.mem_map_of_mem (List.mem_append_left after otherMember))

/-- The board gives the answer that is told of the ledger, and then holds the
ledger as it is told to be. -/
def Agrees (given : TrackerAnswer × TrackerBoard)
    (told : TrackerAnswer × Ledger) : Prop :=
  given.1 = told.1 ∧ given.2.Holds told.2

theorem Holds.agrees_add (holds : board.Holds ledger) (name : String)
    (current max : Int32) (all : List Tracker) :
    Agrees (board.serve (.add name current max))
      (ledger.serve all (.add name current max)) := by
  cases entry : ledger (lowercase name) with
  | some tracker =>
      obtain ⟨member, key⟩ := (holds.entry_iff _ tracker).mp entry
      have taken : board.trackers.any (Tracker.answersTo name) = true :=
        List.any_eq_true.mpr
          ⟨tracker, member, (answersTo_iff name tracker).mpr key⟩
      rw [serve, add, if_pos taken, Ledger.serve, entry]
      exact ⟨rfl, holds⟩
  | none =>
      have unused := (holds.eq_none_iff _).mp entry
      have free : ¬ board.trackers.any (Tracker.answersTo name) = true := by
        rw [List.any_eq_true]
        rintro ⟨tracker, member, answers⟩
        exact unused tracker member ((answersTo_iff name tracker).mp answers)
      rw [serve, add, if_neg free, Ledger.serve, entry]
      have added : Holds ⟨⟨name, current, max, false⟩ :: board.trackers⟩ _ :=
        holds.cons entry
      exact ⟨rfl, added.of_perm List.perm_append_comm⟩

theorem Holds.agrees_update (holds : board.Holds ledger) (name : String)
    {revise : Tracker → Tracker}
    (keepsName : ∀ tracker, (revise tracker).name = tracker.name) :
    Agrees (board.settle (board.update name revise))
      (ledger.change name revise) := by
  cases entry : ledger (lowercase name) with
  | none =>
      have unused := (holds.eq_none_iff _).mp entry
      have noneAnswers :
          ∀ tracker ∈ board.trackers, tracker.answersTo name = false :=
        fun tracker member =>
          (answersTo_eq_false_iff name tracker).mpr (unused tracker member)
      rw [update, updateFirst?_of_none noneAnswers, Ledger.change, entry]
      exact ⟨rfl, holds⟩
  | some tracker =>
      obtain ⟨before, after, split, answers, noneBefore, others⟩ :=
        holds.exists_split entry
      rw [update, split, updateFirst?_of_split noneBefore answers,
        Ledger.change, entry]
      refine ⟨rfl, ?_⟩
      have key : (revise tracker).key = lowercase name := by
        rw [Tracker.key, keepsName]
        exact (answersTo_iff name tracker).mp answers
      have unused :
          ledger.write (lowercase name) none (revise tracker).key = none := by
        rw [key, Ledger.write_self]
      have revised := others.cons unused
      rw [key, Ledger.write_write] at revised
      exact revised.of_perm List.perm_middle

theorem Holds.agrees_delete (holds : board.Holds ledger) (name : String)
    (all : List Tracker) :
    Agrees (board.serve (.delete name)) (ledger.serve all (.delete name)) := by
  rw [serve, delete, holds.get?_eq]
  cases entry : ledger (lowercase name) with
  | none =>
      rw [Ledger.serve, entry]
      exact ⟨rfl, holds⟩
  | some tracker =>
      obtain ⟨before, after, split, answers, noneBefore, others⟩ :=
        holds.exists_split entry
      have erased :
          board.trackers.eraseP (Tracker.answersTo name) = before ++ after := by
        have passed :
            ∀ other ∈ before, ¬ other.answersTo name = true :=
          fun other member => Bool.eq_false_iff.mp (noneBefore other member)
        rw [split, List.eraseP_append_right _ passed,
          List.eraseP_cons_of_pos answers]
      rw [Ledger.serve, entry]
      refine ⟨rfl, ?_⟩
      rw [← erased] at others
      exact others

theorem namedUpTo_trans (first second third : Tracker)
    (below : first.namedUpTo second = true)
    (above : second.namedUpTo third = true) :
    first.namedUpTo third = true := by
  rw [Tracker.namedUpTo, decide_eq_true_iff] at *
  exact String.le_trans below above

theorem namedUpTo_total (first second : Tracker) :
    (first.namedUpTo second || second.namedUpTo first) = true := by
  rw [Bool.or_eq_true, Tracker.namedUpTo, Tracker.namedUpTo,
    decide_eq_true_iff, decide_eq_true_iff]
  exact String.le_total first.name second.name

/-- Names that are all different are sorted strictly. -/
theorem increasing_mergeSort {trackers : List Tracker}
    (distinct : trackers.Pairwise fun first second => first.name ≠ second.name) :
    (trackers.mergeSort Tracker.namedUpTo).Pairwise fun first second =>
      first.name < second.name := by
  have sorted :=
    List.pairwise_mergeSort namedUpTo_trans namedUpTo_total trackers
  have different :
      (trackers.mergeSort Tracker.namedUpTo).Pairwise fun first second =>
        first.name ≠ second.name := by
    rw [(List.mergeSort_perm _ _).pairwise_iff fun different => different.symm]
    exact distinct
  apply (sorted.and different).imp
  rintro first second ⟨upTo, notSame⟩
  rw [Tracker.namedUpTo, decide_eq_true_iff] at upTo
  by_contra notBelow
  exact notSame (String.le_antisymm upTo (String.not_lt.mp notBelow))

theorem Holds.increasing_collect (holds : board.Holds ledger)
    (test : Tracker → Bool) :
    (board.collect test).Pairwise fun first second =>
      first.name < second.name := by
  apply increasing_mergeSort
  have distinct := List.pairwise_map.mp holds.distinct
  apply (distinct.imp _).sublist List.filter_sublist
  intro first second different same
  exact different (congrArg lowercase same)

theorem Holds.lists (holds : board.Holds ledger) :
    ledger.Lists board.list where
  increasing := holds.increasing_collect _
  mem_iff := by
    intro tracker
    rw [list, collect, List.mem_mergeSort, List.filter_true]
    constructor
    · intro member
      exact ⟨tracker.key, (holds.entry_iff _ tracker).mpr ⟨member, rfl⟩⟩
    · rintro ⟨key, entry⟩
      exact ((holds.entry_iff key tracker).mp entry).1

theorem list_perm (board : TrackerBoard) :
    board.list.Perm board.trackers := by
  rw [list, collect, List.filter_true]
  exact List.mergeSort_perm _ _

/-- Taking trackers out and sorting the rest is the same as taking them out of
the sorted list. -/
theorem Holds.collect_eq (holds : board.Holds ledger)
    (test : Tracker → Bool) :
    board.collect test = board.list.filter test := by
  apply Ledger.eq_of_increasing (holds.increasing_collect test)
    (holds.lists.increasing.filter test)
  rw [collect]
  exact (List.mergeSort_perm _ _).trans (board.list_perm.filter test).symm

theorem pinnedCount_eq (board : TrackerBoard) :
    board.pinnedCount = (board.list.filter Tracker.pinned).length := by
  rw [pinnedCount, ← List.countP_eq_length_filter, board.list_perm.countP_eq]

theorem Holds.agrees_pinAll (holds : board.Holds ledger) :
    Agrees (board.serve .pinAll) (ledger.serve board.list .pinAll) := by
  refine ⟨?_, ?_, ?_⟩
  · have counted :
        board.list.length =
          board.pinnedCount +
            board.trackers.countP fun tracker => !tracker.pinned := by
      rw [board.list_perm.length_eq, pinnedCount,
        List.length_eq_countP_add_countP Tracker.pinned]
      simp only [Bool.not_eq_true, Bool.decide_eq_false]
    rw [serve, pinAll, Ledger.serve, ← pinnedCount_eq, counted,
      Nat.add_sub_cancel_left]
  · rw [serve, pinAll, List.map_map]
    exact holds.distinct
  · intro key tracker
    rw [serve, pinAll, Ledger.serve, Option.map_eq_some_iff, List.mem_map]
    constructor
    · rintro ⟨unpinned, entry, rfl⟩
      obtain ⟨member, key⟩ := (holds.entry_iff key unpinned).mp entry
      exact ⟨⟨unpinned, member, rfl⟩, key⟩
    · rintro ⟨⟨unpinned, member, rfl⟩, key⟩
      exact ⟨unpinned, (holds.entry_iff _ unpinned).mpr ⟨member, key⟩, rfl⟩

theorem search_eq (board : TrackerBoard) (pattern : String) :
    board.search pattern =
      board.collect fun tracker => tracker.Mentions pattern := by
  rw [search]
  congr 1
  funext tracker
  rw [Bool.eq_iff_iff, occursIn_iff, decide_eq_true_iff, Tracker.Mentions,
    Tracker.key, lowercase, lowercase, String.toList_ofList,
    String.toList_ofList]

/-- One request: whatever the board holds before, it answers as the ledger and
holds what the ledger has become. -/
theorem Holds.agrees_serve (holds : board.Holds ledger)
    (request : TrackerRequest) :
    Agrees (board.serve request) (ledger.serve board.list request) := by
  cases request with
  | add name current max =>
      exact holds.agrees_add name current max _
  | get name =>
      exact ⟨congrArg TrackerAnswer.found (holds.get?_eq name), holds⟩
  | set name value =>
      exact holds.agrees_update name fun _ => rfl
  | adjust name delta =>
      have adjusted :
          Tracker.adjust delta =
            fun tracker =>
              { tracker with current := boundedSum tracker.current delta } := by
        funext tracker
        rw [Tracker.adjust, saturatingAdd_eq_boundedSum]
      rw [serve, adjust, adjusted]
      exact holds.agrees_update name fun _ => rfl
  | pin name =>
      exact holds.agrees_update name fun _ => rfl
  | unpin name =>
      exact holds.agrees_update name fun _ => rfl
  | pinAll =>
      exact holds.agrees_pinAll
  | delete name =>
      exact holds.agrees_delete name _
  | deleteAll =>
      exact ⟨rfl, holds_empty⟩
  | list =>
      exact ⟨rfl, holds⟩
  | pinned =>
      exact ⟨congrArg TrackerAnswer.trackers (holds.collect_eq _), holds⟩
  | search pattern =>
      rw [serve, search_eq, holds.collect_eq]
      exact ⟨rfl, holds⟩
  | count =>
      have counted : board.count = board.list.length :=
        board.list_perm.length_eq.symm
      exact ⟨congrArg TrackerAnswer.number counted, holds⟩
  | pinnedCount =>
      exact ⟨congrArg TrackerAnswer.number board.pinnedCount_eq, holds⟩

end Holds

theorem Run.follows_ledger {board final : TrackerBoard}
    {requests : List TrackerRequest} {answers : List TrackerAnswer}
    (run : Run board requests answers final) {ledger : Ledger}
    (holds : board.Holds ledger) :
    ∃ finalLedger,
      Ledger.Run ledger requests answers finalLedger ∧
        final.Holds finalLedger := by
  induction run generalizing ledger with
  | done board =>
      exact ⟨ledger, .done ledger, holds⟩
  | serve shuffle served run inductionHypothesis =>
      have shuffled := holds.of_perm shuffle
      obtain ⟨sameAnswer, holdsAfter⟩ := shuffled.agrees_serve _
      rw [served] at sameAnswer holdsAfter
      obtain ⟨finalLedger, ledgerRun, finalHolds⟩ :=
        inductionHypothesis holdsAfter
      exact
        ⟨finalLedger,
          .serve shuffled.lists (Prod.ext sameAnswer.symm rfl) ledgerRun,
          finalHolds⟩

/-- To every run of requests there is one sequence of answers and one ledger
that the rules of ledgers allow. A board that starts out empty serves the
requests, and however its trackers change places, it gives these answers and
ends with this ledger. -/
theorem run_answers_as_ledger (requests : List TrackerRequest) :
    ∃ answers ledger,
      (∀ told final,
        Ledger.Run Ledger.empty requests told final ↔
          told = answers ∧ final = ledger) ∧
        (∃ board, Run empty requests answers board) ∧
        ∀ given board,
          Run empty requests given board →
            given = answers ∧ board.Holds ledger := by
  obtain ⟨answers, board, run⟩ := exists_run requests empty
  obtain ⟨ledger, ledgerRun, _⟩ := run.follows_ledger holds_empty
  refine ⟨answers, ledger, ?_, ⟨board, run⟩, ?_⟩
  · intro told final
    constructor
    · intro other
      exact other.unique ledgerRun
    · rintro ⟨rfl, rfl⟩
      exact ledgerRun
  · intro given board otherRun
    obtain ⟨otherLedger, otherLedgerRun, holds⟩ :=
      otherRun.follows_ledger holds_empty
    obtain ⟨rfl, rfl⟩ := otherLedgerRun.unique ledgerRun
    exact ⟨rfl, holds⟩

/-- Two trackers change places before a third is refused, and are listed in the
order of their names all the same. -/
theorem run_answers_as_ledger_of_hp :
    let requests : List TrackerRequest :=
      [.add "Xp" 3 9, .add "Hp" 7 7, .add "HP" 1 1, .list]
    let answers : List TrackerAnswer :=
      [.tracker ⟨"Xp", 3, 9, false⟩, .tracker ⟨"Hp", 7, 7, false⟩,
        .refused (.duplicateTracker "HP"),
        .trackers [⟨"Hp", 7, 7, false⟩, ⟨"Xp", 3, 9, false⟩]]
    let board : TrackerBoard :=
      ⟨[⟨"Hp", 7, 7, false⟩, ⟨"Xp", 3, 9, false⟩]⟩
    Run empty requests answers board ∧
      ∃ ledger,
        Ledger.Run Ledger.empty requests answers ledger ∧
          board.Holds ledger := by
  intro requests answers board
  have first :
      serve empty (.add "Xp" 3 9) =
        (.tracker ⟨"Xp", 3, 9, false⟩, ⟨[⟨"Xp", 3, 9, false⟩]⟩) := by
    decide +kernel
  have second :
      serve ⟨[⟨"Xp", 3, 9, false⟩]⟩ (.add "Hp" 7 7) =
        (.tracker ⟨"Hp", 7, 7, false⟩,
          ⟨[⟨"Xp", 3, 9, false⟩, ⟨"Hp", 7, 7, false⟩]⟩) := by
    decide +kernel
  have third :
      serve board (.add "HP" 1 1) =
        (.refused (.duplicateTracker "HP"), board) := by
    decide +kernel
  have listed :
      serve board .list =
        (.trackers [⟨"Hp", 7, 7, false⟩, ⟨"Xp", 3, 9, false⟩], board) := by
    cbv
  have run : Run empty requests answers board :=
    .serve (.refl _) first <|
      .serve (.refl _) second <|
        .serve (.swap _ _ []) third <|
          .serve (.refl _) listed (.done board)
  obtain ⟨told, ledger, toldOnly, _, agrees⟩ := run_answers_as_ledger requests
  obtain ⟨same, holds⟩ := agrees answers board run
  exact ⟨run, ledger, (toldOnly answers ledger).mpr ⟨same, rfl⟩, holds⟩

end TrackerBoard

end Tabletop
