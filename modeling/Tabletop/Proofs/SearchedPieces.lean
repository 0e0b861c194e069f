import Tabletop.Proofs.TrackerBoards

/-!
# Searching for a piece of a name

A search puts the pattern and the name into lower case apart from each other.
Cutting a piece out of a name changes the lower-case form of no letter but a
capital sigma, which is final or not by the letters around it. So a piece is
found in its place just when each of its sigmas is final in the piece as it is
in the name; every piece without a sigma and every piece that is cut out
between words is of that kind.
-/

namespace Tabletop.Text

/-- The lower-case form of a letter that stands behind some characters
(nearest first) and before others. -/
def lowerAt (backwards : List Char) (letter : Char) (forwards : List Char) :
    List Char :=
  if letter = 'Σ' then
    [if isFinalSigma backwards forwards then 'ς' else 'σ']
  else
    lowerChar letter

/-- The lower-case form of a piece between such neighbours. -/
def lowerBetween (backwards forwards : List Char) :
    (piece : List Char) → List Char
  | [] => []
  | letter :: rest =>
      lowerAt backwards letter (rest ++ forwards) ++
        lowerBetween (letter :: backwards) forwards rest

theorem lowerAt_eq_iff {backwards forwards otherBackwards otherForwards :
      List Char} {letter : Char} :
    lowerAt backwards letter forwards =
        lowerAt otherBackwards letter otherForwards ↔
      (letter = 'Σ' →
        isFinalSigma backwards forwards =
          isFinalSigma otherBackwards otherForwards) := by
  unfold lowerAt
  by_cases sigma : letter = 'Σ'
  · rw [if_pos sigma, if_pos sigma, List.singleton_inj]
    cases isFinalSigma backwards forwards <;>
      cases isFinalSigma otherBackwards otherForwards <;> simp [sigma]
  · rw [if_neg sigma, if_neg sigma]
    exact iff_of_true rfl fun isSigma => absurd isSigma sigma

theorem length_lowerAt (backwards : List Char) (letter : Char)
    (forwards : List Char) :
    (lowerAt backwards letter forwards).length =
      (lowerAt [] letter []).length := by
  unfold lowerAt
  split <;> rfl

theorem lowerBehind_append (backwards piece back : List Char) :
    lowerBehind backwards (piece ++ back) =
      lowerBetween backwards back piece ++
        lowerBehind (piece.reverse ++ backwards) back := by
  induction piece generalizing backwards with
  | nil =>
      rfl
  | cons letter rest inductionHypothesis =>
      rw [List.cons_append, lowerBehind, inductionHypothesis, lowerBetween,
        List.append_assoc, List.reverse_cons, List.append_assoc]
      rfl

theorem lowerBetween_nil_right (backwards piece : List Char) :
    lowerBetween backwards [] piece = lowerBehind backwards piece := by
  have whole := lowerBehind_append backwards piece []
  rw [List.append_nil, lowerBehind, List.append_nil] at whole
  exact whole.symm

theorem length_lowerBetween (backwards forwards piece : List Char) :
    (lowerBetween backwards forwards piece).length =
      (piece.map fun letter => (lowerAt [] letter []).length).sum := by
  induction piece generalizing backwards with
  | nil =>
      rfl
  | cons letter rest inductionHypothesis =>
      rw [lowerBetween, List.length_append, length_lowerAt,
        inductionHypothesis, List.map_cons, List.sum_cons]

theorem lowerChars_eq_lowerBetween (piece : List Char) :
    lowerChars piece = lowerBetween [] [] piece :=
  (lowerBetween_nil_right [] piece).symm

/-- Every capital sigma of the piece is final in one surrounding just when it is
final in the other. -/
def SigmasAgree (backwards forwards otherBackwards otherForwards piece :
    List Char) : Prop :=
  ∀ before after, piece = before ++ 'Σ' :: after →
    isFinalSigma (before.reverse ++ backwards) (after ++ forwards) =
      isFinalSigma (before.reverse ++ otherBackwards) (after ++ otherForwards)

theorem sigmasAgree_cons_iff {backwards forwards otherBackwards otherForwards
      rest : List Char} {letter : Char} :
    SigmasAgree backwards forwards otherBackwards otherForwards
        (letter :: rest) ↔
      (letter = 'Σ' →
        isFinalSigma backwards (rest ++ forwards) =
          isFinalSigma otherBackwards (rest ++ otherForwards)) ∧
        SigmasAgree (letter :: backwards) forwards (letter :: otherBackwards)
          otherForwards rest := by
  constructor
  · intro agree
    constructor
    · rintro rfl
      exact agree [] rest rfl
    · rintro before after rfl
      simpa using agree (letter :: before) after rfl
  · rintro ⟨here, later⟩ before after split
    cases before with
    | nil =>
        obtain ⟨rfl, rfl⟩ := List.cons_eq_cons.mp split
        exact here rfl
    | cons first more =>
        obtain ⟨rfl, rfl⟩ := List.cons_eq_cons.mp split
        simpa using later more after rfl

/-- Surroundings matter to the sigmas of a piece alone. -/
theorem lowerBetween_eq_iff {backwards forwards otherBackwards otherForwards
      piece : List Char} :
    lowerBetween backwards forwards piece =
        lowerBetween otherBackwards otherForwards piece ↔
      SigmasAgree backwards forwards otherBackwards otherForwards piece := by
  induction piece generalizing backwards otherBackwards with
  | nil =>
      refine iff_of_true rfl ?_
      intro before after split
      exact absurd split (by simp)
  | cons letter rest inductionHypothesis =>
      have sameLength :
          (lowerAt backwards letter (rest ++ forwards)).length =
            (lowerAt otherBackwards letter (rest ++ otherForwards)).length := by
        rw [length_lowerAt, length_lowerAt otherBackwards]
      rw [sigmasAgree_cons_iff, ← inductionHypothesis, ← lowerAt_eq_iff,
        lowerBetween, lowerBetween]
      constructor
      · intro same
        exact List.append_inj same sameLength
      · rintro ⟨here, later⟩
        rw [here, later]

/-- Every capital sigma of the piece is final in the piece just when it is
final between the front and the back. -/
def KeepsSigmas (front piece back : List Char) : Prop :=
  SigmasAgree [] [] front.reverse back piece

/-- Where the lower-case form of a piece would stand in that of the text. -/
def lowerStart (front rest : List Char) : Nat :=
  (lowerBetween [] rest front).length

/-- The lower-case form of the pattern stands at a place in that of the text. -/
def StandsAt (place : Nat) (pattern text : List Char) : Prop :=
  ∃ before after,
    lowerChars text = before ++ lowerChars pattern ++ after ∧
      before.length = place

theorem keepsSigmas_iff_standsAt {front piece back : List Char} :
    KeepsSigmas front piece back ↔
      StandsAt (lowerStart front (piece ++ back)) piece
        (front ++ piece ++ back) := by
  have whole :
      lowerChars (front ++ piece ++ back) =
        lowerBetween [] (piece ++ back) front ++
          lowerBetween front.reverse back piece ++
            lowerBehind (piece.reverse ++ front.reverse) back := by
    rw [lowerChars, List.append_assoc, lowerBehind_append,
      lowerBehind_append, List.append_nil, List.append_assoc]
  have sameLength :
      (lowerBetween front.reverse back piece).length =
        (lowerChars piece).length := by
    rw [lowerChars_eq_lowerBetween, length_lowerBetween,
      length_lowerBetween []]
  rw [KeepsSigmas, ← lowerBetween_eq_iff, ← lowerChars_eq_lowerBetween,
    StandsAt, whole]
  constructor
  · intro same
    exact ⟨_, _, by rw [same], rfl⟩
  · rintro ⟨before, after, split, place⟩
    rw [List.append_assoc, List.append_assoc] at split
    obtain ⟨_, behind⟩ := List.append_inj split place.symm
    exact (List.append_inj behind sameLength).1.symm

theorem keepsSigmas_of_not_mem {front piece back : List Char}
    (plain : 'Σ' ∉ piece) :
    KeepsSigmas front piece back := by
  rintro before after rfl
  exact absurd (by simp) plain

theorem meetsCased_append {first second : List Char}
    (ends : meetsCased second = false) :
    meetsCased (first ++ second) = meetsCased first := by
  unfold meetsCased
  rw [List.dropWhile_append]
  cases dropped : first.dropWhile isCaseIgnorable with
  | nil =>
      exact ends
  | cons letter rest =>
      rfl

/-- Between words every sigma has the neighbours that count inside the
piece. -/
theorem keepsSigmas_between_words {front piece back : List Char}
    (opens : meetsCased front.reverse = false)
    (closes : meetsCased back = false) :
    KeepsSigmas front piece back := by
  intro before after _
  rw [isFinalSigma, isFinalSigma, List.append_nil, List.append_nil,
    meetsCased_append opens, meetsCased_append closes]

end Tabletop.Text

namespace Tabletop.TrackerBoard

open Tabletop.Text

theorem mem_search_iff {board : TrackerBoard} {pattern : String}
    {tracker : Tracker} :
    tracker ∈ board.search pattern ↔
      tracker ∈ board.trackers ∧
        lowerChars pattern.toList <:+: lowerChars tracker.name.toList := by
  rw [search, collect, List.mem_mergeSort, List.mem_filter, occursIn_iff]

theorem mem_search_of_get? {board : TrackerBoard} {name : String}
    {tracker : Tracker} (found : board.get? name = some tracker) :
    tracker ∈ board.search name := by
  have answers := (answersTo_iff name tracker).mp (List.find?_some found)
  rw [Tracker.key, lowercase, lowercase, String.ofList_inj] at answers
  rw [mem_search_iff, answers]
  exact ⟨List.mem_of_find?_eq_some found, List.infix_refl _⟩

/-- A piece of the name of a tracker that is held finds it just when the piece
keeps its sigmas, or its lower-case form happens to stand at another place of
that of the name. Without a sigma, or cut out between words, it keeps them. And
whatever is found by its name is found by a search for it. -/
theorem search_finds_piece_iff (board : TrackerBoard) :
    (∀ tracker ∈ board.trackers, ∀ front piece back : List Char,
        tracker.name.toList = front ++ piece ++ back →
          (tracker ∈ board.search (String.ofList piece) ↔
            KeepsSigmas front piece back ∨
              ∃ place ≠ lowerStart front (piece ++ back),
                StandsAt place piece tracker.name.toList) ∧
          ('Σ' ∉ piece → KeepsSigmas front piece back) ∧
          (meetsCased front.reverse = false → meetsCased back = false →
            KeepsSigmas front piece back)) ∧
      ∀ name tracker,
        board.get? name = some tracker → tracker ∈ board.search name := by
  refine ⟨?_, fun _ _ => mem_search_of_get?⟩
  intro tracker held front piece back cut
  refine ⟨?_, keepsSigmas_of_not_mem, keepsSigmas_between_words⟩
  rw [mem_search_iff, String.toList_ofList, keepsSigmas_iff_standsAt, cut]
  constructor
  · rintro ⟨_, before, after, split⟩
    have stands : StandsAt before.length piece (front ++ piece ++ back) :=
      ⟨before, after, split.symm, rfl⟩
    by_cases inPlace : before.length = lowerStart front (piece ++ back)
    · exact Or.inl (inPlace ▸ stands)
    · exact Or.inr ⟨before.length, inPlace, stands⟩
  · rintro (⟨before, after, split, _⟩ | ⟨_, _, before, after, split, _⟩)
    · exact ⟨held, before, after, split.symm⟩
    · exact ⟨held, before, after, split.symm⟩

/-- A word that ends in a final sigma is found where it stands as a word, and
the whole name by itself in small letters. -/
theorem search_finds_piece_iff_of_road :
    let road : Tracker := ⟨"ΟΔΟΣ ΣΟΦΟΥ", 3, 5, false⟩
    let board : TrackerBoard := ⟨[road]⟩
    road ∈ board.trackers ∧
      road.name.toList = [] ++ "ΟΔΟΣ".toList ++ " ΣΟΦΟΥ".toList ∧
      meetsCased " ΣΟΦΟΥ".toList = false ∧
      road ∈ board.search "ΟΔΟΣ" ∧
      board.get? "οδος σοφου" = some road ∧
      road ∈ board.search "οδος σοφου" := by
  intro road board
  have held : road ∈ board.trackers := List.mem_singleton_self road
  have cut : road.name.toList = [] ++ "ΟΔΟΣ".toList ++ " ΣΟΦΟΥ".toList := by
    decide
  have closes : meetsCased " ΣΟΦΟΥ".toList = false := by
    decide +kernel
  have answers : board.get? "οδος σοφου" = some road := by
    decide +kernel
  obtain ⟨pieces, names⟩ := board.search_finds_piece_iff
  obtain ⟨found, _, between⟩ := pieces road held _ _ _ cut
  exact ⟨held, cut, closes, found.mpr (Or.inl (between rfl closes)), answers,
    names _ _ answers⟩

/-- The last letter of a name, which is a final sigma there and none by itself,
does not find the name. -/
theorem last_letter_does_not_find_name :
    ∃ road board,
      empty.add "ΟΔΟΣ" 1 1 = .ok (road, board) ∧
        road ∈ board.trackers ∧
        "ΟΔΟΣ".toList = "ΟΔΟ".toList ++ "Σ".toList ++ [] ∧
        road.name = "ΟΔΟΣ" ∧
        road ∉ board.search "Σ" := by
  refine ⟨⟨"ΟΔΟΣ", 1, 1, false⟩, ⟨[⟨"ΟΔΟΣ", 1, 1, false⟩]⟩, rfl,
    List.mem_singleton_self _, by decide, rfl, ?_⟩
  rw [mem_search_iff]
  decide +kernel

end Tabletop.TrackerBoard
