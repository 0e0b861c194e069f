import Tabletop.Proofs.Places

/-!
# Trimmed lines and their first word

Trimming takes away blanks only, and what is left of a line that is not blank
begins and ends with a character that shows. The first word of a line ends at
the first blank.
-/

namespace Tabletop.Text

theorem allBlank_reverse {text : List Char} :
    AllBlank text.reverse ↔ AllBlank text := by
  simp only [AllBlank, List.mem_reverse]

theorem trimStart_eq_nil_iff {text : List Char} :
    trimStart text = [] ↔ AllBlank text :=
  List.dropWhile_eq_nil_iff

theorem trimEnd_eq_nil_iff {text : List Char} :
    trimEnd text = [] ↔ AllBlank text := by
  rw [trimEnd, List.reverse_eq_nil_iff, trimStart_eq_nil_iff, allBlank_reverse]

theorem squeeze_trimStart (text : List Char) :
    squeeze (trimStart text) = squeeze text := by
  have dropped : squeeze (text.takeWhile isBlank) = [] :=
    squeeze_eq_nil_iff.mpr fun _ member => List.mem_takeWhile_imp member
  calc
    squeeze (trimStart text) =
        squeeze (text.takeWhile isBlank) ++ squeeze (trimStart text) := by
      rw [dropped, List.nil_append]
    _ = squeeze text := by
      rw [← squeeze_append, trimStart, List.takeWhile_append_dropWhile]

theorem squeeze_reverse (text : List Char) :
    squeeze text.reverse = (squeeze text).reverse :=
  List.filter_reverse

theorem squeeze_trimEnd (text : List Char) :
    squeeze (trimEnd text) = squeeze text := by
  rw [trimEnd, squeeze_reverse, squeeze_trimStart, squeeze_reverse,
    List.reverse_reverse]

theorem squeeze_trim (text : List Char) :
    squeeze (trim text) = squeeze text := by
  rw [trim, squeeze_trimEnd, squeeze_trimStart]

theorem allBlank_iff_of_squeeze_eq {first second : List Char}
    (same : squeeze first = squeeze second) :
    AllBlank first ↔ AllBlank second := by
  rw [← squeeze_eq_nil_iff, same, squeeze_eq_nil_iff]

theorem trim_eq_nil_iff {text : List Char} :
    trim text = [] ↔ AllBlank text := by
  rw [trim, trimEnd_eq_nil_iff]
  exact allBlank_iff_of_squeeze_eq (squeeze_trimStart text)

theorem isBlank_eq_false {letter : Char} (ink : isInk letter = true) :
    isBlank letter = false := by
  rwa [isInk, Bool.not_eq_true'] at ink

theorem trimStart_cons {first : Char} (ink : isInk first = true)
    (rest : List Char) :
    trimStart (first :: rest) = first :: rest :=
  List.dropWhile_cons_of_neg (by simp [isBlank_eq_false ink])

theorem trimEnd_append {first second : List Char}
    (shown : ¬ AllBlank second) :
    trimEnd (first ++ second) = first ++ trimEnd second := by
  have kept : (second.reverse.dropWhile isBlank).isEmpty = false := by
    rw [List.isEmpty_eq_false_iff]
    intro empty
    exact shown (allBlank_reverse.mp (trimStart_eq_nil_iff.mp empty))
  rw [trimEnd, trimStart, List.reverse_append, List.dropWhile_append, kept,
    if_neg Bool.false_ne_true, List.reverse_append, List.reverse_reverse]
  rfl

theorem trimEnd_append_of_allBlank {second : List Char}
    (blank : AllBlank second) (first : List Char) :
    trimEnd (first ++ second) = trimEnd first := by
  have gone : second.reverse.dropWhile isBlank = [] :=
    trimStart_eq_nil_iff.mpr (allBlank_reverse.mpr blank)
  rw [trimEnd, trimStart, List.reverse_append, List.dropWhile_append, gone,
    if_pos List.isEmpty_nil]
  rfl

theorem trimEnd_singleton {last : Char} (ink : isInk last = true) :
    trimEnd [last] = [last] := by
  rw [trimEnd, List.reverse_singleton, trimStart_cons ink,
    List.reverse_singleton]

theorem trimEnd_concat {last : Char} (ink : isInk last = true)
    (text : List Char) :
    trimEnd (text ++ [last]) = text ++ [last] := by
  have shown : ¬ AllBlank [last] := by
    intro blank
    have same := blank last (List.mem_singleton_self last)
    rw [isBlank_eq_false ink] at same
    cases same
  rw [trimEnd_append shown, trimEnd_singleton ink]

theorem trimEnd_cons {first : Char} (ink : isInk first = true)
    (rest : List Char) :
    trimEnd (first :: rest) = first :: trimEnd rest := by
  rw [← List.singleton_append]
  by_cases blank : AllBlank rest
  · rw [trimEnd_append_of_allBlank blank, trimEnd_singleton ink,
      trimEnd_eq_nil_iff.mpr blank]
  · rw [trimEnd_append blank, List.singleton_append]

/-- What trimming leaves of a line that is not blank begins with a character
that shows. -/
theorem exists_trim_eq_cons {text : List Char} (shown : ¬ AllBlank text) :
    ∃ first rest, trim text = first :: rest ∧ isInk first = true := by
  cases started : trimStart text with
  | nil =>
      exact absurd (trimStart_eq_nil_iff.mp started) shown
  | cons first rest =>
      have ink : isInk first = true := by
        have head := List.head?_dropWhile_not isBlank text
        rw [show text.dropWhile isBlank = first :: rest from started] at head
        rw [isInk, show isBlank first = false from head]
        rfl
      exact ⟨first, trimEnd rest, by rw [trim, started, trimEnd_cons ink], ink⟩

theorem splitFirst_append_cons {word : List Char} {gap : Char}
    (inked : ∀ letter ∈ word, isInk letter = true)
    (blank : isBlank gap = true) (rest : List Char) :
    splitFirst (word ++ gap :: rest) = (word, trim (gap :: rest)) := by
  have stops : ¬ isInk gap = true := by
    rw [isInk, blank]
    exact Bool.false_ne_true
  rw [splitFirst, List.takeWhile_append_of_pos inked,
    List.dropWhile_append_of_pos inked, List.takeWhile_cons_of_neg stops,
    List.dropWhile_cons_of_neg stops, List.append_nil]

theorem splitFirst_cons {first : Char} (ink : isInk first = true)
    (rest : List Char) :
    ∃ more, (splitFirst (first :: rest)).1 = first :: more :=
  ⟨rest.takeWhile isInk, List.takeWhile_cons_of_pos ink⟩

theorem trim_append_cons {word rest : List Char} (given : word ≠ [])
    (inked : ∀ letter ∈ word, isInk letter = true) (gap : Char)
    (shown : ¬ AllBlank rest) :
    trim (word ++ gap :: rest) = word ++ gap :: trimEnd rest := by
  obtain ⟨first, more, rfl⟩ := List.exists_cons_of_ne_nil given
  have ink := inked first (List.mem_cons_self ..)
  rw [trim, List.cons_append, trimStart_cons ink, ← List.cons_append,
    List.append_cons, trimEnd_append shown, ← List.append_cons]

/-- On a line that begins with a word, what stands behind the word shows the
same characters when both are taken apart again. -/
theorem exists_splitFirst_trim {word rest : List Char} {gap : Char}
    (given : word ≠ []) (inked : ∀ letter ∈ word, isInk letter = true)
    (blank : isBlank gap = true) (shown : ¬ AllBlank rest) :
    ∃ tail,
      splitFirst (trim (word ++ gap :: rest)) = (word, tail) ∧
        squeeze tail = squeeze rest := by
  refine ⟨trim (gap :: trimEnd rest), ?_, ?_⟩
  · rw [trim_append_cons given inked gap shown,
      splitFirst_append_cons inked blank]
  · have hidden : squeeze [gap] = [] :=
      squeeze_eq_nil_iff.mpr (List.forall_mem_singleton.mpr blank)
    rw [squeeze_trim, ← List.singleton_append, squeeze_append, hidden,
      List.nil_append, squeeze_trimEnd]

end Tabletop.Text
