import Mathlib
import Tabletop.Dice.Report
import Tabletop.Proofs.FirstFault

/-!
# What a report marks

A report has something to mark for every span, also for one that lies behind
the text, runs backwards or cuts characters; and it marks the span of an error
as it is, if that is not empty (`mark_is_legal_and_keeps_spans`).

`charStart` and `charStop` are the nearest places before and behind a byte at
which a character begins or the text ends. `seekMark?` looks for these places
one byte at a time, and has no result as soon as it leaves the text or cuts a
character. It finds what `labelSpan` gives (`seekMark?_eq`).
-/

namespace Tabletop.Dice

open Tabletop.Text

/-- At this byte a character of the text begins, or the text ends. -/
def IsBoundary (text : List Char) (byte : Nat) : Prop :=
  ∃ first rest, text = first ++ rest ∧ byte = byteLength first

theorem isBoundary_append (first rest : List Char) :
    IsBoundary (first ++ rest) (byteLength first) :=
  ⟨first, rest, rfl, rfl⟩

theorem isBoundary_byteLength (text : List Char) :
    IsBoundary text (byteLength text) :=
  ⟨text, [], (List.append_nil text).symm, rfl⟩

theorem isBoundary_zero (text : List Char) : IsBoundary text 0 :=
  ⟨[], text, rfl, rfl⟩

theorem IsBoundary.cons {rest : List Char} {byte : Nat} (letter : Char)
    (boundary : IsBoundary rest byte) :
    IsBoundary (letter :: rest) (letter.utf8Size + byte) := by
  obtain ⟨first, later, rfl, rfl⟩ := boundary
  exact ⟨letter :: first, later, rfl, rfl⟩

theorem IsBoundary.le_byteLength {text : List Char} {byte : Nat}
    (boundary : IsBoundary text byte) : byte ≤ byteLength text := by
  obtain ⟨first, rest, rfl, rfl⟩ := boundary
  rw [byteLength_append]
  exact Nat.le_add_right _ _

theorem IsBoundary.isValid {text : String} {byte : Nat}
    (boundary : IsBoundary text.toList byte) :
    (⟨byte⟩ : String.Pos.Raw).IsValid text := by
  obtain ⟨first, rest, shape, rfl⟩ := boundary
  rw [String.Pos.Raw.isValid_iff_exists_append]
  refine ⟨.ofList first, .ofList rest, ?_, ?_⟩
  · rw [← String.ofList_append, ← shape, String.ofList_toList]
  · rw [← utf8ByteSize_ofList]
    rfl

theorem charStop_zero (text : List Char) : charStop text 0 = 0 := by
  cases text with
  | nil =>
      rfl
  | cons letter rest =>
      rw [charStop, if_pos rfl]

theorem charStart_append (first rest : List Char) (byte : Nat) :
    charStart (first ++ rest) (byteLength first + byte) =
      byteLength first + charStart rest byte := by
  induction first with
  | nil =>
      rw [List.nil_append, byteLength, Nat.zero_add, Nat.zero_add]
  | cons letter later inductionHypothesis =>
      rw [List.cons_append, byteLength, charStart, if_neg (by omega),
        Nat.add_assoc, Nat.add_sub_cancel_left, inductionHypothesis,
        Nat.add_assoc]

theorem charFrom?_append (first rest : List Char) :
    charFrom? (first ++ rest) (byteLength first) = rest.head? := by
  induction first with
  | nil =>
      cases rest with
      | nil =>
          rfl
      | cons letter later =>
          rw [List.nil_append, byteLength, charFrom?, if_pos rfl,
            List.head?_cons]
  | cons letter later inductionHypothesis =>
      have positive := letter.utf8Size_pos
      rw [List.cons_append, byteLength, charFrom?, if_neg (by omega),
        Nat.add_sub_cancel_left, inductionHypothesis]

theorem charStart_le (text : List Char) (byte : Nat) :
    charStart text byte ≤ byte := by
  induction text generalizing byte with
  | nil =>
      exact Nat.zero_le byte
  | cons letter rest inductionHypothesis =>
      have later := inductionHypothesis (byte - letter.utf8Size)
      rw [charStart]
      split <;> omega

theorem isBoundary_charStart (text : List Char) (byte : Nat) :
    IsBoundary text (charStart text byte) := by
  induction text generalizing byte with
  | nil =>
      exact isBoundary_zero []
  | cons letter rest inductionHypothesis =>
      rw [charStart]
      split
      · exact isBoundary_zero (letter :: rest)
      · exact (inductionHypothesis (byte - letter.utf8Size)).cons letter

theorem isBoundary_charStop (text : List Char) (byte : Nat) :
    IsBoundary text (charStop text byte) := by
  induction text generalizing byte with
  | nil =>
      exact isBoundary_zero []
  | cons letter rest inductionHypothesis =>
      rw [charStop]
      split
      · exact isBoundary_zero (letter :: rest)
      · exact (inductionHypothesis (byte - letter.utf8Size)).cons letter

theorem le_charStop {text : List Char} {byte : Nat}
    (inside : byte ≤ byteLength text) : byte ≤ charStop text byte := by
  induction text generalizing byte with
  | nil =>
      exact inside
  | cons letter rest inductionHypothesis =>
      rw [byteLength] at inside
      have later :=
        inductionHypothesis (Nat.sub_le_iff_le_add'.mpr inside)
      rw [charStop]
      split <;> omega

/-- No place between characters is nearer before the byte. -/
theorem IsBoundary.le_charStart {text : List Char} {place byte : Nat}
    (boundary : IsBoundary text place) (before : place ≤ byte) :
    place ≤ charStart text byte := by
  obtain ⟨first, rest, rfl, rfl⟩ := boundary
  obtain ⟨more, rfl⟩ := Nat.exists_eq_add_of_le before
  rw [charStart_append]
  exact Nat.le_add_right _ _

/-- No place between characters is nearer behind the byte. -/
theorem IsBoundary.charStop_le {text : List Char} {place byte : Nat}
    (boundary : IsBoundary text place) (behind : byte ≤ place) :
    charStop text byte ≤ place := by
  obtain ⟨first, rest, rfl, rfl⟩ := boundary
  induction first generalizing byte with
  | nil =>
      rw [Nat.le_zero.mp behind, charStop_zero]
      exact Nat.zero_le _
  | cons letter later inductionHypothesis =>
      rw [byteLength] at behind ⊢
      have onward :=
        inductionHypothesis (Nat.sub_le_iff_le_add'.mpr behind)
      rw [List.cons_append, charStop]
      split <;> omega

theorem IsBoundary.charStart_eq {text : List Char} {byte : Nat}
    (boundary : IsBoundary text byte) : charStart text byte = byte :=
  Nat.le_antisymm (charStart_le text byte) (boundary.le_charStart le_rfl)

theorem IsBoundary.charStop_eq {text : List Char} {byte : Nat}
    (boundary : IsBoundary text byte) : charStop text byte = byte :=
  Nat.le_antisymm (boundary.charStop_le le_rfl)
    (le_charStop boundary.le_byteLength)

theorem charStart_succ {text : List Char} {byte : Nat}
    (inside : ¬ IsBoundary text (byte + 1)) :
    charStart text (byte + 1) = charStart text byte := by
  have boundary := isBoundary_charStart text (byte + 1)
  have before := charStart_le text (byte + 1)
  have apart : charStart text (byte + 1) ≠ byte + 1 :=
    fun same => inside (same ▸ boundary)
  have place := isBoundary_charStart text byte
  exact Nat.le_antisymm (boundary.le_charStart (by omega))
    (place.le_charStart (Nat.le_succ_of_le (charStart_le text byte)))

theorem charStop_succ {text : List Char} {byte : Nat}
    (within : byte < byteLength text) (inside : ¬ IsBoundary text byte) :
    charStop text (byte + 1) = charStop text byte := by
  have boundary := isBoundary_charStop text byte
  have behind := le_charStop within.le
  have apart : charStop text byte ≠ byte :=
    fun same => inside (same ▸ boundary)
  have place := isBoundary_charStop text (byte + 1)
  exact Nat.le_antisymm (boundary.charStop_le (by omega))
    (place.charStop_le (Nat.le_of_succ_le (le_charStop within)))

/-- The character behind a place of a text, or the one before it where the
text ends. -/
def charBeside (first rest : List Char) : Span :=
  match rest.head?, first.getLast? with
  | some next, _ => ⟨byteLength first, byteLength first + next.utf8Size⟩
  | none, some last => ⟨byteLength first - last.utf8Size, byteLength first⟩
  | none, none => ⟨byteLength first, byteLength first⟩

theorem charBeside_cons (first : List Char) (next : Char) (later : List Char) :
    charBeside first (next :: later) =
      ⟨byteLength first, byteLength (first ++ [next])⟩ := by
  simp [charBeside, byteLength]

theorem charBeside_concat_nil (front : List Char) (last : Char) :
    charBeside (front ++ [last]) [] =
      ⟨byteLength front, byteLength (front ++ [last])⟩ := by
  simp [charBeside, byteLength]

theorem exists_charBeside {first rest : List Char} (given : first ++ rest ≠ []) :
    ∃ before letter after,
      first ++ rest = before ++ [letter] ++ after ∧
        charBeside first rest =
          ⟨byteLength before, byteLength (before ++ [letter])⟩ := by
  cases rest with
  | cons next later =>
      exact ⟨first, next, later, by simp, charBeside_cons first next later⟩
  | nil =>
      rw [List.append_nil] at given
      obtain ⟨front, last, rfl⟩ := (List.eq_nil_or_concat first).resolve_left given
      rw [List.concat_eq_append]
      exact ⟨front, last, [], rfl, charBeside_concat_nil front last⟩

theorem isBoundary_stop_charBeside (first rest : List Char) :
    IsBoundary (first ++ rest) (charBeside first rest).stop := by
  by_cases given : first ++ rest = []
  · obtain ⟨rfl, rfl⟩ := List.append_eq_nil_iff.mp given
    exact isBoundary_zero []
  · obtain ⟨before, letter, after, shape, mark⟩ := exists_charBeside given
    rw [shape, mark]
    exact isBoundary_append (before ++ [letter]) after

/-- The mark begins where the character of its first byte does. What does not
reach beyond that place is widened to the character beside it. -/
theorem labelSpan_of_charStart {first rest : List Char} {span : Span}
    (start : charStart (first ++ rest) span.start = byteLength first) :
    labelSpan (first ++ rest) span =
      if min span.stop (byteLength (first ++ rest)) ≤ byteLength first then
        charBeside first rest
      else
        ⟨byteLength first,
          charStop (first ++ rest)
            (min span.stop (byteLength (first ++ rest)))⟩ := by
  unfold labelSpan
  dsimp only
  rw [start, charFrom?_append]
  by_cases short : min span.stop (byteLength (first ++ rest)) ≤ byteLength first
  · rw [Nat.max_eq_left short, if_pos rfl, if_pos short]
    cases rest with
    | nil =>
        rw [List.append_nil]
        rfl
    | cons next later =>
        rfl
  · rw [Nat.max_eq_right (by omega), if_neg (by omega), if_neg short]

/-- A mark is a stretch of whole characters, at least one. -/
theorem exists_marked_characters {text : List Char} (given : text ≠ [])
    (span : Span) :
    ∃ before held after,
      text = before ++ held ++ after ∧ held ≠ [] ∧
        labelSpan text span =
          ⟨byteLength before, byteLength (before ++ held)⟩ := by
  obtain ⟨first, rest, rfl, start⟩ := isBoundary_charStart text span.start
  rw [labelSpan_of_charStart start]
  split
  · obtain ⟨before, letter, after, shape, mark⟩ := exists_charBeside given
    exact ⟨before, [letter], after, shape, List.cons_ne_nil letter [], mark⟩
  · rename_i long
    obtain ⟨whole, after, shape, stop⟩ :=
      isBoundary_charStop (first ++ rest)
        (min span.stop (byteLength (first ++ rest)))
    have reached :=
      le_charStop (Nat.min_le_right span.stop (byteLength (first ++ rest)))
    rw [stop] at reached ⊢
    -- the end lies behind the beginning, so what is before it begins with `first`
    rcases List.append_eq_append_iff.mp shape with
      ⟨held, rfl, rfl⟩ | ⟨more, rfl, _⟩
    · refine ⟨first, held, after, (List.append_assoc first held after).symm, ?_,
        rfl⟩
      rintro rfl
      rw [List.append_nil] at reached
      omega
    · simp only [byteLength_append] at long reached
      omega

/-- A stretch of whole characters is marked as it is. -/
theorem labelSpan_of_characters (before after : List Char) {held : List Char}
    (given : held ≠ []) :
    labelSpan (before ++ held ++ after)
        ⟨byteLength before, byteLength (before ++ held)⟩ =
      ⟨byteLength before, byteLength (before ++ held)⟩ := by
  have long := byteLength_pos given
  have inside :
      min (byteLength (before ++ held)) (byteLength (before ++ (held ++ after))) =
        byteLength (before ++ held) := by
    simp only [byteLength_append]
    omega
  have stop := (isBoundary_append (before ++ held) after).charStop_eq
  rw [List.append_assoc] at stop ⊢
  rw [labelSpan_of_charStart (isBoundary_append before (held ++ after)).charStart_eq,
    inside, if_neg (by rw [byteLength_append]; omega), stop]

/-- Where nothing is held, the character beside the place is marked. -/
theorem labelSpan_of_empty (first rest : List Char) :
    labelSpan (first ++ rest) ⟨byteLength first, byteLength first⟩ =
      charBeside first rest := by
  rw [labelSpan_of_charStart (isBoundary_append first rest).charStart_eq]
  exact if_pos (Nat.min_le_left _ _)

/-! ## The mark, byte by byte -/

/-- The characters before a byte and those from it on. There is no such cut
inside a character or behind the text. -/
def cutAt? : (text : List Char) → (byte : Nat) → Option (List Char × List Char)
  | [], byte => if byte = 0 then some ([], []) else none
  | letter :: rest, byte =>
      if byte = 0 then
        some ([], letter :: rest)
      else if byte < letter.utf8Size then
        none
      else
        (cutAt? rest (byte - letter.utf8Size)).map (Prod.map (letter :: ·) id)

/-- Back from a byte, one at a time, to a place between characters. -/
def seekBack? (text : List Char) (byte : Nat) : Option Nat :=
  if (cutAt? text byte).isSome then
    some byte
  else
    match byte with
    | 0 => none
    | before + 1 => seekBack? text before

/-- On from a byte, one at a time, to a place between characters. -/
def seekOn (text : List Char) (byte : Nat) : Nat :=
  if byte < byteLength text ∧ (cutAt? text byte).isNone then
    seekOn text (byte + 1)
  else
    byte
termination_by byteLength text - byte

/-- The value, or the nearer end of the range where it lies outside; the ends
of the range have to be in order. -/
def within? (value least greatest : Nat) : Option Nat :=
  if least ≤ greatest then some (max least (min value greatest)) else none

/-- So many bytes before a place, but not before the text. -/
def backBy? (place size : Nat) : Option Nat :=
  if size ≤ place then some (place - size) else none

/-- The character beside a place: the one from there on, or else the one before
it, by whose length the place is moved back. -/
def seekBeside? (text : List Char) (place : Nat) : Option Span := do
  let (first, rest) ← cutAt? text place
  match rest.head?, first.getLast? with
  | some next, _ => some ⟨place, place + next.utf8Size⟩
  | none, some last => (backBy? place last.utf8Size).map fun back => ⟨back, place⟩
  | none, none => some ⟨place, place⟩

/-- The stretch to mark for a span, sought byte by byte. Leaving the text or
cutting a character gives no result. -/
def seekMark? (text : List Char) (span : Span) : Option Span := do
  let start ← seekBack? text (min span.start (byteLength text))
  let stop ← within? span.stop start (byteLength text)
  let marked ← if start < stop then some ⟨start, stop⟩ else seekBeside? text start
  return ⟨marked.start, seekOn text marked.stop⟩

theorem cutAt?_append (first rest : List Char) :
    cutAt? (first ++ rest) (byteLength first) = some (first, rest) := by
  induction first with
  | nil =>
      cases rest with
      | nil =>
          rfl
      | cons letter later =>
          rw [List.nil_append, byteLength, cutAt?, if_pos rfl]
  | cons letter later inductionHypothesis =>
      have positive := letter.utf8Size_pos
      rw [List.cons_append, byteLength, cutAt?, if_neg (by omega),
        if_neg (by omega), Nat.add_sub_cancel_left, inductionHypothesis]
      rfl

theorem isBoundary_of_cutAt? {text : List Char} {byte : Nat}
    (cut : (cutAt? text byte).isSome) : IsBoundary text byte := by
  fun_induction cutAt? text byte with
  | case1 =>
      exact isBoundary_zero []
  | case3 letter rest =>
      exact isBoundary_zero (letter :: rest)
  | case2 | case4 =>
      cases cut
  | case5 letter rest byte _ reached inductionHypothesis =>
      rw [Option.isSome_map] at cut
      have boundary := (inductionHypothesis cut).cons letter
      rwa [Nat.add_sub_cancel' (Nat.le_of_not_lt reached)] at boundary

theorem isSome_cutAt?_iff {text : List Char} {byte : Nat} :
    (cutAt? text byte).isSome ↔ IsBoundary text byte := by
  refine ⟨isBoundary_of_cutAt?, ?_⟩
  rintro ⟨first, rest, rfl, rfl⟩
  rw [cutAt?_append, Option.isSome_some]

/-- The walk back ends, and at the nearest place. -/
theorem seekBack?_eq (text : List Char) (byte : Nat) :
    seekBack? text byte = some (charStart text byte) := by
  have cut := @isSome_cutAt?_iff text byte
  fun_induction seekBack? text byte with
  | case1 byte found =>
      rw [(cut.mp found).charStart_eq]
  | case2 missed =>
      exact absurd (cut.mpr (isBoundary_zero text)) missed
  | case3 before missed inductionHypothesis =>
      rw [inductionHypothesis isSome_cutAt?_iff,
        charStart_succ (mt cut.mpr missed)]

/-- The walk on ends at the nearest place. -/
theorem seekOn_eq {text : List Char} {byte : Nat}
    (within : byte ≤ byteLength text) :
    seekOn text byte = charStop text byte := by
  fun_induction seekOn text byte with
  | case1 byte onward inductionHypothesis =>
      have inside : ¬ IsBoundary text byte := by
        rw [← isSome_cutAt?_iff, Bool.not_eq_true, Option.isSome_eq_false_iff]
        exact onward.2
      rw [inductionHypothesis onward.1, charStop_succ onward.1 inside]
  | case2 byte halted =>
      have boundary : IsBoundary text byte := by
        by_cases short : byte < byteLength text
        · rw [← isSome_cutAt?_iff, Option.isSome_iff_ne_none, Ne,
            ← Option.isNone_iff_eq_none]
          exact fun missed => halted ⟨short, missed⟩
        · rw [Nat.le_antisymm within (Nat.le_of_not_lt short)]
          exact isBoundary_byteLength text
      exact boundary.charStop_eq.symm

theorem within?_eq (value : Nat) {least greatest : Nat}
    (ordered : least ≤ greatest) :
    within? value least greatest = some (max least (min value greatest)) :=
  if_pos ordered

theorem charStart_min (text : List Char) (byte : Nat) :
    charStart text (min byte (byteLength text)) = charStart text byte := by
  have place := isBoundary_charStart text (min byte (byteLength text))
  have before := charStart_le text (min byte (byteLength text))
  have boundary := isBoundary_charStart text byte
  exact Nat.le_antisymm (place.le_charStart (before.trans (Nat.min_le_left _ _)))
    (boundary.le_charStart
      (Nat.le_min.mpr ⟨charStart_le text byte, boundary.le_byteLength⟩))

theorem backBy?_eq {place size : Nat} (smaller : size ≤ place) :
    backBy? place size = some (place - size) :=
  if_pos smaller

theorem seekBeside?_eq (first rest : List Char) :
    seekBeside? (first ++ rest) (byteLength first) =
      some (charBeside first rest) := by
  rw [seekBeside?, cutAt?_append]
  cases rest with
  | cons next later =>
      rfl
  | nil =>
      rcases List.eq_nil_or_concat first with rfl | ⟨front, last, rfl⟩
      · rfl
      · have smaller : last.utf8Size ≤ byteLength (front ++ [last]) := by
          simp [byteLength]
        rw [List.concat_eq_append, charBeside]
        dsimp only [bind, Option.bind]
        rw [List.getLast?_concat, List.head?_nil]
        dsimp only
        rw [backBy?_eq smaller, Option.map_some]

/-- The byte by byte search finds the mark: it never leaves the text and cuts
no character. -/
theorem seekMark?_eq (text : List Char) (span : Span) :
    seekMark? text span = some (labelSpan text span) := by
  have begins := seekBack?_eq text (min span.start (byteLength text))
  rw [charStart_min] at begins
  obtain ⟨first, rest, rfl, start⟩ := isBoundary_charStart text span.start
  have ends :=
    within?_eq span.stop (isBoundary_append first rest).le_byteLength
  simp only [labelSpan_of_charStart start, seekMark?, begins, start, ends,
    Option.bind_eq_bind, Option.bind_some]
  by_cases short : min span.stop (byteLength (first ++ rest)) ≤ byteLength first
  · -- the mark is widened to a whole character, and the walk on stays there
    have stop := isBoundary_stop_charBeside first rest
    rw [Nat.max_eq_left short, if_neg (Nat.lt_irrefl _), if_pos short,
      seekBeside?_eq, Option.bind_some, seekOn_eq stop.le_byteLength,
      stop.charStop_eq]
    rfl
  · have within := Nat.min_le_right span.stop (byteLength (first ++ rest))
    rw [Nat.max_eq_right (by omega), if_pos (by omega), if_neg short,
      seekOn_eq within]
    rfl

/-- The mark of an error at the end of a text: the character behind its last
one that is not blank, or this one if it ends the text. -/
def MarksEnd (text : String) (marked : Span) : Prop :=
  ∃ written blanks : String,
    text = written ++ blanks ∧
      (∃ letter ∈ written.toList.getLast?, isInk letter = true) ∧
      AllBlank blanks.toList ∧
      ((∃ next ∈ blanks.toList.head?,
          marked =
            ⟨written.utf8ByteSize, written.utf8ByteSize + next.utf8Size⟩) ∨
        blanks = "" ∧ ∃ front last,
          written = front ++ String.singleton last ∧
            marked = ⟨front.utf8ByteSize, written.utf8ByteSize⟩)

theorem marksEnd_of_ends {first last : List Char}
    (ends : ∃ letter ∈ first.getLast?, isInk letter = true)
    (blank : AllBlank last) :
    MarksEnd (.ofList (first ++ last)) (charBeside first last) := by
  refine ⟨.ofList first, .ofList last, String.ofList_append, ?_, ?_, ?_⟩
  · rwa [String.toList_ofList]
  · rwa [String.toList_ofList]
  · rw [utf8ByteSize_ofList, String.ofList_eq_empty_iff, String.toList_ofList]
    cases last with
    | cons next later =>
        exact Or.inl ⟨next, rfl, rfl⟩
    | nil =>
        obtain ⟨letter, final, _⟩ := ends
        obtain ⟨front, rfl⟩ := List.getLast?_eq_some_iff.mp final
        refine Or.inr ⟨rfl, .ofList front, letter, ?_, ?_⟩
        · rw [String.ofList_append, String.singleton_eq_ofList]
        · rw [charBeside_concat_nil, utf8ByteSize_ofList]

/-- For every span a report marks at least one character, and whole characters
of the text; the search for them, byte by byte, always succeeds. An error of
the text is marked where it stands, and if it stands at the end, where there is
nothing to mark, the character there is marked. -/
theorem mark_is_legal_and_keeps_spans (text : String) (given : text ≠ "") :
    (∀ error : NotationError,
        ∃ marked,
          seekMark? text.toList error.span = some marked ∧
            labelSpan text.toList error.span = marked ∧
            marked.start < marked.stop ∧ marked.stop ≤ text.utf8ByteSize ∧
            (⟨marked.start⟩ : String.Pos.Raw).IsValid text ∧
            (⟨marked.stop⟩ : String.Pos.Raw).IsValid text) ∧
      ∀ error, Expression.read text = .error error → ¬ AllBlank text.toList →
        if error.span.start < error.span.stop then
          labelSpan text.toList error.span = error.span
        else
          MarksEnd text (labelSpan text.toList error.span) := by
  constructor
  · intro error
    have letters : text.toList ≠ [] := mt String.toList_eq_nil_iff.mp given
    obtain ⟨before, held, after, shape, some, mark⟩ :=
      exists_marked_characters letters error.span
    have long := byteLength_pos some
    have start := isBoundary_append before (held ++ after)
    have stop := isBoundary_append (before ++ held) after
    rw [← List.append_assoc, ← shape] at start
    rw [← shape] at stop
    have within := stop.le_byteLength
    rw [← utf8ByteSize_ofList text.toList, String.ofList_toList] at within
    refine ⟨_, seekMark?_eq text.toList error.span, rfl, ?_⟩
    rw [mark]
    refine ⟨?_, within, start.isValid, stop.isValid⟩
    dsimp only
    rw [byteLength_append]
    omega
  · intro error refused notBlank
    have ink : inkOf text.toList ≠ [] := mt inkOf_eq_nil_iff.mp notBlank
    obtain ⟨first, middle, last, shape, span, inked, _⟩ :=
      exists_marked ink refused
    rw [span, shape]
    by_cases none : middle = []
    · subst none
      rw [if_pos rfl] at inked
      rw [List.append_nil] at shape ⊢
      have whole := marksEnd_of_ends inked.1 inked.2
      rw [← shape, String.ofList_toList] at whole
      rw [if_neg (Nat.lt_irrefl _), labelSpan_of_empty]
      exact whole
    · have long := byteLength_pos none
      rw [labelSpan_of_characters first last none,
        if_pos (by dsimp only; rw [byteLength_append]; omega)]

/-- The wide blank behind the notation takes three bytes. It is marked for the
sides that are missing, and for a span that begins in it and runs backwards. -/
theorem mark_is_legal_and_keeps_spans_of_wide_blank :
    "3d\u3000" ≠ "" ∧
      (∃ marked,
        seekMark? "3d\u3000".toList ⟨4, 1⟩ = some marked ∧
          labelSpan "3d\u3000".toList ⟨4, 1⟩ = marked ∧
          marked.start < marked.stop ∧
          marked.stop ≤ "3d\u3000".utf8ByteSize ∧
          (⟨marked.start⟩ : String.Pos.Raw).IsValid "3d\u3000" ∧
          (⟨marked.stop⟩ : String.Pos.Raw).IsValid "3d\u3000") ∧
      Expression.read "3d\u3000" =
        .error ⟨.missingSides .endOfInput, ⟨2, 2⟩⟩ ∧
      ¬ AllBlank "3d\u3000".toList ∧
      MarksEnd "3d\u3000" (labelSpan "3d\u3000".toList ⟨2, 2⟩) := by
  have given : "3d\u3000" ≠ "" := by decide
  have law := mark_is_legal_and_keeps_spans "3d\u3000" given
  have refused :
      Expression.read "3d\u3000" =
        .error ⟨.missingSides .endOfInput, ⟨2, 2⟩⟩ := by
    cbv
  have ink : ¬ AllBlank "3d\u3000".toList := by
    intro blank
    exact absurd (blank '3' (by decide)) (by decide)
  have mark := law.2 _ refused ink
  rw [if_neg (Nat.lt_irrefl 2)] at mark
  exact ⟨given, law.1 ⟨.missingSides .endOfInput, ⟨4, 1⟩⟩, refused, ink, mark⟩

end Tabletop.Dice
