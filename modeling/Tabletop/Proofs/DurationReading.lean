import Tabletop.Proofs.DurationPasses
import Tabletop.Proofs.WholeNumbers

/-!
# Reading durations

The reader accepts the texts of segments whose sum is positive and under 2^64
seconds. Every other text is refused with a reason: it is blank, or the reason
names its first offence against the grammar, or all of it is well-formed and
the sum is to blame. No product of zero and infinity is met on the way.
-/

namespace Tabletop.Clock

open Tabletop.Number
open Tabletop.Text

/-- The product in full arithmetic, in which that of zero and infinity is not a
number. -/
def product? : Binary64 → Binary64 → Option Binary64
  | .finite 0, .infinite | .infinite, .finite 0 => none
  | first, second => some (first.mul second)

/-- The seconds of segments in full arithmetic, where there are such. Sums of
numbers that are not negative are numbers. -/
def total? (segments : List Segment) : Option Binary64 :=
  segments.foldlM
    (fun sum segment =>
      (product? (decimalValue segment.number) segment.timeUnit.seconds).map
        sum.add)
    (.finite 0)

theorem TimeUnit.seconds_ne (timeUnit : TimeUnit) :
    timeUnit.seconds ≠ .finite 0 ∧ timeUnit.seconds ≠ .infinite := by
  cases timeUnit <;> decide +kernel

theorem product?_timeUnit (value : Binary64) (timeUnit : TimeUnit) :
    product? value timeUnit.seconds = some (value.mul timeUnit.seconds) := by
  obtain ⟨notZero, finite⟩ := timeUnit.seconds_ne
  unfold product?
  split
  · exact absurd ‹timeUnit.seconds = .infinite› finite
  · exact absurd ‹timeUnit.seconds = .finite 0› notZero
  · rfl

theorem total?_eq (segments : List Segment) :
    total? segments = some (total segments) := by
  simp only [total?, product?_timeUnit, Option.map_some]
  exact List.foldlM_pure

theorem isUnder_iff_exists_nanoseconds {seconds : Binary64} :
    IsUnder (2 ^ 64 * Binary64.one) seconds ↔
      ∃ nanos, seconds.nanoseconds? = some nanos := by
  cases seconds with
  | finite units =>
      have size : 2 ^ 64 = UInt64.size := by
        decide
      rw [IsUnder, Binary64.nanoseconds?, size]
      split <;> simp_all
  | infinite =>
      simp [IsUnder, Binary64.nanoseconds?]

/-- Sums are clear of the limit even when they are rounded to nanoseconds. -/
theorem keepsClear_total (segments : List Segment) :
    (total segments).KeepsClear := by
  rcases List.eq_nil_or_concat' segments with rfl | ⟨front, last, rfl⟩
  · intro units zero _
    cases zero
    exact Nat.zero_le _
  · rw [total, addAll, List.foldl_append]
    exact Binary64.keepsClear_add _ _

theorem isUnder_total_iff_exists_duration (segments : List Segment) :
    IsUnder (2 ^ 64 * Binary64.one) (total segments) ↔
      ∃ duration, Duration.ofSeconds? (total segments) = some duration := by
  simp only [isUnder_iff_exists_nanoseconds, Duration.ofSeconds?_eq_some_iff]
  constructor
  · rintro ⟨nanos, rounded⟩
    exact
      ⟨⟨nanos, Binary64.nanoseconds?_lt (keepsClear_total segments) rounded⟩,
        rounded⟩
  · rintro ⟨duration, rounded⟩
    exact ⟨duration.nanos, rounded⟩

/-- A text without its blanks and in lower case. -/
def compactOf (text : List Char) : List Char :=
  (squeeze text).map Char.toLower

section Reading

variable {text : List Char}

theorem readDurationChars_of_blank (blank : compactOf text = []) :
    readDurationChars text = .error .empty := by
  unfold compactOf at blank
  unfold readDurationChars
  rw [blank]
  rfl

variable (given : compactOf text ≠ [])

include given

theorem readDurationChars_of_error {fault : DurationFault}
    (fails : sumSegments (.finite 0) (compactOf text) = .error fault) :
    readDurationChars text = .error fault := by
  unfold compactOf at given fails
  unfold readDurationChars
  simp only [List.isEmpty_eq_false_iff.mpr given, fails]
  rfl

theorem readDurationChars_of_sum {seconds : Binary64}
    (sums : sumSegments (.finite 0) (compactOf text) = .ok seconds) :
    readDurationChars text =
      if seconds = .finite 0 then
        .error .notPositive
      else
        match Duration.ofSeconds? seconds with
        | some duration => .ok duration
        | none => .error .tooLong := by
  unfold compactOf at given sums
  unfold readDurationChars
  simp only [List.isEmpty_eq_false_iff.mpr given, sums, bind, Except.bind]
  by_cases zero : seconds = .finite 0
  · simp only [if_pos zero]
    rfl
  · simp only [if_neg zero]
    cases Duration.ofSeconds? seconds <;> rfl

end Reading

section Segments

variable {text : List Char} {segments : List Segment} (given : segments ≠ [])
  (spelled : compactOf text = spelling segments)

include given spelled

theorem readDurationChars_of_spelling :
    readDurationChars text =
      if total segments = .finite 0 then
        .error .notPositive
      else
        match Duration.ofSeconds? (total segments) with
        | some duration => .ok duration
        | none => .error .tooLong :=
  readDurationChars_of_sum (spelled ▸ spelling_ne_nil given)
    (spelled ▸ sumSegments_spelling (.finite 0) segments)

/-- The duration of segments whose sum a duration can hold. -/
theorem readDurationChars_of_segments {duration : Duration}
    (positive : total segments ≠ .finite 0)
    (rounded : (total segments).nanoseconds? = some duration.nanos) :
    readDurationChars text = .ok duration := by
  rw [readDurationChars_of_spelling given spelled, if_neg positive,
    Duration.ofSeconds?_eq_some_iff.mpr rounded]

theorem readDurationChars_of_zero (zero : total segments = .finite 0) :
    readDurationChars text = .error .notPositive := by
  rw [readDurationChars_of_spelling given spelled, if_pos zero]

theorem readDurationChars_of_large
    (large : ¬ IsUnder (2 ^ 64 * Binary64.one) (total segments)) :
    readDurationChars text = .error .tooLong := by
  have positive : total segments ≠ .finite 0 := by
    intro zero
    rw [zero] at large
    exact large (Nat.mul_pos (by decide) Binary64.one_pos)
  rw [isUnder_total_iff_exists_duration, not_exists] at large
  rw [readDurationChars_of_spelling given spelled, if_neg positive,
    Option.eq_none_iff_forall_ne_some.mpr large]

end Segments

theorem Refused.ne_nil {text : List Char} {reason : String}
    (refused : Refused text reason) : text ≠ [] := by
  cases refused with
  | offence whole offends =>
      exact List.append_ne_nil_of_right_ne_nil _ offends.ne_nil
  | notPositive given zero =>
      exact spelling_ne_nil given
  | tooLarge given large =>
      exact spelling_ne_nil given

theorem readDurationChars_of_refused {text : List Char} {reason : String}
    (refused : Refused (compactOf text) reason) :
    ∃ fault, readDurationChars text = .error fault ∧ fault.message = reason := by
  generalize compact : compactOf text = letters at refused
  cases refused with
  | @offence segments rest _ whole offends =>
      obtain ⟨fault, fails, said⟩ :=
        sumSegments_of_offends (.finite 0) whole offends
      have given : spelling segments ++ rest ≠ [] :=
        List.append_ne_nil_of_right_ne_nil _ offends.ne_nil
      rw [← compact] at fails given
      exact ⟨fault, readDurationChars_of_error given fails, said⟩
  | notPositive given zero =>
      exact ⟨_, readDurationChars_of_zero given compact zero, rfl⟩
  | tooLarge given large =>
      exact ⟨_, readDurationChars_of_large given compact large, rfl⟩

/-- A text is read as a duration, is blank, or is refused for a reason. -/
theorem readDurationChars_cases (text : List Char) :
    (∃ segments duration,
        segments ≠ [] ∧ compactOf text = spelling segments ∧
          IsDuration (total segments) ∧
          (total segments).nanoseconds? = some duration.nanos ∧
          readDurationChars text = .ok duration) ∨
      (compactOf text = [] ∧ readDurationChars text = .error .empty) ∨
      ∃ fault,
        Refused (compactOf text) fault.message ∧
          readDurationChars text = .error fault := by
  by_cases blank : compactOf text = []
  · exact Or.inr (Or.inl ⟨blank, readDurationChars_of_blank blank⟩)
  · rcases sumSegments_cases (.finite 0) (compactOf text) with
      ⟨segments, spelled, _⟩ |
      ⟨segments, rest, fault, spelled, whole, fails, offends⟩
    · have given : segments ≠ [] := by
        rintro rfl
        exact blank spelled
      by_cases zero : total segments = .finite 0
      · exact Or.inr (Or.inr ⟨.notPositive, spelled ▸ .notPositive given zero,
          readDurationChars_of_zero given spelled zero⟩)
      · by_cases under : IsUnder (2 ^ 64 * Binary64.one) (total segments)
        · obtain ⟨duration, held⟩ :=
            (isUnder_total_iff_exists_duration segments).mp under
          have rounded := Duration.ofSeconds?_eq_some_iff.mp held
          exact Or.inl ⟨segments, duration, given, spelled, ⟨zero, under⟩,
            rounded,
            readDurationChars_of_segments given spelled zero rounded⟩
        · exact Or.inr (Or.inr ⟨.tooLong, spelled ▸ .tooLarge given under,
            readDurationChars_of_large given spelled under⟩)
    · exact Or.inr (Or.inr ⟨fault, spelled ▸ .offence whole offends,
        readDurationChars_of_error blank fails⟩)

theorem read_duration_eq (text : String) :
    Duration.read text =
      (readDurationChars text.toList).mapError (.invalidDuration text) :=
  rfl

/-- A text is read as a duration just when it consists of segments whose sum
is positive and under 2^64 seconds, and else it is refused: for being blank,
for its first offence, or, if there is none, for its sum. There are no more
passes than characters, and no product of zero and infinity. -/
theorem segments_are_read_and_others_refused (text : String) :
    let compact := compactOf text.toList
    (∀ duration,
        Duration.read text = .ok duration ↔
          ∃ segments,
            segments ≠ [] ∧ compact = spelling segments ∧
              IsDuration (total segments) ∧
              (total segments).nanoseconds? = some duration.nanos) ∧
      (∀ error,
        Duration.read text = .error error →
          ∃ fault,
            error = .invalidDuration text fault ∧
              ((compact = [] ∧ fault.message = "empty duration") ∨
                Refused compact fault.message)) ∧
      (∀ reason,
        (compact = [] ∧ reason = "empty duration") ∨ Refused compact reason →
          ∃ fault,
            Duration.read text = .error (.invalidDuration text fault) ∧
              fault.message = reason) ∧
      sumWithin compact.length (.finite 0) compact =
        some (sumSegments (.finite 0) compact) ∧
      ∀ segments, total? segments = some (total segments) := by
  intro compact
  simp only [read_duration_eq]
  refine ⟨?_, ?_, ?_, sumWithin_eq le_rfl _, total?_eq⟩
  · intro duration
    constructor
    · intro reads
      rcases readDurationChars_cases text.toList with
        ⟨segments, other, given, spelled, holds, rounded, readsOther⟩ |
        ⟨_, refused⟩ | ⟨fault, _, refused⟩
      · rw [readsOther] at reads
        obtain rfl := Except.ok.inj reads
        exact ⟨segments, given, spelled, holds, rounded⟩
      · rw [refused] at reads
        cases reads
      · rw [refused] at reads
        cases reads
    · rintro ⟨segments, given, spelled, ⟨positive, _⟩, rounded⟩
      rw [readDurationChars_of_segments given spelled positive rounded]
      rfl
  · intro error fails
    rcases readDurationChars_cases text.toList with
      ⟨_, _, _, _, _, _, reads⟩ | ⟨blank, refused⟩ | ⟨fault, why, refused⟩
    · rw [reads] at fails
      cases fails
    · rw [refused] at fails
      exact ⟨.empty, (Except.error.inj fails).symm, Or.inl ⟨blank, rfl⟩⟩
    · rw [refused] at fails
      exact ⟨fault, (Except.error.inj fails).symm, Or.inr why⟩
  · rintro reason (⟨blank, rfl⟩ | refused)
    · rw [readDurationChars_of_blank blank]
      exact ⟨.empty, rfl, rfl⟩
    · obtain ⟨fault, fails, said⟩ := readDurationChars_of_refused refused
      rw [fails]
      exact ⟨fault, rfl, said⟩

/-- Half a minute is read. The first offence of the other text is the number
with two points, ahead of a unit that there is not. -/
theorem segments_are_read_and_others_refused_of_two_points :
    (∃ segments,
        compactOf " .5 M".toList = spelling segments ∧
          (total segments).nanoseconds? = some 30000000000) ∧
      ∃ fault,
        Duration.read "1M 1..5x" = .error (.invalidDuration "1M 1..5x" fault) ∧
          fault.message = "bad number '1..5'" := by
  constructor
  · have reads : Duration.read " .5 M" = .ok { nanos := 30000000000 } := by
      decide +kernel
    obtain ⟨segments, _, spelled, _, rounded⟩ :=
      ((segments_are_read_and_others_refused " .5 M").1 _).mp reads
    exact ⟨segments, spelled, rounded⟩
  · have decimal : IsDecimal ['1'] :=
      ⟨by simp [isNumberChar], by decide, '1', by decide, by decide⟩
    have broken : ¬ IsDecimal ['1', '.', '.', '5'] :=
      fun decimal => absurd decimal.count_point (by decide)
    have offends : Offends ['1', '.', '.', '5', 'x'] "bad number '1..5'" :=
      .noDecimal (List.cons_ne_nil _ _) (by simp [isNumberChar])
        (by simp [EndsRun, isNumberChar]) broken
    let minute : Segment := ⟨['1'], .minute, decimal⟩
    have compact :
        compactOf "1M 1..5x".toList =
          spelling [minute] ++ ['1', '.', '.', '5', 'x'] := rfl
    have whole : EndsRun Char.isAlpha ['1', '.', '.', '5', 'x'] := by
      simp [EndsRun]
    have refused : Refused (compactOf "1M 1..5x".toList) "bad number '1..5'" :=
      compact ▸ .offence (Or.inr whole) offends
    exact (segments_are_read_and_others_refused "1M 1..5x").2.2.1 _
      (Or.inr refused)

/-- A blank text has no segment that offends, and it is not refused for its sum
either. -/
theorem blank_duration_is_refused_as_empty :
    ∃ fault,
      Duration.read "" = .error (.invalidDuration "" fault) ∧
        fault.message = "empty duration" ∧
        ¬ Refused (compactOf "".toList) fault.message ∧
        fault.message ≠ "must be positive" := by
  refine ⟨.empty, ?_, rfl, fun refused => refused.ne_nil rfl, by decide⟩
  rw [read_duration_eq, readDurationChars_of_blank rfl]
  rfl

end Tabletop.Clock
