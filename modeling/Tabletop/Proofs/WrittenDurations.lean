import Tabletop.Proofs.DurationReading
import Tabletop.Proofs.Recasting

/-!
# Durations written and read back

A duration is written in whole seconds, half a second counting up, as segments
of hours, minutes and seconds. Under 2^53 seconds every product and every sum
that the reader forms from these segments is exact, so it reads back the very
seconds that were written.
-/

namespace Tabletop.Clock

open Tabletop.Number
open Tabletop.Text

theorem plain_of_isNumberChar {letter : Char}
    (numeric : isNumberChar letter = true) :
    isInk letter = true ∧ letter.toLower = letter := by
  rw [isNumberChar, Bool.or_eq_true, beq_iff_eq] at numeric
  rcases numeric with digit | rfl
  · exact ⟨Dice.isInk_of_isDigit digit, Dice.toLower_of_isDigit digit⟩
  · decide

theorem Segment.plain_of_mem_chars (segment : Segment) :
    ∀ letter ∈ segment.chars,
      isInk letter = true ∧ letter.toLower = letter := by
  intro letter member
  rw [Segment.chars, List.mem_append] at member
  rcases member with numeric | named
  · exact plain_of_isNumberChar
      (segment.isDecimal_number.isNumberChar letter numeric)
  · cases unit : segment.timeUnit <;>
      simp only [unit, TimeUnit.letters, List.mem_cons, List.not_mem_nil,
        or_false] at named
    · subst named
      decide
    · subst named
      decide
    · subst named
      decide
    · rcases named with rfl | rfl <;> decide

/-- Segments are spelled without blanks and without capitals. -/
theorem compactOf_spelling (segments : List Segment) :
    compactOf (spelling segments) = spelling segments := by
  have plain : ∀ letter ∈ spelling segments,
      isInk letter = true ∧ letter.toLower = letter := by
    intro letter member
    obtain ⟨segment, _, within⟩ := List.mem_flatMap.mp member
    exact segment.plain_of_mem_chars letter within
  have squeezed : squeeze (spelling segments) = spelling segments :=
    List.filter_eq_self.mpr fun letter member => (plain letter member).1
  have small : (spelling segments).map Char.toLower =
      (spelling segments).map id :=
    List.map_congr_left fun letter member => (plain letter member).2
  rw [compactOf, squeezed, small, List.map_id]

/-- A segment with a whole number. -/
def wholeSegment (count : Nat) (timeUnit : TimeUnit) : Segment where
  number := Nat.toDigits 10 count
  timeUnit := timeUnit
  isDecimal_number :=
    (isDecimal_digits_iff fun _ => isDigit_of_mem_toDigits).mpr
      (Dice.Numeral.ofNat count).isNumeral_digits

theorem wholeSegment_chars (count : Nat) (timeUnit : TimeUnit) :
    (wholeSegment count timeUnit).chars =
      (toString count).toList ++ timeUnit.letters := by
  rw [Nat.toString_eq_ofList_toDigits, String.toList_ofList]
  rfl

theorem wholeSegment_seconds {count size : Nat} {timeUnit : TimeUnit}
    (sized : timeUnit.seconds = .ofNat size) (positive : 0 < size)
    (short : size < 2 ^ 53) (small : count * size < 2 ^ 53) :
    (wholeSegment count timeUnit).seconds = Binary64.whole (count * size) := by
  have fewer : count < 2 ^ 53 :=
    (Nat.le_mul_of_pos_right count positive).trans_lt small
  have number : decimalValue (Nat.toDigits 10 count) = Binary64.whole count := by
    rw [decimalValue_digits fun _ => isDigit_of_mem_toDigits,
      numeralValue_toDigits, Binary64.ofNat_eq_whole fewer]
  rw [Segment.seconds, wholeSegment, number, sized,
    Binary64.ofNat_eq_whole short, Binary64.mul_whole small]

/-- Whole seconds are added up without rounding as long as they stay under
2^53. -/
theorem addAll_whole {segments : List Segment} {counts : List Nat}
    (counted : List.Forall₂
      (fun segment count => segment.seconds = Binary64.whole count)
      segments counts)
    {start : Nat} (small : start + counts.sum < 2 ^ 53) :
    addAll (Binary64.whole start) segments =
      Binary64.whole (start + counts.sum) := by
  induction counted generalizing start with
  | nil =>
      rfl
  | @cons segment count later counts here _ inductionHypothesis =>
      rw [List.sum_cons, ← Nat.add_assoc] at small ⊢
      have sum : start + count < 2 ^ 53 := by
        omega
      rw [addAll_cons, here, Binary64.add_whole sum]
      exact inductionHypothesis small

theorem total_whole {segments : List Segment} {counts : List Nat}
    (counted : List.Forall₂
      (fun segment count => segment.seconds = Binary64.whole count)
      segments counts)
    (small : counts.sum < 2 ^ 53) :
    total segments = Binary64.whole counts.sum := by
  have bound : 0 + counts.sum < 2 ^ 53 := by
    rwa [Nat.zero_add]
  rw [total, ← Binary64.whole_zero, addAll_whole counted bound, Nat.zero_add]

namespace Hms

/-- The segments that are written for hours, minutes and seconds: those before
the first that is not zero are left out, the seconds never. -/
def segments (parts : Hms) : List Segment :=
  if parts.hours = 0 then
    if parts.minutes = 0 then
      [wholeSegment parts.seconds .second]
    else
      [wholeSegment parts.minutes .minute, wholeSegment parts.seconds .second]
  else
    [wholeSegment parts.hours .hour, wholeSegment parts.minutes .minute,
      wholeSegment parts.seconds .second]

def total (parts : Hms) : Nat :=
  parts.hours * 3600 + (parts.minutes * 60 + parts.seconds)

theorem segments_ne_nil (parts : Hms) : parts.segments ≠ [] := by
  unfold segments
  split_ifs <;> exact List.cons_ne_nil _ _

theorem total_segments {parts : Hms} (small : parts.total < 2 ^ 53) :
    Clock.total parts.segments = Binary64.whole parts.total := by
  have bound :
      parts.hours * 3600 + (parts.minutes * 60 + parts.seconds) < 2 ^ 53 :=
    small
  have hours :
      (wholeSegment parts.hours .hour).seconds =
        Binary64.whole (parts.hours * 3600) :=
    wholeSegment_seconds rfl (by decide) (by decide)
      ((Nat.le_add_right _ _).trans_lt bound)
  have minutes :
      (wholeSegment parts.minutes .minute).seconds =
        Binary64.whole (parts.minutes * 60) :=
    wholeSegment_seconds rfl (by decide) (by decide) (by omega)
  have seconds :
      (wholeSegment parts.seconds .second).seconds =
        Binary64.whole (parts.seconds * 1) :=
    wholeSegment_seconds rfl (by decide) (by decide) (by omega)
  rw [Nat.mul_one] at seconds
  unfold segments
  split_ifs with hourless minuteless
  · have sum : [parts.seconds].sum = parts.total := by
      simp [total, hourless, minuteless]
    rw [total_whole (.cons seconds .nil) (sum ▸ small), sum]
  · have sum : [parts.minutes * 60, parts.seconds].sum = parts.total := by
      simp [total, hourless]
    rw [total_whole (.cons minutes (.cons seconds .nil)) (sum ▸ small), sum]
  · have sum :
        [parts.hours * 3600, parts.minutes * 60, parts.seconds].sum =
          parts.total := by
      simp [total]
    rw [total_whole (.cons hours (.cons minutes (.cons seconds .nil)))
      (sum ▸ small), sum]

end Hms

namespace Duration

/-- Rounding to milliseconds on the way does not change the seconds. -/
theorem wholeSeconds_eq (duration : Duration) :
    duration.wholeSeconds = (duration.nanos + 500000000) / 1000000000 := by
  unfold wholeSeconds
  omega

theorem total_hms (duration : Duration) :
    duration.hms.total = duration.wholeSeconds := by
  simp only [Hms.total, hms]
  omega

theorem spelling_segments (duration : Duration) :
    spelling duration.hms.segments = duration.text.toList := by
  simp only [text, minutesText, Hms.segments]
  split_ifs <;>
    simp [spelling, wholeSegment_chars, TimeUnit.letters]

theorem compactOf_text (duration : Duration) :
    compactOf duration.text.toList = spelling duration.hms.segments := by
  rw [← spelling_segments, compactOf_spelling]

variable {duration : Duration}

theorem total_segments (small : duration.wholeSeconds < 2 ^ 53) :
    total duration.hms.segments = Binary64.whole duration.wholeSeconds := by
  rw [← duration.total_hms] at small ⊢
  exact Hms.total_segments small

theorem read_text_of_pos (positive : 1 ≤ duration.wholeSeconds)
    (small : duration.wholeSeconds < 2 ^ 53) :
    ∃ back,
      read duration.text = .ok back ∧
        back.nanos = duration.wholeSeconds * 1000000000 := by
  have sum := total_segments small
  have nonzero : total duration.hms.segments ≠ .finite 0 := by
    intro zero
    rw [sum] at zero
    have units := Nat.mul_pos positive Binary64.one_pos
    exact units.ne' (Binary64.finite.inj zero)
  have fits :
      duration.wholeSeconds * 1000000000 < UInt64.size * 1000000000 :=
    Nat.mul_lt_mul_of_pos_right (small.trans (by decide)) (by decide)
  let back : Duration := ⟨duration.wholeSeconds * 1000000000, fits⟩
  have rounded :
      (total duration.hms.segments).nanoseconds? = some back.nanos := by
    rw [sum, Binary64.nanoseconds?_whole small]
  refine ⟨back, ?_, rfl⟩
  rw [read_duration_eq, readDurationChars_of_segments
    duration.hms.segments_ne_nil duration.compactOf_text nonzero rounded]
  rfl

theorem read_text_of_zero (none : duration.wholeSeconds = 0) :
    read duration.text = .error (.invalidDuration duration.text .notPositive) := by
  have zero : total duration.hms.segments = .finite 0 := by
    rw [total_segments (by omega), none, Binary64.whole_zero]
  rw [read_duration_eq, readDurationChars_of_zero
    duration.hms.segments_ne_nil duration.compactOf_text zero]
  rfl

/-- Texts of different seconds are read differently, so they are different. -/
theorem wholeSeconds_eq_of_text_eq {other : Duration}
    (small : duration.wholeSeconds < 2 ^ 53)
    (otherSmall : other.wholeSeconds < 2 ^ 53)
    (same : duration.text = other.text) :
    duration.wholeSeconds = other.wholeSeconds := by
  have reads : read duration.text = read other.text := congrArg read same
  rcases Nat.eq_zero_or_pos duration.wholeSeconds with zero | positive <;>
    rcases Nat.eq_zero_or_pos other.wholeSeconds with otherZero | otherPositive
  · rw [zero, otherZero]
  · obtain ⟨back, otherReads, _⟩ := read_text_of_pos otherPositive otherSmall
    rw [read_text_of_zero zero, otherReads] at reads
    cases reads
  · obtain ⟨back, readsBack, _⟩ := read_text_of_pos positive small
    rw [readsBack, read_text_of_zero otherZero] at reads
    cases reads
  · obtain ⟨back, readsBack, whole⟩ := read_text_of_pos positive small
    obtain ⟨otherBack, otherReads, otherWhole⟩ :=
      read_text_of_pos otherPositive otherSmall
    rw [readsBack, otherReads] at reads
    obtain rfl := Except.ok.inj reads
    exact Nat.eq_of_mul_eq_mul_right (by decide) (whole.symm.trans otherWhole)

theorem text_eq_of_wholeSeconds_eq {other : Duration}
    (same : duration.wholeSeconds = other.wholeSeconds) :
    duration.text = other.text := by
  have parts : duration.hms = other.hms := by
    rw [hms, hms, same]
  rw [text, text, parts]

theorem shortText_eq_text (hourless : duration.wholeSeconds < 3600) :
    duration.shortText = duration.text := by
  have none : duration.hms.hours = 0 := Nat.div_eq_of_lt hourless
  simp only [shortText, text, if_pos none]

theorem text_eq_shortText_append (long : 3600 ≤ duration.wholeSeconds) :
    duration.text =
      duration.shortText ++ toString (duration.wholeSeconds % 60) ++ "s" := by
  have some : duration.hms.hours ≠ 0 :=
    (Nat.div_pos long (by decide)).ne'
  simp only [shortText, text, if_neg some]
  rfl

/-- A duration of some seconds under 2^53 is read back from its text as these
seconds, exactly, and one of no seconds is refused as not positive; so such
durations are written alike just when they have the same seconds. The short
text is the text itself under an hour, and else the text without the segment of
the seconds. -/
theorem text_reads_back_as_whole_seconds (duration : Duration) :
    let secondsOf (duration : Duration) : Nat :=
      (duration.nanos + 500000000) / 1000000000
    let seconds := secondsOf duration
    (1 ≤ seconds → seconds < 2 ^ 53 →
        ∃ back,
          read duration.text = .ok back ∧
            back.nanos = seconds * 1000000000) ∧
      (seconds = 0 →
        read duration.text =
          .error (.invalidDuration duration.text .notPositive)) ∧
      (∀ other,
        seconds < 2 ^ 53 → secondsOf other < 2 ^ 53 →
          (duration.text = other.text ↔ seconds = secondsOf other)) ∧
      (seconds < 3600 → duration.shortText = duration.text) ∧
      (3600 ≤ seconds →
        duration.text =
          duration.shortText ++ toString (seconds % 60) ++ "s") := by
  simp only [← wholeSeconds_eq]
  exact ⟨read_text_of_pos, read_text_of_zero,
    fun other small otherSmall =>
      ⟨wholeSeconds_eq_of_text_eq small otherSmall,
        text_eq_of_wholeSeconds_eq⟩,
    shortText_eq_text, text_eq_shortText_append⟩

/-- An hour, two minutes and 2.5 seconds are written as `1h2m3s`. -/
theorem text_reads_back_as_whole_seconds_of_an_hour :
    let hour : Duration := { nanos := 3722500000000 }
    (∃ back, read "1h2m3s" = .ok back ∧ back.nanos = 3723000000000) ∧
      "1h2m3s" = hour.shortText ++ "3" ++ "s" := by
  intro hour
  have written : hour.text = "1h2m3s" := by
    decide +kernel
  obtain ⟨reads, _, _, _, long⟩ := text_reads_back_as_whole_seconds hour
  rw [written] at reads long
  obtain ⟨back, readsBack, whole⟩ := reads (by decide) (by decide)
  have seconds :
      toString ((hour.nanos + 500000000) / 1000000000 % 60) = "3" := by
    decide +kernel
  have shown := long (by decide)
  simp only [seconds] at shown
  exact ⟨⟨back, readsBack, whole.trans (by decide)⟩, shown⟩

end Duration

end Tabletop.Clock
