import Tabletop.Proofs.Decimals

/-!
# Passes over a duration

A pass of the reader takes the decimal and the unit at the beginning of a text,
each as long as it goes, and fails just where the text offends against the
grammar. So the passes use up the texts of segments, stop at the first offence
of any other text, and are no more than there are characters.
-/

namespace Tabletop.Clock

open Tabletop.Number
open Tabletop.Text

theorem TimeUnit.ofLetters?_letters (timeUnit : TimeUnit) :
    ofLetters? timeUnit.letters = some timeUnit := by
  cases timeUnit <;> rfl

theorem TimeUnit.letters_of_ofLetters? {letters : List Char}
    {timeUnit : TimeUnit} (named : ofLetters? letters = some timeUnit) :
    letters = timeUnit.letters := by
  unfold ofLetters? at named
  split at named <;> cases named <;> rfl

theorem TimeUnit.ofLetters?_eq_none_iff {letters : List Char} :
    ofLetters? letters = none ↔
      ∀ timeUnit : TimeUnit, letters ≠ timeUnit.letters := by
  rw [Option.eq_none_iff_forall_ne_some]
  constructor
  · rintro unnamed timeUnit rfl
    exact unnamed timeUnit timeUnit.ofLetters?_letters
  · intro strange timeUnit named
    exact strange timeUnit (letters_of_ofLetters? named)

theorem TimeUnit.isAlpha_of_mem_letters (timeUnit : TimeUnit) :
    ∀ letter ∈ timeUnit.letters, letter.isAlpha = true := by
  cases timeUnit <;> simp [letters]

theorem isNumberChar_of_isAlpha {letter : Char}
    (alphabetic : letter.isAlpha = true) : isNumberChar letter = false := by
  have code : 65 ≤ letter.toNat := by
    simp only [Char.isAlpha, Char.isUpper, Char.isLower, Bool.or_eq_true,
      Bool.and_eq_true, decide_eq_true_eq, ge_iff_le] at alphabetic
    rcases alphabetic with upper | lower
    · exact UInt32.le_iff_toNat_le.mp upper.1
    · exact Nat.le_trans (by decide) (UInt32.le_iff_toNat_le.mp lower.1)
  have noDigit : letter.isDigit = false := by
    rw [Bool.eq_false_iff]
    intro digit
    simp only [Char.isDigit, Bool.and_eq_true, decide_eq_true_eq] at digit
    have highest : letter.toNat ≤ 57 := digit.2
    omega
  have noPoint : letter ≠ '.' := by
    rintro rfl
    exact absurd code (by decide)
  rw [isNumberChar, noDigit, Bool.false_or, beq_eq_false_iff_ne]
  exact noPoint

/-- Letters, where there are any, end a number. -/
theorem endsRun_letters_append {letters rest : List Char}
    (alphabetic : ∀ letter ∈ letters, letter.isAlpha = true)
    (given : letters = [] → EndsRun isNumberChar rest) :
    EndsRun isNumberChar (letters ++ rest) := by
  cases letters with
  | nil =>
      exact given rfl
  | cons first later =>
      intro letter head
      obtain rfl := Option.some.inj head
      exact isNumberChar_of_isAlpha (alphabetic _ List.mem_cons_self)

/-- One pass over a text that is not empty: the seconds of the segment at its
beginning, and the text behind that segment. -/
def takeSegment (text : List Char) :
    Except DurationFault (Binary64 × List Char) :=
  let number := text.takeWhile isNumberChar
  let afterNumber := text.dropWhile isNumberChar
  if number = [] then
    .error (.expectedNumber text)
  else
    match readDecimal? number with
    | none => .error (.badNumber number)
    | some value =>
        let letters := afterNumber.takeWhile Char.isAlpha
        match TimeUnit.ofLetters? letters with
        | some timeUnit =>
            .ok (value.mul timeUnit.seconds, afterNumber.dropWhile Char.isAlpha)
        | none =>
            if letters.isEmpty then
              .error (.missingUnit number)
            else
              .error (.unknownUnit letters)

theorem sumSegments_nil (seconds : Binary64) :
    sumSegments seconds [] = .ok seconds := by
  rw [sumSegments]
  rfl

theorem sumSegments_eq (seconds : Binary64) {text : List Char}
    (given : text ≠ []) :
    sumSegments seconds text =
      match takeSegment text with
      | .ok (more, rest) => sumSegments (seconds.add more) rest
      | .error fault => .error fault := by
  rw [sumSegments, if_neg (by simpa using given)]
  simp only [takeSegment]
  by_cases missing : text.takeWhile isNumberChar = []
  · simp only [if_pos missing]
  · simp only [if_neg missing]
    cases readDecimal? (text.takeWhile isNumberChar) with
    | none =>
        rfl
    | some value =>
        generalize text.dropWhile isNumberChar = afterNumber
        cases TimeUnit.ofLetters? (afterNumber.takeWhile Char.isAlpha) with
        | some timeUnit =>
            rfl
        | none =>
            by_cases bare : (afterNumber.takeWhile Char.isAlpha).isEmpty
            · simp only [if_pos bare]
            · simp only [if_neg bare]

section Runs

variable {number letters rest : List Char}

/-- A pass over a text whose runs are known. -/
theorem takeSegment_runs
    (numberChars : ∀ letter ∈ number, isNumberChar letter = true)
    (endsNumber : EndsRun isNumberChar (letters ++ rest))
    (alphabetic : ∀ letter ∈ letters, letter.isAlpha = true)
    (endsUnit : EndsRun Char.isAlpha rest) :
    takeSegment (number ++ (letters ++ rest)) =
      if number = [] then
        .error (.expectedNumber (letters ++ rest))
      else
        match readDecimal? number with
        | none => .error (.badNumber number)
        | some value =>
            match TimeUnit.ofLetters? letters with
            | some timeUnit => .ok (value.mul timeUnit.seconds, rest)
            | none =>
                if letters = [] then
                  .error (.missingUnit number)
                else
                  .error (.unknownUnit letters) := by
  simp only [takeSegment, endsNumber.takeWhile_append numberChars,
    endsNumber.dropWhile_append numberChars,
    endsUnit.takeWhile_append alphabetic, endsUnit.dropWhile_append alphabetic,
    List.isEmpty_iff]
  split
  · rename_i missing
    rw [missing, List.nil_append]
  · rfl

end Runs

/-- Every text is a run of number characters, a run of letters and a rest. -/
theorem exists_runs (text : List Char) :
    ∃ number letters rest,
      text = number ++ (letters ++ rest) ∧
        (∀ letter ∈ number, isNumberChar letter = true) ∧
        EndsRun isNumberChar (letters ++ rest) ∧
        (∀ letter ∈ letters, letter.isAlpha = true) ∧
        EndsRun Char.isAlpha rest := by
  obtain ⟨number, behind, whole, numberChars, endsNumber⟩ :=
    exists_run isNumberChar text
  obtain ⟨letters, rest, rfl, alphabetic, endsUnit⟩ :=
    exists_run Char.isAlpha behind
  exact ⟨number, letters, rest, whole, numberChars, endsNumber, alphabetic,
    endsUnit⟩

theorem IsDecimal.ne_nil {number : List Char} (decimal : IsDecimal number) :
    number ≠ [] := by
  obtain ⟨letter, member, _⟩ := decimal.exists_digit
  exact List.ne_nil_of_mem member

theorem takeSegment_append (segment : Segment) {rest : List Char}
    (ends : EndsRun Char.isAlpha rest) :
    takeSegment (segment.chars ++ rest) = .ok (segment.seconds, rest) := by
  obtain ⟨number, timeUnit, decimal⟩ := segment
  have alphabetic := timeUnit.isAlpha_of_mem_letters
  have endsNumber : EndsRun isNumberChar (timeUnit.letters ++ rest) :=
    endsRun_letters_append alphabetic fun none => by
      cases timeUnit <;> cases none
  rw [Segment.chars, List.append_assoc,
    takeSegment_runs decimal.isNumberChar endsNumber alphabetic ends,
    if_neg decimal.ne_nil, decimal.readDecimal?_eq]
  simp only [TimeUnit.ofLetters?_letters]
  rfl

/-- A pass takes the segment at the beginning of a text, or names what the text
offends with. -/
theorem takeSegment_cases {text : List Char} (given : text ≠ []) :
    (∃ (segment : Segment) (rest : List Char),
        text = segment.chars ++ rest ∧ EndsRun Char.isAlpha rest ∧
          takeSegment text = .ok (segment.seconds, rest)) ∨
      ∃ fault,
        takeSegment text = .error fault ∧ Offends text fault.message := by
  obtain ⟨number, letters, rest, rfl, numberChars, endsNumber, alphabetic,
    endsUnit⟩ := exists_runs text
  rw [takeSegment_runs numberChars endsNumber alphabetic endsUnit]
  by_cases missing : number = []
  · subst missing
    exact Or.inr ⟨.expectedNumber (letters ++ rest), if_pos rfl,
      .noNumber given endsNumber⟩
  · rw [if_neg missing]
    cases read : readDecimal? number with
    | none =>
        have broken := (readDecimal?_eq_none_iff numberChars).mp read
        exact Or.inr ⟨.badNumber number, rfl,
          .noDecimal missing numberChars endsNumber broken⟩
    | some value =>
        obtain ⟨decimal, rfl⟩ :=
          (readDecimal?_eq_some_iff numberChars).mp read
        cases named : TimeUnit.ofLetters? letters with
        | some timeUnit =>
            obtain rfl := TimeUnit.letters_of_ofLetters? named
            let segment : Segment := ⟨number, timeUnit, decimal⟩
            exact Or.inl ⟨segment, rest, by simp [segment, Segment.chars],
              endsUnit, rfl⟩
        | none =>
            by_cases bare : letters = []
            · subst bare
              exact Or.inr ⟨.missingUnit number, rfl,
                .noUnit decimal endsNumber endsUnit⟩
            · have strange := TimeUnit.ofLetters?_eq_none_iff.mp named
              exact Or.inr ⟨.unknownUnit letters, if_neg bare,
                .strangeUnit decimal bare alphabetic endsUnit strange⟩

theorem Offends.ne_nil {text : List Char} {reason : String}
    (offends : Offends text reason) : text ≠ [] := by
  cases offends with
  | noNumber given ends =>
      exact given
  | noDecimal given numberChars ends broken =>
      exact List.append_ne_nil_of_left_ne_nil given _
  | noUnit decimal ends bare =>
      exact List.append_ne_nil_of_left_ne_nil decimal.ne_nil _
  | strangeUnit decimal given alphabetic ends strange =>
      exact List.append_ne_nil_of_left_ne_nil decimal.ne_nil _

theorem takeSegment_of_offends {text : List Char} {reason : String}
    (offends : Offends text reason) :
    ∃ fault, takeSegment text = .error fault ∧ fault.message = reason := by
  cases offends with
  | noNumber given ends =>
      obtain ⟨letters, rest, rfl, alphabetic, endsUnit⟩ :=
        exists_run Char.isAlpha text
      have none : ∀ letter ∈ [], isNumberChar letter = true := nofun
      have pass := takeSegment_runs none ends alphabetic endsUnit
      exact ⟨_, pass, rfl⟩
  | @noDecimal number rest given numberChars ends broken =>
      obtain ⟨letters, later, rfl, alphabetic, endsUnit⟩ :=
        exists_run Char.isAlpha rest
      have unread := (readDecimal?_eq_none_iff numberChars).mpr broken
      rw [takeSegment_runs numberChars ends alphabetic endsUnit, if_neg given,
        unread]
      exact ⟨_, rfl, rfl⟩
  | @noUnit number rest decimal ends bare =>
      have none : ∀ letter ∈ [], Char.isAlpha letter = true := nofun
      have endsNumber : EndsRun isNumberChar ([] ++ rest) := ends
      have pass :=
        takeSegment_runs decimal.isNumberChar endsNumber none bare
      rw [if_neg decimal.ne_nil, decimal.readDecimal?_eq] at pass
      exact ⟨_, pass, rfl⟩
  | @strangeUnit number letters rest decimal given alphabetic ends strange =>
      have unnamed := TimeUnit.ofLetters?_eq_none_iff.mpr strange
      have endsNumber : EndsRun isNumberChar (letters ++ rest) :=
        endsRun_letters_append alphabetic fun none => absurd none given
      rw [takeSegment_runs decimal.isNumberChar endsNumber alphabetic ends,
        if_neg decimal.ne_nil, decimal.readDecimal?_eq]
      simp only [unnamed, if_neg given]
      exact ⟨_, rfl, rfl⟩

theorem Segment.number_ne_nil (segment : Segment) : segment.number ≠ [] :=
  segment.isDecimal_number.ne_nil

theorem Segment.chars_ne_nil (segment : Segment) : segment.chars ≠ [] :=
  List.append_ne_nil_of_left_ne_nil segment.number_ne_nil _

theorem spelling_cons (segment : Segment) (segments : List Segment) :
    spelling (segment :: segments) = segment.chars ++ spelling segments :=
  List.flatMap_cons

theorem spelling_ne_nil {segments : List Segment} (given : segments ≠ []) :
    spelling segments ≠ [] := by
  obtain ⟨segment, later, rfl⟩ := List.exists_cons_of_ne_nil given
  rw [spelling_cons]
  exact List.append_ne_nil_of_left_ne_nil segment.chars_ne_nil _

theorem addAll_cons (seconds : Binary64) (segment : Segment)
    (segments : List Segment) :
    addAll seconds (segment :: segments) =
      addAll (seconds.add segment.seconds) segments :=
  rfl

theorem Segment.length_lt_append (segment : Segment) (rest : List Char) :
    rest.length < (segment.chars ++ rest).length := by
  have given := List.length_pos_iff.mpr segment.chars_ne_nil
  rw [List.length_append]
  omega

/-- A segment begins with no letter. -/
theorem Segment.endsRun_append (segment : Segment) (rest : List Char) :
    EndsRun Char.isAlpha (segment.chars ++ rest) := by
  obtain ⟨number, timeUnit, decimal⟩ := segment
  cases number with
  | nil =>
      exact absurd rfl decimal.ne_nil
  | cons first later =>
      intro letter head
      obtain rfl := Option.some.inj head
      have numberChar := decimal.isNumberChar first List.mem_cons_self
      rw [Bool.eq_false_iff]
      intro alphabetic
      rw [isNumberChar_of_isAlpha alphabetic] at numberChar
      cases numberChar

theorem endsRun_spelling_append {segments : List Segment} {rest : List Char}
    (whole : segments = [] → EndsRun Char.isAlpha rest) :
    EndsRun Char.isAlpha (spelling segments ++ rest) := by
  cases segments with
  | nil =>
      exact whole rfl
  | cons segment later =>
      rw [spelling_cons, List.append_assoc]
      exact segment.endsRun_append _

theorem sumSegments_spelling_append (seconds : Binary64)
    {segments : List Segment} {rest : List Char}
    (whole : segments = [] ∨ EndsRun Char.isAlpha rest) :
    sumSegments seconds (spelling segments ++ rest) =
      sumSegments (addAll seconds segments) rest := by
  induction segments generalizing seconds with
  | nil =>
      rfl
  | cons segment later inductionHypothesis =>
      have ends : EndsRun Char.isAlpha rest :=
        whole.resolve_left (List.cons_ne_nil segment later)
      rw [spelling_cons, List.append_assoc,
        sumSegments_eq seconds (by simp [segment.chars_ne_nil]),
        takeSegment_append segment (endsRun_spelling_append fun _ => ends)]
      exact inductionHypothesis _ (Or.inr ends)

theorem sumSegments_spelling (seconds : Binary64) (segments : List Segment) :
    sumSegments seconds (spelling segments) = .ok (addAll seconds segments) := by
  have whole : segments = [] ∨ EndsRun Char.isAlpha [] :=
    Or.inr endsRun_nil
  have reads := sumSegments_spelling_append seconds whole
  rwa [List.append_nil, sumSegments_nil] at reads

theorem sumSegments_of_offends (seconds : Binary64) {segments : List Segment}
    {rest : List Char} {reason : String}
    (whole : segments = [] ∨ EndsRun Char.isAlpha rest)
    (offends : Offends rest reason) :
    ∃ fault,
      sumSegments seconds (spelling segments ++ rest) = .error fault ∧
        fault.message = reason := by
  obtain ⟨fault, fails, said⟩ := takeSegment_of_offends offends
  rw [sumSegments_spelling_append seconds whole,
    sumSegments_eq _ offends.ne_nil, fails]
  exact ⟨fault, rfl, said⟩

/-- The passes take segments until the text is used up or offends. -/
theorem sumSegments_cases (seconds : Binary64) (text : List Char) :
    (∃ segments,
        text = spelling segments ∧
          sumSegments seconds text = .ok (addAll seconds segments)) ∨
      ∃ segments rest fault,
        text = spelling segments ++ rest ∧
          (segments = [] ∨ EndsRun Char.isAlpha rest) ∧
          sumSegments seconds text = .error fault ∧
          Offends rest fault.message := by
  induction size : text.length using Nat.strong_induction_on
    generalizing seconds text with
  | h length inductionHypothesis =>
  by_cases given : text = []
  · subst given
    exact Or.inl ⟨[], rfl, sumSegments_nil seconds⟩
  · rw [sumSegments_eq seconds given]
    rcases takeSegment_cases given with
      ⟨segment, rest, rfl, ends, taken⟩ | ⟨fault, fails, offends⟩
    · have shorter : rest.length < length := by
        rw [← size]
        exact segment.length_lt_append rest
      rw [taken]
      rcases inductionHypothesis rest.length shorter
          (seconds.add segment.seconds) rest rfl with
        ⟨segments, rfl, sums⟩ |
        ⟨segments, later, fault, rfl, whole, fails, offends⟩
      · exact Or.inl ⟨segment :: segments, (spelling_cons _ _).symm, sums⟩
      · refine Or.inr ⟨segment :: segments, later, fault, ?_, ?_, fails,
          offends⟩
        · rw [spelling_cons, List.append_assoc]
        · rcases whole with rfl | endsLater
          · exact Or.inr ends
          · exact Or.inr endsLater
    · rw [fails]
      exact Or.inr ⟨[], text, fault, rfl, Or.inl rfl, rfl, offends⟩

/-- The passes over a text, at most a given number of them; nothing comes of it
when they do not suffice. -/
def sumWithin (passes : Nat) (seconds : Binary64) (text : List Char) :
    Option (Except DurationFault Binary64) :=
  if text.isEmpty then
    some (.ok seconds)
  else
    match passes with
    | 0 => none
    | passes + 1 =>
        match takeSegment text with
        | .ok (more, rest) => sumWithin passes (seconds.add more) rest
        | .error fault => some (.error fault)

/-- Each pass that succeeds takes a character at least, so there are no more
passes than characters. -/
theorem sumWithin_eq {passes : Nat} {text : List Char}
    (enough : text.length ≤ passes) (seconds : Binary64) :
    sumWithin passes seconds text = some (sumSegments seconds text) := by
  induction passes generalizing seconds text with
  | zero =>
      obtain rfl := List.length_eq_zero_iff.mp (Nat.le_zero.mp enough)
      rw [sumSegments_nil]
      rfl
  | succ passes inductionHypothesis =>
      rw [sumWithin]
      split
      · rename_i isEmpty
        rw [List.isEmpty_iff.mp isEmpty, sumSegments_nil]
      · rename_i given
        rw [List.isEmpty_iff] at given
        rw [sumSegments_eq seconds given]
        rcases takeSegment_cases given with
          ⟨segment, rest, rfl, _, taken⟩ | ⟨fault, fails, _⟩
        · have shorter := segment.length_lt_append rest
          rw [taken]
          exact inductionHypothesis (by omega) (seconds.add segment.seconds)
        · rw [fails]

end Tabletop.Clock
