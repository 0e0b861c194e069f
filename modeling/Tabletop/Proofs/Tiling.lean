import Mathlib
import Tabletop.Proofs.Places

/-!
# How the lexemes tile a text

The lexemes of a text are the ink of consecutive stretches of it, up to the
first character at which no token can start (`lexemes_tile_text`).

Where the lexemes end is said without them: `Stops` looks at a character and
the one before it. That the longest token is read at each place is what keeps
two numbers apart, and a bare `k` or `d` from an `h` or `l` behind it.
-/

namespace Tabletop.Dice

open Tabletop.Text

/-- The character is the second letter of a cut, the first one stands before
it. -/
def CompletesKeyword (before : List Char) (letter : Char) : Prop :=
  ∃ keyword : Keyword,
    before.getLast? = some keyword.first ∧ keyword.second = letter

/-- At this character no token can start, and it does not belong to one that
started before. -/
def Stops (before : List Char) (letter : Char) : Prop :=
  ¬ BeginsToken letter ∧ ¬ CompletesKeyword before letter

/-- No character of the text stops the reading. -/
def ReadsThrough (text : List Char) : Prop :=
  ∀ before letter after, text = before ++ letter :: after → ¬ Stops before letter

theorem beginsToken_of_isDigit {letter : Char} (digit : letter.isDigit = true) :
    BeginsToken letter := by
  have whole : isNumeral [letter] = true := by simp [isNumeral, digit]
  exact ⟨.number, [], nofun, Spells.number ⟨[letter], whole⟩⟩

theorem Stops.of_append {first before : List Char} {letter : Char}
    (stops : Stops (first ++ before) letter) : Stops before letter := by
  refine ⟨stops.1, ?_⟩
  rintro ⟨keyword, last, second⟩
  refine stops.2 ⟨keyword, ?_, second⟩
  rw [List.getLast?_append, last, Option.some_or]

theorem readsThrough_nil : ReadsThrough [] := by
  intro before letter after shape
  exact absurd shape.symm (by simp)

theorem ReadsThrough.append {first second : List Char}
    (readsFirst : ReadsThrough first) (readsSecond : ReadsThrough second) :
    ReadsThrough (first ++ second) := by
  intro before letter after shape
  rcases List.append_eq_append_iff.mp shape with
    ⟨more, rfl, rfl⟩ | ⟨more, rfl, cut⟩
  · exact fun stops => readsSecond more letter after rfl stops.of_append
  · cases more with
    | nil =>
        have here := readsSecond [] letter after cut.symm
        intro stops
        rw [← List.append_nil before] at stops
        exact here stops.of_append
    | cons next rest =>
        obtain ⟨rfl, _⟩ := List.cons.inj cut
        exact readsFirst before letter rest rfl

/-- Each character of a token starts one or is the second letter of a cut. -/
theorem readsThrough_of_spells {token : Token} {text : List Char}
    (spelled : Spells token text) (known : token ≠ .unknown) :
    ReadsThrough text := by
  rintro (_ | ⟨first, more⟩) letter after shape stops
  · rw [List.nil_append] at shape
    rw [shape] at spelled
    exact stops.1 ⟨token, after, known, spelled⟩
  · cases spelled with
    | number numeral =>
        have member : letter ∈ numeral.digits := by simp [shape]
        exact stops.1 (beginsToken_of_isDigit (numeral.isDigit_of_mem member))
    | operation keyword =>
        obtain ⟨rfl, rest⟩ := List.cons.inj shape
        cases more with
        | nil =>
            obtain ⟨rfl, _⟩ := List.cons.inj rest
            exact stops.2 ⟨keyword, rfl, rfl⟩
        | cons second others =>
            exact absurd (List.cons.inj rest).2 (by simp)
    | unknown other =>
        exact known rfl
    | die | keep | advantage | sign =>
        exact absurd (List.cons.inj shape).2 (by simp)

/-- Only a bare `k` or `d` ends with the first letter of a cut. -/
theorem bare_of_getLast? {token : Token} {text : List Char}
    (spelled : Spells token text) (known : token ≠ .unknown) {last : Char}
    (final : text.getLast? = some last) (letter : last ∈ ['k', 'K', 'd', 'D']) :
    token = .die ∨ token = .keep := by
  cases spelled with
  | die => exact Or.inl rfl
  | keep => exact Or.inr rfl
  | number numeral =>
      have digit := numeral.isDigit_of_mem (List.mem_of_getLast? final)
      simp only [List.mem_cons, List.not_mem_nil, or_false] at letter
      rcases letter with rfl | rfl | rfl | rfl <;> cases digit
  | operation keyword =>
      obtain rfl : keyword.second = last := Option.some.inj final
      have second := keyword.second_mem
      simp only [List.mem_cons, List.not_mem_nil, or_false] at letter
      rcases letter with same | same | same | same <;> rw [same] at second <;>
        exact absurd second (by decide)
  | advantage =>
      obtain rfl : '!' = last := Option.some.inj final
      exact absurd letter (by decide)
  | sign sign =>
      obtain rfl : sign.char = last := Option.some.inj final
      cases sign <;> exact absurd letter (by decide)
  | unknown other =>
      exact absurd rfl known

/-- What stops the reading stops it behind a token that could not be longer. -/
theorem Stops.behind {token : Token} {block before : List Char} {letter : Char}
    (stops : Stops before letter) (spelled : Spells token block)
    (known : token ≠ .unknown) {after : List Char}
    (ends : token.EndsBefore (before ++ letter :: after)) :
    Stops (block ++ before) letter := by
  refine ⟨stops.1, ?_⟩
  rintro ⟨keyword, last, rfl⟩
  rcases List.eq_nil_or_concat before with rfl | ⟨front, final, rfl⟩
  · rw [List.append_nil] at last
    rcases bare_of_getLast? spelled known last keyword.first_mem with rfl | rfl <;>
      exact ends keyword.second rfl keyword.second_mem
  · rw [List.concat_eq_append, List.getLast?_append, List.getLast?_concat,
      Option.some_or] at last
    refine stops.2 ⟨keyword, ?_, rfl⟩
    rw [List.concat_eq_append, List.getLast?_concat, last]

/-- The lexemes are the text if nothing stops the reading. Else they are the
text up to and with the first character that does; it alone makes up the last
lexeme, the only unknown one. -/
def TakesUp (text : List Char) (all : List Lexeme) : Prop :=
  (ReadsThrough text ∧ all.flatMap Lexeme.text = text ∧
      ∀ lexeme ∈ all, lexeme.token ≠ .unknown) ∨
    ∃ before letter after earlier span,
      text = before ++ letter :: after ∧ ReadsThrough before ∧
        Stops before letter ∧ all.flatMap Lexeme.text = before ++ [letter] ∧
        all = earlier ++ [⟨.unknown, [letter], span⟩] ∧
        ∀ lexeme ∈ earlier, lexeme.token ≠ .unknown

theorem takesUp_of_covers {placed : List PlacedChar} {all : List Lexeme}
    (covers : Covers placed all) :
    TakesUp (placed.map PlacedChar.char) all := by
  -- on the lexemes; a known one in front is read through and moves the stop on
  induction covers with
  | nil =>
      exact Or.inl ⟨readsThrough_nil, rfl, List.forall_mem_nil _⟩
  | unknown one rest foreign =>
      have alone : ¬ CompletesKeyword [] one.char := by
        rintro ⟨keyword, last, _⟩
        cases last
      exact Or.inr ⟨[], one.char, rest.map PlacedChar.char, [], spanOf [one],
        rfl, readsThrough_nil, ⟨foreign, alone⟩, rfl, rfl, List.forall_mem_nil _⟩
  | @cons token block rest later known spelled ends _ inductionHypothesis =>
      have reads := readsThrough_of_spells spelled known
      rw [List.map_append, TakesUp, List.flatMap_cons]
      rcases inductionHypothesis with
        ⟨through, texts, knownLater⟩ |
        ⟨before, letter, after, earlier, span, shape, through, stops, texts,
          rfl, knownEarlier⟩
      · exact Or.inl ⟨reads.append through, congrArg _ texts,
          List.forall_mem_cons.mpr ⟨known, knownLater⟩⟩
      · rw [shape] at ends ⊢
        refine Or.inr ⟨block.map PlacedChar.char ++ before, letter, after,
          _ :: earlier, span, ?_, reads.append through,
          stops.behind spelled known ends, ?_, rfl,
          List.forall_mem_cons.mpr ⟨known, knownEarlier⟩⟩
        · rw [List.append_assoc]
        · rw [texts, List.append_assoc]

/-- Each lexeme takes up the characters behind those of the earlier ones, and
the later lexemes what follows. -/
theorem Covers.exists_split {placed : List PlacedChar}
    {earlier later : List Lexeme} {lexeme : Lexeme}
    (covers : Covers placed (earlier ++ lexeme :: later)) :
    ∃ before held after,
      placed = before ++ held ++ after ∧ held ≠ [] ∧
        lexeme.text = held.map PlacedChar.char ∧ lexeme.span = spanOf held ∧
        Spells lexeme.token lexeme.text ∧
        lexeme.token.EndsBefore (after.map PlacedChar.char) ∧
        (lexeme.token ≠ .unknown → Covers after later) := by
  induction earlier generalizing placed with
  | nil =>
      obtain ⟨block, rest, shape, facts⟩ := covers.exists_longest
      exact ⟨[], block, rest, shape, facts⟩
  | cons head others inductionHypothesis =>
      generalize shape : head :: others ++ lexeme :: later = all at covers
      cases covers with
      | nil =>
          cases shape
      | unknown one rest _ =>
          exact absurd (List.cons.inj shape).2 (by simp)
      | @cons token block rest tail _ _ _ coversLater =>
          rw [← (List.cons.inj shape).2] at coversLater
          obtain ⟨before, held, after, rfl, facts⟩ :=
            inductionHypothesis coversLater
          exact ⟨block ++ before, held, after, by simp, facts⟩

/-- Two numbers are never neighbours. -/
theorem Covers.not_number {placed : List PlacedChar} {next : Lexeme}
    {later : List Lexeme} (covers : Covers placed (next :: later))
    (ends : Token.number.EndsBefore (placed.map PlacedChar.char)) :
    next.token ≠ .number := by
  intro number
  obtain ⟨numeral, block, rest, rfl, _, digits, _⟩ :=
    covers.exists_numeral number
  obtain ⟨first, more, shape, digit⟩ := numeral.exists_digits_eq_cons
  rw [List.map_append, digits, shape] at ends
  rw [ends first rfl] at digit
  cases digit

theorem le_offset_of_mem_placeFrom {offset : Nat} {text : List Char}
    {one : PlacedChar} (member : one ∈ placeFrom offset text) :
    offset ≤ one.offset := by
  induction text generalizing offset with
  | nil =>
      cases member
  | cons letter rest inductionHypothesis =>
      rcases List.mem_cons.mp member with rfl | behind
      · exact le_rfl
      · exact (Nat.le_add_right offset _).trans (inductionHypothesis behind)

theorem pairwise_placeFrom (offset : Nat) (text : List Char) :
    (placeFrom offset text).Pairwise fun one other => one.stop ≤ other.offset := by
  induction text generalizing offset with
  | nil =>
      exact List.Pairwise.nil
  | cons letter rest inductionHypothesis =>
      exact List.pairwise_cons.mpr
        ⟨fun _ member => le_offset_of_mem_placeFrom member, inductionHypothesis _⟩

theorem pairwise_inkOf (text : List Char) :
    (inkOf text).Pairwise fun one other => one.stop ≤ other.offset :=
  (pairwise_placeFrom 0 text).filter _

theorem exists_start_spanOf {held : List PlacedChar} (given : held ≠ []) :
    ∃ one ∈ held, (spanOf held).start = one.offset := by
  obtain ⟨one, more, rfl⟩ := List.exists_cons_of_ne_nil given
  exact ⟨one, List.mem_cons_self, rfl⟩

theorem exists_stop_spanOf {held : List PlacedChar} (given : held ≠ []) :
    ∃ one ∈ held, (spanOf held).stop = one.stop := by
  obtain ⟨front, one, rfl⟩ := (List.eq_nil_or_concat held).resolve_left given
  rw [List.concat_eq_append]
  refine ⟨one, List.mem_concat_self, ?_⟩
  rw [stop_spanOf_append front (List.cons_ne_nil one []), spanOf_singleton]

theorem Covers.exists_start {placed : List PlacedChar} {all : List Lexeme}
    (covers : Covers placed all) {lexeme : Lexeme} (member : lexeme ∈ all) :
    ∃ one ∈ placed, lexeme.span.start = one.offset := by
  obtain ⟨earlier, later, rfl⟩ := List.append_of_mem member
  obtain ⟨before, held, after, rfl, given, _, span, _⟩ := covers.exists_split
  obtain ⟨one, inside, start⟩ := exists_start_spanOf given
  refine ⟨one, by simp [inside], ?_⟩
  rw [span, start]

/-- The spans of lexemes that take up ordered characters are ordered. -/
theorem Covers.pairwise_span {placed : List PlacedChar} {all : List Lexeme}
    (covers : Covers placed all)
    (ordered : placed.Pairwise fun one other => one.stop ≤ other.offset) :
    all.Pairwise fun one other => one.span.stop ≤ other.span.start := by
  induction covers with
  | nil =>
      exact List.Pairwise.nil
  | unknown one rest =>
      exact List.pairwise_singleton _ _
  | @cons token block rest later _ spelled _ coversLater inductionHypothesis =>
      obtain ⟨_, orderedRest, apart⟩ := List.pairwise_append.mp ordered
      obtain ⟨last, lastInside, stop⟩ :=
        exists_stop_spanOf (ne_nil_of_spells spelled)
      refine List.pairwise_cons.mpr ⟨?_, inductionHypothesis orderedRest⟩
      intro other member
      obtain ⟨first, firstInside, start⟩ := coversLater.exists_start member
      rw [stop, start]
      exact apart last lastInside first firstInside

/-- A lexeme is the ink of the slice of the text that its span names, and the
ink behind the slice could not lengthen it. -/
theorem exists_slice {text : List Char} {earlier later : List Lexeme}
    {lexeme : Lexeme} (cut : lexemes text = earlier ++ lexeme :: later) :
    ∃ first middle last,
      text = first ++ middle ++ last ∧ middle ≠ [] ∧
        lexeme.span = ⟨byteLength first, byteLength (first ++ middle)⟩ ∧
        squeeze middle = lexeme.text ∧ Spells lexeme.token lexeme.text ∧
        lexeme.token.EndsBefore (squeeze last) ∧
        (lexeme.token = .number →
          ∀ next ∈ later.head?, next.token ≠ .number) := by
  have covers := covers_lexemes text
  rw [cut] at covers
  obtain ⟨before, held, after, ink, given, chars, span, spelled, ends,
    coversLater⟩ := covers.exists_split
  obtain ⟨first, middle, last, rfl, bare, bareMiddle, place, _⟩ :=
    exists_stretch ink given
  have bareLast : squeeze last = after.map PlacedChar.char := by
    have whole := inkOf_map_char (first ++ middle ++ last)
    rw [ink, squeeze_append, squeeze_append, bare, bareMiddle, List.map_append,
      List.map_append] at whole
    exact (List.append_cancel_left whole).symm
  refine ⟨first, middle, last, rfl, ?_, span.trans place,
    bareMiddle.trans chars.symm, spelled, ?_, ?_⟩
  · rintro rfl
    exact given (List.map_eq_nil_iff.mp bareMiddle.symm)
  · rwa [bareLast]
  · intro number next member
    obtain ⟨others, rfl⟩ := List.head?_eq_some_iff.mp member
    rw [number] at ends coversLater
    exact (coversLater nofun).not_number ends

/-- The ink ends behind the last character that is not blank. -/
theorem exists_end (text : List Char) :
    ∃ first last,
      text = first ++ last ∧ inkEnd text = byteLength first ∧
        (∀ letter ∈ first.getLast?, isInk letter = true) ∧ AllBlank last := by
  by_cases ink : inkOf text = []
  · refine ⟨[], text, rfl, ?_, nofun, inkOf_eq_nil_iff.mp ink⟩
    rw [inkEnd, ink]
    rfl
  · obtain ⟨first, last, shape, _, finish, ⟨letter, final, inked⟩, blank⟩ :=
      exists_end_of_ink ink
    refine ⟨first, last, shape, finish, ?_, blank⟩
    intro other member
    obtain rfl : letter = other := Option.mem_unique final member
    exact inked

/-- The lexemes tile a text. Their texts make up its ink as far as it can be
read, with the character that stops the reading; each one is the ink of the
slice that its span names, and none could be longer; and their spans follow one
another. All ink ends at `inkEnd`. -/
theorem lexemes_tile_text (text : String) :
    TakesUp (squeeze text.toList) (lexemes text.toList) ∧
      (∀ earlier lexeme later,
        lexemes text.toList = earlier ++ lexeme :: later →
          (lexeme.token = .number →
            ∀ next ∈ later.head?, next.token ≠ .number) ∧
          ∃ before held after : String,
            text = before ++ held ++ after ∧
              lexeme.span =
                ⟨before.utf8ByteSize, (before ++ held).utf8ByteSize⟩ ∧
              squeeze held.toList = lexeme.text ∧
              Spells lexeme.token lexeme.text ∧
              (lexeme.token = .keep ∨ lexeme.token = .die →
                ∀ letter ∈ (squeeze after.toList).head?,
                  letter ∉ ['h', 'H', 'l', 'L'])) ∧
      (∀ lexeme ∈ lexemes text.toList, lexeme.span.start < lexeme.span.stop) ∧
      ((lexemes text.toList).Pairwise fun one other =>
        one.span.stop ≤ other.span.start) ∧
      ∃ written blanks : String,
        text = written ++ blanks ∧
          inkEnd text.toList = written.utf8ByteSize ∧
          (∀ letter ∈ written.toList.getLast?, isInk letter = true) ∧
          AllBlank blanks.toList := by
  have covers := covers_lexemes text.toList
  refine ⟨?_, ?_, ?_, covers.pairwise_span (pairwise_inkOf text.toList), ?_⟩
  · rw [← inkOf_map_char]
    exact takesUp_of_covers covers
  · intro earlier lexeme later cut
    obtain ⟨first, middle, last, shape, _, span, bare, spelled, ends, apart⟩ :=
      exists_slice cut
    refine ⟨apart, .ofList first, .ofList middle, .ofList last, ?_, ?_, ?_,
      spelled, ?_⟩
    · rw [← String.ofList_append, ← String.ofList_append, ← shape,
        String.ofList_toList]
    · rw [span, ← String.ofList_append, utf8ByteSize_ofList,
        utf8ByteSize_ofList]
    · rw [String.toList_ofList, bare]
    · rw [String.toList_ofList]
      rintro (keep | die)
      · rw [keep] at ends
        exact ends
      · rw [die] at ends
        exact ends
  · intro lexeme member
    obtain ⟨earlier, later, cut⟩ := List.append_of_mem member
    obtain ⟨first, middle, last, _, given, span, _⟩ := exists_slice cut
    have long := byteLength_pos given
    rw [span]
    dsimp only
    rw [byteLength_append]
    omega
  · obtain ⟨first, last, shape, finish, inked, blank⟩ := exists_end text.toList
    refine ⟨.ofList first, .ofList last, ?_, ?_, ?_, ?_⟩
    · rw [← String.ofList_append, ← shape, String.ofList_toList]
    · rw [finish, utf8ByteSize_ofList]
    · rwa [String.toList_ofList]
    · rwa [String.toList_ofList]

/-- A blank stands inside the number, and the last letter takes two bytes. -/
theorem lexemes_tile_text_of_bare_keep :
    lexemes "1 0k é".toList =
        [⟨.number, ['1', '0'], ⟨0, 3⟩⟩, ⟨.keep, ['k'], ⟨3, 4⟩⟩,
          ⟨.unknown, ['é'], ⟨5, 7⟩⟩] ∧
      (⟨.keep, ['k'], ⟨3, 4⟩⟩ : Lexeme).token ≠ .number ∧
      (∃ before held after : String,
        "1 0k é" = before ++ held ++ after ∧
          (⟨3, 4⟩ : Span) =
            ⟨before.utf8ByteSize, (before ++ held).utf8ByteSize⟩ ∧
          squeeze held.toList = ['k'] ∧ Spells .keep ['k'] ∧
          ∀ letter ∈ (squeeze after.toList).head?,
            letter ∉ ['h', 'H', 'l', 'L']) ∧
      (⟨5, 7⟩ : Span).start < (⟨5, 7⟩ : Span).stop := by
  have law := lexemes_tile_text "1 0k é"
  have cut :
      lexemes "1 0k é".toList =
        [⟨.number, ['1', '0'], ⟨0, 3⟩⟩, ⟨.keep, ['k'], ⟨3, 4⟩⟩,
          ⟨.unknown, ['é'], ⟨5, 7⟩⟩] := by
    cbv
  have unknown : ⟨.unknown, ['é'], ⟨5, 7⟩⟩ ∈ lexemes "1 0k é".toList := by
    rw [cut]
    decide
  have number := law.2.1 [] ⟨.number, ['1', '0'], ⟨0, 3⟩⟩
    [⟨.keep, ['k'], ⟨3, 4⟩⟩, ⟨.unknown, ['é'], ⟨5, 7⟩⟩] cut
  obtain ⟨_, before, held, after, shape, span, bare, spelled, keeps⟩ :=
    law.2.1 [⟨.number, ['1', '0'], ⟨0, 3⟩⟩] ⟨.keep, ['k'], ⟨3, 4⟩⟩
      [⟨.unknown, ['é'], ⟨5, 7⟩⟩] cut
  exact ⟨cut, number.1 rfl _ rfl,
    ⟨before, held, after, shape, span, bare, spelled, keeps (Or.inl rfl)⟩,
    law.2.2.1 _ unknown⟩

end Tabletop.Dice
