import Mathlib
import Tabletop.Json.Read

/-!
# Written tokens

Tokens that are written one behind the other, with white space or without, are
cut from the text again as they were. Only an integer needs more: the text
behind it must not go on as a number.
-/

namespace Tabletop.Json

open Tabletop.Text

/-- The text behind a number does not go on as a number. -/
def EndsNumber (text : List Char) : Prop :=
  ∀ letter ∈ text.head?,
    letter.isDigit = false ∧ letter ∉ ['.', 'e', 'E']

theorem endsNumber_nil : EndsNumber [] := by
  intro letter head
  cases head

theorem endsNumber_cons {first : Char}
    (other : first.isDigit = false ∧ first ∉ ['.', 'e', 'E'])
    (rest : List Char) :
    EndsNumber (first :: rest) := by
  intro letter head
  obtain rfl := Option.some_inj.mp head
  exact other

theorem EndsNumber.append {text later : List Char} (ends : EndsNumber text)
    (endsLater : EndsNumber later) :
    EndsNumber (text ++ later) := by
  cases text with
  | nil =>
      exact endsLater
  | cons letter rest =>
      exact endsNumber_cons (ends letter rfl) (rest ++ later)

theorem EndsNumber.takeWhile_eq_nil {text : List Char}
    (ends : EndsNumber text) :
    text.takeWhile Char.isDigit = [] := by
  cases text with
  | nil =>
      rfl
  | cons letter rest =>
      have other := (ends letter rfl).1
      rw [List.takeWhile_cons_of_neg (by rw [other]; decide)]

theorem EndsNumber.scanDigits?_append {digits text : List Char}
    (ends : EndsNumber text) (given : digits ≠ [])
    (numeric : ∀ letter ∈ digits, letter.isDigit = true) :
    scanDigits? (digits ++ text) = some (digits, text) := by
  have stop : text.dropWhile Char.isDigit = text := by
    have whole := List.takeWhile_append_dropWhile (p := Char.isDigit) (l := text)
    rwa [ends.takeWhile_eq_nil, List.nil_append] at whole
  simp only [scanDigits?]
  rw [List.takeWhile_append_of_pos numeric, ends.takeWhile_eq_nil,
    List.append_nil, List.dropWhile_append_of_pos numeric, stop,
    List.isEmpty_eq_false_iff.mpr given]
  rfl

theorem EndsNumber.scanFraction? {text : List Char} (ends : EndsNumber text) :
    scanFraction? text = some (false, text) := by
  unfold Json.scanFraction?
  split
  · exact absurd (by decide) (ends '.' rfl).2
  · rfl

theorem EndsNumber.scanExponent? {text : List Char} (ends : EndsNumber text) :
    scanExponent? text = some (false, text) := by
  unfold Json.scanExponent?
  split
  · exact absurd (by decide) (ends 'e' rfl).2
  · exact absurd (by decide) (ends 'E' rfl).2
  · rfl

theorem toDigits_head_ne_zero {number : Nat} (positive : 0 < number) :
    (Nat.toDigits 10 number).head? ≠ some '0' := by
  induction number using Nat.strongRecOn with
  | ind number inductionHypothesis =>
      by_cases small : number < 10
      · rw [Nat.toDigits_of_lt_base small]
        interval_cases number <;> decide
      · rw [Nat.toDigits_of_base_le (by decide) (by omega),
          List.head?_append_of_ne_nil _ Nat.toDigits_ne_nil]
        exact inductionHypothesis (number / 10) (by omega) (by omega)

theorem exists_toDigits_eq_cons (number : Nat) :
    ∃ first rest,
      Nat.toDigits 10 number = first :: rest ∧ first.isDigit = true := by
  obtain ⟨first, rest, shape⟩ :=
    List.exists_cons_of_ne_nil (Nat.toDigits_ne_nil (n := number) (b := 10))
  refine ⟨first, rest, shape, ?_⟩
  apply isDigit_of_mem_toDigits
  rw [shape]
  exact List.mem_cons_self

theorem EndsNumber.scanWhole?_toDigits {text : List Char}
    (ends : EndsNumber text) (number : Nat) :
    scanWhole? (Nat.toDigits 10 number ++ text) =
      some (Nat.toDigits 10 number, text) := by
  by_cases positive : 0 < number
  · obtain ⟨first, rest, shape, _⟩ := exists_toDigits_eq_cons number
    have start := toDigits_head_ne_zero positive
    rw [shape, List.head?_cons, ne_eq, Option.some_inj] at start
    have scanned :
        scanDigits? (Nat.toDigits 10 number ++ text) =
          some (Nat.toDigits 10 number, text) :=
      ends.scanDigits?_append Nat.toDigits_ne_nil fun _ =>
        isDigit_of_mem_toDigits
    rw [shape, List.cons_append] at scanned ⊢
    unfold scanWhole?
    split
    · rename_i same
      exact absurd (List.cons_eq_cons.mp same).1 start
    · exact scanned
  · obtain rfl : number = 0 := by omega
    rfl

theorem numberToken_toDigits (number : Nat) :
    numberToken false (Nat.toDigits 10 number) false = .integer number := by
  rw [numberToken, numeralValue_toDigits]
  rfl

theorem numberToken_negative_toDigits (number : Nat) :
    numberToken true (Nat.toDigits 10 (number + 1)) false =
      .integer (.negSucc number) := by
  rw [numberToken, numeralValue_toDigits]
  rfl

theorem EndsNumber.scanNumber?_toDigits {text : List Char}
    (ends : EndsNumber text) (negative : Bool) (number : Nat) :
    scanNumber? negative (Nat.toDigits 10 number ++ text) =
      some (numberToken negative (Nat.toDigits 10 number) false, text) := by
  simp only [scanNumber?, ends.scanWhole?_toDigits, ends.scanFraction?,
    ends.scanExponent?, Option.bind_eq_bind, Option.bind_some, Bool.or_self,
    Option.pure_def]

theorem scanToken?_of_isDigit {first : Char} (digit : first.isDigit = true)
    (rest : List Char) :
    scanToken? (first :: rest) = scanNumber? false (first :: rest) := by
  unfold scanToken?
  split
  case h_12 =>
    rfl
  all_goals
    rename_i same
    obtain ⟨rfl, _⟩ := List.cons_eq_cons.mp same
    exact absurd digit (by decide)

theorem scanToken?_integer {text : List Char} (ends : EndsNumber text)
    (value : Int) :
    scanToken? ((toString value).toList ++ text) =
      some (.integer value, text) := by
  cases value with
  | ofNat size =>
      obtain ⟨first, rest, shape, digit⟩ := exists_toDigits_eq_cons size
      have scanned := ends.scanNumber?_toDigits false size
      show scanToken? ((toString size).toList ++ text) = _
      rw [Nat.toString_eq_ofList_toDigits, String.toList_ofList]
      rw [numberToken_toDigits] at scanned
      rw [shape, List.cons_append] at scanned ⊢
      rw [scanToken?_of_isDigit digit, scanned]
      rfl
  | negSucc size =>
      have scanned := ends.scanNumber?_toDigits true (size + 1)
      show scanToken? (("-" ++ toString (size + 1)).toList ++ text) = _
      simp only [Nat.toString_eq_ofList_toDigits, String.toList_append,
        String.toList_ofList]
      rw [numberToken_negative_toDigits] at scanned
      exact scanned

/-- The content of a string that is written without escapes. -/
def WritesItself (content : List Char) : Prop :=
  ∀ letter ∈ content, letter ≠ '"' ∧ letter ≠ '\\' ∧ 0x20 ≤ letter.toNat

instance (content : List Char) : Decidable (WritesItself content) :=
  inferInstanceAs (Decidable (∀ _ ∈ content, _))

theorem scanString_of_writesItself {content : List Char}
    (itself : WritesItself content) (text : List Char) :
    scanString (content ++ '"' :: text) =
      some (content.map .plain, text) := by
  induction content with
  | nil =>
      rw [List.nil_append, scanString]
      rfl
  | cons letter rest inductionHypothesis =>
      obtain ⟨⟨notQuote, notBackslash, shown⟩, later⟩ :=
        List.forall_mem_cons.mp itself
      have scanned := inductionHypothesis later
      rw [List.cons_append]
      unfold scanString
      split
      · rename_i same
        cases same
      · rename_i same
        exact absurd (List.cons_eq_cons.mp same).1 notQuote
      · rename_i same
        exact absurd (List.cons_eq_cons.mp same).1 notBackslash
      · rename_i same
        exact absurd (List.cons_eq_cons.mp same).1 notBackslash
      · rename_i same
        obtain ⟨rfl, rfl⟩ := List.cons_eq_cons.mp same
        rw [if_neg (by omega), scanned]
        rfl

theorem joinParts_map_plain (content : List Char) :
    joinParts (content.map .plain) = some content := by
  induction content with
  | nil =>
      rw [List.map_nil, joinParts]
  | cons letter rest inductionHypothesis =>
      rw [List.map_cons, joinParts, inductionHypothesis]
      rfl

theorem scanToken?_string {content : List Char} (itself : WritesItself content)
    (text : List Char) :
    scanToken? ('"' :: content ++ '"' :: text) =
      some (.string (some content), text) := by
  show (scanString (content ++ '"' :: text)).map _ = _
  rw [scanString_of_writesItself itself, Option.map_some]
  dsimp only
  rw [joinParts_map_plain]

namespace JsonToken

/-- The tokens that are cut from their text again. -/
def Plain : JsonToken → Prop
  | string (some content) => WritesItself content
  | string none | otherNumber | malformed => False
  | _ => True

def IsInteger : JsonToken → Prop
  | integer _ => True
  | _ => False

end JsonToken

theorem scanToken?_text {token : JsonToken} (plain : token.Plain)
    {text : List Char} (ends : token.IsInteger → EndsNumber text) :
    scanToken? (token.text.toList ++ text) = some (token, text) := by
  cases token with
  | openBrace | closeBrace | openBracket | closeBracket | colon | comma | null =>
      rfl
  | bool value =>
      cases value <;> rfl
  | integer value =>
      exact scanToken?_integer (ends trivial) value
  | string content =>
      cases content with
      | none =>
          exact plain.elim
      | some content =>
          have scanned := scanToken?_string plain text
          simpa [JsonToken.text] using scanned
  | otherNumber | malformed =>
      exact plain.elim

theorem isSpace_of_isDigit {letter : Char} (digit : letter.isDigit = true) :
    isSpace letter = false := by
  rw [Bool.eq_false_iff]
  intro space
  simp only [isSpace, Bool.or_eq_true, beq_iff_eq] at space
  rcases space with ((rfl | rfl) | rfl) | rfl <;> exact absurd digit (by decide)

theorem exists_toString_eq_cons (value : Int) :
    ∃ first rest,
      (toString value).toList = first :: rest ∧ isSpace first = false := by
  cases value with
  | ofNat size =>
      obtain ⟨first, rest, shape, digit⟩ := exists_toDigits_eq_cons size
      refine ⟨first, rest, ?_, isSpace_of_isDigit digit⟩
      show (toString size).toList = _
      rw [Nat.toString_eq_ofList_toDigits, String.toList_ofList, shape]
  | negSucc size =>
      refine ⟨'-', (toString (size + 1)).toList, ?_, by decide⟩
      show ("-" ++ toString (size + 1)).toList = _
      rw [String.toList_append]
      rfl

theorem exists_text_eq_cons {token : JsonToken} (plain : token.Plain) :
    ∃ first rest,
      token.text.toList = first :: rest ∧
        isSpace first = false ∧
        (¬ token.IsInteger →
          first.isDigit = false ∧ first ∉ ['.', 'e', 'E']) := by
  cases token with
  | openBrace | closeBrace | openBracket | closeBracket | colon | comma | null =>
      exact ⟨_, _, rfl, by decide, fun _ => by decide⟩
  | bool value =>
      cases value <;> exact ⟨_, _, rfl, by decide, fun _ => by decide⟩
  | integer value =>
      obtain ⟨first, rest, shape, shown⟩ := exists_toString_eq_cons value
      exact ⟨first, rest, shape, shown, fun other => absurd trivial other⟩
  | string content =>
      cases content with
      | none =>
          exact plain.elim
      | some content =>
          refine ⟨'"', content ++ ['"'], ?_, by decide, fun _ => by decide⟩
          simp [JsonToken.text]
  | otherNumber | malformed =>
      exact plain.elim

theorem tokens_of_isSpace {letter : Char} (space : isSpace letter = true)
    (text : List Char) :
    tokens (letter :: text) = tokens text := by
  rw [tokens, if_pos space]

theorem tokens_of_scanToken? {letter : Char} {text rest : List Char}
    {token : JsonToken} (shown : isSpace letter = false)
    (scanned : scanToken? (letter :: text) = some (token, rest)) :
    tokens (letter :: text) = token :: tokens rest := by
  rw [tokens, shown, if_neg Bool.false_ne_true]
  split
  · rename_i other
    rw [scanned] at other
    cases other
    rfl
  · rename_i other
    rw [scanned] at other
    cases other

/-- Tokens spelled out in a text, with white space between them. -/
inductive Spelled : List Char → List JsonToken → Prop where
  | nil : Spelled [] []
  | space {letter : Char} {text : List Char} {all : List JsonToken}
      (space : isSpace letter = true) (later : Spelled text all) :
      Spelled (letter :: text) all
  | token {token : JsonToken} {text : List Char} {all : List JsonToken}
      (plain : token.Plain) (ends : token.IsInteger → EndsNumber text)
      (later : Spelled text all) :
      Spelled (token.text.toList ++ text) (token :: all)

theorem Spelled.tokens_eq {text : List Char} {all : List JsonToken}
    (spelled : Spelled text all) :
    tokens text = all := by
  induction spelled with
  | nil =>
      rw [tokens]
  | space space later inductionHypothesis =>
      rw [tokens_of_isSpace space, inductionHypothesis]
  | token plain ends later inductionHypothesis =>
      obtain ⟨first, rest, shape, shown, _⟩ := exists_text_eq_cons plain
      have scanned := scanToken?_text plain ends
      rw [shape, List.cons_append] at scanned ⊢
      rw [tokens_of_scanToken? shown scanned, inductionHypothesis]

theorem Spelled.behindMark {text : List Char} {all : List JsonToken}
    (later : Spelled text all) (token : JsonToken) (plain : token.Plain)
    (mark : ¬ token.IsInteger) :
    Spelled (token.text.toList ++ text) (token :: all) :=
  .token plain (fun number => absurd number mark) later

theorem Spelled.spaces {text spaces : List Char} {all : List JsonToken}
    (spelled : Spelled text all)
    (blank : ∀ letter ∈ spaces, isSpace letter = true) :
    Spelled (spaces ++ text) all := by
  induction spaces with
  | nil =>
      exact spelled
  | cons letter rest inductionHypothesis =>
      rw [List.forall_mem_cons] at blank
      exact .space blank.1 (inductionHypothesis blank.2)

theorem isSpace_of_mem_newLine {depth : Nat} {letter : Char}
    (member : letter ∈ (newLine depth).toList) :
    isSpace letter = true := by
  simp only [newLine, String.toList_append, String.toList_ofList,
    List.mem_append, List.mem_replicate] at member
  rcases member with first | ⟨_, rfl⟩
  · obtain rfl : letter = '\n' := by simpa using first
    rfl
  · rfl

theorem Spelled.behindNewLine {depth : Nat} {text : List Char}
    {all : List JsonToken} (later : Spelled text all) :
    Spelled ((newLine depth).toList ++ text) all :=
  later.spaces fun _ => isSpace_of_mem_newLine

theorem endsNumber_of_isSpace {text : List Char}
    (blank : ∀ letter ∈ text, isSpace letter = true) :
    EndsNumber text := by
  intro letter head
  have space := blank letter (List.mem_of_mem_head? head)
  simp only [isSpace, Bool.or_eq_true, beq_iff_eq] at space
  rcases space with ((rfl | rfl) | rfl) | rfl <;> decide

theorem Spelled.append_spaces {text spaces : List Char}
    {all : List JsonToken} (spelled : Spelled text all)
    (blank : ∀ letter ∈ spaces, isSpace letter = true) :
    Spelled (text ++ spaces) all := by
  induction spelled with
  | nil =>
      have only := Spelled.nil.spaces blank
      rwa [List.append_nil] at only
  | space space later inductionHypothesis =>
      exact .space space inductionHypothesis
  | token plain ends later inductionHypothesis =>
      rw [List.append_assoc]
      exact .token plain
        (fun number => (ends number).append (endsNumber_of_isSpace blank))
        inductionHypothesis

/-! ## The two layouts -/

/-- Tokens that can be written one behind the other: each is cut from its text
again, and no integer follows upon another. -/
structure Writable (all : List JsonToken) : Prop where
  plain : ∀ token ∈ all, token.Plain
  apart : all.IsChain fun token next => token.IsInteger → ¬ next.IsInteger

theorem Writable.of_cons {token : JsonToken} {all : List JsonToken}
    (writable : Writable (token :: all)) :
    Writable all :=
  ⟨(List.forall_mem_cons.mp writable.plain).2, writable.apart.of_cons⟩

theorem Writable.endsNumber_compact {token : JsonToken}
    {all : List JsonToken} (writable : Writable (token :: all))
    (number : token.IsInteger) :
    EndsNumber (compact all).toList := by
  cases all with
  | nil =>
      exact endsNumber_nil
  | cons next later =>
      have other := (List.isChain_cons_cons.mp writable.apart).1 number
      obtain ⟨first, rest, shape, _, ends⟩ :=
        exists_text_eq_cons (writable.of_cons.plain next (List.mem_cons_self ..))
      rw [compact, List.map_cons, String.join_cons, String.toList_append, shape]
      exact endsNumber_cons (ends other) _

theorem Writable.spelled_compact {all : List JsonToken}
    (writable : Writable all) :
    Spelled (compact all).toList all := by
  induction all with
  | nil =>
      exact .nil
  | cons token rest inductionHypothesis =>
      rw [compact, List.map_cons, String.join_cons, String.toList_append]
      exact .token (writable.plain token (List.mem_cons_self ..))
        writable.endsNumber_compact (inductionHypothesis writable.of_cons)

theorem endsNumber_newLine (depth : Nat) (text : List Char) :
    EndsNumber ((newLine depth).toList ++ text) := by
  rw [newLine, String.toList_append]
  intro letter head
  cases head
  decide

theorem Writable.endsNumber_pretty {token : JsonToken}
    {all : List JsonToken} (writable : Writable (token :: all))
    (number : token.IsInteger) (depth : Nat) :
    EndsNumber (String.join (prettyPieces depth all)).toList := by
  unfold prettyPieces
  split
  case h_1 =>
    exact endsNumber_nil
  case h_10 next later _ _ _ _ _ _ _ _ =>
    have other := (List.isChain_cons_cons.mp writable.apart).1 number
    obtain ⟨first, rest, shape, _, ends⟩ :=
      exists_text_eq_cons (writable.of_cons.plain next (List.mem_cons_self ..))
    rw [String.join_cons, String.toList_append, shape]
    exact endsNumber_cons (ends other) _
  case h_6 | h_7 =>
    rw [String.join_cons, String.toList_append]
    exact endsNumber_newLine _ _
  -- All that is left begins with a mark.
  all_goals
    rw [String.join_cons, String.toList_append]
    intro letter head
    cases head
    decide

theorem Writable.spelled_pretty {all : List JsonToken}
    (writable : Writable all) (depth : Nat) :
    Spelled (String.join (prettyPieces depth all)).toList all := by
  fun_induction prettyPieces depth all with
  | case1 =>
      exact .nil
  | case2 depth rest inductionHypothesis =>
      have later := inductionHypothesis writable.of_cons.of_cons
      rw [String.join_cons, String.toList_append]
      exact (later.behindMark .closeBracket trivial id).behindMark
        .openBracket trivial id
  | case3 depth rest inductionHypothesis =>
      have later := inductionHypothesis writable.of_cons.of_cons
      rw [String.join_cons, String.toList_append]
      exact (later.behindMark .closeBrace trivial id).behindMark
        .openBrace trivial id
  | case4 depth rest _ inductionHypothesis =>
      have later := inductionHypothesis writable.of_cons
      rw [String.join_cons, String.join_cons, String.toList_append,
        String.toList_append]
      exact later.behindNewLine.behindMark .openBracket trivial id
  | case5 depth rest _ inductionHypothesis =>
      have later := inductionHypothesis writable.of_cons
      rw [String.join_cons, String.join_cons, String.toList_append,
        String.toList_append]
      exact later.behindNewLine.behindMark .openBrace trivial id
  | case6 depth rest inductionHypothesis =>
      have later := inductionHypothesis writable.of_cons
      rw [String.join_cons, String.join_cons, String.toList_append,
        String.toList_append]
      exact (later.behindMark .closeBracket trivial id).behindNewLine
  | case7 depth rest inductionHypothesis =>
      have later := inductionHypothesis writable.of_cons
      rw [String.join_cons, String.join_cons, String.toList_append,
        String.toList_append]
      exact (later.behindMark .closeBrace trivial id).behindNewLine
  | case8 depth rest inductionHypothesis =>
      have later := inductionHypothesis writable.of_cons
      rw [String.join_cons, String.join_cons, String.toList_append,
        String.toList_append]
      exact later.behindNewLine.behindMark .comma trivial id
  | case9 depth rest inductionHypothesis =>
      have later := inductionHypothesis writable.of_cons
      rw [String.join_cons, String.toList_append]
      have spaced : Spelled (' ' :: _) rest := .space rfl later
      exact spaced.behindMark .colon trivial id
  | case10 depth token rest _ _ _ _ _ _ _ _ inductionHypothesis =>
      have later := inductionHypothesis writable.of_cons
      rw [String.join_cons, String.toList_append]
      exact .token (writable.plain token (List.mem_cons_self ..))
        (fun number => writable.endsNumber_pretty number depth) later

theorem Writable.tokens_compact {all : List JsonToken}
    (writable : Writable all) :
    tokens (compact all).toList = all :=
  writable.spelled_compact.tokens_eq

theorem Writable.tokens_pretty {all : List JsonToken}
    (writable : Writable all) :
    tokens (pretty all).toList = all :=
  (writable.spelled_pretty 0).tokens_eq

theorem Writable.tokens_pretty_append {all : List JsonToken}
    (writable : Writable all) {behind : String}
    (blank : ∀ letter ∈ behind.toList, isSpace letter = true) :
    tokens (pretty all ++ behind).toList = all := by
  rw [String.toList_append]
  exact ((writable.spelled_pretty 0).append_spaces blank).tokens_eq

theorem writable_nil : Writable [] :=
  ⟨List.forall_mem_nil _, .nil⟩

theorem writable_singleton {token : JsonToken} (plain : token.Plain) :
    Writable [token] :=
  ⟨List.forall_mem_singleton.mpr plain, .singleton token⟩

/-- A mark may stand between written tokens. -/
theorem Writable.append_mark {first rest : List JsonToken}
    (writable : Writable first) (later : Writable rest) {mark : JsonToken}
    (plain : mark.Plain) (other : ¬ mark.IsInteger) :
    Writable (first ++ mark :: rest) := by
  constructor
  · rw [List.forall_mem_append, List.forall_mem_cons]
    exact ⟨writable.plain, plain, later.plain⟩
  · rw [List.isChain_append, List.isChain_cons]
    refine ⟨writable.apart, ⟨?_, later.apart⟩, ?_⟩
    · intro next _ number
      exact absurd number other
    · intro last _ next head _
      obtain rfl := Option.some_inj.mp head
      exact other

theorem writable_separated {items : List (List JsonToken)}
    (writable : ∀ item ∈ items, Writable item) :
    Writable (separated items) := by
  fun_induction separated items with
  | case1 =>
      exact writable_nil
  | case2 item =>
      exact writable item (List.mem_singleton_self item)
  | case3 item rest _ inductionHypothesis =>
      rw [List.forall_mem_cons] at writable
      exact writable.1.append_mark (inductionHypothesis writable.2) trivial id

theorem Writable.enclosed {inside : List JsonToken}
    (writable : Writable inside) {opening closing : JsonToken}
    (opens : opening.Plain ∧ ¬ opening.IsInteger)
    (closes : closing.Plain ∧ ¬ closing.IsInteger) :
    Writable (opening :: inside ++ [closing]) :=
  (writable_nil.append_mark writable opens.1 opens.2).append_mark writable_nil
    closes.1 closes.2

theorem writable_objectTokens {fields : List (String × List JsonToken)}
    (writable :
      ∀ field ∈ fields, WritesItself field.1.toList ∧ Writable field.2) :
    Writable (objectTokens fields) := by
  refine (writable_separated ?_).enclosed ⟨trivial, id⟩ ⟨trivial, id⟩
  rintro _ member
  obtain ⟨⟨name, value⟩, given, rfl⟩ := List.mem_map.mp member
  obtain ⟨itself, written⟩ := writable _ given
  have named : Writable [nameToken name] := writable_singleton itself
  exact named.append_mark written trivial id

theorem writable_objectTokens_map {F : Type} {name : F → String}
    {written : F → List JsonToken}
    (itself : ∀ field, WritesItself (name field).toList)
    (writable : ∀ field, Writable (written field)) (fields : List F) :
    Writable
      (objectTokens (fields.map fun field => (name field, written field))) := by
  apply writable_objectTokens
  intro _ member
  obtain ⟨field, _, rfl⟩ := List.mem_map.mp member
  exact ⟨itself field, writable field⟩

theorem writable_arrayTokens {items : List (List JsonToken)}
    (writable : ∀ item ∈ items, Writable item) :
    Writable (arrayTokens items) :=
  (writable_separated writable).enclosed ⟨trivial, id⟩ ⟨trivial, id⟩

end Tabletop.Json
