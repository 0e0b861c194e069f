import Tabletop.Proofs.Grammar

/-!
# The tokens of a text

What the pieces of a text are. Every piece is spelled as its token asks
(`spells_of_mem_pieces`); the pieces of a text without unknown characters make
up the text (`flatMap_text_pieces`); and a spelled piece in front of a text
that cannot lengthen it is cut off as it stands (`pieces_append`). No token that
is read could be longer (`endsBefore_longest`), and where none is read, none can
start (`not_beginsToken_of_longest`).
-/

namespace Tabletop.Dice

open Tabletop.Text

theorem eq_or_capital_of_toLower_eq {letter low : Char}
    (same : letter.toLower = low) :
    letter = low ∨ (65 ≤ letter.toNat ∧ letter.toNat + 32 = low.toNat) := by
  unfold Char.toLower at same
  split at same
  · rename_i capital
    have lowest : 65 ≤ letter.val.toNat := capital.1
    have highest : letter.val.toNat ≤ 90 := capital.2
    right
    refine ⟨lowest, ?_⟩
    rw [← same]
    show letter.val.toNat + 32 = (letter.val.toNat + 32) % 2 ^ 32
    omega
  · exact Or.inl same

theorem toLower_eq_iff {letter low : Char}
    (keyLetter : low ∈ ['d', 'h', 'k', 'l']) :
    letter.toLower = low ↔ letter = low ∨ letter = low.toUpper := by
  simp only [List.mem_cons, List.not_mem_nil, or_false] at keyLetter
  constructor
  · intro same
    rcases eq_or_capital_of_toLower_eq same with equal | ⟨_, apart⟩
    · exact Or.inl equal
    · right
      rw [← Char.ofNat_toNat letter, Nat.eq_sub_of_add_eq apart]
      rcases keyLetter with rfl | rfl | rfl | rfl <;> rfl
  · rintro (rfl | rfl) <;>
      rcases keyLetter with rfl | rfl | rfl | rfl <;> rfl

theorem eq_of_toLower_eq {letter symbol : Char}
    (small : symbol.toNat < 97) (same : letter.toLower = symbol) :
    letter = symbol := by
  rcases eq_or_capital_of_toLower_eq same with equal | ⟨capital, apart⟩
  · exact equal
  · omega

/-- The characters that a token can be written with. -/
inductive Spells : Token → List Char → Prop
  | number (numeral : Numeral) :
      Spells .number numeral.digits
  | die {letter : Char} :
      letter ∈ ['d', 'D'] → Spells .die [letter]
  | keep {letter : Char} :
      letter ∈ ['k', 'K'] → Spells .keep [letter]
  | operation (keyword : Keyword) :
      Spells (.operation keyword.cut) keyword.chars
  | advantage :
      Spells .advantage ['!']
  | sign (sign : Sign) :
      Spells (.sign sign) [sign.char]
  | unknown (letter : Char) :
      Spells .unknown [letter]

namespace Spells

theorem exists_numeral {text : List Char} (spelled : Spells .number text) :
    ∃ numeral : Numeral, text = numeral.digits := by
  cases spelled with
  | number numeral => exact ⟨numeral, rfl⟩

theorem exists_separator {text : List Char} (spelled : Spells .die text) :
    ∃ letter ∈ ['d', 'D'], text = [letter] := by
  cases spelled with
  | @die letter member => exact ⟨letter, member, rfl⟩

theorem exists_keyword {cut : Cut} {text : List Char}
    (spelled : Spells (.operation cut) text) :
    ∃ keyword : Keyword, keyword.cut = cut ∧ text = keyword.chars := by
  cases spelled with
  | operation keyword => exact ⟨keyword, rfl, rfl⟩

theorem text_of_advantage {text : List Char}
    (spelled : Spells .advantage text) :
    text = ['!'] := by
  cases spelled
  rfl

theorem text_of_sign {sign : Sign} {text : List Char}
    (spelled : Spells (.sign sign) text) :
    text = [sign.char] := by
  cases spelled
  rfl

theorem exists_letter {text : List Char} (spelled : Spells .unknown text) :
    ∃ letter, text = [letter] := by
  cases spelled with
  | unknown letter => exact ⟨letter, rfl⟩

theorem text_ne_nil {token : Token} {text : List Char}
    (spelled : Spells token text) :
    text ≠ [] := by
  cases spelled with
  | number numeral => exact numeral.digits_ne_nil
  | _ => exact List.cons_ne_nil _ _

end Spells

/-- No longer token than the given one goes on into the text behind it: digits
do not follow a number, and the second letter of a cut does not follow a bare
first letter. -/
def Token.EndsBefore (token : Token) (rest : List Char) : Prop :=
  match token with
  | .number => ∀ letter ∈ rest.head?, letter.isDigit = false
  | .die | .keep => ∀ letter ∈ rest.head?, letter ∉ ['h', 'H', 'l', 'L']
  | .operation _ | .advantage | .sign _ | .unknown => True

/-- Some token can start with the character. -/
def BeginsToken (letter : Char) : Prop :=
  ∃ token more, token ≠ Token.unknown ∧ Spells token (letter :: more)

theorem ofLetters?_eq_none {drops : Bool} {second : Char}
    (foreign : second ∉ ['h', 'H', 'l', 'L']) :
    Cut.ofLetters? drops second = none := by
  simp only [List.mem_cons, List.not_mem_nil, or_false, not_or] at foreign
  obtain ⟨notH, notUpperH, notL, notUpperL⟩ := foreign
  have notHigh : second.toLower ≠ 'h' := by
    rw [Ne, toLower_eq_iff (by decide)]
    exact not_or.mpr ⟨notH, notUpperH⟩
  have notLow : second.toLower ≠ 'l' := by
    rw [Ne, toLower_eq_iff (by decide)]
    exact not_or.mpr ⟨notL, notUpperL⟩
  unfold Cut.ofLetters?
  split <;> simp_all

theorem ofLetters?_eq_none_iff {drops : Bool} {second : Char} :
    Cut.ofLetters? drops second = none ↔ second ∉ ['h', 'H', 'l', 'L'] := by
  refine ⟨?_, ofLetters?_eq_none⟩
  intro absent member
  simp only [List.mem_cons, List.not_mem_nil, or_false] at member
  cases drops <;> rcases member with rfl | rfl | rfl | rfl <;> cases absent

theorem ofLetters?_eq_some {drops : Bool} {first second : Char} {cut : Cut}
    (firstLetter : first ∈ if drops then ['d', 'D'] else ['k', 'K'])
    (named : Cut.ofLetters? drops second = some cut) :
    ∃ keyword : Keyword,
      keyword.cut = cut ∧ keyword.chars = [first, second] := by
  by_cases secondLetter : second ∈ ['h', 'H', 'l', 'L']
  · have firstOfKeyword : first ∈ ['k', 'K', 'd', 'D'] := by
      cases drops <;>
        simp only [Bool.false_eq_true, if_true, if_false, List.mem_cons,
          List.not_mem_nil, or_false] at firstLetter ⊢ <;>
        rcases firstLetter with rfl | rfl <;> decide
    refine ⟨⟨first, second, firstOfKeyword, secondLetter⟩, ?_, rfl⟩
    simp only [List.mem_cons, List.not_mem_nil, or_false] at secondLetter
    cases drops <;>
      simp only [Bool.false_eq_true, if_true, if_false, List.mem_cons,
        List.not_mem_nil, or_false] at firstLetter <;>
      rcases firstLetter with rfl | rfl <;>
      rcases secondLetter with rfl | rfl | rfl | rfl <;>
      exact Option.some.inj named
  · rw [ofLetters?_eq_none secondLetter] at named
    cases named

theorem spells_ofLetter {alone : Token} {drops : Bool} {first : Char}
    (firstLetter : first ∈ if drops then ['d', 'D'] else ['k', 'K'])
    (spelledAlone : Spells alone [first]) (rest : List Char) :
    Spells (Token.ofLetter alone drops rest).1
      (first :: rest.take (Token.ofLetter alone drops rest).2) := by
  cases rest with
  | nil =>
      exact spelledAlone
  | cons second later =>
      cases named : Cut.ofLetters? drops second with
      | none =>
          simpa [Token.ofLetter, named] using spelledAlone
      | some cut =>
          obtain ⟨keyword, rfl, letters⟩ :=
            ofLetters?_eq_some firstLetter named
          have spelled := Spells.operation keyword
          rw [letters] at spelled
          simpa [Token.ofLetter, named] using spelled

theorem longest_spelled (first : Char) (rest : List Char) :
    Spells (Token.longest first rest).1
      (first :: rest.take (Token.longest first rest).2) := by
  unfold Token.longest
  split
  · rename_i digit
    have digits : isNumeral (first :: rest.takeWhile Char.isDigit) = true := by
      simp [isNumeral, digit]
    rw [← List.prefix_iff_eq_take.mp (List.takeWhile_prefix Char.isDigit)]
    exact Spells.number ⟨_, digits⟩
  · split
    · rename_i letter
      have firstLetter := (toLower_eq_iff (by decide)).mp letter
      refine spells_ofLetter ?_ (Spells.die ?_) rest <;> simpa using firstLetter
    · rename_i letter
      have firstLetter := (toLower_eq_iff (by decide)).mp letter
      refine spells_ofLetter ?_ (Spells.keep ?_) rest <;> simpa using firstLetter
    · rename_i symbol
      rw [eq_of_toLower_eq (by decide) symbol]
      exact Spells.advantage
    · rename_i symbol
      rw [eq_of_toLower_eq (by decide) symbol]
      exact Spells.sign .plus
    · rename_i symbol
      rw [eq_of_toLower_eq (by decide) symbol]
      exact Spells.sign .minus
    · exact Spells.unknown first

theorem endsBefore_ofLetter {alone : Token} (drops : Bool) (rest : List Char)
    (bare : alone = .die ∨ alone = .keep) :
    (Token.ofLetter alone drops rest).1.EndsBefore
      (rest.drop (Token.ofLetter alone drops rest).2) := by
  cases rest with
  | nil =>
      rcases bare with rfl | rfl <;> exact nofun
  | cons second later =>
      cases named : Cut.ofLetters? drops second with
      | some cut =>
          simp only [Token.ofLetter, named]
          exact trivial
      | none =>
          have foreign := ofLetters?_eq_none_iff.mp named
          simp only [Token.ofLetter, named, List.drop_zero]
          rcases bare with rfl | rfl <;> rintro letter ⟨⟩ <;> exact foreign

/-- The longest token is not followed by what would lengthen it. -/
theorem endsBefore_longest (first : Char) (rest : List Char) :
    (Token.longest first rest).1.EndsBefore
      (rest.drop (Token.longest first rest).2) := by
  unfold Token.longest
  split
  · intro letter member
    dsimp only at member
    have behind :
        (rest.takeWhile Char.isDigit ++ rest.dropWhile Char.isDigit).drop
            (rest.takeWhile Char.isDigit).length =
          rest.dropWhile Char.isDigit :=
      List.drop_left
    rw [List.takeWhile_append_dropWhile] at behind
    rw [behind] at member
    have stops := List.head?_dropWhile_not Char.isDigit rest
    rw [Option.mem_def.mp member] at stops
    exact stops
  · split
    · exact endsBefore_ofLetter true rest (Or.inl rfl)
    · exact endsBefore_ofLetter false rest (Or.inr rfl)
    · exact trivial
    · exact trivial
    · exact trivial
    · exact trivial

theorem ofLetter_known {alone : Token} (drops : Bool) (rest : List Char)
    (known : alone ≠ .unknown) :
    (Token.ofLetter alone drops rest).1 ≠ .unknown := by
  unfold Token.ofLetter
  split
  · split
    · exact nofun
    · exact known
  · exact known

theorem longest_known_of_letter {first : Char} (rest : List Char)
    (letter : first ∈ ['k', 'K', 'd', 'D']) :
    (Token.longest first rest).1 ≠ .unknown := by
  simp only [List.mem_cons, List.not_mem_nil, or_false] at letter
  rcases letter with rfl | rfl | rfl | rfl
  · exact ofLetter_known false rest nofun
  · exact ofLetter_known false rest nofun
  · exact ofLetter_known true rest nofun
  · exact ofLetter_known true rest nofun

/-- Where no token is read, none can start. -/
theorem not_beginsToken_of_longest {first : Char} {rest : List Char}
    (unknown : (Token.longest first rest).1 = .unknown) :
    ¬ BeginsToken first := by
  rintro ⟨token, more, known, spelled⟩
  generalize shape : first :: more = text at spelled
  cases spelled with
  | number numeral =>
      have digit : first.isDigit = true :=
        numeral.isDigit_of_mem (shape ▸ List.mem_cons_self)
      rw [Token.longest, if_pos digit] at unknown
      cases unknown
  | die letter | keep letter =>
      obtain ⟨rfl, rfl⟩ := List.cons.inj shape
      refine longest_known_of_letter rest ?_ unknown
      simp only [List.mem_cons, List.not_mem_nil, or_false] at letter ⊢
      tauto
  | operation keyword =>
      obtain ⟨rfl, _⟩ := List.cons.inj shape
      exact longest_known_of_letter rest keyword.first_mem unknown
  | advantage =>
      obtain ⟨rfl, _⟩ := List.cons.inj shape
      cases unknown
  | sign sign =>
      obtain ⟨rfl, _⟩ := List.cons.inj shape
      cases sign <;> cases unknown
  | unknown letter =>
      exact known rfl

theorem pieces_cons (first : Char) (rest : List Char) :
    pieces (first :: rest) =
      if (Token.longest first rest).1 = .unknown then
        [⟨(Token.longest first rest).1,
          first :: rest.take (Token.longest first rest).2⟩]
      else
        ⟨(Token.longest first rest).1,
            first :: rest.take (Token.longest first rest).2⟩ ::
          pieces (rest.drop (Token.longest first rest).2) := by
  rw [pieces]

theorem spells_of_mem_pieces {text : List Char} {piece : Piece}
    (member : piece ∈ pieces text) :
    Spells piece.token piece.text := by
  fun_induction pieces text with
  | case1 =>
      cases member
  | case2 first rest more longest whole =>
      rw [List.mem_singleton] at member
      have spelled := longest_spelled first rest
      rw [longest] at spelled
      rw [member]
      exact spelled
  | case3 first rest token more longest whole known inductionHypothesis =>
      rcases List.mem_cons.mp member with head | tail
      · have spelled := longest_spelled first rest
        rw [longest] at spelled
        rw [head]
        exact spelled
      · exact inductionHypothesis tail

/-- Without an unknown character the pieces make up the whole text. -/
theorem flatMap_text_pieces {text : List Char}
    (known : ∀ piece ∈ pieces text, piece.token ≠ .unknown) :
    (pieces text).flatMap Piece.text = text := by
  fun_induction pieces text with
  | case1 =>
      rfl
  | case2 first rest more longest whole =>
      exact absurd rfl (known whole (List.mem_singleton_self whole))
  | case3 first rest token more longest whole unknown inductionHypothesis =>
      have laterKnown :
          ∀ piece ∈ pieces (rest.drop more), piece.token ≠ .unknown :=
        fun piece member => known piece (List.mem_cons_of_mem whole member)
      rw [List.flatMap_cons, inductionHypothesis laterKnown]
      simp [whole]

theorem longest_digits {first : Char} {more rest : List Char}
    (firstDigit : first.isDigit = true)
    (moreDigits : ∀ letter ∈ more, letter.isDigit = true)
    (ends : Token.number.EndsBefore rest) :
    Token.longest first (more ++ rest) = (.number, more.length) := by
  have stops : rest.takeWhile Char.isDigit = [] := by
    cases rest with
    | nil =>
        rfl
    | cons next later =>
        have foreign : next.isDigit = false := ends next rfl
        simp [foreign]
  have run : (more ++ rest).takeWhile Char.isDigit = more := by
    rw [List.takeWhile_append_of_pos moreDigits, stops, List.append_nil]
  rw [Token.longest, if_pos firstDigit, run]

theorem ofLetter_alone {alone : Token} (drops : Bool) {rest : List Char}
    (ends : ∀ letter ∈ rest.head?, letter ∉ ['h', 'H', 'l', 'L']) :
    Token.ofLetter alone drops rest = (alone, 0) := by
  cases rest with
  | nil =>
      rfl
  | cons second later =>
      have absent : Cut.ofLetters? drops second = none :=
        ofLetters?_eq_none (ends second rfl)
      simp [Token.ofLetter, absent]

theorem longest_keyword (keyword : Keyword) (rest : List Char) :
    Token.longest keyword.first (keyword.second :: rest) =
      (.operation keyword.cut, 1) := by
  obtain ⟨first, second, firstLetter, secondLetter⟩ := keyword
  simp only [List.mem_cons, List.not_mem_nil, or_false]
    at firstLetter secondLetter
  rcases firstLetter with rfl | rfl | rfl | rfl <;>
    rcases secondLetter with rfl | rfl | rfl | rfl <;> rfl

/-- A spelled token in front of a text that cannot lengthen it is cut off as
it stands. -/
theorem longest_append {token : Token} {first : Char} {more rest : List Char}
    (spelled : Spells token (first :: more)) (known : token ≠ .unknown)
    (ends : token.EndsBefore rest) :
    Token.longest first (more ++ rest) = (token, more.length) := by
  generalize shape : first :: more = text at spelled
  cases spelled with
  | number numeral =>
      have digits : ∀ letter ∈ first :: more, letter.isDigit = true := by
        intro letter member
        rw [shape] at member
        exact numeral.isDigit_of_mem member
      exact longest_digits (digits first List.mem_cons_self)
        (fun letter member => digits letter (List.mem_cons_of_mem first member))
        ends
  | die letter =>
      obtain ⟨rfl, rfl⟩ := List.cons.inj shape
      simp only [List.mem_cons, List.not_mem_nil, or_false] at letter
      rcases letter with rfl | rfl <;> exact ofLetter_alone true ends
  | keep letter =>
      obtain ⟨rfl, rfl⟩ := List.cons.inj shape
      simp only [List.mem_cons, List.not_mem_nil, or_false] at letter
      rcases letter with rfl | rfl <;> exact ofLetter_alone false ends
  | operation keyword =>
      obtain ⟨rfl, rfl⟩ := List.cons.inj shape
      exact longest_keyword keyword rest
  | advantage =>
      obtain ⟨rfl, rfl⟩ := List.cons.inj shape
      rfl
  | sign sign =>
      obtain ⟨rfl, rfl⟩ := List.cons.inj shape
      cases sign <;> rfl
  | unknown letter =>
      exact absurd rfl known

theorem pieces_append {token : Token} {text rest : List Char}
    (spelled : Spells token text) (known : token ≠ .unknown)
    (ends : token.EndsBefore rest) :
    pieces (text ++ rest) = ⟨token, text⟩ :: pieces rest := by
  cases text with
  | nil =>
      generalize shape : ([] : List Char) = empty at spelled
      cases spelled with
      | number numeral => exact absurd shape.symm numeral.digits_ne_nil
      | _ => cases shape
  | cons first more =>
      rw [List.cons_append, pieces_cons, longest_append spelled known ends,
        if_neg known]
      simp

end Tabletop.Dice
