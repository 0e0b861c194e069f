import Tabletop.Proofs.Lexing

/-!
# Reading and the grammar

A text is read exactly when, without its blanks, it is the text of a tree of
the grammar whose literals are all in range, and what is read is the
expression that the tree names.

The argument goes through the pieces of a text. The pieces of a tree are those
of its text; on lexemes cut in this way reading succeeds exactly if the tree is
in range; and whatever is read has the pieces of some tree.
-/

namespace Tabletop.Dice

open Tabletop.Text

def Numeral.piece (numeral : Numeral) : Piece :=
  ⟨.number, numeral.digits⟩

def Clause.pieces : Clause → List Piece
  | advantage => [⟨.advantage, ['!']⟩]
  | operation keyword count =>
      [⟨.operation keyword.cut, keyword.chars⟩, count.piece]
  | modifier sign magnitude => [⟨.sign sign, [sign.char]⟩, magnitude.piece]

def NotationTree.pieces (tree : NotationTree) : List Piece :=
  tree.count.toList.map Numeral.piece ++
    ⟨.die, [tree.separator]⟩ :: tree.sides.piece ::
      tree.clauses.flatMap Clause.pieces

theorem pieces_numeral_append (numeral : Numeral) {rest : List Char}
    (ends : Token.number.EndsBefore rest) :
    pieces (numeral.digits ++ rest) = numeral.piece :: pieces rest :=
  pieces_append (.number numeral) (by decide) ends

theorem clauses_endNumber (clauses : List Clause) :
    Token.number.EndsBefore (clauses.flatMap Clause.chars) := by
  intro letter member
  cases clauses with
  | nil =>
      cases member
  | cons clause later =>
      cases clause with
      | advantage =>
          cases member
          rfl
      | operation keyword count =>
          cases member
          have notDigit :
              ∀ first ∈ ['k', 'K', 'd', 'D'], first.isDigit = false := by
            simp
          exact notDigit keyword.first keyword.first_mem
      | modifier sign magnitude =>
          cases member
          cases sign <;> rfl

theorem pieces_clauses (clauses : List Clause) :
    pieces (clauses.flatMap Clause.chars) =
      clauses.flatMap Clause.pieces := by
  induction clauses with
  | nil =>
      simp [pieces]
  | cons clause later inductionHypothesis =>
      rw [List.flatMap_cons, List.flatMap_cons, ← inductionHypothesis]
      have ends := clauses_endNumber later
      cases clause with
      | advantage =>
          exact pieces_append .advantage (by decide) trivial
      | operation keyword count =>
          rw [Clause.chars, List.append_assoc,
            pieces_append (.operation keyword) (by simp) trivial,
            pieces_numeral_append count ends]
          rfl
      | modifier sign magnitude =>
          rw [Clause.chars, List.cons_append, ← List.singleton_append,
            pieces_append (.sign sign) (by simp) trivial,
            pieces_numeral_append magnitude ends]
          rfl

theorem pieces_chars (tree : NotationTree) :
    pieces tree.chars = tree.pieces := by
  have separatorEnds :
      Token.die.EndsBefore
        (tree.sides.digits ++ tree.clauses.flatMap Clause.chars) := by
    obtain ⟨first, rest, shape, digit⟩ := tree.sides.exists_digits_eq_cons
    have notDigit :
        ∀ second ∈ ['h', 'H', 'l', 'L'], second.isDigit = false := by
      simp
    intro letter member secondLetter
    rw [shape] at member
    cases member
    rw [notDigit first secondLetter] at digit
    cases digit
  have fromSeparator :
      pieces (tree.separator ::
          (tree.sides.digits ++ tree.clauses.flatMap Clause.chars)) =
        ⟨.die, [tree.separator]⟩ :: tree.sides.piece ::
          tree.clauses.flatMap Clause.pieces := by
    rw [← List.singleton_append,
      pieces_append (.die tree.separator_mem) (by decide) separatorEnds,
      pieces_numeral_append tree.sides (clauses_endNumber tree.clauses),
      pieces_clauses]
  cases given : tree.count with
  | none =>
      simpa [NotationTree.chars, NotationTree.pieces, given] using fromSeparator
  | some count =>
      have countEnds :
          Token.number.EndsBefore (tree.separator ::
            (tree.sides.digits ++ tree.clauses.flatMap Clause.chars)) := by
        have notDigit :
            ∀ separator ∈ ['d', 'D'], separator.isDigit = false := by
          simp
        intro letter member
        cases member
        exact notDigit tree.separator tree.separator_mem
      have cut := pieces_numeral_append count countEnds
      rw [fromSeparator] at cut
      simpa [NotationTree.chars, NotationTree.pieces, given] using cut

theorem flatMap_text_clause (clause : Clause) :
    clause.pieces.flatMap Piece.text = clause.chars := by
  cases clause <;>
    simp [Clause.pieces, Clause.chars, Numeral.piece]

theorem flatMap_text_tree (tree : NotationTree) :
    tree.pieces.flatMap Piece.text = tree.chars := by
  have clauses :
      (tree.clauses.flatMap Clause.pieces).flatMap Piece.text =
        tree.clauses.flatMap Clause.chars := by
    rw [List.flatMap_assoc]
    simp only [flatMap_text_clause]
  cases given : tree.count <;>
    simp [NotationTree.pieces, NotationTree.chars, Numeral.piece, given, clauses]

theorem known_of_mem_tree {tree : NotationTree} {piece : Piece}
    (member : piece ∈ tree.pieces) :
    piece.token ≠ .unknown := by
  simp only [NotationTree.pieces, List.mem_append, List.mem_map,
    List.mem_cons, List.mem_flatMap] at member
  rcases member with ⟨count, _, rfl⟩ | rfl | rfl | ⟨clause, _, member⟩
  · simp [Numeral.piece]
  · simp
  · simp [Numeral.piece]
  · cases clause <;>
      simp only [Clause.pieces, Numeral.piece, List.mem_cons,
        List.not_mem_nil, or_false] at member <;>
      grind

def Lexeme.piece (lexeme : Lexeme) : Piece :=
  ⟨lexeme.token, lexeme.text⟩

theorem locate_map_piece (placed : List PlacedChar) (cut : List Piece) :
    (locate placed cut).map Lexeme.piece = cut := by
  induction cut generalizing placed with
  | nil =>
      rfl
  | cons piece later inductionHypothesis =>
      rw [locate, List.map_cons, inductionHypothesis]
      rfl

theorem lexemes_map_piece (text : List Char) :
    (lexemes text).map Lexeme.piece = pieces (squeeze text) :=
  locate_map_piece (inkOf text) (pieces (squeeze text))

theorem bind_eq_ok_iff {ε α β : Type} {first : Except ε α}
    {next : α → Except ε β} {result : β} :
    (first >>= next) = .ok result ↔
      ∃ middle, first = .ok middle ∧ next middle = .ok result := by
  cases first with
  | error fault =>
      simp [bind, Except.bind]
  | ok middle =>
      simp [bind, Except.bind]

/-- A value behind two refusals comes out when neither applies. -/
theorem refusals_eq_ok_iff {ε α : Type} {first second : Prop}
    [Decidable first] [Decidable second] {firstFault secondFault : ε}
    {value result : α} :
    (if first then .error firstFault
        else if second then .error secondFault
        else .ok value : Except ε α) = .ok result ↔
      (¬ first ∧ ¬ second) ∧ value = result := by
  by_cases refused : first
  · simp [refused]
  · by_cases refusedNext : second
    · simp [refused, refusedNext]
    · simp [refused, refusedNext]

theorem readCount_eq_ok_iff {literal : Lexeme} {count : UInt32} :
    readCount literal = .ok count ↔
      (1 ≤ literal.value ∧ literal.value ≤ 1000) ∧
        UInt32.ofNat literal.value = count := by
  refine refusals_eq_ok_iff.trans (and_congr_left' ?_)
  unfold Expression.maxCount
  omega

theorem readSides_eq_ok_iff {literal : Lexeme} {sides : UInt32} :
    readSides literal = .ok sides ↔
      (2 ≤ literal.value ∧ literal.value ≤ 2 ^ 32 - 1) ∧
        UInt32.ofNat literal.value = sides := by
  refine refusals_eq_ok_iff.trans (and_congr_left' ?_)
  unfold UInt32.size
  omega

theorem readOperationCount_eq_ok_iff {literal : Lexeme} {count : UInt32} :
    readOperationCount literal = .ok count ↔
      (1 ≤ literal.value ∧ literal.value ≤ 2 ^ 32 - 1) ∧
        UInt32.ofNat literal.value = count := by
  refine refusals_eq_ok_iff.trans (and_congr_left' ?_)
  unfold UInt32.size
  omega

theorem readModifier_eq_ok_iff {sign : Sign} {signLexeme literal : Lexeme}
    {modifier : Int32} :
    readModifier sign signLexeme literal = .ok modifier ↔
      (-2 ^ 31 ≤ sign.apply literal.value ∧
          sign.apply literal.value ≤ 2 ^ 31 - 1) ∧
        Int32.ofInt (sign.apply literal.value) = modifier := by
  have least : Int32.minValue.toInt = -2 ^ 31 := Int32.toInt_minValue
  have greatest : Int32.maxValue.toInt = 2 ^ 31 - 1 := by decide
  unfold readModifier toWord32?
  split
  · rename_i word found
    split at found
    · cases found
      simp only [Except.ok.injEq, iff_and_self]
      omega
    · cases found
  · rename_i missing
    split at missing
    · cases missing
    · simp only [reduceCtorEq, false_iff]
      omega

theorem exists_of_map_piece_eq_cons {rest : List Lexeme} {piece : Piece}
    {later : List Piece} (cut : rest.map Lexeme.piece = piece :: later) :
    ∃ lexeme following,
      rest = lexeme :: following ∧ lexeme.token = piece.token ∧
        lexeme.text = piece.text ∧ following.map Lexeme.piece = later := by
  obtain ⟨lexeme, following, rfl, rfl, cutLater⟩ := List.map_eq_cons_iff.mp cut
  exact ⟨lexeme, following, rfl, rfl, rfl, cutLater⟩

theorem value_eq_of_text_eq {literal : Lexeme} {numeral : Numeral}
    (text : literal.text = numeral.digits) :
    literal.value = numeral.value := by
  rw [Lexeme.value, text, Numeral.value]

/-- On lexemes cut as clauses are, reading succeeds exactly if every clause is
in range, and it applies them from left to right. -/
theorem readClauses_eq_ok_iff {clauses : List Clause} {rest : List Lexeme}
    (cut : rest.map Lexeme.piece = clauses.flatMap Clause.pieces)
    {expression result : Expression} :
    readClauses expression rest = .ok result ↔
      (∀ clause ∈ clauses, clause.InRange) ∧
        clauses.foldl Clause.amend expression = result := by
  induction clauses generalizing rest expression with
  | nil =>
      rw [List.flatMap_nil, List.map_eq_nil_iff] at cut
      subst cut
      simp [readClauses]
  | cons clause later inductionHypothesis =>
      rw [List.flatMap_cons] at cut
      rw [List.forall_mem_cons, List.foldl_cons, and_assoc]
      cases clause with
      | advantage =>
          obtain ⟨lexeme, following, rfl, token, text, cutLater⟩ :=
            exists_of_map_piece_eq_cons cut
          rw [readClauses, token]
          simp only [inductionHypothesis cutLater, Clause.inRange_advantage,
            Clause.amend_advantage, true_and]
      | operation keyword count =>
          obtain ⟨lexeme, following, rfl, token, text, cutFollowing⟩ :=
            exists_of_map_piece_eq_cons cut
          obtain ⟨literal, behind, rfl, literalToken, literalText, cutLater⟩ :=
            exists_of_map_piece_eq_cons cutFollowing
          rw [readClauses, token]
          simp only [literalToken, Numeral.piece, if_true, bind_eq_ok_iff,
            readOperationCount_eq_ok_iff, value_eq_of_text_eq literalText,
            inductionHypothesis cutLater, Clause.inRange_operation,
            Clause.amend_operation, and_assoc, exists_and_left,
            exists_eq_left']
      | modifier sign magnitude =>
          obtain ⟨lexeme, following, rfl, token, text, cutFollowing⟩ :=
            exists_of_map_piece_eq_cons cut
          obtain ⟨literal, behind, rfl, literalToken, literalText, cutLater⟩ :=
            exists_of_map_piece_eq_cons cutFollowing
          rw [readClauses, token]
          simp only [literalToken, Numeral.piece, if_true, bind_eq_ok_iff,
            readModifier_eq_ok_iff, value_eq_of_text_eq literalText,
            inductionHypothesis cutLater, Clause.inRange_modifier,
            Clause.amend_modifier, and_assoc, exists_and_left,
            exists_eq_left']

theorem readSidesAndClauses_eq_ok_iff {sides : Numeral}
    {clauses : List Clause} {rest : List Lexeme}
    (cut : rest.map Lexeme.piece =
      sides.piece :: clauses.flatMap Clause.pieces)
    {finish : Nat} {count : UInt32} {result : Expression} :
    readSidesAndClauses finish count rest = .ok result ↔
      (2 ≤ sides.value ∧ sides.value ≤ 2 ^ 32 - 1) ∧
        (∀ clause ∈ clauses, clause.InRange) ∧
          clauses.foldl Clause.amend
            (.plain count (UInt32.ofNat sides.value)) = result := by
  obtain ⟨literal, later, rfl, token, text, cutLater⟩ :=
    exists_of_map_piece_eq_cons cut
  simp only [readSidesAndClauses, token, Numeral.piece, if_true,
    bind_eq_ok_iff, readSides_eq_ok_iff, value_eq_of_text_eq text,
    readClauses_eq_ok_iff cutLater, and_assoc, exists_and_left,
    exists_eq_left']

theorem readFromSeparator_eq_ok_iff {separator : Char} {sides : Numeral}
    {clauses : List Clause} {rest : List Lexeme}
    (cut : rest.map Lexeme.piece =
      ⟨.die, [separator]⟩ :: sides.piece :: clauses.flatMap Clause.pieces)
    {finish : Nat} {count : UInt32} {result : Expression} :
    readFromSeparator finish count rest = .ok result ↔
      (2 ≤ sides.value ∧ sides.value ≤ 2 ^ 32 - 1) ∧
        (∀ clause ∈ clauses, clause.InRange) ∧
          clauses.foldl Clause.amend
            (.plain count (UInt32.ofNat sides.value)) = result := by
  obtain ⟨lexeme, later, rfl, token, text, cutLater⟩ :=
    exists_of_map_piece_eq_cons cut
  rw [readFromSeparator, token]
  exact readSidesAndClauses_eq_ok_iff cutLater

/-- On lexemes cut as a tree is, reading succeeds exactly if the tree is in
range, and gives the expression that the tree names. -/
theorem readLexemes_eq_ok_iff {tree : NotationTree} {all : List Lexeme}
    (cut : all.map Lexeme.piece = tree.pieces)
    {finish : Nat} {result : Expression} :
    readLexemes finish all = .ok result ↔
      tree.InRange ∧ tree.expression = result := by
  rw [NotationTree.expression_eq_foldl, NotationTree.InRange, and_assoc,
    and_assoc]
  cases given : tree.count with
  | none =>
      have cutFromSeparator := cut
      rw [NotationTree.pieces, given] at cutFromSeparator
      obtain ⟨lexeme, later, rfl, token, text, cutLater⟩ :=
        exists_of_map_piece_eq_cons cutFromSeparator
      have notNumber : lexeme.token ≠ .number := by
        rw [token]
        simp
      rw [readLexemes, if_neg notNumber,
        readFromSeparator_eq_ok_iff cutFromSeparator]
      simp
  | some count =>
      rw [NotationTree.pieces, given] at cut
      obtain ⟨literal, later, rfl, token, text, cutLater⟩ :=
        exists_of_map_piece_eq_cons cut
      simp only [readLexemes, token, Numeral.piece, if_true, bind_eq_ok_iff,
        readCount_eq_ok_iff, value_eq_of_text_eq text,
        readFromSeparator_eq_ok_iff cutLater, and_assoc, exists_and_left,
        exists_eq_left', Option.mem_some_iff, forall_eq', Option.map_some,
        Option.getD_some]

theorem exists_clauses_of_readClauses {rest : List Lexeme}
    (spelled : ∀ lexeme ∈ rest, Spells lexeme.token lexeme.text)
    {expression result : Expression}
    (read : readClauses expression rest = .ok result) :
    ∃ clauses : List Clause,
      rest.map Lexeme.piece = clauses.flatMap Clause.pieces := by
  fun_induction readClauses expression rest with
  | case1 expression =>
      exact ⟨[], rfl⟩
  | case2 expression lexeme later token inductionHypothesis =>
      rw [List.forall_mem_cons, token] at spelled
      obtain ⟨clauses, cutLater⟩ := inductionHypothesis spelled.2 read
      refine ⟨.advantage :: clauses, ?_⟩
      rw [List.map_cons, cutLater, Lexeme.piece, token,
        spelled.1.text_of_advantage]
      rfl
  | case3 expression lexeme cut token literal later number
      inductionHypothesis =>
      rw [List.forall_mem_cons, List.forall_mem_cons, token, number] at spelled
      obtain ⟨spelledCut, spelledNumber, spelledLater⟩ := spelled
      obtain ⟨count, readLiteral, readLater⟩ := bind_eq_ok_iff.mp read
      obtain ⟨clauses, cutLater⟩ :=
        inductionHypothesis count spelledLater readLater
      obtain ⟨keyword, rfl, letters⟩ := spelledCut.exists_keyword
      obtain ⟨numeral, digits⟩ := spelledNumber.exists_numeral
      refine ⟨.operation keyword numeral :: clauses, ?_⟩
      rw [List.map_cons, List.map_cons, cutLater, Lexeme.piece, Lexeme.piece,
        token, number, letters, digits]
      rfl
  | case6 expression lexeme sign token literal later number
      inductionHypothesis =>
      rw [List.forall_mem_cons, List.forall_mem_cons, token, number] at spelled
      obtain ⟨spelledSign, spelledNumber, spelledLater⟩ := spelled
      obtain ⟨modifier, readLiteral, readLater⟩ := bind_eq_ok_iff.mp read
      obtain ⟨clauses, cutLater⟩ :=
        inductionHypothesis modifier spelledLater readLater
      obtain ⟨numeral, digits⟩ := spelledNumber.exists_numeral
      refine ⟨.modifier sign numeral :: clauses, ?_⟩
      rw [List.map_cons, List.map_cons, cutLater, Lexeme.piece, Lexeme.piece,
        token, number, spelledSign.text_of_sign, digits]
      rfl
  -- every other shape of the rest is refused
  | _ => cases read

theorem exists_tree_of_readFromSeparator {rest : List Lexeme}
    (spelled : ∀ lexeme ∈ rest, Spells lexeme.token lexeme.text)
    {finish : Nat} {count : UInt32} {result : Expression}
    (read : readFromSeparator finish count rest = .ok result)
    (written : Option Numeral) :
    ∃ tree : NotationTree,
      tree.pieces =
        written.toList.map Numeral.piece ++ rest.map Lexeme.piece := by
  unfold readFromSeparator at read
  split at read
  · rename_i lexeme later
    split at read
    · rename_i die
      unfold readSidesAndClauses at read
      split at read
      · rename_i literal later
        split at read
        · rename_i number
          rw [List.forall_mem_cons, List.forall_mem_cons, die, number]
            at spelled
          obtain ⟨spelledDie, spelledNumber, spelledLater⟩ := spelled
          obtain ⟨sides, readLiteral, readLater⟩ := bind_eq_ok_iff.mp read
          obtain ⟨separator, member, letter⟩ := spelledDie.exists_separator
          obtain ⟨numeral, digits⟩ := spelledNumber.exists_numeral
          obtain ⟨clauses, cutLater⟩ :=
            exists_clauses_of_readClauses spelledLater readLater
          refine ⟨⟨written, separator, member, numeral, clauses⟩, ?_⟩
          rw [List.map_cons, List.map_cons, cutLater, Lexeme.piece,
            Lexeme.piece, die, number, letter, digits]
          rfl
        · cases read
      · cases read
    all_goals cases read
  · cases read

theorem exists_tree_of_readLexemes {all : List Lexeme}
    (spelled : ∀ lexeme ∈ all, Spells lexeme.token lexeme.text)
    {finish : Nat} {result : Expression}
    (read : readLexemes finish all = .ok result) :
    ∃ tree : NotationTree, tree.pieces = all.map Lexeme.piece := by
  unfold readLexemes at read
  split at read
  · cases read
  · rename_i first rest
    split at read
    · rename_i number
      rw [List.forall_mem_cons, number] at spelled
      obtain ⟨count, readFirst, readRest⟩ := bind_eq_ok_iff.mp read
      obtain ⟨numeral, digits⟩ := spelled.1.exists_numeral
      obtain ⟨tree, cut⟩ :=
        exists_tree_of_readFromSeparator spelled.2 readRest (some numeral)
      refine ⟨tree, ?_⟩
      rw [cut, List.map_cons, Lexeme.piece, number, digits]
      rfl
    · exact exists_tree_of_readFromSeparator spelled read none

theorem readChars_eq_ok_iff_of_tree {tree : NotationTree} {text : List Char}
    (written : tree.chars = squeeze text) {result : Expression} :
    readChars text = .ok result ↔
      tree.InRange ∧ tree.expression = result := by
  have cut : (lexemes text).map Lexeme.piece = tree.pieces := by
    rw [lexemes_map_piece, ← written, pieces_chars]
  exact readLexemes_eq_ok_iff cut

theorem spells_of_mem_lexemes {text : List Char} {lexeme : Lexeme}
    (member : lexeme ∈ lexemes text) :
    Spells lexeme.token lexeme.text := by
  have piece : lexeme.piece ∈ pieces (squeeze text) := by
    rw [← lexemes_map_piece]
    exact List.mem_map_of_mem member
  exact spells_of_mem_pieces piece

theorem exists_tree_of_readChars {text : List Char} {result : Expression}
    (read : readChars text = .ok result) :
    ∃ tree : NotationTree, tree.chars = squeeze text := by
  have spelled :
      ∀ lexeme ∈ lexemes text, Spells lexeme.token lexeme.text :=
    fun _ member => spells_of_mem_lexemes member
  obtain ⟨tree, cut⟩ := exists_tree_of_readLexemes spelled read
  rw [lexemes_map_piece] at cut
  have known : ∀ piece ∈ pieces (squeeze text), piece.token ≠ .unknown := by
    rw [← cut]
    exact fun piece member => known_of_mem_tree member
  refine ⟨tree, ?_⟩
  rw [← flatMap_text_tree, cut, flatMap_text_pieces known]

/-- A text is read exactly when it is, but for its blanks, the text of a tree
whose literals are all in range; what is read is what the tree names. -/
theorem read_eq_ok_iff_exists_tree (text : String) (expression : Expression) :
    Expression.read text = .ok expression ↔
      ∃ tree : NotationTree,
        tree.chars = squeeze text.toList ∧ tree.InRange ∧
          tree.expression = expression := by
  constructor
  · intro read
    obtain ⟨tree, written⟩ := exists_tree_of_readChars read
    exact ⟨tree, written, (readChars_eq_ok_iff_of_tree written).mp read⟩
  · rintro ⟨tree, written, named⟩
    exact (readChars_eq_ok_iff_of_tree written).mpr named

end Tabletop.Dice
