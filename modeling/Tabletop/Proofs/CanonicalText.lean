import Tabletop.Proofs.Reading
import Tabletop.Proofs.RollLaw

/-!
# Canonical texts

The canonical text of an expression is the text of a tree that names the
expression, whether it is within bounds or not, and the tree is in range
exactly when the expression is valid. So the bounds of the grammar, of
expressions and of rolling are the same.
-/

namespace Tabletop.Dice

open Tabletop.Text

def Cut.keyword : Cut → Keyword
  | keepHighest => ⟨'k', 'h', by decide, by decide⟩
  | keepLowest => ⟨'k', 'l', by decide, by decide⟩
  | dropHighest => ⟨'d', 'h', by decide, by decide⟩
  | dropLowest => ⟨'d', 'l', by decide, by decide⟩

theorem Cut.cut_keyword (cut : Cut) : cut.keyword.cut = cut := by
  cases cut <;> decide

theorem Cut.chars_keyword (cut : Cut) :
    cut.keyword.chars = cut.letters.toList := by
  cases cut <;> rfl

def Operation.clause (operation : Operation) : Clause :=
  .operation operation.cut.keyword (.ofNat operation.count.toNat)

/-- The clauses that write a modifier: none if it is zero. -/
def modifierClauses (modifier : Int32) : List Clause :=
  if modifier = 0 then
    []
  else
    match modifier.toInt with
    | .ofNat size => [.modifier .plus (.ofNat size)]
    | .negSucc size => [.modifier .minus (.ofNat (size + 1))]

/-- The tree of the canonical text. -/
def Expression.tree (expression : Expression) : NotationTree where
  count := some (.ofNat expression.count.toNat)
  separator := 'd'
  separator_mem := by decide
  sides := .ofNat expression.sides.toNat
  clauses :=
    (if expression.advantage then [.advantage] else []) ++
      (expression.operation.map Operation.clause).toList ++
      modifierClauses expression.modifier

theorem digits_ofNat (number : Nat) :
    (Numeral.ofNat number).digits = (toString number).toList := by
  rw [Nat.toString_eq_ofList_toDigits, String.toList_ofList]
  rfl

theorem chars_operation (operation : Operation) :
    operation.clause.chars = operation.text.toList := by
  rw [Operation.clause, Clause.chars, Cut.chars_keyword, digits_ofNat,
    Operation.text, String.toList_append]

theorem chars_modifierClauses (modifier : Int32) :
    (modifierClauses modifier).flatMap Clause.chars =
      (Expression.modifierText modifier).toList := by
  unfold modifierClauses Expression.modifierText withSign
  by_cases zero : modifier = 0
  · simp [zero]
  · rw [if_neg zero, if_neg zero]
    cases modifier.toInt with
    | ofNat size =>
        simp [Clause.chars, digits_ofNat, Sign.char]
    | negSucc size =>
        simp [Clause.chars, digits_ofNat, Sign.char]

theorem chars_tree (expression : Expression) :
    expression.tree.chars = expression.text.toList := by
  have advantage :
      (if expression.advantage then [Clause.advantage] else []).flatMap
          Clause.chars =
        (if expression.advantage then "!" else "").toList := by
    cases expression.advantage <;> rfl
  have operation :
      (expression.operation.map Operation.clause).toList.flatMap Clause.chars =
        ((expression.operation.map Operation.text).getD "").toList := by
    cases expression.operation with
    | none => rfl
    | some given => simp [chars_operation]
  simp only [NotationTree.chars, Expression.tree, Expression.text,
    List.flatMap_append, advantage, operation, chars_modifierClauses,
    Option.map_some, Option.getD_some, digits_ofNat, String.toList_append]
  simp

theorem isInk_of_isDigit {letter : Char} (digit : letter.isDigit = true) :
    isInk letter = true := by
  simp only [Char.isDigit, Bool.and_eq_true, decide_eq_true_eq] at digit
  have lowest : 48 ≤ letter.toNat := digit.1
  have highest : letter.toNat ≤ 57 := digit.2
  exact isInk_of_visible (by omega) (by omega)

theorem isInk_of_mem_numeral {numeral : Numeral} {letter : Char}
    (member : letter ∈ numeral.digits) :
    isInk letter = true :=
  isInk_of_isDigit (numeral.isDigit_of_mem member)

theorem isInk_of_mem_clause {clause : Clause} {letter : Char}
    (member : letter ∈ clause.chars) :
    isInk letter = true := by
  cases clause with
  | advantage =>
      rw [Clause.chars, List.mem_singleton] at member
      subst member
      decide
  | operation keyword count =>
      rw [Clause.chars, List.mem_append] at member
      rcases member with letters | digits
      · have firstInk : ∀ first ∈ ['k', 'K', 'd', 'D'], isInk first = true := by
          simp [isInk, isBlank]
        have secondInk :
            ∀ second ∈ ['h', 'H', 'l', 'L'], isInk second = true := by
          simp [isInk, isBlank]
        simp only [Keyword.chars, List.mem_cons, List.not_mem_nil, or_false]
          at letters
        rcases letters with rfl | rfl
        · exact firstInk keyword.first keyword.first_mem
        · exact secondInk keyword.second keyword.second_mem
      · exact isInk_of_mem_numeral digits
  | modifier sign magnitude =>
      rw [Clause.chars, List.mem_cons] at member
      rcases member with rfl | digits
      · cases sign <;> decide
      · exact isInk_of_mem_numeral digits

theorem squeeze_tree_chars (tree : NotationTree) :
    squeeze tree.chars = tree.chars := by
  rw [squeeze, List.filter_eq_self]
  intro letter member
  rw [NotationTree.chars, List.mem_append, List.mem_cons, List.mem_append,
    List.mem_flatMap] at member
  rcases member with count | rfl | sides | ⟨clause, _, letters⟩
  · cases given : tree.count with
    | none =>
        simp [given] at count
    | some numeral =>
        rw [given] at count
        exact isInk_of_mem_numeral count
  · have separatorInk : ∀ separator ∈ ['d', 'D'], isInk separator = true := by
      simp [isInk, isBlank]
    exact separatorInk tree.separator tree.separator_mem
  · exact isInk_of_mem_numeral sides
  · exact isInk_of_mem_clause letters

theorem foldl_modifierClauses (modifier : Int32) {expression : Expression}
    (unmodified : expression.modifier = 0) :
    (modifierClauses modifier).foldl Clause.amend expression =
      { expression with modifier := modifier } := by
  unfold modifierClauses
  by_cases zero : modifier = 0
  · rw [if_pos zero, zero, ← unmodified]
    rfl
  · rw [if_neg zero]
    have word : Int32.ofInt modifier.toInt = modifier :=
      Int32.ofInt_toInt modifier
    cases shape : modifier.toInt with
    | ofNat size =>
        rw [shape] at word
        rw [List.foldl_cons, List.foldl_nil, Clause.amend_modifier,
          Numeral.value_ofNat, ← word]
        rfl
    | negSucc size =>
        rw [shape, Int.negSucc_eq] at word
        rw [List.foldl_cons, List.foldl_nil, Clause.amend_modifier,
          Numeral.value_ofNat, ← word]
        rfl

theorem amend_clause (expression : Expression) (operation : Operation) :
    Clause.amend expression operation.clause =
      { expression with operation := some operation } := by
  rw [Operation.clause, Clause.amend_operation, Cut.cut_keyword,
    Numeral.value_ofNat, UInt32.ofNat_toNat]

theorem expression_tree (expression : Expression) :
    expression.tree.expression = expression := by
  obtain ⟨count, sides, modifier, operation, advantage⟩ := expression
  rw [NotationTree.expression_eq_foldl]
  simp only [Expression.tree, List.foldl_append]
  rw [foldl_modifierClauses]
  · cases advantage <;> cases operation <;>
      simp [amend_clause, Clause.amend_advantage, Expression.plain]
  · cases advantage <;> cases operation <;> rfl

theorem inRange_modifierClauses {modifier : Int32} {clause : Clause}
    (member : clause ∈ modifierClauses modifier) :
    clause.InRange := by
  have lowest := Int32.le_toInt modifier
  have highest := Int32.toInt_lt modifier
  unfold modifierClauses at member
  split at member
  · cases member
  · split at member
    · rename_i size shape
      rw [List.mem_singleton] at member
      rw [member, Clause.inRange_modifier, Numeral.value_ofNat, Sign.apply]
      rw [shape, Int.ofNat_eq_natCast] at lowest highest
      omega
    · rename_i size shape
      rw [List.mem_singleton] at member
      rw [member, Clause.inRange_modifier, Numeral.value_ofNat, Sign.apply]
      rw [shape, Int.negSucc_eq] at lowest highest
      omega

theorem inRange_clause_iff (operation : Operation) :
    operation.clause.InRange ↔ operation.count ≠ 0 := by
  rw [Operation.clause, Clause.inRange_operation, Numeral.value_ofNat]
  have bound := operation.count.toNat_lt
  rw [Ne, ← UInt32.toNat_inj]
  show _ ↔ ¬ operation.count.toNat = 0
  omega

theorem inRange_operationClause_iff (expression : Expression) :
    (∀ clause ∈ (expression.operation.map Operation.clause).toList,
        clause.InRange) ↔
      expression.OperationInBounds := by
  unfold Expression.OperationInBounds
  cases expression.operation with
  | none =>
      simp
  | some operation =>
      simp [inRange_clause_iff]

theorem inRange_advantageClause {advantage : Bool} {clause : Clause}
    (member : clause ∈ if advantage then [Clause.advantage] else []) :
    clause.InRange := by
  cases advantage with
  | false =>
      cases member
  | true =>
      rw [List.mem_singleton.mp member]
      exact Clause.inRange_advantage

theorem inRange_clauses_iff (expression : Expression) :
    (∀ clause ∈ expression.tree.clauses, clause.InRange) ↔
      expression.OperationInBounds := by
  simp only [Expression.tree, List.forall_mem_append]
  rw [inRange_operationClause_iff]
  constructor
  · rintro ⟨⟨_, operation⟩, _⟩
    exact operation
  · intro operation
    exact ⟨⟨fun _ member => inRange_advantageClause member, operation⟩,
      fun _ member => inRange_modifierClauses member⟩

/-- The canonical tree is in range exactly when the expression is within
bounds. -/
theorem inRange_tree_iff (expression : Expression) :
    expression.tree.InRange ↔ expression.Valid := by
  have countBound :
      (∀ count ∈ expression.tree.count,
          1 ≤ count.value ∧ count.value ≤ 1000) ↔
        expression.CountInBounds := by
    simp [Expression.tree, Expression.CountInBounds, Expression.maxCount]
  have sidesBound :
      (2 ≤ expression.tree.sides.value ∧
          expression.tree.sides.value ≤ 2 ^ 32 - 1) ↔
        2 ≤ expression.sides := by
    have highest := expression.sides.toNat_lt
    rw [Expression.tree, Numeral.value_ofNat, UInt32.le_iff_toNat_le]
    show _ ↔ 2 ≤ expression.sides.toNat
    omega
  rw [Expression.valid_iff, NotationTree.InRange, countBound, sidesBound,
    inRange_clauses_iff]

theorem read_text_eq_ok_iff {expression result : Expression} :
    Expression.read expression.text = .ok result ↔
      expression.Valid ∧ expression = result := by
  have written : expression.tree.chars = squeeze expression.text.toList := by
    rw [← chars_tree, squeeze_tree_chars]
  rw [Expression.read, readChars_eq_ok_iff_of_tree written, inRange_tree_iff,
    expression_tree]

/-- The bounds on expressions, on notations and on rolling are one: a valid
expression is read back from its canonical text and rolled, and any other one
is neither read nor rolled, and takes no draw. -/
theorem valid_iff_read_text_iff_roll (expression : Expression) :
    (expression.Valid ↔
        Expression.read expression.text = .ok expression) ∧
      (expression.Valid ↔
        ∀ draws fault,
          (expression.roll draws).1 ≠ .error (.invalidExpression fault)) ∧
      (¬ expression.Valid →
        (∃ error, Expression.read expression.text = .error error) ∧
          ∃ fault, ∀ draws,
            expression.roll draws =
              (.error (.invalidExpression fault), draws)) := by
  refine ⟨?_, ?_, ?_⟩
  · rw [read_text_eq_ok_iff]
    exact ⟨fun valid => ⟨valid, rfl⟩, fun read => read.1⟩
  · constructor
    · intro valid draws fault
      rw [roll_of_valid valid]
      split <;> simp
    · intro rolls
      by_cases valid : expression.Valid
      · exact valid
      · obtain ⟨fault, refused⟩ := roll_of_not_valid valid
        exact absurd (by rw [refused]) (rolls [] fault)
  · intro invalid
    constructor
    · cases outcome : Expression.read expression.text with
      | error error =>
          exact ⟨error, rfl⟩
      | ok result =>
          exact absurd (read_text_eq_ok_iff.mp outcome).1 invalid
    · exact roll_of_not_valid invalid

end Tabletop.Dice
