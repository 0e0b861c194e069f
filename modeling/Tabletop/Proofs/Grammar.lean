import Mathlib
import Tabletop.Dice.Notation

/-!
# The grammar of a dice notation

A notation without its blanks has the form

  `count? [dD] sides clause*`

where a clause is `!`, `[kKdD][hHlL] digits` or `[+-] digits`. This module
holds the trees of that grammar, the characters that a tree stands for, the
ranges that its numerals have to keep, and the expression that it names. No
reader is involved here.
-/

namespace Tabletop.Dice

open Tabletop.Text

/-- One or more decimal digits; leading zeros are allowed. -/
structure Numeral where
  digits : List Char
  isNumeral_digits : isNumeral digits = true

namespace Numeral

/-- The number that a numeral denotes. -/
def value (numeral : Numeral) : Nat :=
  numeralValue numeral.digits

theorem digits_ne_nil (numeral : Numeral) : numeral.digits ≠ [] := by
  have given := numeral.isNumeral_digits
  simp only [isNumeral, Bool.and_eq_true, Bool.not_eq_true',
    List.isEmpty_eq_false_iff] at given
  exact given.1

theorem isDigit_of_mem (numeral : Numeral) {letter : Char}
    (member : letter ∈ numeral.digits) :
    letter.isDigit = true := by
  have given := numeral.isNumeral_digits
  simp only [isNumeral, Bool.and_eq_true, List.all_eq_true] at given
  exact given.2 letter member

theorem exists_digits_eq_cons (numeral : Numeral) :
    ∃ first rest,
      numeral.digits = first :: rest ∧ first.isDigit = true := by
  cases shape : numeral.digits with
  | nil =>
      exact absurd shape numeral.digits_ne_nil
  | cons first rest =>
      refine ⟨first, rest, rfl, numeral.isDigit_of_mem ?_⟩
      rw [shape]
      exact List.mem_cons_self

theorem signedValue?_digits (numeral : Numeral) :
    signedValue? numeral.digits = some (numeral.value : Int) := by
  obtain ⟨first, rest, shape, digit⟩ := numeral.exists_digits_eq_cons
  have whole := numeral.isNumeral_digits
  rw [value]
  unfold signedValue?
  split
  · rename_i signed
    rw [shape] at signed
    obtain ⟨rfl, _⟩ := List.cons.inj signed
    exact absurd digit (by decide)
  · rename_i signed
    rw [shape] at signed
    obtain ⟨rfl, _⟩ := List.cons.inj signed
    exact absurd digit (by decide)
  · rw [if_pos whole]

/-- The numeral that writes a number without leading zeros. -/
def ofNat (number : Nat) : Numeral where
  digits := Nat.toDigits 10 number
  isNumeral_digits := by
    simp only [isNumeral, Bool.and_eq_true, Bool.not_eq_true',
      List.isEmpty_eq_false_iff, List.all_eq_true]
    exact ⟨Nat.toDigits_ne_nil, fun letter member =>
      Nat.isDigit_of_mem_toDigits (by decide) (by decide) member⟩

@[simp]
theorem value_ofNat (number : Nat) : (ofNat number).value = number :=
  numeralValue_toDigits number

end Numeral

/-- The two letters that name a cut, each in either case. -/
structure Keyword where
  first : Char
  second : Char
  first_mem : first ∈ ['k', 'K', 'd', 'D']
  second_mem : second ∈ ['h', 'H', 'l', 'L']

namespace Keyword

def chars (keyword : Keyword) : List Char :=
  [keyword.first, keyword.second]

/-- The first letter keeps or drops, the second says from which end. -/
def cut (keyword : Keyword) : Cut :=
  if keyword.first ∈ ['k', 'K'] then
    if keyword.second ∈ ['h', 'H'] then .keepHighest else .keepLowest
  else
    if keyword.second ∈ ['h', 'H'] then .dropHighest else .dropLowest

end Keyword

inductive Clause where
  | advantage
  | operation (keyword : Keyword) (count : Numeral)
  | modifier (sign : Sign) (magnitude : Numeral)

namespace Clause

def chars : Clause → List Char
  | advantage => ['!']
  | operation keyword count => keyword.chars ++ count.digits
  | modifier sign magnitude => sign.char :: magnitude.digits

/-- The literal of a clause is in range: an operation counts from one to
`2 ^ 32 - 1`, and a modifier is a signed 32-bit number. -/
def InRange : Clause → Prop
  | advantage => True
  | operation _ count => 1 ≤ count.value ∧ count.value ≤ 2 ^ 32 - 1
  | modifier sign magnitude =>
      -2 ^ 31 ≤ sign.apply magnitude.value ∧
        sign.apply magnitude.value ≤ 2 ^ 31 - 1

theorem inRange_advantage : advantage.InRange :=
  trivial

theorem inRange_operation {keyword : Keyword} {count : Numeral} :
    (operation keyword count).InRange ↔
      1 ≤ count.value ∧ count.value ≤ 2 ^ 32 - 1 :=
  Iff.rfl

theorem inRange_modifier {sign : Sign} {magnitude : Numeral} :
    (modifier sign magnitude).InRange ↔
      -2 ^ 31 ≤ sign.apply magnitude.value ∧
        sign.apply magnitude.value ≤ 2 ^ 31 - 1 :=
  Iff.rfl

def isAdvantage : Clause → Bool
  | advantage => true
  | operation _ _ => false
  | modifier _ _ => false

def operation? : Clause → Option Operation
  | advantage => none
  | operation keyword count => some ⟨keyword.cut, UInt32.ofNat count.value⟩
  | modifier _ _ => none

def modifier? : Clause → Option Int32
  | advantage => none
  | operation _ _ => none
  | modifier sign magnitude => some (Int32.ofInt (sign.apply magnitude.value))

end Clause

/-- A notation as it is written: the number of dice if it is given, the
separator, the sides, and the clauses in their order. -/
structure NotationTree where
  count : Option Numeral
  separator : Char
  separator_mem : separator ∈ ['d', 'D']
  sides : Numeral
  clauses : List Clause

namespace NotationTree

/-- The characters that a tree stands for. -/
def chars (tree : NotationTree) : List Char :=
  (tree.count.map Numeral.digits).getD [] ++
    tree.separator :: (tree.sides.digits ++ tree.clauses.flatMap Clause.chars)

/-- Every literal is in range, also in clauses that a later one replaces. -/
def InRange (tree : NotationTree) : Prop :=
  (∀ count ∈ tree.count, 1 ≤ count.value ∧ count.value ≤ 1000) ∧
    (2 ≤ tree.sides.value ∧ tree.sides.value ≤ 2 ^ 32 - 1) ∧
    ∀ clause ∈ tree.clauses, clause.InRange

/-- The expression that a tree names: one die if no number is given, the last
operation and the last modifier, and advantage if there is any `!`. -/
def expression (tree : NotationTree) : Expression where
  count := UInt32.ofNat ((tree.count.map Numeral.value).getD 1)
  sides := UInt32.ofNat tree.sides.value
  modifier := (tree.clauses.filterMap Clause.modifier?).getLast?.getD 0
  operation := (tree.clauses.filterMap Clause.operation?).getLast?
  advantage := tree.clauses.any Clause.isAdvantage

end NotationTree

namespace Clause

/-- An expression after one more clause. -/
def amend (expression : Expression) (clause : Clause) : Expression :=
  { expression with
    modifier := clause.modifier?.getD expression.modifier
    operation := clause.operation?.or expression.operation
    advantage := clause.isAdvantage || expression.advantage }

theorem amend_advantage (expression : Expression) :
    amend expression advantage = { expression with advantage := true } :=
  rfl

theorem amend_operation (expression : Expression) (keyword : Keyword)
    (count : Numeral) :
    amend expression (operation keyword count) =
      { expression with
        operation := some ⟨keyword.cut, UInt32.ofNat count.value⟩ } :=
  rfl

theorem amend_modifier (expression : Expression) (sign : Sign)
    (magnitude : Numeral) :
    amend expression (modifier sign magnitude) =
      { expression with
        modifier := Int32.ofInt (sign.apply magnitude.value) } :=
  rfl

theorem foldl_amend (clauses : List Clause) (expression : Expression) :
    clauses.foldl amend expression =
      { expression with
        modifier :=
          (clauses.filterMap modifier?).getLast?.getD expression.modifier
        operation :=
          (clauses.filterMap operation?).getLast?.or expression.operation
        advantage := clauses.any isAdvantage || expression.advantage } := by
  induction clauses generalizing expression with
  | nil =>
      simp
  | cons clause later inductionHypothesis =>
      rw [List.foldl_cons, inductionHypothesis]
      cases clause with
      | advantage =>
          simp [amend_advantage, modifier?, operation?, isAdvantage]
      | operation keyword count =>
          simp [amend_operation, modifier?, operation?, isAdvantage,
            List.getLast?_cons, Option.or_some]
      | modifier sign magnitude =>
          simp [amend_modifier, modifier?, operation?, isAdvantage,
            List.getLast?_cons]

end Clause

theorem NotationTree.expression_eq_foldl (tree : NotationTree) :
    tree.expression =
      tree.clauses.foldl Clause.amend
        (.plain (UInt32.ofNat ((tree.count.map Numeral.value).getD 1))
          (UInt32.ofNat tree.sides.value)) := by
  rw [Clause.foldl_amend]
  simp [NotationTree.expression, Expression.plain]

end Tabletop.Dice
