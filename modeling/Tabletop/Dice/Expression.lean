import Tabletop.Text.Numeral

/-!
# Dice expressions

What a roll asks for: how many dice of how many sides, which of them to keep,
what to add, and whether to roll with advantage. This module holds the type,
the bounds an expression has to meet before it is rolled, and its canonical
text.
-/

namespace Tabletop.Dice

open Tabletop.Text

/-- Which end of the sorted dice an operation keeps or drops. -/
inductive Cut where
  | keepHighest
  | keepLowest
  | dropHighest
  | dropLowest
deriving DecidableEq, Repr

namespace Cut

def letters : Cut → String
  | keepHighest => "kh"
  | keepLowest => "kl"
  | dropHighest => "dh"
  | dropLowest => "dl"

/-- What a cut did to the dice, in words. -/
def phrase : Cut → String
  | keepHighest => "kept highest "
  | keepLowest => "kept lowest "
  | dropHighest => "dropped highest "
  | dropLowest => "dropped lowest "

end Cut

structure Operation where
  cut : Cut
  count : UInt32
deriving DecidableEq, Repr

namespace Operation

def text (operation : Operation) : String :=
  operation.cut.letters ++ toString operation.count.toNat

def describe (operation : Operation) : String :=
  operation.cut.phrase ++ toString operation.count.toNat

end Operation

/-- `count` dice of `sides` sides each, every one rolled twice under
`advantage`, cut by `operation`, and `modifier` added to the sum. -/
structure Expression where
  count : UInt32
  sides : UInt32
  modifier : Int32
  operation : Option Operation
  advantage : Bool
deriving DecidableEq, Repr

namespace Expression

def plain (count sides : UInt32) : Expression where
  count := count
  sides := sides
  modifier := 0
  operation := none
  advantage := false

def maxCount : Nat := 1000

/-- The number of dice that are thrown: two for each one under advantage. -/
def physicalDice (expression : Expression) : Nat :=
  if expression.advantage then expression.count.toNat * 2 else expression.count.toNat

end Expression

inductive BoundsFault where
  | countOutside (count : UInt32)
  | tooFewSides (sides : UInt32)
  | zeroOperationCount
deriving DecidableEq, Repr

namespace BoundsFault

def message : BoundsFault → String
  | countOutside count =>
      "die count " ++ toString count.toNat ++ " outside 1..=" ++ toString Expression.maxCount
  | tooFewSides sides => "die must have at least 2 sides, got " ++ toString sides.toNat
  | zeroOperationCount => "operation count must be at least 1"

end BoundsFault

namespace Expression

def CountInBounds (expression : Expression) : Prop :=
  1 ≤ expression.count.toNat ∧ expression.count.toNat ≤ maxCount

/-- An operation, where there is one, keeps or drops at least one die. -/
def OperationInBounds (expression : Expression) : Prop :=
  ∀ operation ∈ expression.operation, operation.count ≠ 0

instance (expression : Expression) : Decidable expression.CountInBounds :=
  inferInstanceAs (Decidable (_ ∧ _))

instance (expression : Expression) : Decidable expression.OperationInBounds :=
  inferInstanceAs (Decidable (∀ operation ∈ expression.operation, operation.count ≠ 0))

/-- The first bound that an expression breaks, looking at the number of dice,
then at the sides, then at the operation. -/
def fault? (expression : Expression) : Option BoundsFault :=
  if ¬ expression.CountInBounds then
    some (.countOutside expression.count)
  else if expression.sides < 2 then
    some (.tooFewSides expression.sides)
  else if ¬ expression.OperationInBounds then
    some .zeroOperationCount
  else
    none

def Valid (expression : Expression) : Prop :=
  expression.fault? = none

instance (expression : Expression) : Decidable expression.Valid :=
  inferInstanceAs (Decidable (_ = _))

/-- An expression is within bounds when its count, its sides and its operation
are, each on its own. -/
theorem valid_iff (expression : Expression) :
    expression.Valid ↔
      expression.CountInBounds ∧ 2 ≤ expression.sides ∧ expression.OperationInBounds := by
  unfold Valid fault?
  split
  · simp_all
  · split
    · rename_i fewSides
      simp [UInt32.not_le.2 fewSides]
    · rename_i enoughSides
      split <;> simp_all [UInt32.not_lt.1 enoughSides]

/-- The modifier as it is written: signed, and left out when it is zero. -/
def modifierText (modifier : Int32) : String :=
  if modifier = 0 then "" else withSign modifier.toInt

/-- The canonical notation of an expression. -/
def text (expression : Expression) : String :=
  toString expression.count.toNat ++ "d" ++ toString expression.sides.toNat ++
    (if expression.advantage then "!" else "") ++
    (expression.operation.map Operation.text).getD "" ++
    modifierText expression.modifier

end Expression

end Tabletop.Dice
