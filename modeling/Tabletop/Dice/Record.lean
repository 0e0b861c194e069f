import Tabletop.Dice.Roll
import Tabletop.Json.Read

/-!
# Rolls as JSON

The JSON form of expressions and rolls. An expression out of bounds is refused
as soon as it has been read. Reading recomputes nothing: dice and totals are
taken as they stand.
-/

namespace Tabletop.Dice

open Tabletop.Json

/-- Reads what can be refused for breaking the bounds of an expression. -/
abbrev DiceReader (α : Type) : Type :=
  Reader BoundsFault α

namespace Cut

def name : Cut → String
  | keepHighest => "KeepHighest"
  | keepLowest => "KeepLowest"
  | dropHighest => "DropHighest"
  | dropLowest => "DropLowest"

def all : List Cut :=
  [keepHighest, keepLowest, dropHighest, dropLowest]

def ofName? (name : List Char) : Option Cut :=
  all.find? fun cut => cut.name.toList == name

end Cut

/-- Reads an operation: its name and its count, or nothing at all. -/
def readOperation : DiceReader (Option Operation)
  | .null :: rest => .ok (none, rest)
  | .openBrace :: .string (some name) :: .colon :: tokens =>
      match Cut.ofName? name with
      | none => .error .malformed
      | some cut => do
          let (count, rest) ← readUnsigned32 tokens
          match rest with
          | .closeBrace :: later => return (some ⟨cut, count⟩, later)
          | _ => throw .malformed
  | _ => .error .malformed

def operationTokens : Option Operation → List JsonToken
  | none => [.null]
  | some operation =>
      objectTokens [(operation.cut.name, [.integer operation.count.toNat])]

/-- The fields of an expression that have been read so far. -/
structure ExpressionFields where
  count : Option UInt32
  sides : Option UInt32
  modifier : Option Int32
  operation : Option (Option Operation)
  advantage : Option Bool
deriving DecidableEq, Repr

namespace ExpressionFields

def none : ExpressionFields where
  count := .none
  sides := .none
  modifier := .none
  operation := .none
  advantage := .none

/-- The expression made of the fields, if it is within bounds. Only the count
and the sides have to be given. -/
def finish (fields : ExpressionFields) : Except (ReadError BoundsFault) Expression := do
  let count ← required fields.count
  let sides ← required fields.sides
  let expression : Expression :=
    { count := count
      sides := sides
      modifier := fields.modifier.getD 0
      operation := fields.operation.getD .none
      advantage := fields.advantage.getD false }
  match expression.fault? with
  | some fault => throw (.refused fault)
  | .none => return expression

def readField (fields : ExpressionFields) (name : List Char) : DiceReader ExpressionFields :=
  if name = "count".toList then
    readOnce fields.count readUnsigned32 fun value => { fields with count := value }
  else if name = "sides".toList then
    readOnce fields.sides readUnsigned32 fun value => { fields with sides := value }
  else if name = "modifier".toList then
    readOnce fields.modifier readSigned32 fun value => { fields with modifier := value }
  else if name = "operation".toList then
    readOnce fields.operation readOperation fun value => { fields with operation := value }
  else if name = "advantage".toList then
    readOnce fields.advantage readBool fun value => { fields with advantage := value }
  else fun tokens => do
    return (fields, ← skipValue tokens)

/-- Reads the fields from an array in their order; it may end behind the
sides. -/
def readItems : DiceReader ExpressionFields := fun tokens => do
  let (count, tokens) ← readItem true readUnsigned32 tokens
  let (sides, tokens) ← readItem false readUnsigned32 tokens
  let (modifier, tokens) ← readItem? false readSigned32 tokens
  let (operation, tokens) ← readItem? false readOperation tokens
  let (advantage, tokens) ← readItem? false readBool tokens
  return (⟨some count, some sides, modifier, operation, advantage⟩, ← readClose tokens)

end ExpressionFields

def readExpression : DiceReader Expression
  | .openBrace :: tokens => do
      let (fields, rest) ← readFields ExpressionFields.readField .none tokens
      return (← fields.finish, rest)
  | .openBracket :: tokens => do
      let (fields, rest) ← ExpressionFields.readItems tokens
      return (← fields.finish, rest)
  | _ => .error .malformed

def expressionTokens (expression : Expression) : List JsonToken :=
  objectTokens [
    ("count", [.integer expression.count.toNat]),
    ("sides", [.integer expression.sides.toNat]),
    ("modifier", [.integer expression.modifier.toInt]),
    ("operation", operationTokens expression.operation),
    ("advantage", [.bool expression.advantage])]

structure DieFields where
  value : Option UInt32
  sides : Option UInt32
  kept : Option Bool
deriving DecidableEq, Repr

namespace DieFields

def none : DieFields where
  value := .none
  sides := .none
  kept := .none

def finish (fields : DieFields) : Except (ReadError BoundsFault) Die := do
  let value ← required fields.value
  let sides ← required fields.sides
  let kept ← required fields.kept
  return ⟨value, sides, kept⟩

def readField (fields : DieFields) (name : List Char) : DiceReader DieFields :=
  if name = "value".toList then
    readOnce fields.value readUnsigned32 fun value => { fields with value := value }
  else if name = "sides".toList then
    readOnce fields.sides readUnsigned32 fun value => { fields with sides := value }
  else if name = "kept".toList then
    readOnce fields.kept readBool fun value => { fields with kept := value }
  else fun tokens => do
    return (fields, ← skipValue tokens)

end DieFields

def readDie : DiceReader Die
  | .openBrace :: tokens => do
      let (fields, rest) ← readFields DieFields.readField .none tokens
      return (← fields.finish, rest)
  | .openBracket :: tokens => do
      let (value, tokens) ← readItem true readUnsigned32 tokens
      let (sides, tokens) ← readItem false readUnsigned32 tokens
      let (kept, tokens) ← readItem false readBool tokens
      return (⟨value, sides, kept⟩, ← readClose tokens)
  | _ => .error .malformed

def dieTokens (die : Die) : List JsonToken :=
  objectTokens [
    ("value", [.integer die.value.toNat]),
    ("sides", [.integer die.sides.toNat]),
    ("kept", [.bool die.kept])]

structure RollFields where
  expression : Option Expression
  dice : Option (List Die)
  keptTotal : Option Int
  total : Option Int
deriving DecidableEq, Repr

namespace RollFields

def none : RollFields where
  expression := .none
  dice := .none
  keptTotal := .none
  total := .none

def finish (fields : RollFields) : Except (ReadError BoundsFault) Roll := do
  let expression ← required fields.expression
  let dice ← required fields.dice
  let keptTotal ← required fields.keptTotal
  let total ← required fields.total
  return ⟨expression, dice, keptTotal, total⟩

def readField (fields : RollFields) (name : List Char) : DiceReader RollFields :=
  if name = "expression".toList then
    readOnce fields.expression readExpression fun value => { fields with expression := value }
  else if name = "dice".toList then
    readOnce fields.dice (readArray readDie) fun value => { fields with dice := value }
  else if name = "kept_total".toList then
    readOnce fields.keptTotal readSigned64 fun value => { fields with keptTotal := value }
  else if name = "total".toList then
    readOnce fields.total readSigned64 fun value => { fields with total := value }
  else fun tokens => do
    return (fields, ← skipValue tokens)

end RollFields

def readRoll : DiceReader Roll
  | .openBrace :: tokens => do
      let (fields, rest) ← readFields RollFields.readField .none tokens
      return (← fields.finish, rest)
  | .openBracket :: tokens => do
      let (expression, tokens) ← readItem true readExpression tokens
      let (dice, tokens) ← readItem false (readArray readDie) tokens
      let (keptTotal, tokens) ← readItem false readSigned64 tokens
      let (total, tokens) ← readItem false readSigned64 tokens
      return (⟨expression, dice, keptTotal, total⟩, ← readClose tokens)
  | _ => .error .malformed

def rollTokens (roll : Roll) : List JsonToken :=
  objectTokens [
    ("expression", expressionTokens roll.expression),
    ("dice", arrayTokens (roll.dice.map dieTokens)),
    ("kept_total", [.integer roll.keptTotal]),
    ("total", [.integer roll.total])]

def Expression.ofJson (text : String) : Except (ReadError BoundsFault) Expression :=
  readText readExpression text

def Roll.ofJson (text : String) : Except (ReadError BoundsFault) Roll :=
  readText readRoll text

def Expression.compactJson (expression : Expression) : String :=
  compact (expressionTokens expression)

def Roll.compactJson (roll : Roll) : String :=
  compact (rollTokens roll)

/-- The JSON text of a roll, with each item on a line of its own. -/
def Roll.prettyJson (roll : Roll) : String :=
  pretty (rollTokens roll)

end Tabletop.Dice
