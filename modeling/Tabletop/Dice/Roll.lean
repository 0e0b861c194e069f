import Tabletop.Dice.Notation
import Tabletop.Dice.Selection

/-!
# Rolling

A roll consumes numbers from a list of draws, one for each die that is thrown,
decides which dice count, and adds them up. A roll can also be written out on
one line.
-/

namespace Tabletop.Dice

/-- A thrown die: the face it shows, its number of sides, and whether it
counts. -/
structure Die where
  value : UInt32
  sides : UInt32
  kept : Bool
deriving DecidableEq, Repr

/-- The outcome of rolling an expression, the dice in the order of the throw.
The total is the sum of the kept dice and the modifier. -/
structure Roll where
  expression : Expression
  dice : List Die
  keptTotal : Int
  total : Int
deriving DecidableEq, Repr

/-- The ways in which an expression cannot be rolled: it is out of bounds, or
the draws do not suffice. -/
inductive RollError where
  | drawsExhausted
  | invalidExpression (fault : BoundsFault)
deriving DecidableEq, Repr

namespace RollError

def message : RollError → String
  | drawsExhausted => "random source failed: script exhausted"
  | invalidExpression fault => "invalid expression: " ++ fault.message

end RollError

/-- The face that a draw gives on a die: the remainder by the number of sides,
counted from one. -/
def faceOf (sides : UInt32) (draw : UInt64) : UInt32 :=
  UInt32.ofNat (draw.toNat % sides.toNat + 1)

def facesOf (sides : UInt32) (draws : List UInt64) : List UInt32 :=
  draws.map (faceOf sides)

def keptSum (dice : List Die) : Nat :=
  (dice.filter Die.kept).foldr (fun die sum => die.value.toNat + sum) 0

/-- Dice showing the given faces, with the flags that the expression gives
them. -/
def diceOf (expression : Expression) (faces : List UInt32) : List Die :=
  List.zipWith (fun value kept => ⟨value, expression.sides, kept⟩) faces
    (keptDice expression (faces.map UInt32.toNat))

def Roll.ofFaces (expression : Expression) (faces : List UInt32) : Roll :=
  let dice := diceOf expression faces
  { expression := expression
    dice := dice
    keptTotal := keptSum dice
    total := keptSum dice + expression.modifier.toInt }

/-- Rolls an expression, and gives back the draws that are left. An expression
out of bounds takes no draw; when the draws do not suffice all are taken. -/
def Expression.roll (expression : Expression) (draws : List UInt64) :
    Except RollError Roll × List UInt64 :=
  match expression.fault? with
  | some fault => (.error (.invalidExpression fault), draws)
  | none =>
      let needed := expression.physicalDice
      if draws.length < needed then
        (.error .drawsExhausted, [])
      else
        (.ok (Roll.ofFaces expression (facesOf expression.sides (draws.take needed))),
          draws.drop needed)

inductive DiceError where
  | unreadable (error : NotationError)
  | unrolled (error : RollError)
deriving DecidableEq, Repr

namespace DiceError

def message : DiceError → String
  | unreadable error => error.message
  | unrolled error => error.message

end DiceError

def rollText (text : String) (draws : List UInt64) : Except DiceError Roll × List UInt64 :=
  match Expression.read text with
  | .error error => (.error (.unreadable error), draws)
  | .ok expression =>
      let (outcome, left) := expression.roll draws
      (outcome.mapError .unrolled, left)

namespace Die

/-- The face of a die, in angle quotes if it does not count. -/
def text (die : Die) : String :=
  if die.kept then toString die.value.toNat else "‹" ++ toString die.value.toNat ++ "›"

end Die

namespace Roll

def kept (roll : Roll) : List Die :=
  roll.dice.filter Die.kept

def dropped (roll : Roll) : List Die :=
  roll.dice.filter fun die => !die.kept

def dropReason? (roll : Roll) : Option String :=
  if roll.dropped.isEmpty then
    none
  else if roll.expression.advantage then
    some "advantage"
  else
    roll.expression.operation.map Operation.describe

def modifierNote (modifier : Int32) : String :=
  if modifier = 0 then "" else " " ++ Expression.modifierText modifier

/-- The result line: the expression, the dice, the modifier, the total, and
the reason if dice were dropped. -/
def line (roll : Roll) : String :=
  roll.expression.text ++ ": [" ++ ", ".intercalate (roll.dice.map Die.text) ++ "]" ++
    modifierNote roll.expression.modifier ++ " = " ++ toString roll.total ++
    (match roll.dropReason? with
      | some reason => " (" ++ reason ++ ")"
      | none => "")

end Roll

end Tabletop.Dice
