import Tabletop.Dice.Expression

/-!
# Which dice count

Advantage looks at the dice in pairs and keeps the better of each; a cut then
sorts the dice that are left and drops some from one end. Dice are given by
their faces, in the order in which they were thrown, and the answer is one
flag for each die.
-/

namespace Tabletop.Dice

/-- Of each pair of dice the second is kept if it shows more than the first,
and the first otherwise. -/
def betterOfPairs : (faces : List Nat) → List Bool
  | first :: second :: rest =>
      decide (second ≤ first) :: decide (first < second) :: betterOfPairs rest
  | [_] => [true]
  | [] => []

/-- The dice that an operation may look at: the better of each pair under
advantage, and all of them otherwise. -/
def eligibleDice (advantage : Bool) (faces : List Nat) : List Bool :=
  if advantage then betterOfPairs faces else faces.map fun _ => true

theorem betterOfPairs_length :
    (faces : List Nat) → (betterOfPairs faces).length = faces.length
  | first :: second :: rest => by
      simp [betterOfPairs, betterOfPairs_length rest]
  | [_] => rfl
  | [] => rfl

@[simp]
theorem eligibleDice_length (advantage : Bool) (faces : List Nat) :
    (eligibleDice advantage faces).length = faces.length := by
  cases advantage <;> simp [eligibleDice, betterOfPairs_length]

/-- A die in a ranking: the face that it shows and its place in the throw. -/
structure RankedDie where
  face : Nat
  place : Nat
deriving DecidableEq, Repr

namespace RankedDie

/-- Dice rank by their faces, and by their places where the faces are equal. -/
def rankedUpTo (lower upper : RankedDie) : Bool :=
  lower.face < upper.face || (lower.face == upper.face && lower.place ≤ upper.place)

end RankedDie

/-- The eligible dice with their places, in the order of the throw. -/
def eligibleFrom (place : Nat) : (faces : List Nat) → (eligible : List Bool) → List RankedDie
  | face :: faces, isEligible :: eligible =>
      if isEligible then
        ⟨face, place⟩ :: eligibleFrom (place + 1) faces eligible
      else
        eligibleFrom (place + 1) faces eligible
  | _, _ => []

def ranking (faces : List Nat) (eligible : List Bool) : List RankedDie :=
  (eligibleFrom 0 faces eligible).mergeSort RankedDie.rankedUpTo

namespace Operation

/-- The part of a ranking that an operation drops. Dropping more dice than
there are is impossible, and then nothing is dropped. -/
def dropped {α : Type} (operation : Operation) (ranked : List α) : List α :=
  let count := operation.count.toNat
  match operation.cut with
  | .keepHighest => ranked.take (ranked.length - count)
  | .keepLowest => ranked.drop count
  | .dropHighest => if count ≤ ranked.length then ranked.drop (ranked.length - count) else []
  | .dropLowest => if count ≤ ranked.length then ranked.take count else []

end Operation

/-- The flags without the dice that stand at the given places. -/
def strikeFrom (place : Nat) (struck : List Nat) : List Bool → List Bool
  | [] => []
  | flag :: flags =>
      (flag && !struck.contains place) :: strikeFrom (place + 1) struck flags

def applyOperation (operation : Operation) (faces : List Nat) (eligible : List Bool) :
    List Bool :=
  let struck := (operation.dropped (ranking faces eligible)).map RankedDie.place
  strikeFrom 0 struck eligible

/-- For each die, whether it counts. -/
def keptDice (expression : Expression) (faces : List Nat) : List Bool :=
  let eligible := eligibleDice expression.advantage faces
  match expression.operation with
  | none => eligible
  | some operation => applyOperation operation faces eligible

@[simp]
theorem strikeFrom_length (place : Nat) (struck : List Nat) (flags : List Bool) :
    (strikeFrom place struck flags).length = flags.length := by
  induction flags generalizing place with
  | nil => rfl
  | cons flag flags inductionHypothesis =>
      simp [strikeFrom, inductionHypothesis]

@[simp]
theorem keptDice_length (expression : Expression) (faces : List Nat) :
    (keptDice expression faces).length = faces.length := by
  unfold keptDice
  cases expression.operation <;> simp [applyOperation]

end Tabletop.Dice
