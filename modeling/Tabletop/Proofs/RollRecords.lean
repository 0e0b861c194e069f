import Tabletop.Dice.Record
import Tabletop.Proofs.JsonReading
import Tabletop.Proofs.JsonText
import Tabletop.Proofs.Reading
import Tabletop.Proofs.RollLaw

/-!
# Expressions and rolls in JSON

What is written of an expression or a roll is read again as it was, whatever
the order of the fields in its objects. Only what is within bounds is read,
and an object of an expression out of bounds is refused for the bound that it
breaks.
-/

namespace Tabletop.Dice

open Tabletop.Json

theorem Cut.ofName?_name (cut : Cut) :
    Cut.ofName? cut.name.toList = some cut := by
  cases cut <;> decide

theorem yields_readOperation (operation : Option Operation) :
    Yields readOperation (operationTokens operation) (.ok operation) := by
  intro rest
  cases operation with
  | none =>
      rfl
  | some operation =>
      have counted :
          Yields (readUnsigned32 : DiceReader UInt32)
            [.integer operation.count.toNat] (.ok operation.count) :=
        yields_readUnsigned32 operation.count
      show readOperation
        (.openBrace :: .string (some operation.cut.name.toList) :: .colon ::
          ([.integer operation.count.toNat] ++ .closeBrace :: rest)) = _
      rw [readOperation, Cut.ofName?_name]
      dsimp only
      rw [counted (.closeBrace :: rest)]
      rfl

inductive ExpressionField where
  | count
  | sides
  | modifier
  | operation
  | advantage
deriving DecidableEq, Repr

namespace ExpressionField

def name : ExpressionField → String
  | count => "count"
  | sides => "sides"
  | modifier => "modifier"
  | operation => "operation"
  | advantage => "advantage"

def written (expression : Expression) : ExpressionField → List JsonToken
  | count => [.integer expression.count.toNat]
  | sides => [.integer expression.sides.toNat]
  | modifier => [.integer expression.modifier.toInt]
  | operation => operationTokens expression.operation
  | advantage => [.bool expression.advantage]

/-- The fields that can be left out, because they have the value that stands
for a missing one. -/
def Omissible (expression : Expression) : ExpressionField → Prop
  | count | sides => False
  | modifier => expression.modifier = 0
  | operation => expression.operation = none
  | advantage => expression.advantage = false

end ExpressionField

/-- What has been read once the given fields have been. -/
def ExpressionFields.given (expression : Expression)
    (fields : List ExpressionField) : ExpressionFields where
  count := if .count ∈ fields then some expression.count else .none
  sides := if .sides ∈ fields then some expression.sides else .none
  modifier := if .modifier ∈ fields then some expression.modifier else .none
  operation :=
    if .operation ∈ fields then some expression.operation else .none
  advantage :=
    if .advantage ∈ fields then some expression.advantage else .none

theorem ExpressionFields.readField_name (fields : ExpressionFields)
    (field : ExpressionField) :
    fields.readField field.name.toList =
      match field with
      | .count =>
          readOnce fields.count readUnsigned32 fun value =>
            { fields with count := value }
      | .sides =>
          readOnce fields.sides readUnsigned32 fun value =>
            { fields with sides := value }
      | .modifier =>
          readOnce fields.modifier readSigned32 fun value =>
            { fields with modifier := value }
      | .operation =>
          readOnce fields.operation readOperation fun value =>
            { fields with operation := value }
      | .advantage =>
          readOnce fields.advantage readBool fun value =>
            { fields with advantage := value } := by
  cases field <;> rfl

theorem readsFields_expression (expression : Expression) :
    ReadsFields ExpressionField.name (ExpressionField.written expression)
      ExpressionFields.readField (ExpressionFields.given expression)
      fun _ => none := by
  intro before field fresh
  rw [ExpressionFields.readField_name]
  cases field with
  | count =>
      apply yields_readOnce_of_ok (yields_readUnsigned32 _) (if_neg fresh)
      simp [ExpressionFields.given]
  | sides =>
      apply yields_readOnce_of_ok (yields_readUnsigned32 _) (if_neg fresh)
      simp [ExpressionFields.given]
  | modifier =>
      apply yields_readOnce_of_ok (yields_readSigned32 _) (if_neg fresh)
      simp [ExpressionFields.given]
  | operation =>
      apply yields_readOnce_of_ok (yields_readOperation _) (if_neg fresh)
      simp [ExpressionFields.given]
  | advantage =>
      apply yields_readOnce_of_ok (yields_readBool _) (if_neg fresh)
      simp [ExpressionFields.given]

/-- The JSON objects of an expression: each field at most once, in any order;
only what stands for a missing field is left out. -/
def ExpressionObject (expression : Expression)
    (written : List JsonToken) : Prop :=
  ∃ fields : List ExpressionField,
    fields.Nodup ∧
      (∀ field, field ∉ fields → field.Omissible expression) ∧
      written =
        objectTokens (fields.map fun field =>
          (field.name, field.written expression))

theorem expressionObject_expressionTokens (expression : Expression) :
    ExpressionObject expression (expressionTokens expression) := by
  refine ⟨[.count, .sides, .modifier, .operation, .advantage], by decide, ?_,
    rfl⟩
  intro field missing
  cases field <;> simp at missing

/-- Plain dice need no more than their number and their sides. -/
theorem omissible_plain {count sides : UInt32} {fields : List ExpressionField}
    (countGiven : .count ∈ fields) (sidesGiven : .sides ∈ fields) :
    ∀ field, field ∉ fields → field.Omissible (.plain count sides) := by
  intro field missing
  cases field with
  | count =>
      exact missing countGiven
  | sides =>
      exact missing sidesGiven
  | modifier | operation | advantage =>
      rfl

/-- The fault of an expression as that of a reader. -/
def refusal? (expression : Expression) : Option (ReadError BoundsFault) :=
  expression.fault?.map .refused

theorem ite_getD {α : Type} {given : Prop} [Decidable given] {value other : α}
    (missing : ¬ given → value = other) :
    (if given then some value else none).getD other = value := by
  split
  · rfl
  · rename_i absent
    exact (missing absent).symm

theorem ExpressionFields.finish_given {expression : Expression}
    {fields : List ExpressionField}
    (complete : ∀ field, field ∉ fields → field.Omissible expression) :
    (ExpressionFields.given expression fields).finish =
      verdict (refusal? expression) expression := by
  have count : .count ∈ fields := by
    by_contra missing
    exact complete _ missing
  have sides : .sides ∈ fields := by
    by_contra missing
    exact complete _ missing
  have modifier := ite_getD (complete .modifier)
  have operation := ite_getD (complete .operation)
  have advantage := ite_getD (complete .advantage)
  simp only [finish, given, if_pos count, if_pos sides, modifier, operation,
    advantage, required, refusal?]
  cases broken : expression.fault? with
  | none =>
      simp only [bind, Except.bind, broken]
      rfl
  | some fault =>
      simp only [bind, Except.bind, broken]
      rfl

theorem yields_readExpression {expression : Expression}
    {written : List JsonToken} (object : ExpressionObject expression written) :
    Yields readExpression written
      (verdict (refusal? expression) expression) := by
  obtain ⟨fields, distinct, complete, rfl⟩ := object
  intro rest
  have read :=
    (readsFields_expression expression).yields_readFields_of_sound distinct rest
  have initial : ExpressionFields.given expression [] = .none := by
    simp [ExpressionFields.given, ExpressionFields.none]
  rw [initial] at read
  rw [objectTokens_append, readExpression, read]
  show ((ExpressionFields.given expression fields).finish >>= _) = _
  rw [ExpressionFields.finish_given complete]
  cases refusal? expression <;> rfl

inductive DieField where
  | value
  | sides
  | kept
deriving DecidableEq, Repr

namespace DieField

def name : DieField → String
  | value => "value"
  | sides => "sides"
  | kept => "kept"

def written (die : Die) : DieField → List JsonToken
  | value => [.integer die.value.toNat]
  | sides => [.integer die.sides.toNat]
  | kept => [.bool die.kept]

end DieField

def DieFields.given (die : Die) (fields : List DieField) : DieFields where
  value := if .value ∈ fields then some die.value else .none
  sides := if .sides ∈ fields then some die.sides else .none
  kept := if .kept ∈ fields then some die.kept else .none

theorem DieFields.readField_name (fields : DieFields) (field : DieField) :
    fields.readField field.name.toList =
      match field with
      | .value =>
          readOnce fields.value readUnsigned32 fun value =>
            { fields with value := value }
      | .sides =>
          readOnce fields.sides readUnsigned32 fun value =>
            { fields with sides := value }
      | .kept =>
          readOnce fields.kept readBool fun value =>
            { fields with kept := value } := by
  cases field <;> rfl

theorem readsFields_die (die : Die) :
    ReadsFields DieField.name (DieField.written die) DieFields.readField
      (DieFields.given die) fun _ => none := by
  intro before field fresh
  rw [DieFields.readField_name]
  cases field with
  | value =>
      apply yields_readOnce_of_ok (yields_readUnsigned32 _) (if_neg fresh)
      simp [DieFields.given]
  | sides =>
      apply yields_readOnce_of_ok (yields_readUnsigned32 _) (if_neg fresh)
      simp [DieFields.given]
  | kept =>
      apply yields_readOnce_of_ok (yields_readBool _) (if_neg fresh)
      simp [DieFields.given]

def DieObject (die : Die) (written : List JsonToken) : Prop :=
  ∃ fields : List DieField,
    fields.Nodup ∧
      (∀ field, field ∈ fields) ∧
      written =
        objectTokens (fields.map fun field => (field.name, field.written die))

theorem dieObject_dieTokens (die : Die) : DieObject die (dieTokens die) := by
  refine ⟨[.value, .sides, .kept], by decide, ?_, rfl⟩
  intro field
  cases field <;> decide

theorem yields_readDie {die : Die} {written : List JsonToken}
    (object : DieObject die written) :
    Yields readDie written (.ok die) := by
  obtain ⟨fields, distinct, complete, rfl⟩ := object
  intro rest
  have read := (readsFields_die die).yields_readFields_of_sound distinct rest
  have initial : DieFields.given die [] = .none := by
    simp [DieFields.given, DieFields.none]
  rw [initial] at read
  rw [objectTokens_append, readDie, read]
  show ((DieFields.given die fields).finish >>= _) = _
  simp only [DieFields.finish, DieFields.given, if_pos (complete _), required]
  rfl

theorem yieldsItem_readDie {die : Die} {written : List JsonToken}
    (object : DieObject die written) :
    YieldsItem readDie die written := by
  refine ⟨yields_readDie object, ?_⟩
  obtain ⟨fields, _, _, rfl⟩ := object
  exact ⟨.openBrace, _, rfl, by decide⟩

/-! ## Objects of a roll -/

inductive RollField where
  | expression
  | dice
  | keptTotal
  | total
deriving DecidableEq, Repr

namespace RollField

def name : RollField → String
  | expression => "expression"
  | dice => "dice"
  | keptTotal => "kept_total"
  | total => "total"

/-- What is written for a field, when the expression and the dice are written
in these ways. -/
def written (roll : Roll) (expression : List JsonToken)
    (dice : List (List JsonToken)) : RollField → List JsonToken
  | .expression => expression
  | .dice => arrayTokens dice
  | keptTotal => [.integer roll.keptTotal]
  | total => [.integer roll.total]

/-- Only the expression can be refused. -/
def refusal? (roll : Roll) : RollField → Option (ReadError BoundsFault)
  | expression => Dice.refusal? roll.expression
  | dice | keptTotal | total => none

end RollField

theorem RollField.findSome?_refusal? (roll : Roll) {fields : List RollField}
    (member : .expression ∈ fields) :
    fields.findSome? (RollField.refusal? roll) =
      Dice.refusal? roll.expression := by
  cases found : fields.findSome? (RollField.refusal? roll) with
  | none =>
      exact (List.findSome?_eq_none_iff.mp found .expression member).symm
  | some fault =>
      obtain ⟨field, _, given⟩ := List.exists_of_findSome?_eq_some found
      cases field with
      | expression =>
          exact given.symm
      | dice | keptTotal | total =>
          cases given

def RollFields.given (roll : Roll) (fields : List RollField) : RollFields where
  expression := if .expression ∈ fields then some roll.expression else .none
  dice := if .dice ∈ fields then some roll.dice else .none
  keptTotal := if .keptTotal ∈ fields then some roll.keptTotal else .none
  total := if .total ∈ fields then some roll.total else .none

theorem RollFields.readField_name (fields : RollFields) (field : RollField) :
    fields.readField field.name.toList =
      match field with
      | .expression =>
          readOnce fields.expression readExpression fun value =>
            { fields with expression := value }
      | .dice =>
          readOnce fields.dice (readArray readDie) fun value =>
            { fields with dice := value }
      | .keptTotal =>
          readOnce fields.keptTotal readSigned64 fun value =>
            { fields with keptTotal := value }
      | .total =>
          readOnce fields.total readSigned64 fun value =>
            { fields with total := value } := by
  cases field <;> rfl

def IsSigned64 (value : Int) : Prop :=
  Int64.minValue.toInt ≤ value ∧ value ≤ Int64.maxValue.toInt

instance (value : Int) : Decidable (IsSigned64 value) :=
  inferInstanceAs (Decidable (_ ∧ _))

theorem yields_readSigned64 {value : Int} (small : IsSigned64 value) :
    Yields (readSigned64 : DiceReader Int) [.integer value] (.ok value) :=
  yields_readInteger small.1 small.2

/-- The JSON objects of a roll, with the fields of all objects in any order. -/
def RollObject (roll : Roll) (written : List JsonToken) : Prop :=
  ∃ expression dice,
    ExpressionObject roll.expression expression ∧
      List.Forall₂ DieObject roll.dice dice ∧
      ∃ fields : List RollField,
        fields.Nodup ∧
          (∀ field, field ∈ fields) ∧
          written =
            objectTokens (fields.map fun field =>
              (field.name, field.written roll expression dice))

theorem rollObject_rollTokens (roll : Roll) :
    RollObject roll (rollTokens roll) := by
  refine ⟨expressionTokens roll.expression, roll.dice.map dieTokens,
    expressionObject_expressionTokens roll.expression, ?_,
    [.expression, .dice, .keptTotal, .total], by decide, ?_, rfl⟩
  · rw [List.forall₂_map_right_iff, List.forall₂_same]
    exact fun die _ => dieObject_dieTokens die
  · intro field
    cases field <;> decide

section Rolls

variable {roll : Roll} (keptFits : IsSigned64 roll.keptTotal)
  (totalFits : IsSigned64 roll.total)

include keptFits totalFits

theorem readsFields_roll {expression : List JsonToken}
    {dice : List (List JsonToken)}
    (object : ExpressionObject roll.expression expression)
    (objects : List.Forall₂ DieObject roll.dice dice) :
    ReadsFields RollField.name (RollField.written roll expression dice)
      RollFields.readField (RollFields.given roll)
      (RollField.refusal? roll) := by
  intro before field fresh
  rw [RollFields.readField_name]
  cases field with
  | expression =>
      apply yields_readOnce (yields_readExpression object) (if_neg fresh)
      simp [RollFields.given]
  | dice =>
      have items := objects.imp fun _ _ => yieldsItem_readDie
      apply yields_readOnce_of_ok (yields_readArray items) (if_neg fresh)
      simp [RollFields.given]
  | keptTotal =>
      apply yields_readOnce_of_ok (yields_readSigned64 keptFits) (if_neg fresh)
      simp [RollFields.given]
  | total =>
      apply yields_readOnce_of_ok (yields_readSigned64 totalFits) (if_neg fresh)
      simp [RollFields.given]

theorem yields_readRoll {written : List JsonToken}
    (object : RollObject roll written) :
    Yields readRoll written (verdict (refusal? roll.expression) roll) := by
  obtain ⟨expression, dice, object, objects, fields, distinct, complete, rfl⟩ :=
    object
  intro rest
  have read := (readsFields_roll keptFits totalFits object objects).yields_readFields
    distinct rest
  have judged := RollField.findSome?_refusal? roll (complete .expression)
  have initial : RollFields.given roll [] = .none := by
    simp [RollFields.given, RollFields.none]
  rw [judged, initial] at read
  rw [objectTokens_append, readRoll, read]
  cases refusal? roll.expression with
  | some fault =>
      rfl
  | none =>
      show ((RollFields.given roll fields).finish >>= _) = _
      simp only [RollFields.finish, RollFields.given, if_pos (complete _),
        required]
      rfl

end Rolls

theorem valid_of_finish {fields : ExpressionFields} {expression : Expression}
    (finished : fields.finish = .ok expression) :
    expression.Valid := by
  simp only [ExpressionFields.finish, bind_eq_ok_iff] at finished
  obtain ⟨count, _, sides, _, judged⟩ := finished
  split at judged
  · cases judged
  · rename_i sound
    cases judged
    exact sound

theorem valid_of_readExpression {tokens rest : List JsonToken}
    {expression : Expression}
    (reads : readExpression tokens = .ok (expression, rest)) :
    expression.Valid := by
  unfold readExpression at reads
  split at reads
  · simp only [bind_eq_ok_iff] at reads
    obtain ⟨_, _, _, finished, same⟩ := reads
    cases same
    exact valid_of_finish finished
  · simp only [bind_eq_ok_iff] at reads
    obtain ⟨_, _, _, finished, same⟩ := reads
    cases same
    exact valid_of_finish finished
  · cases reads

def RollFields.InBounds (fields : RollFields) : Prop :=
  ∀ expression ∈ fields.expression, expression.Valid

theorem RollFields.inBounds_readField {fields changed : RollFields}
    {name : List Char} {tokens rest : List JsonToken}
    (inBounds : fields.InBounds)
    (reads : fields.readField name tokens = .ok (changed, rest)) :
    changed.InBounds := by
  unfold RollFields.readField at reads
  split_ifs at reads
  · obtain ⟨expression, read, rfl⟩ := exists_of_readOnce_eq_ok reads
    intro other same
    obtain rfl := Option.some_inj.mp same
    exact valid_of_readExpression read
  · obtain ⟨_, _, rfl⟩ := exists_of_readOnce_eq_ok reads
    exact inBounds
  · obtain ⟨_, _, rfl⟩ := exists_of_readOnce_eq_ok reads
    exact inBounds
  · obtain ⟨_, _, rfl⟩ := exists_of_readOnce_eq_ok reads
    exact inBounds
  · obtain ⟨_, _, same⟩ := bind_eq_ok_iff.mp reads
    cases same
    exact inBounds

theorem eq_some_of_required {α : Type} {field : Option α} {value : α}
    (given : required (φ := BoundsFault) field = .ok value) :
    field = some value := by
  cases field with
  | none =>
      cases given
  | some other =>
      cases given
      rfl

theorem valid_of_readRoll {tokens rest : List JsonToken} {roll : Roll}
    (reads : readRoll tokens = .ok (roll, rest)) :
    roll.expression.Valid := by
  unfold readRoll at reads
  split at reads
  · simp only [bind_eq_ok_iff] at reads
    obtain ⟨⟨fields, _⟩, read, _, finished, same⟩ := reads
    cases same
    -- Among the fields of a roll only the expression has bounds, and these
    -- hold from the moment at which it is set.
    have inBounds : fields.InBounds :=
      readFields_preserves
        (fun _ _ _ _ _ holds step => RollFields.inBounds_readField holds step)
        (by rintro _ ⟨⟩) read
    simp only [RollFields.finish, bind_eq_ok_iff] at finished
    obtain ⟨expression, given, _, _, _, _, _, _, same⟩ := finished
    cases same
    exact inBounds expression (eq_some_of_required given)
  · simp only [bind_eq_ok_iff] at reads
    obtain ⟨_, read, _, _, _, _, _, _, _, _, same⟩ := reads
    cases same
    obtain ⟨_, readBefore⟩ := exists_of_readItem_eq_ok read
    exact valid_of_readExpression readBefore
  · cases reads

theorem ExpressionObject.ofJson_eq {expression : Expression} {text : String}
    (object : ExpressionObject expression (tokens text.toList)) :
    Expression.ofJson text = verdict (refusal? expression) expression :=
  readText_of_yields (yields_readExpression object) rfl

theorem RollObject.ofJson_eq {roll : Roll} {text : String}
    (object : RollObject roll (tokens text.toList))
    (keptFits : IsSigned64 roll.keptTotal) (totalFits : IsSigned64 roll.total) :
    Roll.ofJson text = verdict (refusal? roll.expression) roll :=
  readText_of_yields (yields_readRoll keptFits totalFits object) rfl

theorem Cut.writesItself_name (cut : Cut) : WritesItself cut.name.toList := by
  cases cut <;> simp [WritesItself, name]

theorem ExpressionField.writesItself_name (field : ExpressionField) :
    WritesItself field.name.toList := by
  cases field <;> simp [WritesItself, name]

theorem DieField.writesItself_name (field : DieField) :
    WritesItself field.name.toList := by
  cases field <;> simp [WritesItself, name]

theorem RollField.writesItself_name (field : RollField) :
    WritesItself field.name.toList := by
  cases field <;> simp [WritesItself, name]

theorem writable_operationTokens (operation : Option Operation) :
    Writable (operationTokens operation) := by
  cases operation with
  | none =>
      exact writable_singleton trivial
  | some operation =>
      apply writable_objectTokens
      rw [List.forall_mem_singleton]
      exact ⟨operation.cut.writesItself_name, writable_singleton trivial⟩

theorem ExpressionObject.writable {expression : Expression}
    {written : List JsonToken} (object : ExpressionObject expression written) :
    Writable written := by
  obtain ⟨fields, _, _, rfl⟩ := object
  apply writable_objectTokens_map ExpressionField.writesItself_name
  intro field
  cases field with
  | operation =>
      exact writable_operationTokens expression.operation
  | count | sides | modifier | advantage =>
      exact writable_singleton trivial

theorem DieObject.writable {die : Die} {written : List JsonToken}
    (object : DieObject die written) :
    Writable written := by
  obtain ⟨fields, _, _, rfl⟩ := object
  apply writable_objectTokens_map DieField.writesItself_name
  intro field
  cases field <;> exact writable_singleton trivial

theorem writable_of_dieObjects {dice : List Die}
    {written : List (List JsonToken)}
    (objects : List.Forall₂ DieObject dice written) :
    ∀ item ∈ written, Writable item := by
  induction objects with
  | nil =>
      exact List.forall_mem_nil _
  | cons object _ inductionHypothesis =>
      exact List.forall_mem_cons.mpr ⟨object.writable, inductionHypothesis⟩

theorem RollObject.writable {roll : Roll} {written : List JsonToken}
    (object : RollObject roll written) :
    Writable written := by
  obtain ⟨expression, dice, object, objects, fields, _, _, rfl⟩ := object
  apply writable_objectTokens_map RollField.writesItself_name
  intro field
  cases field with
  | expression =>
      exact object.writable
  | dice =>
      exact writable_arrayTokens (writable_of_dieObjects objects)
  | keptTotal | total =>
      exact writable_singleton trivial

theorem refusal?_of_valid {expression : Expression}
    (valid : expression.Valid) :
    refusal? expression = none := by
  rw [refusal?, show expression.fault? = none from valid]
  rfl

theorem refusal?_of_fault {expression : Expression} {fault : BoundsFault}
    (broken : expression.fault? = some fault) :
    refusal? expression = some (.refused fault) := by
  rw [refusal?, broken]
  rfl

theorem roll_ne_invalidExpression {expression : Expression}
    (valid : expression.Valid) (draws : List UInt64) (fault : BoundsFault) :
    (expression.roll draws).1 ≠ .error (.invalidExpression fault) := by
  rw [roll_of_valid valid]
  split <;> nofun

/-- A roll whose expression is within bounds is read from both of its
layouts. -/
theorem ofJson_of_rollTokens {roll : Roll} (valid : roll.expression.Valid)
    (keptFits : IsSigned64 roll.keptTotal) (totalFits : IsSigned64 roll.total)
    {text : String} (spelled : tokens text.toList = rollTokens roll) :
    Roll.ofJson text = .ok roll := by
  have object : RollObject roll (tokens text.toList) := by
    rw [spelled]
    exact rollObject_rollTokens roll
  rw [object.ofJson_eq keptFits totalFits, refusal?_of_valid valid]
  rfl

/-- Reading undoes writing. A roll within bounds is read from its JSON text in
either layout, also with a line break behind it, and an expression within
bounds from every object of it, whatever the order of the fields and whichever
default is left out; every such object can be written. What is read is within
bounds, so rolling it never fails for a bound, and an object out of bounds is
refused for the bound that it breaks, also inside a roll. -/
theorem json_reading_undoes_writing :
    (∀ roll : Roll,
        roll.expression.Valid → IsSigned64 roll.keptTotal →
          IsSigned64 roll.total →
            Roll.ofJson roll.prettyJson = .ok roll ∧
              Roll.ofJson (roll.prettyJson ++ "\n") = .ok roll ∧
              Roll.ofJson roll.compactJson = .ok roll) ∧
      (∀ expression : Expression,
        expression.Valid →
          ∀ text, ExpressionObject expression (tokens text.toList) →
            Expression.ofJson text = .ok expression) ∧
      (∀ expression written,
        ExpressionObject expression written →
          tokens (Json.compact written).toList = written ∧
            tokens (Json.pretty written).toList = written) ∧
      (∀ text expression,
        Expression.ofJson text = .ok expression →
          expression.Valid ∧
            ∀ draws fault,
              (expression.roll draws).1 ≠ .error (.invalidExpression fault)) ∧
      (∀ text roll,
        Roll.ofJson text = .ok roll →
          roll.expression.Valid ∧
            ∀ draws fault,
              (roll.expression.roll draws).1 ≠
                .error (.invalidExpression fault)) ∧
      (∀ expression fault,
        expression.fault? = some fault →
          ∀ text, ExpressionObject expression (tokens text.toList) →
            Expression.ofJson text = .error (.refused fault)) ∧
      ∀ roll fault,
        roll.expression.fault? = some fault → IsSigned64 roll.keptTotal →
          IsSigned64 roll.total →
            ∀ text, RollObject roll (tokens text.toList) →
              Roll.ofJson text = .error (.refused fault) := by
  refine ⟨?_, ?_, ?_, ?_, ?_, ?_, ?_⟩
  · intro roll valid keptFits totalFits
    have writable := (rollObject_rollTokens roll).writable
    refine ⟨?_, ?_, ?_⟩
    · apply ofJson_of_rollTokens valid keptFits totalFits
      exact writable.tokens_pretty
    · apply ofJson_of_rollTokens valid keptFits totalFits
      exact writable.tokens_pretty_append (by simp [isSpace])
    · apply ofJson_of_rollTokens valid keptFits totalFits
      exact writable.tokens_compact
  · intro expression valid text object
    rw [object.ofJson_eq, refusal?_of_valid valid]
    rfl
  · intro expression written object
    exact ⟨object.writable.tokens_compact, object.writable.tokens_pretty⟩
  · intro text expression reads
    obtain ⟨rest, read⟩ := exists_of_readText_eq_ok reads
    have valid := valid_of_readExpression read
    exact ⟨valid, roll_ne_invalidExpression valid⟩
  · intro text roll reads
    obtain ⟨rest, read⟩ := exists_of_readText_eq_ok reads
    have valid := valid_of_readRoll read
    exact ⟨valid, roll_ne_invalidExpression valid⟩
  · intro expression fault broken text object
    rw [object.ofJson_eq, refusal?_of_fault broken]
    rfl
  · intro roll fault broken keptFits totalFits text object
    rw [object.ofJson_eq keptFits totalFits, refusal?_of_fault broken]
    rfl

/-- Two plain dice are read with the sides first and the defaults left out,
and no dice at all are refused. -/
theorem json_reading_undoes_writing_of_two_dice :
    Expression.ofJson "\x7b\"sides\": 6, \"count\": 2\x7d" =
        .ok (.plain 2 6) ∧
      Expression.ofJson "\x7b\"count\": 0, \"sides\": 6\x7d" =
        .error (.refused (.countOutside 0)) := by
  obtain ⟨_, reads, _, _, _, refuses, _⟩ := json_reading_undoes_writing
  constructor
  · apply reads (.plain 2 6) rfl
    have spelled :
        tokens "\x7b\"sides\": 6, \"count\": 2\x7d".toList =
          objectTokens [("sides", [.integer 6]), ("count", [.integer 2])] := by
      decide +kernel
    rw [spelled]
    exact ⟨[.sides, .count], by decide,
      omissible_plain (by decide) (by decide), rfl⟩
  · apply refuses (.plain 0 6) (.countOutside 0) rfl
    have spelled :
        tokens "\x7b\"count\": 0, \"sides\": 6\x7d".toList =
          objectTokens [("count", [.integer 0]), ("sides", [.integer 6])] := by
      decide +kernel
    rw [spelled]
    exact ⟨[.count, .sides], by decide,
      omissible_plain (by decide) (by decide), rfl⟩

end Tabletop.Dice
