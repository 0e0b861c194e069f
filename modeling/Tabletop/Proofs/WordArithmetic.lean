import Tabletop.Proofs.KeptDice
import Tabletop.Proofs.RollRecords

/-!
# Rolling in machine words

Rolls are defined with numbers of any size. Here an expression is rolled once
more with words: 64 bits for a draw and a sum, 32 bits for a face, and an index
of 32 or 64 bits for places in the list of dice. Each step that could divide by
zero, leave its word or reach outside a list is a partial function. None of
them ever fails, and the outcome is the same (`rollInWords?_eq`). In the same
way the sign of a modifier is applied in a word when a notation is read.
-/

namespace Tabletop.Dice

open Tabletop.Text

/-- A number as an unsigned word of 32 bits, if it fits. -/
def toUnsigned32? (value : Nat) : Option UInt32 :=
  if value < UInt32.size then some (UInt32.ofNat value) else none

/-- A number as an index, a word of 32 or 64 bits, if it fits. -/
def toIndex? (value : Nat) : Option USize :=
  if value < USize.size then some (USize.ofNat value) else none

/-- A number as a signed word of 64 bits, if it fits. -/
def toWord64? (value : Int) : Option Int64 :=
  if IsSigned64 value then some (Int64.ofInt value) else none

theorem exists_toIndex? {value : Nat} (fits : value < USize.size) :
    ∃ index, toIndex? value = some index ∧ index.toNat = value :=
  ⟨USize.ofNat value, if_pos fits, USize.toNat_ofNat_of_lt' fits⟩

theorem isSigned64_iff {value : Int} :
    IsSigned64 value ↔ -2 ^ 63 ≤ value ∧ value < 2 ^ 63 := by
  rw [IsSigned64, Int64.toInt_minValue, Int64.toInt_maxValue]
  omega

theorem exists_toWord64? {value : Int} (fits : IsSigned64 value) :
    ∃ word, toWord64? value = some word ∧ word.toInt = value := by
  obtain ⟨least, below⟩ := isSigned64_iff.mp fits
  exact ⟨Int64.ofInt value, if_pos fits,
    Int64.toInt_ofInt_of_le least below⟩

/-- The remainder of a division by anything but zero. -/
def remainder? (draw divisor : UInt64) : Option UInt64 :=
  if divisor = 0 then none else some (draw % divisor)

/-- The face that a draw gives on a die. -/
def faceInWords? (sides : UInt32) (draw : UInt64) : Option UInt32 := do
  let remainder ← remainder? draw sides.toUInt64
  let face ← toUnsigned32? remainder.toNat
  toUnsigned32? (face.toNat + 1)

theorem faceInWords?_eq {sides : UInt32} (positive : 0 < sides.toNat)
    (draw : UInt64) :
    faceInWords? sides draw = some (faceOf sides draw) := by
  have divisor : sides.toUInt64 ≠ 0 := by
    intro zero
    have none := congrArg UInt64.toNat zero
    rw [UInt32.toNat_toUInt64] at none
    exact absurd none (Nat.ne_of_gt positive)
  have below := Nat.mod_lt draw.toNat positive
  have bound := sides.toNat_lt_size
  have remainder :
      toUnsigned32? (draw % sides.toUInt64).toNat =
        some (UInt32.ofNat (draw.toNat % sides.toNat)) := by
    rw [UInt64.toNat_mod, UInt32.toNat_toUInt64, toUnsigned32?,
      if_pos (by omega)]
  have face :
      (UInt32.ofNat (draw.toNat % sides.toNat)).toNat =
        draw.toNat % sides.toNat :=
    UInt32.toNat_ofNat_of_lt' (by omega)
  rw [faceInWords?, remainder?, if_neg divisor]
  show (toUnsigned32? (draw % sides.toUInt64).toNat).bind _ = _
  rw [remainder, Option.bind_some, face, toUnsigned32?, if_pos (by omega)]
  rfl

theorem mapM_faceInWords?_eq {sides : UInt32} (positive : 0 < sides.toNat)
    (draws : List UInt64) :
    draws.mapM (faceInWords? sides) = some (facesOf sides draws) := by
  have pure : faceInWords? sides = fun draw => pure (faceOf sides draw) :=
    funext (faceInWords?_eq positive)
  rw [pure, List.mapM_pure]
  rfl

/-- The number of dice that are thrown. -/
def Expression.physicalDiceInWords? (expression : Expression) : Option USize :=
  if expression.advantage then
    toIndex? (expression.count.toUSize.toNat * 2)
  else
    some expression.count.toUSize

theorem Expression.Valid.physicalDice_le {expression : Expression}
    (valid : expression.Valid) : expression.physicalDice ≤ 2000 := by
  obtain ⟨_, count⟩ := (expression.valid_iff.mp valid).1
  unfold Expression.maxCount at count
  unfold Expression.physicalDice
  split <;> omega

theorem lt_size_of_le {value : Nat} (small : value ≤ 2000) :
    value < USize.size := by
  have := USize.le_size
  omega

theorem Expression.Valid.exists_physicalDiceInWords {expression : Expression}
    (valid : expression.Valid) :
    ∃ needed,
      expression.physicalDiceInWords? = some needed ∧
        needed.toNat = expression.physicalDice := by
  have fits := lt_size_of_le valid.physicalDice_le
  unfold physicalDiceInWords?
  unfold physicalDice at fits ⊢
  rw [UInt32.toNat_toUSize]
  split
  · rename_i advantaged
    rw [if_pos advantaged] at fits
    exact exists_toIndex? fits
  · exact ⟨_, rfl, UInt32.toNat_toUSize _⟩

/-- The difference of two indices that does not fall below zero. -/
def minus? (first second : USize) : Option USize :=
  if second ≤ first then some (first - second) else none

/-- The items from one place up to another within the list. -/
def slice? {α : Type} (items : List α) (start stop : USize) :
    Option (List α) :=
  if start ≤ stop ∧ stop.toNat ≤ items.length then
    some ((items.take stop.toNat).drop start.toNat)
  else
    none

theorem exists_minus? {first second : USize} (upTo : second ≤ first) :
    ∃ difference,
      minus? first second = some difference ∧
        difference.toNat = first.toNat - second.toNat :=
  ⟨first - second, if_pos upTo, USize.toNat_sub_of_le _ _ upTo⟩

theorem slice?_eq {α : Type} {items : List α} {start stop : USize}
    (upTo : start.toNat ≤ stop.toNat) (within : stop.toNat ≤ items.length) :
    slice? items start stop =
      some ((items.take stop.toNat).drop start.toNat) :=
  if_pos ⟨USize.le_iff_toNat_le.mpr upTo, within⟩

namespace Operation

/-- The part of a ranking that an operation drops. -/
def droppedInWords? {α : Type} (operation : Operation) (ranked : List α) :
    Option (List α) := do
  let length ← toIndex? ranked.length
  let count := operation.count.toUSize
  match operation.cut with
  | .keepHighest =>
      if count < length then do
        let stop ← minus? length count
        slice? ranked 0 stop
      else
        some []
  | .keepLowest => if count < length then slice? ranked count length else some []
  | .dropHighest =>
      if count ≤ length then do
        let start ← minus? length count
        slice? ranked start length
      else
        some []
  | .dropLowest => if count ≤ length then slice? ranked 0 count else some []

theorem droppedInWords?_eq {α : Type} (operation : Operation) {ranked : List α}
    (short : ranked.length < USize.size) :
    operation.droppedInWords? ranked = some (operation.dropped ranked) := by
  obtain ⟨length, fits, length_eq⟩ := exists_toIndex? short
  obtain ⟨cut, number⟩ := operation
  have count : number.toUSize.toNat = number.toNat :=
    UInt32.toNat_toUSize number
  have within : length.toNat ≤ ranked.length := Nat.le_of_eq length_eq
  unfold droppedInWords? dropped
  rw [fits]
  simp only [Option.bind_eq_bind, Option.bind_some, USize.lt_iff_toNat_lt,
    USize.le_iff_toNat_le, count, length_eq]
  cases cut with
  | keepHighest =>
      dsimp only
      split
      · have upTo : number.toUSize ≤ length :=
          USize.le_iff_toNat_le.mpr (by omega)
        obtain ⟨stop, minus, stop_eq⟩ := exists_minus? upTo
        rw [minus, Option.bind_some, slice?_eq (Nat.zero_le _) (by omega),
          stop_eq, length_eq, count, USize.toNat_zero, List.drop_zero]
      · rw [Nat.sub_eq_zero_of_le (by omega), List.take_zero]
  | keepLowest =>
      dsimp only
      split
      · rw [slice?_eq (by omega) within, length_eq, List.take_length, count]
      · rw [List.drop_eq_nil_of_le (by omega)]
  | dropHighest =>
      dsimp only
      split
      · have upTo : number.toUSize ≤ length :=
          USize.le_iff_toNat_le.mpr (by omega)
        obtain ⟨start, minus, start_eq⟩ := exists_minus? upTo
        rw [minus, Option.bind_some, slice?_eq (by omega) within, start_eq,
          length_eq, List.take_length, count]
      · rfl
  | dropLowest =>
      dsimp only
      split
      · rw [slice?_eq (Nat.zero_le _) (by omega), count, USize.toNat_zero,
          List.drop_zero]
      · rfl

theorem mem_of_mem_dropped {α : Type} {operation : Operation}
    {ranked : List α} {item : α} (member : item ∈ operation.dropped ranked) :
    item ∈ ranked := by
  obtain ⟨cut, number⟩ := operation
  cases cut with
  | keepHighest =>
      exact List.mem_of_mem_take member
  | keepLowest =>
      exact List.mem_of_mem_drop member
  | dropHighest =>
      simp only [dropped] at member
      split at member
      · exact List.mem_of_mem_drop member
      · cases member
  | dropLowest =>
      simp only [dropped] at member
      split at member
      · exact List.mem_of_mem_take member
      · cases member

end Operation

/-- The flags without the one at a place within the list. -/
def strikeAt? (flags : List Bool) (place : Nat) : Option (List Bool) :=
  if place < flags.length then some (flags.set place false) else none

theorem getElem?_strikeFrom (struck : List Nat) (start : Nat)
    (flags : List Bool) (place : Nat) :
    (strikeFrom start struck flags)[place]? =
      flags[place]?.map fun flag =>
        flag && !struck.contains (start + place) := by
  induction flags generalizing start place with
  | nil =>
      rfl
  | cons flag flags inductionHypothesis =>
      cases place with
      | zero =>
          rfl
      | succ place =>
          rw [strikeFrom, List.getElem?_cons_succ, inductionHypothesis,
            List.getElem?_cons_succ, Nat.add_right_comm, Nat.add_assoc]

theorem strikeFrom_nil (flags : List Bool) : strikeFrom 0 [] flags = flags := by
  apply List.ext_getElem?
  intro place
  simp [getElem?_strikeFrom]

theorem strikeFrom_cons (first : Nat) (rest : List Nat) (flags : List Bool) :
    strikeFrom 0 (first :: rest) flags =
      strikeFrom 0 rest (flags.set first false) := by
  apply List.ext_getElem?
  intro place
  rw [getElem?_strikeFrom, getElem?_strikeFrom, List.getElem?_set]
  by_cases same : first = place
  · subst same
    by_cases inside : first < flags.length
    · simp [inside]
    · simp [inside]
  · have other : ¬ place = first := fun equal => same equal.symm
    simp [same, other]

theorem foldlM_strikeAt?_eq {struck : List Nat} {flags : List Bool}
    (inside : ∀ place ∈ struck, place < flags.length) :
    struck.foldlM strikeAt? flags = some (strikeFrom 0 struck flags) := by
  induction struck generalizing flags with
  | nil =>
      rw [strikeFrom_nil]
      rfl
  | cons first rest inductionHypothesis =>
      obtain ⟨firstInside, restInside⟩ := List.forall_mem_cons.mp inside
      rw [List.foldlM_cons, strikeAt?, if_pos firstInside, strikeFrom_cons]
      apply inductionHypothesis
      rw [List.length_set]
      exact restInside

theorem length_eligibleFrom_le (start : Nat) (faces : List Nat)
    (eligible : List Bool) :
    (eligibleFrom start faces eligible).length ≤ faces.length := by
  fun_induction eligibleFrom start faces eligible with
  | case1 start face faces eligible inductionHypothesis =>
      exact Nat.succ_le_succ inductionHypothesis
  | case2 start face faces flag eligible passed inductionHypothesis =>
      exact Nat.le_succ_of_le inductionHypothesis
  | case3 =>
      exact Nat.zero_le _

theorem place_lt_of_mem_eligibleFrom {start : Nat} {faces : List Nat}
    {eligible : List Bool} {die : RankedDie}
    (member : die ∈ eligibleFrom start faces eligible) :
    die.place < start + eligible.length := by
  fun_induction eligibleFrom start faces eligible with
  | case1 start face faces eligible inductionHypothesis =>
      rw [List.length_cons]
      obtain rfl | later := List.mem_cons.mp member
      · dsimp only
        omega
      · have := inductionHypothesis later
        omega
  | case2 start face faces flag eligible passed inductionHypothesis =>
      have := inductionHypothesis member
      rw [List.length_cons]
      omega
  | case3 =>
      cases member

/-- For each die, whether it counts. -/
def Expression.keptInWords? (expression : Expression) (faces : List Nat) :
    Option (List Bool) :=
  let eligible := eligibleDice expression.advantage faces
  match expression.operation with
  | none => some eligible
  | some operation => do
      let struck ← operation.droppedInWords? (ranking faces eligible)
      (struck.map RankedDie.place).foldlM strikeAt? eligible

theorem Expression.keptInWords?_eq (expression : Expression)
    {faces : List Nat} (short : faces.length < USize.size) :
    expression.keptInWords? faces = some (keptDice expression faces) := by
  unfold keptInWords? keptDice
  cases expression.operation with
  | none =>
      rfl
  | some operation =>
      have ranked :=
        List.mergeSort_perm
          (eligibleFrom 0 faces (eligibleDice expression.advantage faces))
          RankedDie.rankedUpTo
      have length :
          (ranking faces (eligibleDice expression.advantage faces)).length ≤
            faces.length :=
        ranked.length_eq.trans_le (length_eligibleFrom_le _ _ _)
      dsimp only
      rw [operation.droppedInWords?_eq (Nat.lt_of_le_of_lt length short)]
      apply foldlM_strikeAt?_eq
      intro place struck
      obtain ⟨die, member, rfl⟩ := List.mem_map.mp struck
      have placed :=
        place_lt_of_mem_eligibleFrom
          (ranked.mem_iff.mp (Operation.mem_of_mem_dropped member))
      rwa [Nat.zero_add] at placed

/-- The sum of the dice that count, added up from the first to the last. -/
def sumInWords? (dice : List Die) : Option Int64 :=
  (dice.filter Die.kept).foldlM
    (fun sum die => toWord64? (sum.toInt + die.value.toNat)) 0

/-- Faces added to a sum that is not negative never leave the word, for no sum
on the way is larger than the last. -/
theorem exists_foldlM_toWord64? {dice : List Die} {sum : Int64}
    (nonnegative : 0 ≤ sum.toInt)
    (fits :
      sum.toInt + (dice.map fun die => die.value.toNat).sum < 2 ^ 63) :
    ∃ word,
      dice.foldlM
            (fun sum (die : Die) =>
              toWord64? (sum.toInt + die.value.toNat)) sum =
          some word ∧
        word.toInt =
          sum.toInt + (dice.map fun die => die.value.toNat).sum := by
  induction dice generalizing sum with
  | nil =>
      exact ⟨sum, rfl, (Int.add_zero _).symm⟩
  | cons die dice inductionHypothesis =>
      rw [List.map_cons, List.sum_cons] at fits ⊢
      have within : IsSigned64 (sum.toInt + die.value.toNat) :=
        isSigned64_iff.mpr (by omega)
      obtain ⟨next, added, next_eq⟩ := exists_toWord64? within
      have nextNonnegative : 0 ≤ next.toInt := by
        omega
      obtain ⟨word, rest, word_eq⟩ :=
        inductionHypothesis nextNonnegative (by omega)
      refine ⟨word, ?_, by omega⟩
      rw [List.foldlM_cons, added]
      exact rest

theorem exists_sumInWords {dice : List Die}
    (fits : keptSum dice < 2 ^ 63) :
    ∃ word, sumInWords? dice = some word ∧ word.toInt = keptSum dice := by
  rw [keptSum_eq_sum] at fits ⊢
  have start : (0 : Int64).toInt = 0 := Int64.toInt_zero
  obtain ⟨word, added, word_eq⟩ :=
    exists_foldlM_toWord64? (Int.le_of_eq start.symm)
      (by rw [start, Int.zero_add]; exact_mod_cast fits)
  exact ⟨word, added, by rw [word_eq, start, Int.zero_add]⟩

theorem keptSum_le (dice : List Die) :
    keptSum dice ≤ dice.length * (2 ^ 32 - 1) := by
  rw [keptSum_eq_sum]
  have most :=
    List.sum_le_card_nsmul
      ((dice.filter Die.kept).map fun die => die.value.toNat) (2 ^ 32 - 1)
      (by
        intro face shown
        obtain ⟨die, _, rfl⟩ := List.mem_map.mp shown
        have := die.value.toNat_lt
        omega)
  rw [List.length_map, smul_eq_mul] at most
  exact most.trans (Nat.mul_le_mul_right _ (List.length_filter_le _ _))

/-- The roll in which the dice show the given faces. -/
def Roll.ofFacesInWords? (expression : Expression) (faces : List UInt32) :
    Option Roll := do
  let kept ← expression.keptInWords? (faces.map UInt32.toNat)
  let dice :=
    List.zipWith (fun value kept => ⟨value, expression.sides, kept⟩) faces kept
  let sum ← sumInWords? dice
  let total ← toWord64? (sum.toInt + expression.modifier.toInt)
  some
    { expression := expression
      dice := dice
      keptTotal := sum.toInt
      total := total.toInt }

theorem isSigned64_add_modifier {sum : Nat} (small : sum < 2 ^ 44)
    (modifier : Int32) : IsSigned64 (sum + modifier.toInt) := by
  have least := modifier.le_toInt
  have below := modifier.toInt_lt
  rw [isSigned64_iff]
  omega

theorem Roll.ofFacesInWords?_eq (expression : Expression)
    {faces : List UInt32} (few : faces.length ≤ 2000) :
    Roll.ofFacesInWords? expression faces =
      some (Roll.ofFaces expression faces) := by
  have short : (faces.map UInt32.toNat).length < USize.size := by
    rw [List.length_map]
    exact lt_size_of_le few
  have length : (diceOf expression faces).length ≤ 2000 := by
    rw [diceOf, List.length_zipWith]
    omega
  have small : keptSum (diceOf expression faces) < 2 ^ 44 := by
    have := keptSum_le (diceOf expression faces)
    omega
  obtain ⟨sum, added, sum_eq⟩ :=
    exists_sumInWords (Nat.lt_trans small (by decide))
  obtain ⟨total, shifted, total_eq⟩ :=
    exists_toWord64? (isSigned64_add_modifier small expression.modifier)
  rw [ofFacesInWords?, expression.keptInWords?_eq short]
  simp only [Option.bind_eq_bind, Option.bind_some]
  rw [← diceOf, added, Option.bind_some, sum_eq, shifted, Option.bind_some,
    total_eq]
  rfl

/-- Rolls an expression as `Expression.roll` does, but in words. -/
def Expression.rollInWords? (expression : Expression) (draws : List UInt64) :
    Option (Except RollError Roll × List UInt64) :=
  match expression.fault? with
  | some fault => some (.error (.invalidExpression fault), draws)
  | none => do
      let needed ← expression.physicalDiceInWords?
      let faces ←
        (draws.take needed.toNat).mapM (faceInWords? expression.sides)
      if faces.length < needed.toNat then
        some (.error .drawsExhausted, [])
      else do
        let roll ← Roll.ofFacesInWords? expression faces
        some (.ok roll, draws.drop needed.toNat)

theorem Expression.rollInWords?_eq (expression : Expression)
    (draws : List UInt64) :
    expression.rollInWords? draws = some (expression.roll draws) := by
  unfold rollInWords? roll
  cases valid : expression.fault? with
  | some fault =>
      rfl
  | none =>
      have few := Expression.Valid.physicalDice_le valid
      obtain ⟨needed, counted, needed_eq⟩ :=
        Expression.Valid.exists_physicalDiceInWords valid
      have length :
          (facesOf expression.sides
              (draws.take expression.physicalDice)).length =
            min expression.physicalDice draws.length := by
        rw [facesOf, List.length_map, List.length_take]
      dsimp only
      rw [counted]
      simp only [Option.bind_eq_bind, Option.bind_some]
      rw [needed_eq, mapM_faceInWords?_eq (Expression.Valid.sides_pos valid),
        Option.bind_some, length,
        Roll.ofFacesInWords?_eq expression (by omega), Option.bind_some]
      simp only [min_lt_iff, lt_irrefl, false_or]
      split <;> rfl

/-- The bounds that an expression sets for the numbers of its rolls. -/
structure RollBounds (expression : Expression) (roll : Roll) : Prop where
  value_mem :
    ∀ die ∈ roll.dice,
      1 ≤ die.value.toNat ∧ die.value.toNat ≤ expression.sides.toNat
  length_kept_le : roll.kept.length ≤ roll.keptTotal
  keptTotal_le :
    roll.keptTotal ≤ roll.kept.length * expression.sides.toNat
  limit : roll.kept.length * expression.sides.toNat ≤ 1000 * (2 ^ 32 - 1)
  total_fits : IsSigned64 (roll.keptTotal + expression.modifier.toInt)

theorem RollLaw.bounds {expression : Expression} {draws : List UInt64}
    {roll : Roll} (law : RollLaw expression draws roll)
    (valid : expression.Valid) : RollBounds expression roll := by
  have positive := valid.sides_pos
  have sides := expression.sides.toNat_lt
  have value_mem :
      ∀ die ∈ roll.dice,
        1 ≤ die.value.toNat ∧
          die.value.toNat ≤ expression.sides.toNat := by
    intro die thrown
    rw [law.dice_eq positive] at thrown
    obtain ⟨place, _, rfl⟩ := List.mem_map.mp thrown
    rw [toNat_value_drawnDie positive]
    exact ⟨Nat.le_add_left _ _, Nat.mod_lt _ positive⟩
  have kept_mem :
      ∀ face ∈ roll.kept.map fun die => die.value.toNat,
        1 ≤ face ∧ face ≤ expression.sides.toNat := by
    intro face shown
    obtain ⟨die, kept, rfl⟩ := List.mem_map.mp shown
    exact value_mem die (List.mem_of_mem_filter kept)
  have sum_eq := law.keptTotal_eq_sum_kept positive
  have least :=
    List.card_nsmul_le_sum (roll.kept.map fun die => die.value.toNat) 1
      fun face shown => (kept_mem face shown).1
  have most :=
    List.sum_le_card_nsmul (roll.kept.map fun die => die.value.toNat)
      expression.sides.toNat fun face shown => (kept_mem face shown).2
  rw [List.length_map, smul_eq_mul] at least most
  have few : roll.kept.length ≤ 1000 := by
    rw [law.length_kept positive]
    exact expression.keptNumber_le.trans (expression.valid_iff.mp valid).1.2
  have limit :
      roll.kept.length * expression.sides.toNat ≤ 1000 * (2 ^ 32 - 1) :=
    Nat.mul_le_mul few (by omega)
  refine ⟨value_mem, by omega, ?_, limit, ?_⟩
  · rw [sum_eq]
    exact_mod_cast most
  · rw [sum_eq]
    exact isSigned64_add_modifier (by omega) expression.modifier

/-- A signed 64-bit number, written in decimal with an optional sign. -/
def word64? (text : List Char) : Option Int64 :=
  (signedValue? text).bind toWord64?

/-- The signed number made of a sign and a magnitude. -/
def Sign.applyInWords? (sign : Sign) (magnitude : Int64) : Option Int64 :=
  match sign with
  | .plus => some magnitude
  | .minus => toWord64? (-magnitude.toInt)

/-- The least word has no opposite, but it is no magnitude. -/
theorem Sign.exists_applyInWords (sign : Sign) {magnitude : Int64} {size : Nat}
    (magnitude_eq : magnitude.toInt = size) :
    ∃ word,
      sign.applyInWords? magnitude = some word ∧
        word.toInt = sign.apply size := by
  cases sign with
  | plus =>
      exact ⟨magnitude, rfl, magnitude_eq⟩
  | minus =>
      have below := magnitude.toInt_lt
      rw [applyInWords?, magnitude_eq]
      exact exists_toWord64? (isSigned64_iff.mpr (by omega))

/-- Reads a modifier as `readModifier` does, but in words: digits that do not
fit are refused, and the sign is then applied to a word. -/
def modifierInWords? (sign : Sign) (signLexeme literal : Lexeme) :
    Option (Except NotationError Int32) :=
  let outOfRange : NotationError :=
    ⟨.modifierOutOfRange, ⟨signLexeme.span.start, literal.span.stop⟩⟩
  match word64? literal.text with
  | none => some (.error outOfRange)
  | some magnitude => do
      let value ← sign.applyInWords? magnitude
      match toWord32? value.toInt with
      | some modifier => some (.ok modifier)
      | none => some (.error outOfRange)

theorem toWord32?_eq_none {value : Int}
    (outside : value < -2 ^ 31 ∨ 2 ^ 31 ≤ value) : toWord32? value = none := by
  rw [toWord32?, if_neg]
  rw [Int32.toInt_minValue, Int32.toInt_maxValue]
  omega

theorem modifierInWords?_eq {literal : Lexeme}
    (spelled : Spells .number literal.text) (sign : Sign)
    (signLexeme : Lexeme) :
    modifierInWords? sign signLexeme literal =
      some (readModifier sign signLexeme literal) := by
  obtain ⟨numeral, digits⟩ := spelled.exists_numeral
  have value : numeral.value = literal.value := by
    rw [Numeral.value, Lexeme.value, digits]
  have given : word64? literal.text = toWord64? literal.value := by
    rw [word64?, digits, numeral.signedValue?_digits, value, Option.bind_some]
  unfold modifierInWords? readModifier
  rw [given]
  by_cases fits : IsSigned64 (literal.value : Int)
  · obtain ⟨magnitude, read, magnitude_eq⟩ := exists_toWord64? fits
    obtain ⟨word, applied, word_eq⟩ := sign.exists_applyInWords magnitude_eq
    rw [read]
    dsimp only
    rw [applied]
    simp only [Option.bind_eq_bind, Option.bind_some, word_eq]
    cases toWord32? (sign.apply literal.value) <;> rfl
  · have outside : toWord32? (sign.apply literal.value) = none := by
      apply toWord32?_eq_none
      rw [isSigned64_iff] at fits
      unfold Sign.apply
      split <;> omega
    rw [toWord64?, if_neg fits, outside]

/-- Nothing in a roll leaves its word, divides by zero or reaches outside a
list: rolling in words gives what rolling with numbers of any size gives, for
every expression and all draws. The rolls of a valid expression keep the bounds
that it sets. Nor does a modifier leave its word when a notation is read. -/
theorem arithmetic_stays_in_words :
    (∀ (expression : Expression) (draws : List UInt64),
        expression.rollInWords? draws = some (expression.roll draws)) ∧
      (∀ (expression : Expression) (draws : List UInt64),
        expression.Valid → expression.physicalDice ≤ draws.length →
          ∃ roll,
            (expression.roll draws).1 = .ok roll ∧
              RollBounds expression roll) ∧
      ∀ (text : List Char) (sign : Sign) (signLexeme literal : Lexeme),
        literal ∈ lexemes text → literal.token = .number →
          modifierInWords? sign signLexeme literal =
            some (readModifier sign signLexeme literal) := by
  refine ⟨Expression.rollInWords?_eq, ?_, ?_⟩
  · intro expression draws valid enough
    obtain ⟨roll, rolled, law⟩ := exists_roll_of_enough valid enough
    exact ⟨roll, by rw [rolled], law.bounds valid⟩
  · intro text sign signLexeme literal member number
    have spelled := spells_of_mem_lexemes member
    rw [number] at spelled
    exact modifierInWords?_eq spelled sign signLexeme

/-- At the limits: a pair of dice with the most sides, on which the largest
draw shows the lowest face and the other draw the highest, an operation that
asks for more dice than there are, and the least modifier. -/
theorem arithmetic_stays_in_words_at_limits :
    let expression : Expression :=
      ⟨1, 4294967295, -2147483648, some ⟨.dropHighest, 4294967295⟩, true⟩
    let draws : List UInt64 := [18446744073709551615, 4294967294]
    let text := "d4294967295-2147483648".toList
    let sign : Lexeme := ⟨.sign .minus, ['-'], ⟨11, 12⟩⟩
    let literal : Lexeme := ⟨.number, "2147483648".toList, ⟨12, 22⟩⟩
    expression.Valid ∧
      expression.physicalDice = draws.length ∧
      (∃ roll,
        expression.rollInWords? draws = some (.ok roll, []) ∧
          RollBounds expression roll ∧ roll.total = 2147483647) ∧
      literal ∈ lexemes text ∧
      modifierInWords? .minus sign literal = some (.ok (-2147483648)) := by
  intro expression draws text sign literal
  have valid : expression.Valid := by
    decide
  have cut :
      lexemes "d4294967295-2147483648".toList =
        [⟨.die, ['d'], ⟨0, 1⟩⟩, ⟨.number, "4294967295".toList, ⟨1, 11⟩⟩,
          ⟨.sign .minus, ['-'], ⟨11, 12⟩⟩,
          ⟨.number, "2147483648".toList, ⟨12, 22⟩⟩] := by
    cbv
  have member : literal ∈ lexemes text := by
    rw [cut]
    exact List.mem_of_getLast? rfl
  obtain ⟨inWords, bounds, modifiers⟩ := arithmetic_stays_in_words
  obtain ⟨roll, rolled, within⟩ := bounds expression draws valid (by decide)
  have thrown :
      expression.roll draws =
        (.ok
            ⟨expression, [⟨1, 4294967295, false⟩, ⟨4294967295, 4294967295, true⟩],
              4294967295, 2147483647⟩,
          []) := by
    cbv
  rw [thrown] at rolled
  cases rolled
  refine ⟨valid, rfl, ⟨_, ?_, within, rfl⟩, member, ?_⟩
  · rw [inWords, thrown]
  · rw [modifiers text .minus sign literal member rfl]
    rfl

end Tabletop.Dice
