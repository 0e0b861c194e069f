import Mathlib
import Tabletop.Json.Read

/-!
# Reading what is written

A reader gives back what is written, and takes exactly that off the front of
the tokens. This is settled once for objects, whose fields may stand in any
order, and for arrays; what is particular to a record is what each of its
fields does.
-/

namespace Tabletop.Json

variable {φ α ρ : Type}

/-- What is written is read with this outcome, whatever stands behind it. A
value is taken off the front; a fault is final. -/
def Yields (reader : Reader φ α) (written : List JsonToken)
    (outcome : Except (ReadError φ) α) : Prop :=
  ∀ rest, reader (written ++ rest) = outcome.map fun value => (value, rest)

/-- The value, or a fault in its place. -/
def verdict (fault? : Option (ReadError φ)) (value : α) :
    Except (ReadError φ) α :=
  match fault? with
  | none => .ok value
  | some fault => .error fault

theorem yields_readInteger {low high value : Int} (least : low ≤ value)
    (greatest : value ≤ high) :
    Yields (readInteger low high : Reader φ Int) [.integer value]
      (.ok value) := by
  intro rest
  exact if_pos ⟨least, greatest⟩

theorem yields_readUnsigned32 (value : UInt32) :
    Yields (readUnsigned32 : Reader φ UInt32) [.integer value.toNat]
      (.ok value) := by
  intro rest
  have small := value.toNat_lt
  have least : (0 : Int) ≤ value.toNat := Int.natCast_nonneg _
  have greatest : (value.toNat : Int) ≤ UInt32.size - 1 := by
    unfold UInt32.size
    omega
  rw [readUnsigned32, yields_readInteger least greatest rest]
  show Except.ok (UInt32.ofNat value.toNat, rest) = _
  rw [UInt32.ofNat_toNat]
  rfl

theorem yields_readSigned32 (value : Int32) :
    Yields (readSigned32 : Reader φ Int32) [.integer value.toInt]
      (.ok value) := by
  intro rest
  rw [readSigned32,
    yields_readInteger value.minValue_le_toInt value.toInt_le rest]
  show Except.ok (Int32.ofInt value.toInt, rest) = _
  rw [Int32.ofInt_toInt]
  rfl

theorem yields_readBool (value : Bool) :
    Yields (readBool : Reader φ Bool) [.bool value] (.ok value) := by
  intro rest
  rfl

theorem yields_readOnce {reader : Reader φ α} {written : List JsonToken}
    {fault? : Option (ReadError φ)} {value : α}
    (yields : Yields reader written (verdict fault? value))
    {former : Option α} (unset : former = none) {set : Option α → ρ}
    {changed : ρ} (changes : set (some value) = changed) :
    Yields (readOnce former reader set) written (verdict fault? changed) := by
  intro rest
  subst unset
  subst changes
  rw [readOnce, yields rest]
  cases fault? <;> rfl

theorem yields_readOnce_of_ok {reader : Reader φ α}
    {written : List JsonToken} {value : α}
    (yields : Yields reader written (.ok value)) {former : Option α}
    (unset : former = none) {set : Option α → ρ} {changed : ρ}
    (changes : set (some value) = changed) :
    Yields (readOnce former reader set) written (.ok changed) := by
  have judged : Yields reader written (verdict none value) := yields
  exact yields_readOnce judged unset changes

theorem separated_cons (item : List JsonToken) (rest : List (List JsonToken)) :
    separated (item :: rest) = item ++ rest.flatMap (JsonToken.comma :: ·) := by
  induction rest generalizing item with
  | nil =>
      rw [separated, List.flatMap_nil, List.append_nil]
  | cons next later inductionHypothesis =>
      rw [separated, inductionHypothesis, List.flatMap_cons, List.cons_append]
      nofun

theorem length_le_length_flatMap (items : List (List JsonToken)) :
    items.length ≤ (items.flatMap (JsonToken.comma :: ·)).length := by
  induction items with
  | nil =>
      exact Nat.le_refl 0
  | cons item rest inductionHypothesis =>
      simp only [List.flatMap_cons, List.length_append, List.length_cons]
      omega

section Objects

variable {F : Type} {name : F → String} {written : F → List JsonToken}
  {readField : ρ → List Char → Reader φ ρ} {record : List F → ρ}
  {fault? : F → Option (ReadError φ)}

/-- A field that has not been read before is read into the record, or refused
for its fault. -/
def ReadsFields (name : F → String) (written : F → List JsonToken)
    (readField : ρ → List Char → Reader φ ρ) (record : List F → ρ)
    (fault? : F → Option (ReadError φ)) : Prop :=
  ∀ before field, field ∉ before →
    Yields (readField (record before) (name field).toList) (written field)
      (verdict (fault? field) (record (before ++ [field])))

def fieldTokens (name : F → String) (written : F → List JsonToken)
    (field : F) : List JsonToken :=
  nameToken (name field) :: .colon :: written field

section Step

variable (reads : ReadsFields name written readField record fault?)
  {field : F} {before : List F} (fresh : field ∉ before) (most : Nat)
  (tail : List JsonToken)

include reads fresh

theorem ReadsFields.readFieldsWithin_of_fault {fault : ReadError φ}
    (faulty : fault? field = some fault) :
    readFieldsWithin readField (most + 1) (record before)
        (fieldTokens name written field ++ tail) =
      .error fault := by
  have refused := reads before field fresh tail
  rw [faulty] at refused
  simp only [fieldTokens, nameToken, List.cons_append, readFieldsWithin,
    refused]
  rfl

theorem ReadsFields.readFieldsWithin_comma (sound : fault? field = none) :
    readFieldsWithin readField (most + 1) (record before)
        (fieldTokens name written field ++ .comma :: tail) =
      readFieldsWithin readField most (record (before ++ [field])) tail := by
  have read := reads before field fresh (.comma :: tail)
  rw [sound] at read
  simp only [fieldTokens, nameToken, List.cons_append, readFieldsWithin, read]
  rfl

theorem ReadsFields.readFieldsWithin_closeBrace
    (sound : fault? field = none) :
    readFieldsWithin readField (most + 1) (record before)
        (fieldTokens name written field ++ .closeBrace :: tail) =
      .ok (record (before ++ [field]), tail) := by
  have read := reads before field fresh (.closeBrace :: tail)
  rw [sound] at read
  simp only [fieldTokens, nameToken, List.cons_append, readFieldsWithin, read]
  rfl

end Step

theorem objectTokens_append (fields : List F) (rest : List JsonToken) :
    objectTokens (fields.map fun field => (name field, written field)) ++
        rest =
      .openBrace ::
        (separated (fields.map (fieldTokens name written)) ++
            [.closeBrace] ++
          rest) := by
  rw [objectTokens, List.map_map]
  rfl

theorem ReadsFields.readFieldsWithin_eq
    (reads : ReadsFields name written readField record fault?)
    {field : F} {later before : List F} {most : Nat}
    (enough : later.length < most)
    (distinct : (before ++ field :: later).Nodup) (rest : List JsonToken) :
    readFieldsWithin readField most (record before)
        (fieldTokens name written field ++
          ((later.map (fieldTokens name written)).flatMap
              (JsonToken.comma :: ·) ++
            .closeBrace :: rest)) =
      (verdict ((field :: later).findSome? fault?)
          (record (before ++ field :: later))).map fun changed =>
        (changed, rest) := by
  -- The record holds the fields read so far, so with each field `before` grows
  -- as the rest gets shorter; the bound is counted down by one each time.
  induction later generalizing field before most with
  | nil =>
      have fresh : field ∉ before := fun earlier =>
        List.disjoint_of_nodup_append distinct earlier List.mem_cons_self
      obtain ⟨most, rfl⟩ :=
        Nat.exists_eq_add_one_of_ne_zero (Nat.ne_zero_of_lt enough)
      rw [List.map_nil, List.flatMap_nil, List.nil_append, List.findSome?_cons]
      cases judged : fault? field with
      | none =>
          rw [reads.readFieldsWithin_closeBrace fresh most rest judged]
          rfl
      | some fault =>
          rw [reads.readFieldsWithin_of_fault fresh most _ judged]
          rfl
  | cons next later inductionHypothesis =>
      have fresh : field ∉ before := fun earlier =>
        List.disjoint_of_nodup_append distinct earlier List.mem_cons_self
      obtain ⟨most, rfl⟩ :=
        Nat.exists_eq_add_one_of_ne_zero (Nat.ne_zero_of_lt enough)
      rw [List.map_cons, List.flatMap_cons, List.findSome?_cons]
      cases judged : fault? field with
      | none =>
          rw [List.append_cons before field] at distinct ⊢
          rw [List.cons_append, List.cons_append,
            reads.readFieldsWithin_comma fresh most _ judged,
            List.append_assoc]
          exact inductionHypothesis (Nat.lt_of_succ_lt_succ enough) distinct
      | some fault =>
          rw [reads.readFieldsWithin_of_fault fresh most _ judged]
          rfl

theorem readFields_fieldTokens (readField : ρ → List Char → Reader φ ρ)
    (record : ρ) (field : F) (tail : List JsonToken) :
    readFields readField record (fieldTokens name written field ++ tail) =
      readFieldsWithin readField
        (fieldTokens name written field ++ tail).length record
        (fieldTokens name written field ++ tail) :=
  rfl

/-- An object is read whatever the order of its fields. -/
theorem ReadsFields.yields_readFields
    (reads : ReadsFields name written readField record fault?)
    {fields : List F} (distinct : fields.Nodup) :
    Yields (readFields readField (record []))
      (separated (fields.map (fieldTokens name written)) ++ [.closeBrace])
      (verdict (fields.findSome? fault?) (record fields)) := by
  cases fields with
  | nil =>
      intro rest
      rfl
  | cons field later =>
      intro rest
      rw [List.map_cons, separated_cons, List.append_assoc, List.append_assoc,
        List.singleton_append]
      have enough (first : List JsonToken) :
          later.length <
            (first ++
              ((later.map (fieldTokens name written)).flatMap
                  (JsonToken.comma :: ·) ++
                .closeBrace :: rest)).length := by
        have items := length_le_length_flatMap
          (later.map (fieldTokens name written))
        rw [List.length_map] at items
        simp only [List.length_append, List.length_cons]
        omega
      have whole : (([] : List F) ++ field :: later).Nodup := distinct
      rw [readFields_fieldTokens]
      exact reads.readFieldsWithin_eq (enough _) whole rest

theorem ReadsFields.yields_readFields_of_sound
    (reads : ReadsFields name written readField record fun _ => none)
    {fields : List F} (distinct : fields.Nodup) :
    Yields (readFields readField (record []))
      (separated (fields.map (fieldTokens name written)) ++ [.closeBrace])
      (.ok (record fields)) := by
  have read := reads.yields_readFields distinct
  rwa [List.findSome?_eq_none_iff.mpr fun _ _ => rfl] at read

end Objects

section Arrays

variable {reader : Reader φ α} {values : List α}
  {items : List (List JsonToken)}

/-- An item does not begin like the end of the array. -/
def YieldsItem (reader : Reader φ α) (value : α)
    (item : List JsonToken) : Prop :=
  Yields reader item (.ok value) ∧
    ∃ first rest, item = first :: rest ∧ first ≠ .closeBracket

theorem YieldsItem.readItem?_first {value : α} {item : List JsonToken}
    (yields : YieldsItem reader value item) (rest : List JsonToken) :
    readItem? true reader (item ++ rest) = .ok (some value, rest) := by
  obtain ⟨read, first, more, rfl, other⟩ := yields
  unfold readItem?
  split
  · rename_i same
    exact absurd (List.cons_eq_cons.mp same).1 other
  · rw [if_pos rfl]
    show (reader (first :: more ++ rest) >>= _) = _
    rw [read rest]
    rfl

theorem YieldsItem.readItem?_later {value : α} {item : List JsonToken}
    (yields : YieldsItem reader value item) (rest : List JsonToken) :
    readItem? false reader (.comma :: item ++ rest) =
      .ok (some value, rest) := by
  show (reader (item ++ rest) >>= _) = _
  rw [yields.1 rest]
  rfl

theorem readItemsWithin_later
    (yields : List.Forall₂ (YieldsItem reader) values items) {most : Nat}
    (enough : items.length < most) (rest : List JsonToken) :
    readItemsWithin reader most false
        (items.flatMap (JsonToken.comma :: ·) ++ .closeBracket :: rest) =
      .ok (values, rest) := by
  induction yields generalizing most with
  | nil =>
      obtain ⟨most, rfl⟩ :=
        Nat.exists_eq_add_one_of_ne_zero (Nat.ne_zero_of_lt enough)
      rfl
  | cons yields later inductionHypothesis =>
      obtain ⟨most, rfl⟩ :=
        Nat.exists_eq_add_one_of_ne_zero (Nat.ne_zero_of_lt enough)
      rw [List.flatMap_cons, List.append_assoc, readItemsWithin,
        yields.readItem?_later]
      show (readItemsWithin reader most false _ >>= _) = _
      rw [inductionHypothesis (Nat.lt_of_succ_lt_succ enough)]
      rfl

theorem yields_readArray
    (yields : List.Forall₂ (YieldsItem reader) values items) :
    Yields (readArray reader) (arrayTokens items) (.ok values) := by
  intro rest
  cases yields with
  | nil =>
      rfl
  | cons yields later =>
      rename_i item _ items
      have enough (first : List JsonToken) :
          items.length <
            (first ++
              (items.flatMap (JsonToken.comma :: ·) ++
                .closeBracket :: rest)).length := by
        have known := length_le_length_flatMap items
        simp only [List.length_append, List.length_cons]
        omega
      have shape :
          arrayTokens (item :: items) ++ rest =
            .openBracket ::
              (item ++
                (items.flatMap (JsonToken.comma :: ·) ++
                  .closeBracket :: rest)) := by
        rw [arrayTokens, separated_cons]
        simp only [List.cons_append, List.append_assoc, List.nil_append]
      rw [shape, readArray, readItemsWithin, yields.readItem?_first]
      show (readItemsWithin reader _ false _ >>= _) = _
      rw [readItemsWithin_later later (enough item)]
      rfl

end Arrays

theorem readText_of_yields {reader : Reader φ α} {written : List JsonToken}
    {outcome : Except (ReadError φ) α}
    (yields : Yields reader written outcome) {text : String}
    (spelled : tokens text.toList = written) :
    readText reader text = outcome := by
  have read := yields []
  rw [List.append_nil] at read
  rw [readText, spelled, read]
  cases outcome <;> rfl

theorem exists_of_readText_eq_ok {reader : Reader φ α} {text : String}
    {value : α} (reads : readText reader text = .ok value) :
    ∃ rest, reader (tokens text.toList) = .ok (value, rest) := by
  cases answer : reader (tokens text.toList) with
  | error error =>
      rw [readText, answer] at reads
      cases reads
  | ok read =>
      obtain ⟨found, rest⟩ := read
      rw [readText, answer] at reads
      cases rest with
      | nil =>
          cases reads
          exact ⟨[], rfl⟩
      | cons token more =>
          cases reads

theorem exists_of_readOnce_eq_ok {former : Option α} {reader : Reader φ α}
    {set : Option α → ρ} {tokens rest : List JsonToken} {changed : ρ}
    (reads : readOnce former reader set tokens = .ok (changed, rest)) :
    ∃ value,
      reader tokens = .ok (value, rest) ∧ changed = set (some value) := by
  cases former with
  | some earlier =>
      cases reads
  | none =>
      rw [readOnce] at reads
      cases answer : reader tokens with
      | error error =>
          rw [answer] at reads
          cases reads
      | ok read =>
          rw [answer] at reads
          cases reads
          exact ⟨read.1, rfl, rfl⟩

theorem exists_of_readItem?_eq_ok {first : Bool} {reader : Reader φ α}
    {tokens rest : List JsonToken} {value : α}
    (reads : readItem? first reader tokens = .ok (some value, rest)) :
    ∃ before, reader before = .ok (value, rest) := by
  have behind (before : List JsonToken)
      (reads :
        (reader before >>= fun read => pure (some read.1, read.2)) =
          .ok (some value, rest)) :
      ∃ before, reader before = .ok (value, rest) := by
    cases answer : reader before with
    | error error =>
        rw [answer] at reads
        cases reads
    | ok read =>
        rw [answer] at reads
        cases reads
        exact ⟨before, answer⟩
  unfold readItem? at reads
  split at reads
  · cases reads
  · split at reads
    · exact behind _ reads
    · split at reads
      · exact behind _ reads
      · cases reads

theorem exists_of_readItem_eq_ok {first : Bool} {reader : Reader φ α}
    {tokens rest : List JsonToken} {value : α}
    (reads : readItem first reader tokens = .ok (value, rest)) :
    ∃ before, reader before = .ok (value, rest) := by
  cases answer : readItem? first reader tokens with
  | error error =>
      rw [readItem, answer] at reads
      cases reads
  | ok read =>
      obtain ⟨item, later⟩ := read
      rw [readItem, answer] at reads
      cases item with
      | none =>
          cases reads
      | some found =>
          cases reads
          exact exists_of_readItem?_eq_ok answer

theorem readFieldsWithin_preserves {readField : ρ → List Char → Reader φ ρ}
    {holds : ρ → Prop}
    (step : ∀ record name tokens changed rest,
      holds record → readField record name tokens = .ok (changed, rest) →
        holds changed)
    {most : Nat} {record changed : ρ} {tokens rest : List JsonToken}
    (initial : holds record)
    (reads :
      readFieldsWithin readField most record tokens = .ok (changed, rest)) :
    holds changed := by
  fun_induction readFieldsWithin readField most record tokens with
  | case1 =>
      cases reads
  | case2 most record name tokens next later answer inductionHypothesis =>
      exact inductionHypothesis (step _ _ _ _ _ initial answer) reads
  | case3 most record name tokens next later answer =>
      cases reads
      exact step _ _ _ _ _ initial answer
  | case4 =>
      cases reads
  | case5 =>
      cases reads

theorem readFields_preserves {readField : ρ → List Char → Reader φ ρ}
    {holds : ρ → Prop}
    (step : ∀ record name tokens changed rest,
      holds record → readField record name tokens = .ok (changed, rest) →
        holds changed)
    {record changed : ρ} {tokens rest : List JsonToken}
    (initial : holds record)
    (reads : readFields readField record tokens = .ok (changed, rest)) :
    holds changed := by
  unfold readFields at reads
  split at reads
  · cases reads
    exact initial
  · exact readFieldsWithin_preserves step initial reads

end Tabletop.Json
