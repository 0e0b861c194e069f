import Tabletop.Proofs.Recasting
import Tabletop.Text.Lowercase

/-!
# Letter case of command words

Command words are written with letters of the seven-bit range. On such letters
the full lower-case form is the plain one. The other way round, a letter that
is put into lower case as one of them stands in that range itself, except that
`i` and `k` also come from the capital I with a dot and from the Kelvin sign.
-/

namespace Tabletop.Text

/-- A small letter of the seven-bit range that only itself and its capital are
put into lower case as. -/
def IsSteady (letter : Char) : Prop :=
  97 ≤ letter.toNat ∧ letter.toNat ≤ 122 ∧ letter ≠ 'i' ∧ letter ≠ 'k'

instance (letter : Char) : Decidable (IsSteady letter) :=
  inferInstanceAs (Decidable (_ ∧ _))

theorem lowerChar_ofNat_of_ascii :
    ∀ point < 128,
      lowerChar (Char.ofNat point) = [(Char.ofNat point).toLower] := by
  decide +kernel

theorem lowerChar_of_ascii {letter : Char} (small : letter.toNat < 128) :
    lowerChar letter = [letter.toLower] := by
  have lowered := lowerChar_ofNat_of_ascii letter.toNat small
  rwa [Char.ofNat_toNat] at lowered

theorem ascii_of_toLower {letter : Char} (small : letter.toLower.toNat < 128) :
    letter.toNat < 128 := by
  rcases Dice.eq_or_capital_of_toLower_eq (rfl : letter.toLower = _) with
    same | ⟨_, apart⟩
  · rwa [← same] at small
  · omega

/-- Only two runs of the table lead into the seven-bit range: that of the
capital letters and that of the Kelvin sign. -/
theorem run_of_ascii_target :
    ∀ run ∈ lowercaseRuns,
      run.target ≤ 122 →
        run = ⟨0x41, 0x5A, 1, 0x61⟩ ∨ run = ⟨0x212A, 0x212A, 1, 0x6B⟩ := by
  decide +kernel

theorem toLower_of_image {letter low : Char} {run : CaseRun}
    (member : run ∈ lowercaseRuns) (steady : IsSteady low)
    (image : run.image? letter.toNat = some low.toNat) :
    letter.toLower = low := by
  obtain ⟨least, greatest, notI, notK⟩ := steady
  unfold CaseRun.image? at image
  split at image
  · rename_i held
    rw [Option.some.injEq] at image
    rcases run_of_ascii_target run member (by omega) with rfl | rfl
    · have capital : letter.isUpper = true := by
        simp only [Char.isUpper, ge_iff_le, decide_eq_true_eq]
        exact ⟨held.1, held.2.1⟩
      obtain ⟨_, _, lowered⟩ := Dice.toNat_toLower_of_isUpper capital
      rw [← Char.ofNat_toNat letter.toLower, ← Char.ofNat_toNat low, lowered,
        ← image]
      congr 1
      dsimp only at held ⊢
      omega
    · have kelvin : letter.toNat = 0x212A := Nat.le_antisymm held.2.1 held.1
      rw [kelvin] at image
      have known : low = 'k' := by
        rw [← Char.ofNat_toNat low, ← image]
        rfl
      exact absurd known notK
  · cases image

/-- A letter whose lower-case form is steady is put into lower case as in the
seven-bit range. -/
theorem lowerChar_of_steady {letter : Char}
    (steady : ∀ low ∈ lowerChar letter, IsSteady low) :
    lowerChar letter = [letter.toLower] := by
  unfold lowerChar at steady ⊢
  split
  · rename_i dotted
    rw [if_pos dotted] at steady
    exact absurd (steady 'i' (List.mem_cons_self ..)) (by decide)
  · rename_i notDotted
    rw [if_neg notDotted] at steady
    split
    · rename_i point found
      rw [found] at steady
      have low := steady (Char.ofNat point) (List.mem_singleton_self _)
      have same : (Char.ofNat point).toNat = point := by
        have least := low.1
        rw [Char.toNat_ofNat] at least ⊢
        split at least
        · rename_i valid
          rw [if_pos valid]
        · omega
      obtain ⟨run, member, image⟩ := List.exists_of_findSome?_eq_some found
      rw [toLower_of_image member low (by rw [image, same])]
    · rename_i notFound
      rw [notFound] at steady
      have low := steady letter (List.mem_singleton_self _)
      have least := low.1
      rw [Dice.toLower_of_lt (by omega)]

theorem lowerBehind_of_ascii {backwards text : List Char}
    (small : ∀ letter ∈ text, letter.toNat < 128) :
    lowerBehind backwards text = text.map Char.toLower := by
  induction text generalizing backwards with
  | nil =>
      rfl
  | cons letter rest inductionHypothesis =>
      rw [List.forall_mem_cons] at small
      have plain : letter ≠ 'Σ' := by
        rintro rfl
        exact absurd small.1 (by decide)
      rw [lowerBehind, if_neg plain, lowerChar_of_ascii small.1,
        inductionHypothesis small.2]
      rfl

/-- A word of the seven-bit range is put into lower case letter by letter. -/
theorem lowerChars_of_ascii {word : List Char}
    (small : ∀ letter ∈ word, letter.toNat < 128) :
    lowerChars word = word.map Char.toLower :=
  lowerBehind_of_ascii small

theorem lowerBehind_of_steady {backwards text : List Char}
    (steady : ∀ low ∈ lowerBehind backwards text, IsSteady low) :
    lowerBehind backwards text = text.map Char.toLower := by
  induction text generalizing backwards with
  | nil =>
      rfl
  | cons letter rest inductionHypothesis =>
      rw [lowerBehind, List.forall_mem_append] at steady
      obtain ⟨first, later⟩ := steady
      have plain : letter ≠ 'Σ' := by
        intro sigma
        rw [if_pos sigma, List.forall_mem_singleton] at first
        split at first <;> exact absurd first (by decide)
      rw [if_neg plain] at first
      rw [lowerBehind, if_neg plain, lowerChar_of_steady first,
        inductionHypothesis later]
      rfl

/-- A word is put into lower case letter by letter, as in the seven-bit range,
whenever steady letters come out either way. -/
theorem lowerChars_eq_iff_of_steady {word target : List Char}
    (steady : ∀ low ∈ target, IsSteady low) :
    lowerChars word = target ↔ word.map Char.toLower = target := by
  constructor
  · intro lowered
    subst lowered
    exact (lowerBehind_of_steady steady).symm
  · intro lowered
    subst lowered
    apply lowerChars_of_ascii
    intro letter member
    have low := steady letter.toLower (List.mem_map_of_mem member)
    have greatest := low.2.1
    exact ascii_of_toLower (by omega)

end Tabletop.Text
