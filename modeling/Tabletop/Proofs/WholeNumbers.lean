import Mathlib
import Tabletop.Number.Binary64

/-!
# Whole numbers in binary64

A number of units that its own spacing divides is in the format, and no
operation rounds it. Whole numbers under 2^53 are such numbers, so their sums
and products are exact as long as they stay under 2^53. Near 2^64 all numbers
of the format are whole, so that none of them comes between 2^64 - 1 and 2^64.
-/

namespace Tabletop.Number

/-- A quotient is rounded to zero when it is at most one half. -/
theorem roundHalfEven_eq_zero_iff {numerator denominator : Nat}
    (positive : 0 < denominator) :
    roundHalfEven numerator denominator = 0 ↔ 2 * numerator ≤ denominator := by
  simp only [roundHalfEven]
  by_cases small : numerator < denominator
  · rw [Nat.div_eq_of_lt small, Nat.mod_eq_of_lt small]
    split
    · omega
    · split <;> omega
  · have quotient : 0 < numerator / denominator :=
      Nat.div_pos (Nat.not_lt.mp small) positive
    split
    · omega
    · split <;> omega

theorem roundHalfEven_le_succ (numerator denominator : Nat) :
    roundHalfEven numerator denominator ≤ numerator / denominator + 1 := by
  simp only [roundHalfEven]
  split
  · omega
  · split <;> omega

/-- Rounding does not lead past a whole number. -/
theorem roundHalfEven_le {numerator denominator bound : Nat}
    (positive : 0 < denominator) (below : numerator ≤ bound * denominator) :
    roundHalfEven numerator denominator ≤ bound := by
  rcases below.eq_or_lt with rfl | strictly
  · rw [roundHalfEven_mul_right bound positive]
  · have quotient : numerator / denominator < bound :=
      (Nat.div_lt_iff_lt_mul positive).mpr strictly
    exact (roundHalfEven_le_succ _ _).trans quotient

namespace Binary64

theorem one_eq : one = 2 ^ 1074 := by
  decide +kernel

theorem one_pos : 0 < one := by
  decide +kernel

/-- Under 2^(53 + k) neighbours in the format are at most 2^k apart. -/
theorem spacing_dvd {units places : Nat} (small : units < 2 ^ (53 + places)) :
    spacing units ∣ 2 ^ places := by
  apply Nat.pow_dvd_pow
  by_cases zero : units = 0
  · subst zero
    simp
  · have digits := (Nat.log2_lt zero).mpr small
    omega

theorem spacing_le {units places : Nat} (small : units < 2 ^ (53 + places)) :
    spacing units ≤ 2 ^ places :=
  Nat.le_of_dvd (Nat.two_pow_pos places) (spacing_dvd small)

/-- A quotient that is a number of the format is not changed by rounding. -/
theorem nearestUnits_mul {units denominator : Nat}
    (positive : 0 < denominator) (exact : spacing units ∣ units)
    (small : units < overflow) :
    nearestUnits (units * denominator) denominator = finite units := by
  obtain ⟨multiple, whole⟩ := exact
  have gap : 0 < denominator * spacing units :=
    Nat.mul_pos positive (Nat.pow_pos (by decide))
  have regrouped :
      units * denominator = multiple * (denominator * spacing units) := by
    conv_lhs => rw [whole]
    ring
  have rounded :
      roundHalfEven (units * denominator) (denominator * spacing units) =
        multiple := by
    rw [regrouped, roundHalfEven_mul_right multiple gap]
  simp only [nearestUnits, Nat.mul_div_cancel units positive, rounded]
  rw [Nat.mul_comm multiple, ← whole, if_pos small]

/-- A whole number, in units. -/
def whole (value : Nat) : Binary64 :=
  finite (value * one)

theorem whole_zero : whole 0 = finite 0 := by
  rw [whole, Nat.zero_mul]

theorem nearestUnits_whole {value denominator : Nat} (small : value < 2 ^ 53)
    (positive : 0 < denominator) :
    nearestUnits (value * one * denominator) denominator = whole value := by
  have bound : value * one < 2 ^ 53 * one :=
    Nat.mul_lt_mul_of_pos_right small one_pos
  have power : 2 ^ 53 * one = 2 ^ (53 + 1074) := by
    rw [one_eq, Nat.pow_add]
  have apart : spacing (value * one) ∣ one := by
    rw [power] at bound
    rw [one_eq] at bound ⊢
    exact spacing_dvd bound
  have finite : value * one < overflow :=
    bound.trans_le (by decide +kernel)
  exact nearestUnits_mul positive (apart.mul_left value) finite

theorem ofNat_eq_whole {value : Nat} (small : value < 2 ^ 53) :
    ofNat value = whole value := by
  have rounded := nearestUnits_whole small Nat.one_pos
  rwa [Nat.mul_one] at rounded

theorem mul_whole {first second : Nat} (small : first * second < 2 ^ 53) :
    (whole first).mul (whole second) = whole (first * second) := by
  rw [← nearestUnits_whole small one_pos]
  simp only [whole, mul]
  ring_nf

theorem add_whole {first second : Nat} (small : first + second < 2 ^ 53) :
    (whole first).add (whole second) = whole (first + second) := by
  rw [← nearestUnits_whole small Nat.one_pos]
  simp only [whole, add]
  ring_nf

/-- A whole number of seconds under 2^53 is rounded to no other duration. -/
theorem nanoseconds?_whole {value : Nat} (small : value < 2 ^ 53) :
    (whole value).nanoseconds? = some (value * 1000000000) := by
  have bound : value * one < UInt64.size * one :=
    Nat.mul_lt_mul_of_pos_right (small.trans (by decide)) one_pos
  simp only [whole, nanoseconds?]
  rw [if_pos bound, Nat.mul_right_comm, roundHalfEven_mul_right _ one_pos]

/-- If the number is under 2^64, it is no greater than 2^64 - 1. -/
def KeepsClear (number : Binary64) : Prop :=
  ∀ units,
    number = finite units →
      units < UInt64.size * one → units ≤ (UInt64.size - 1) * one

theorem keepsClear_nearestUnits (numerator denominator : Nat) :
    (nearestUnits numerator denominator).KeepsClear := by
  intro units nearest under
  simp only [nearestUnits] at nearest
  generalize whole : numerator / denominator = quotient at nearest
  have rounded :=
    roundHalfEven_le_succ numerator (denominator * spacing quotient)
  rw [← Nat.div_div_eq_div_mul, whole] at rounded
  split at nearest
  · obtain rfl := finite.inj nearest
    generalize
      roundHalfEven numerator (denominator * spacing quotient) = multiple
      at rounded under ⊢
    -- Far below 2^64 there is room enough; from there on the format is whole.
    rcases Nat.lt_or_ge quotient (2 ^ (53 + 1073)) with small | large
    · have gap : spacing quotient ≤ 2 ^ 1073 := spacing_le small
      calc multiple * spacing quotient
          ≤ (quotient / spacing quotient + 1) * spacing quotient :=
            Nat.mul_le_mul_right _ rounded
        _ = quotient / spacing quotient * spacing quotient +
              spacing quotient := Nat.succ_mul _ _
        _ ≤ 2 ^ (53 + 1073) + 2 ^ 1073 :=
            Nat.add_le_add ((Nat.div_mul_le_self _ _).trans small.le) gap
        _ ≤ (UInt64.size - 1) * one := by
            rw [one_eq]
            decide +kernel
    · have apart : one ∣ spacing quotient := by
        have given : quotient ≠ 0 :=
          ((Nat.pow_pos Nat.two_pos).trans_le large).ne'
        have digits := (Nat.le_log2 given).mpr large
        rw [one_eq]
        apply Nat.pow_dvd_pow
        omega
      obtain ⟨count, product⟩ := apart.mul_left multiple
      rw [product, Nat.mul_comm one] at under ⊢
      have below : count < UInt64.size := Nat.lt_of_mul_lt_mul_right under
      exact Nat.mul_le_mul_right _ (Nat.le_sub_one_of_lt below)
  · cases nearest

theorem keepsClear_add (first second : Binary64) :
    (first.add second).KeepsClear := by
  cases first with
  | finite units =>
      cases second with
      | finite others =>
          rw [add]
          exact keepsClear_nearestUnits _ _
      | infinite =>
          nofun
  | infinite =>
      nofun

/-- No number of the format under 2^64 seconds is rounded up to them. -/
theorem nanoseconds?_lt {seconds : Binary64} {nanos : Nat}
    (clear : seconds.KeepsClear)
    (rounded : seconds.nanoseconds? = some nanos) :
    nanos < UInt64.size * 1000000000 := by
  cases seconds with
  | finite units =>
      simp only [nanoseconds?, Option.ite_none_right_eq_some,
        Option.some.injEq] at rounded
      obtain ⟨under, rfl⟩ := rounded
      have below :
          units * 1000000000 ≤ (UInt64.size - 1) * 1000000000 * one := by
        rw [Nat.mul_right_comm]
        exact Nat.mul_le_mul_right _ (clear units rfl under)
      exact (roundHalfEven_le one_pos below).trans_lt (by decide)
  | infinite =>
      cases rounded

end Binary64

end Tabletop.Number
