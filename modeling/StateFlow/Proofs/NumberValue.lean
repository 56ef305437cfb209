import Mathlib.Algebra.Order.Field.Power
import Mathlib.Data.Nat.Cast.Field
import Mathlib.Data.Rat.Cast.Order
import Mathlib.Tactic.Linarith
import StateFlow.Json.Basic

/-!
# The values of numbers

The value of a double is the rational `± significand * 2 ^ exponent`, and comparisons with naturals
are comparisons of values (`ltNat_iff`, `gtNat_iff`).  A number that is whole, not negative and
below `2 ^ 64` is taken for the word of the same value (`exists_word`), and no other number but
`2 ^ 64` is taken for a word (`toWord?_eq_some_iff`).
-/

namespace StateFlow

namespace Binary64

def magnitude (x : Binary64) : ℚ := x.significand * (2 : ℚ) ^ x.exponent

def value (x : Binary64) : ℚ := if x.isNegative then -x.magnitude else x.magnitude

variable {x : Binary64}

theorem magnitude_nonneg (x : Binary64) : 0 ≤ x.magnitude := by
  unfold magnitude
  positivity

theorem magnitude_eq_zero : x.magnitude = 0 ↔ x.isZero = true := by
  have hpow : (2 : ℚ) ^ x.exponent ≠ 0 := zpow_ne_zero _ (by norm_num)
  rw [magnitude, mul_eq_zero, or_iff_left hpow, Nat.cast_eq_zero, isZero, decide_eq_true_iff]

/-- Magnitudes are compared as fractions of naturals. -/
theorem magnitude_eq_div (x : Binary64) :
    x.magnitude = ((x.significand * Nat.pow 2 x.exponent.toNat : ℕ) : ℚ) /
      ((Nat.pow 2 (-x.exponent).toNat : ℕ) : ℚ) := by
  have hexponent : x.exponent = (x.exponent.toNat : ℤ) - ((-x.exponent).toNat : ℤ) := by omega
  have hpow : (2 : ℚ) ^ x.exponent = 2 ^ x.exponent.toNat / 2 ^ (-x.exponent).toNat := by
    conv_lhs => rw [hexponent]
    rw [zpow_sub₀ two_ne_zero, zpow_natCast, zpow_natCast]
  rw [magnitude, hpow, Nat.cast_mul, mul_div_assoc]
  push_cast [Nat.pow_eq]
  rfl

theorem denominator_pos (x : Binary64) : (0 : ℚ) < ((Nat.pow 2 (-x.exponent).toNat : ℕ) : ℚ) := by
  exact_mod_cast Nat.pow_pos (n := (-x.exponent).toNat) two_pos

theorem ltNat_iff {n : Nat} : x.ltNat n = true ↔ x.value < n := by
  rw [ltNat, value]
  split
  · have hnonneg := magnitude_nonneg x
    have hn : (0 : ℚ) ≤ n := Nat.cast_nonneg n
    rw [Bool.or_eq_true, Bool.not_eq_true', ← Bool.not_eq_true, ← magnitude_eq_zero,
      decide_eq_true_iff, gt_iff_lt, ← Nat.cast_pos (α := ℚ)]
    constructor
    · rintro (hne | hpos)
      · have hlt := lt_of_le_of_ne hnonneg (Ne.symm hne)
        linarith
      · linarith
    · intro hlt
      by_cases hzero : x.magnitude = 0
      · exact Or.inr (by linarith)
      · exact Or.inl hzero
  · rw [decide_eq_true_iff, magnitude_eq_div, div_lt_iff₀ (denominator_pos x)]
    exact_mod_cast Iff.rfl

theorem gtNat_iff {n : Nat} : x.gtNat n = true ↔ (n : ℚ) < x.value := by
  rw [gtNat, value]
  split
  · next hneg =>
      have hnonneg := magnitude_nonneg x
      have hn : (0 : ℚ) ≤ n := Nat.cast_nonneg n
      simp only [hneg, Bool.not_true, Bool.false_and, Bool.false_eq_true, false_iff, not_lt]
      linarith
  · next hpos =>
      simp only [hpos, Bool.not_false, Bool.true_and, decide_eq_true_iff, gt_iff_lt]
      rw [magnitude_eq_div, lt_div_iff₀ (denominator_pos x)]
      exact_mod_cast Iff.rfl

theorem magnitude_eq_floor (hwhole : x.isWhole = true) : x.magnitude = x.floor := by
  have hdvd := Nat.dvd_of_mod_eq_zero (of_decide_eq_true hwhole)
  rw [magnitude_eq_div, floor, Nat.cast_div hdvd (denominator_pos x).ne']

/-- A number is whole if its magnitude is a natural. -/
theorem isWhole_of_magnitude {k : Nat} (hk : x.magnitude = k) : x.isWhole = true := by
  rw [magnitude_eq_div, div_eq_iff (denominator_pos x).ne'] at hk
  have hproduct : x.significand * Nat.pow 2 x.exponent.toNat =
      k * Nat.pow 2 (-x.exponent).toNat := by
    exact_mod_cast hk
  rw [isWhole, decide_eq_true_iff, hproduct, Nat.mul_mod_left]

/-- A value that is not negative is a magnitude: of the numbers with a minus sign, only zero has
one. -/
theorem value_eq_magnitude (hnonneg : 0 ≤ x.value) : x.value = x.magnitude := by
  rw [value] at hnonneg ⊢
  split at hnonneg
  · next hneg =>
      have hzero : x.magnitude = 0 := le_antisymm (by linarith) (magnitude_nonneg x)
      rw [if_pos hneg, hzero, neg_zero]
  · next hpos => rw [if_neg hpos]

theorem value_eq_floor (hwhole : x.isWhole = true) (hnonneg : 0 ≤ x.value) : x.value = x.floor := by
  rw [value_eq_magnitude hnonneg, magnitude_eq_floor hwhole]

end Binary64

namespace Number

def value : Number → ℚ
  | .int n _ => n
  | .float x => x.value

variable {n : Number} {bound : Nat}

theorem ltNat_iff : n.ltNat bound = true ↔ n.value < bound := by
  cases n with
  | int n hfits =>
      rw [ltNat, decide_eq_true_iff, value]
      exact_mod_cast Iff.rfl
  | float x => exact Binary64.ltNat_iff

theorem gtNat_iff : n.gtNat bound = true ↔ (bound : ℚ) < n.value := by
  cases n with
  | int n hfits =>
      rw [gtNat, decide_eq_true_iff, value]
      exact_mod_cast Iff.rfl
  | float x => exact Binary64.gtNat_iff

theorem le_value_of_ltNat (hlt : n.ltNat bound = false) : (bound : ℚ) ≤ n.value := by
  rw [← not_lt, ← ltNat_iff, hlt]
  exact Bool.false_ne_true

theorem value_le_of_gtNat (hgt : n.gtNat bound = false) : n.value ≤ bound := by
  rw [← not_lt, ← gtNat_iff, hgt]
  exact Bool.false_ne_true

/-- A number that is whole, not negative and below `2 ^ 64` is taken for the word of its value. -/
theorem exists_word (hwhole : n.isWhole = true) (hnonneg : 0 ≤ n.value) (hlt : n.value < 2 ^ 64) :
    ∃ x, n.toWord? = some x ∧ n.value = x.toNat := by
  cases n with
  | int n hfits =>
      rw [value] at hnonneg hlt ⊢
      have hnonneg : 0 ≤ n := by exact_mod_cast hnonneg
      refine ⟨UInt64.ofNat n.toNat, if_neg (not_lt.mpr hnonneg), ?_⟩
      have hword : ((UInt64.ofNat n.toNat).toNat : ℤ) = n := by
        rw [UInt64.toNat_ofNat']
        omega
      exact_mod_cast hword.symm
  | float x =>
      have hfloor := Binary64.value_eq_floor hwhole hnonneg
      rw [value] at hnonneg hlt ⊢
      have hbound : x.floor < 0x10000000000000000 := by
        rw [hfloor] at hlt
        exact_mod_cast hlt
      refine ⟨UInt64.ofNat (min x.floor 0xFFFFFFFFFFFFFFFF), if_neg ?_, ?_⟩
      · have hpositive : x.ltNat 0 = false := by
          rw [← Bool.not_eq_true, Binary64.ltNat_iff]
          exact not_lt.mpr (by exact_mod_cast hnonneg)
        have hsmall : x.gtNat 0x10000000000000000 = false := by
          rw [← Bool.not_eq_true, Binary64.gtNat_iff, not_lt]
          exact_mod_cast hlt.le
        have hwhole : x.isWhole = true := hwhole
        simp [hpositive, hsmall, hwhole]
      · have hword : (UInt64.ofNat (min x.floor 0xFFFFFFFFFFFFFFFF)).toNat = x.floor := by
          rw [UInt64.toNat_ofNat']
          omega
        rw [hword, hfloor]

theorem of_toWord? {x : UInt64} (hword : n.toWord? = some x) : 0 ≤ n.value ∧ n.isWhole = true := by
  cases n with
  | int n hfits =>
      rw [toWord?] at hword
      split at hword
      · cases hword
      · next hnonneg =>
          refine ⟨?_, rfl⟩
          rw [value]
          exact_mod_cast Int.not_lt.mp hnonneg
  | float x =>
      rw [toWord?] at hword
      split at hword
      · cases hword
      · next hrange =>
          simp only [Bool.or_eq_true, not_or, Bool.not_eq_true, Bool.not_eq_false'] at hrange
          obtain ⟨⟨hnonneg, hwhole⟩, -⟩ := hrange
          have hvalue := le_value_of_ltNat (n := .float x) hnonneg
          exact ⟨by exact_mod_cast hvalue, hwhole⟩

theorem value_le_of_toWord? {x : UInt64} (hword : n.toWord? = some x) : n.value ≤ 2 ^ 64 := by
  cases n with
  | int n hfits =>
      rw [value]
      exact_mod_cast hfits.2.le
  | float y =>
      rw [toWord?] at hword
      split at hword
      · cases hword
      · next hrange =>
          simp only [Bool.or_eq_true, not_or, Bool.not_eq_true] at hrange
          have hvalue := value_le_of_gtNat (n := .float y) hrange.2
          exact_mod_cast hvalue

/-- A number is whole if its value is a natural. -/
theorem isWhole_of_value {k : Nat} (hk : n.value = k) : n.isWhole = true := by
  cases n with
  | int n hfits => rfl
  | float x =>
      rw [value] at hk
      have hnonneg : 0 ≤ x.value := by rw [hk]; exact Nat.cast_nonneg k
      rw [Binary64.value_eq_magnitude hnonneg] at hk
      exact Binary64.isWhole_of_magnitude hk

/-- The numbers that are whole and not negative are those with a natural for a value. -/
theorem exists_nat_iff : (∃ k : Nat, n.value = k) ↔ n.isWhole = true ∧ n.ltNat 0 = false := by
  rw [← Bool.not_eq_true, ltNat_iff, not_lt, Nat.cast_zero]
  constructor
  · rintro ⟨k, hk⟩
    refine ⟨isWhole_of_value hk, ?_⟩
    rw [hk]
    exact Nat.cast_nonneg k
  · rintro ⟨hwhole, hnonneg⟩
    cases n with
    | int n hfits =>
        rw [value] at hnonneg ⊢
        have hnonneg : 0 ≤ n := by exact_mod_cast hnonneg
        exact ⟨n.toNat, by exact_mod_cast (Int.toNat_of_nonneg hnonneg).symm⟩
    | float x => exact ⟨x.floor, Binary64.value_eq_floor hwhole hnonneg⟩

/-- A number is taken for a word exactly if it has the value of that word.  The one exception is
`2 ^ 64`, which is taken for the greatest word. -/
theorem toWord?_eq_some_iff (hother : n.value ≠ 2 ^ 64) {x : UInt64} :
    n.toWord? = some x ↔ n.value = x.toNat := by
  constructor
  · intro hword
    obtain ⟨hnonneg, hwhole⟩ := of_toWord? hword
    obtain ⟨y, hy, hvalue⟩ :=
      exists_word hwhole hnonneg (lt_of_le_of_ne (value_le_of_toWord? hword) hother)
    rw [hword, Option.some.injEq] at hy
    rw [hvalue, hy]
  · intro hvalue
    have hnonneg : 0 ≤ n.value := by rw [hvalue]; exact Nat.cast_nonneg _
    have hlt : n.value < 2 ^ 64 := by rw [hvalue]; exact_mod_cast x.toNat_lt
    obtain ⟨y, hy, hword⟩ := exists_word (isWhole_of_value hvalue) hnonneg hlt
    have hsame : y.toNat = x.toNat := by exact_mod_cast hword.symm.trans hvalue
    rw [hy, UInt64.toNat_inj.mp hsame]

end Number

end StateFlow
