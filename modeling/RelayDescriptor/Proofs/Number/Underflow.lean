import Mathlib.Algebra.Order.Field.Power
import Mathlib.Data.Nat.Digits.Defs
import Mathlib.Data.Rat.Cast.Order
import Mathlib.Tactic.FieldSimp
import Mathlib.Tactic.Positivity
import RelayDescriptor.Number.Binary64
import RelayDescriptor.Proofs.Field.KeyCounts
import RelayDescriptor.Proofs.Field.Timestamps

/-!
# Numbers that are rounded to zero

A decimal number is rounded to zero if it is no greater than half of the least positive
floating-point number, the half itself included, because zero is the even one of its two
neighbours.  A negative number loses its sign then: what it is rounded to is not below zero.
-/

namespace RelayDescriptor

namespace Decimal

/-- The number without its sign. -/
def magnitude (d : Decimal) : ℚ := d.mantissa * 10 ^ d.exponent

/-- The exact number. -/
def value (d : Decimal) : ℚ := if d.negative then -d.magnitude else d.magnitude

theorem magnitude_nonneg (d : Decimal) : 0 ≤ d.magnitude := by
  rw [magnitude]
  positivity

theorem magnitude_of_nonneg {d : Decimal} (nonneg : 0 ≤ d.exponent) :
    d.magnitude = (d.mantissa * Nat.pow 10 d.exponent.toNat : Nat) / (1 : Nat) := by
  obtain ⟨power, same⟩ := Int.eq_ofNat_of_zero_le nonneg
  rw [magnitude, same, Int.toNat_natCast, zpow_natCast, Nat.cast_one, div_one]
  exact_mod_cast rfl

theorem magnitude_of_neg {d : Decimal} (neg : ¬0 ≤ d.exponent) :
    d.magnitude = d.mantissa / (Nat.pow 10 (-d.exponent).toNat : Nat) := by
  obtain ⟨power, same⟩ : ∃ power : Nat, d.exponent = -power := ⟨(-d.exponent).toNat, by omega⟩
  rw [magnitude, same, neg_neg, Int.toNat_natCast, zpow_neg, zpow_natCast, div_eq_mul_inv]
  exact_mod_cast rfl

end Decimal

namespace Binary64

variable {numerator denominator : Nat} {exponent : Int} {negative : Bool}

/-- Half of the least positive number. -/
def halfLeast : ℚ := 2 ^ (leastExponent - 1)

theorem halfLeast_pos : 0 < halfLeast := zpow_pos (by norm_num) _

/-! ## Fractions -/

theorem roundDiv_eq_zero_iff (positive : 0 < denominator) :
    roundDiv numerator denominator = 0 ↔ 2 * numerator ≤ denominator := by
  rcases Nat.lt_or_ge numerator denominator with proper | improper
  · simp only [roundDiv, Nat.div_eq_of_lt proper, Nat.mod_eq_of_lt proper]
    split
    next => omega
    next =>
      split
      next => omega
      next => omega
  · have quotient : 0 < numerator / denominator := Nat.div_pos improper positive
    have rounded : roundDiv numerator denominator ≠ 0 := by
      simp only [roundDiv]
      split
      next => omega
      next =>
        split
        next => omega
        next => omega
    omega

theorem le_half_zpow_iff (positive : 0 < denominator) :
    (numerator / denominator : ℚ) ≤ 2 ^ (exponent - 1) ↔
      2 * numerator ≤ (2 ^ exponent * denominator : ℚ) := by
  have size : (0 : ℚ) < denominator := by exact_mod_cast positive
  rw [div_le_iff₀ size, zpow_sub_one₀ (by norm_num)]
  constructor
  · intro below
    linarith
  · intro below
    linarith

theorem scaledRound_eq_zero_iff (positive : 0 < denominator) :
    scaledRound numerator denominator exponent = 0 ↔
      (numerator / denominator : ℚ) ≤ 2 ^ (exponent - 1) := by
  rw [le_half_zpow_iff positive, scaledRound]
  split
  next nonneg =>
    obtain ⟨power, rfl⟩ := Int.eq_ofNat_of_zero_le nonneg
    have scaled : 0 < denominator * Nat.pow 2 (power : Int).toNat :=
      Nat.mul_pos positive (Nat.two_pow_pos _)
    rw [roundDiv_eq_zero_iff scaled, Int.toNat_natCast, zpow_natCast, mul_comm (2 ^ power : ℚ)]
    exact_mod_cast Iff.rfl
  next neg =>
    obtain ⟨power, rfl⟩ : ∃ power : Nat, exponent = -power := ⟨(-exponent).toNat, by omega⟩
    have size : (0 : ℚ) < 2 ^ power := by positivity
    rw [roundDiv_eq_zero_iff positive, neg_neg, Int.toNat_natCast, zpow_neg, zpow_natCast,
      inv_mul_eq_div, le_div_iff₀ size, mul_assoc]
    exact_mod_cast Iff.rfl

theorem reaches_iff (positive : 0 < denominator) :
    reaches numerator denominator exponent = true ↔
      (2 : ℚ) ^ exponent ≤ numerator / denominator := by
  have size : (0 : ℚ) < denominator := by exact_mod_cast positive
  rw [le_div_iff₀ size, reaches]
  split
  next nonneg =>
    obtain ⟨power, rfl⟩ := Int.eq_ofNat_of_zero_le nonneg
    rw [decide_eq_true_iff, Int.toNat_natCast, zpow_natCast, mul_comm (2 ^ power : ℚ)]
    exact_mod_cast Iff.rfl
  next neg =>
    obtain ⟨power, rfl⟩ : ∃ power : Nat, exponent = -power := ⟨(-exponent).toNat, by omega⟩
    have size : (0 : ℚ) < 2 ^ power := by positivity
    rw [decide_eq_true_iff, neg_neg, Int.toNat_natCast, zpow_neg, zpow_natCast, inv_mul_eq_div,
      div_le_iff₀ size]
    exact_mod_cast Iff.rfl

theorem zpow_log2_sub_le (large : 0 < numerator) (positive : 0 < denominator) :
    (2 : ℚ) ^ ((Nat.log2 numerator : Int) - Nat.log2 denominator - 1) ≤
      numerator / denominator := by
  have size : (0 : ℚ) < denominator := by exact_mod_cast positive
  have above : (2 : ℚ) ^ Nat.log2 numerator ≤ numerator := by
    exact_mod_cast Nat.log2_self_le (Nat.ne_of_gt large)
  have below : (denominator : ℚ) ≤ 2 ^ (Nat.log2 denominator + 1) := by
    exact_mod_cast Nat.le_of_lt Nat.lt_log2_self
  have split : (Nat.log2 numerator : Int) - Nat.log2 denominator - 1 =
      Nat.log2 numerator - (Nat.log2 denominator + 1 : Nat) := by omega
  rw [split, zpow_sub₀ (by norm_num), zpow_natCast, zpow_natCast]
  gcongr

/-- The exponent that fits a fraction is that of its order, unless that is too small. -/
theorem exists_order (large : 0 < numerator) (positive : 0 < denominator) :
    ∃ order : Int, (2 : ℚ) ^ order ≤ numerator / denominator ∧
      fittingExponent numerator denominator = max (order - 52) leastExponent := by
  by_cases reached : reaches numerator denominator
      ((Nat.log2 numerator : Int) - Nat.log2 denominator) = true
  · refine ⟨_, (reaches_iff positive).mp reached, ?_⟩
    simp only [fittingExponent, if_pos reached]
    rfl
  · refine ⟨_, zpow_log2_sub_le large positive, ?_⟩
    simp only [fittingExponent, if_neg reached]
    rfl

/-- A fraction whose exponent is not the least one is far from zero. -/
theorem halfLeast_lt_of_leastExponent_lt (large : 0 < numerator) (positive : 0 < denominator)
    (normal : leastExponent < fittingExponent numerator denominator) :
    halfLeast < numerator / denominator ∧
      (2 : ℚ) ^ (fittingExponent numerator denominator - 1) < numerator / denominator := by
  obtain ⟨order, below, fitting⟩ := exists_order large positive
  rw [fitting] at normal ⊢
  have greater : leastExponent < order - 52 := by omega
  rw [max_eq_left (Int.le_of_lt greater)]
  have least : leastExponent - 1 < order := by omega
  have next : order - 52 - 1 < order := by omega
  exact ⟨(zpow_lt_zpow_right₀ one_lt_two least).trans_le below,
    (zpow_lt_zpow_right₀ one_lt_two next).trans_le below⟩

/-- A fraction is rounded to zero up to half of the least positive number. -/
theorem scaledRound_fittingExponent_eq_zero_iff (large : 0 < numerator)
    (positive : 0 < denominator) :
    scaledRound numerator denominator (fittingExponent numerator denominator) = 0 ↔
      (numerator / denominator : ℚ) ≤ halfLeast := by
  rw [scaledRound_eq_zero_iff positive]
  by_cases normal : leastExponent < fittingExponent numerator denominator
  · obtain ⟨least, next⟩ := halfLeast_lt_of_leastExponent_lt large positive normal
    exact iff_of_false (not_le_of_gt next) (not_le_of_gt least)
  · obtain ⟨order, _, fitting⟩ := exists_order large positive
    have same : fittingExponent numerator denominator = leastExponent := by omega
    rw [same, halfLeast]

theorem isNegative_ofFraction_iff (large : 0 < numerator) (positive : 0 < denominator) :
    (ofFraction negative numerator denominator).isNegative = true ↔
      negative = true ∧ halfLeast < numerator / denominator := by
  have rounded := scaledRound_fittingExponent_eq_zero_iff large positive
  rw [← not_le, ← rounded, ofFraction]
  by_cases carried :
      scaledRound numerator denominator (fittingExponent numerator denominator) =
        Nat.pow 2 precision
  · have nonzero : Nat.pow 2 precision ≠ 0 := by decide
    have half : Nat.pow 2 (precision - 1) ≠ 0 := by decide
    simp only [carried, ↓reduceIte]
    split
    next => simp only [isNegative, nonzero, not_false_eq_true, and_true]
    next => simp only [isNegative, nonzero, bne_iff_ne.mpr half, Bool.and_true, not_false_eq_true,
      and_true]
  · simp only [if_neg carried]
    split
    next overflow =>
      -- What overflows is far from zero.
      have normal : leastExponent < fittingExponent numerator denominator :=
        Int.lt_trans (by decide) overflow
      have far := (halfLeast_lt_of_leastExponent_lt large positive normal).1
      simp [isNegative, mt rounded.mp (not_le_of_gt far)]
    next => simp [isNegative]

/-! ## Decimal numbers -/

theorem lt_pow_length_toDigits (n : Nat) : n < 10 ^ (Nat.toDigits 10 n).length := by
  have bound := Numeral.value_lt fun c (member : c ∈ Nat.toDigits 10 n) =>
    Nat.isDigit_of_mem_toDigits (by decide) (by decide) member
  rwa [Numeral.value_toDigits] at bound

theorem pow_length_toDigits_le {n : Nat} (positive : 0 < n) :
    10 ^ ((Nat.toDigits 10 n).length - 1) ≤ n := by
  by_contra shorter
  rcases Nat.eq_zero_or_pos ((Nat.toDigits 10 n).length - 1) with single | more
  · rw [single] at shorter
    omega
  · have bound := Nat.toDigits_length 10 n _ more (Nat.lt_of_not_le shorter)
    omega

/-- A number of an order below that of all floating-point numbers is rounded to zero. -/
theorem magnitude_le_halfLeast {d : Decimal}
    (under : d.exponent + (Nat.toDigits 10 d.mantissa).length < underflowOrder) :
    d.magnitude ≤ halfLeast := by
  have digits : (d.mantissa : ℚ) ≤ 10 ^ (Nat.toDigits 10 d.mantissa).length := by
    exact_mod_cast Nat.le_of_lt (lt_pow_length_toDigits d.mantissa)
  calc d.magnitude
      ≤ 10 ^ (Nat.toDigits 10 d.mantissa).length * 10 ^ d.exponent := by
        rw [Decimal.magnitude]
        gcongr
    _ = 10 ^ (d.exponent + (Nat.toDigits 10 d.mantissa).length) := by
        rw [zpow_add₀ (by norm_num), zpow_natCast, mul_comm]
    _ ≤ 10 ^ underflowOrder := zpow_le_zpow_right₀ (by norm_num) (Int.le_of_lt under)
    _ ≤ halfLeast := by
        have sizes : (2 : ℚ) ^ 1075 ≤ 10 ^ 330 := by
          exact_mod_cast (by decide +kernel : 2 ^ 1075 ≤ 10 ^ 330)
        exact inv_anti₀ (by positivity) sizes

/-- A number of an order above that of all floating-point numbers is far from zero. -/
theorem halfLeast_lt_magnitude {d : Decimal} (nonzero : d.mantissa ≠ 0)
    (overflows : overflowOrder < d.exponent + (Nat.toDigits 10 d.mantissa).length) :
    halfLeast < d.magnitude := by
  have positive : 0 < (Nat.toDigits 10 d.mantissa).length := Nat.length_toDigits_pos
  have digits : (10 : ℚ) ^ ((Nat.toDigits 10 d.mantissa).length - 1) ≤ d.mantissa := by
    exact_mod_cast pow_length_toDigits_le (Nat.pos_of_ne_zero nonzero)
  calc halfLeast
      < 1 := zpow_lt_one_of_neg₀ one_lt_two (by decide)
    _ ≤ 10 ^ (d.exponent + ((Nat.toDigits 10 d.mantissa).length - 1 : Nat)) := by
        apply one_le_zpow₀ (by norm_num)
        rw [overflowOrder] at overflows
        omega
    _ = 10 ^ ((Nat.toDigits 10 d.mantissa).length - 1) * 10 ^ d.exponent := by
        rw [zpow_add₀ (by norm_num), zpow_natCast, mul_comm]
    _ ≤ d.magnitude := by
        rw [Decimal.magnitude]
        gcongr

theorem isNegative_ofDecimal_iff_magnitude (d : Decimal) :
    (ofDecimal d).isNegative = true ↔ d.negative = true ∧ halfLeast < d.magnitude := by
  rw [ofDecimal]
  split
  next small =>
    have tiny : d.magnitude ≤ halfLeast := by
      rcases Bool.or_eq_true_iff.mp small with zero | under
      · rw [Decimal.magnitude, of_decide_eq_true zero, Nat.cast_zero, zero_mul]
        exact le_of_lt halfLeast_pos
      · exact magnitude_le_halfLeast (of_decide_eq_true under)
    simp [zero, isNegative, not_lt_of_ge tiny]
  next notSmall =>
    have nonzero : d.mantissa ≠ 0 := by
      intro zero
      simp [zero] at notSmall
    have large : 0 < d.mantissa := Nat.pos_of_ne_zero nonzero
    split
    next overflows => simp [isNegative, halfLeast_lt_magnitude nonzero overflows]
    next =>
      split
      next nonneg =>
        rw [Decimal.magnitude_of_nonneg nonneg]
        exact isNegative_ofFraction_iff (Nat.mul_pos large (Nat.pow_pos (by decide))) Nat.one_pos
      next neg =>
        rw [Decimal.magnitude_of_neg neg]
        exact isNegative_ofFraction_iff large (Nat.pow_pos (by decide))

/-- A decimal number is rounded to a negative number only if it is further below zero than half of
the least positive number. -/
theorem isNegative_ofDecimal_iff (d : Decimal) :
    (ofDecimal d).isNegative = true ↔ d.value < -halfLeast := by
  rw [isNegative_ofDecimal_iff_magnitude, Decimal.value]
  split
  next negative => simp [negative]
  next notNegative =>
    have above : ¬d.magnitude < -halfLeast :=
      not_lt_of_ge ((neg_nonpos.mpr (le_of_lt halfLeast_pos)).trans d.magnitude_nonneg)
    simp [notNegative, above]

end Binary64

end RelayDescriptor
