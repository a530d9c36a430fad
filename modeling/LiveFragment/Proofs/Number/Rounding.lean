import Mathlib.Algebra.Order.Field.Power
import Mathlib.Algebra.Order.Ring.Rat
import Mathlib.Data.Int.Log
import Mathlib.Data.Rat.Floor
import Mathlib.Tactic.FieldSimp
import Mathlib.Tactic.Linarith
import Mathlib.Tactic.NormNum
import Mathlib.Tactic.Positivity
import Mathlib.Tactic.Ring
import LiveFragment.Number.Shortest
import LiveFragment.Proofs.Number.Pattern

namespace LiveFragment.Number

/-- A power with a signed exponent as the quotient of the two powers that are computed. -/
theorem zpow_eq_div {base : Nat} (positive : 0 < base) (exponent : Int) :
    (base : ℚ) ^ exponent = (base ^ exponent.toNat : Nat) / (base ^ (-exponent).toNat : Nat) := by
  have nonzero : (base : ℚ) ≠ 0 := by exact_mod_cast positive.ne'
  rcases Int.le_total 0 exponent with up | down
  · obtain ⟨n, rfl⟩ := Int.eq_ofNat_of_zero_le up
    simp
  · obtain ⟨n, same⟩ := Int.eq_ofNat_of_zero_le (Int.neg_nonneg_of_nonpos down)
    obtain rfl : exponent = -(n : Int) := by omega
    simp

namespace Fraction

/-- The number that a fraction is. -/
def value (fraction : Fraction) : ℚ := fraction.numerator / fraction.denominator

theorem value_scaled {base : Nat} (positive : 0 < base) (mantissa : Nat) (exponent : Int) :
    (scaled mantissa base exponent).value = mantissa * (base : ℚ) ^ exponent := by
  rw [zpow_eq_div positive, value, scaled]
  simp only [Nat.pow_eq, Nat.cast_mul, mul_div_assoc]

theorem denominator_scaled {base : Nat} (positive : 0 < base) (mantissa : Nat) (exponent : Int) :
    0 < (scaled mantissa base exponent).denominator := Nat.pow_pos positive

theorem le_iff {left right : Fraction} (first : 0 < left.denominator)
    (second : 0 < right.denominator) : left.le right = true ↔ left.value ≤ right.value := by
  have first : (0 : ℚ) < left.denominator := by exact_mod_cast first
  have second : (0 : ℚ) < right.denominator := by exact_mod_cast second
  rw [le, decide_eq_true_iff, value, value, div_le_div_iff₀ first second]
  exact_mod_cast Iff.rfl

theorem lt_iff {left right : Fraction} (first : 0 < left.denominator)
    (second : 0 < right.denominator) : left.lt right = true ↔ left.value < right.value := by
  have first : (0 : ℚ) < left.denominator := by exact_mod_cast first
  have second : (0 : ℚ) < right.denominator := by exact_mod_cast second
  rw [lt, decide_eq_true_iff, value, value, div_lt_div_iff₀ first second]
  exact_mod_cast Iff.rfl

end Fraction

/-- A quotient at most a half away from a whole number is rounded to it, from exactly a half away
only when it is even. -/
theorem divideToEven_eq {numerator denominator whole : Nat} (positive : 0 < denominator)
    (low : (whole : ℚ) - 1 / 2 ≤ numerator / denominator)
    (high : (numerator : ℚ) / denominator ≤ whole + 1 / 2)
    (ties : whole % 2 = 1 →
      (whole : ℚ) - 1 / 2 < numerator / denominator ∧
        (numerator : ℚ) / denominator < whole + 1 / 2) :
    divideToEven numerator denominator = whole := by
  have positive' : (0 : ℚ) < denominator := by exact_mod_cast positive
  rw [le_div_iff₀ positive'] at low
  rw [div_le_iff₀ positive'] at high
  rw [lt_div_iff₀ positive', div_lt_iff₀ positive'] at ties
  have low : 2 * (whole * denominator) ≤ 2 * numerator + denominator := by
    have : (2 * (whole * denominator) : ℚ) ≤ 2 * numerator + denominator := by linarith
    exact_mod_cast this
  have high : 2 * numerator ≤ 2 * (whole * denominator) + denominator := by
    have : (2 * numerator : ℚ) ≤ 2 * (whole * denominator) + denominator := by linarith
    exact_mod_cast this
  have ties : whole % 2 = 1 → 2 * (whole * denominator) < 2 * numerator + denominator ∧
      2 * numerator < 2 * (whole * denominator) + denominator := by
    intro odd
    obtain ⟨left, right⟩ := ties odd
    have left : (2 * (whole * denominator) : ℚ) < 2 * numerator + denominator := by linarith
    have right : (2 * numerator : ℚ) < 2 * (whole * denominator) + denominator := by linarith
    exact ⟨by exact_mod_cast left, by exact_mod_cast right⟩
  have parts := Nat.div_add_mod numerator denominator
  have rest := Nat.mod_lt numerator positive
  -- the quotient is the whole number itself or the one below it
  have most : numerator / denominator ≤ whole := by
    have : numerator < (whole + 1) * denominator := by
      rw [Nat.add_mul]
      omega
    exact Nat.lt_succ_iff.mp ((Nat.div_lt_iff_lt_mul positive).mpr this)
  have least : whole ≤ numerator / denominator + 1 := by
    rw [← Nat.sub_le_iff_le_add, Nat.le_div_iff_mul_le positive, Nat.sub_mul]
    omega
  unfold divideToEven
  dsimp only
  rcases Nat.lt_or_ge (numerator / denominator) whole with below | reached
  · obtain rfl : whole = numerator / denominator + 1 := by omega
    have split : (numerator / denominator + 1) * denominator =
        denominator * (numerator / denominator) + denominator := by ring
    rw [split] at low ties
    split
    · omega
    · split <;> omega
  · obtain rfl : whole = numerator / denominator := Nat.le_antisymm reached most
    rw [Nat.mul_comm (numerator / denominator)] at high ties
    split
    · rfl
    · split <;> omega

/-- Whether a fraction reaches a power of a base, on the naturals that are computed. -/
theorem zpow_le_div {base numerator denominator : Nat} (positive : 0 < base)
    (some : 0 < denominator) (exponent : Int) :
    (base : ℚ) ^ exponent ≤ numerator / denominator ↔
      denominator * base ^ exponent.toNat ≤ numerator * base ^ (-exponent).toNat := by
  have some : (0 : ℚ) < denominator := by exact_mod_cast some
  have power : (0 : ℚ) < (base ^ (-exponent).toNat : Nat) := by exact_mod_cast Nat.pow_pos positive
  rw [zpow_eq_div positive, div_le_div_iff₀ power some, mul_comm ((base ^ exponent.toNat : Nat) : ℚ)]
  exact_mod_cast Iff.rfl

/-- The logarithm of a fraction is the difference of those of its parts, or one below it. -/
theorem log_div {base numerator denominator top bottom : Nat} (large : 1 < base)
    (some : 0 < denominator)
    (numeratorLow : base ^ top ≤ numerator) (numeratorHigh : numerator < base ^ (top + 1))
    (denominatorLow : base ^ bottom ≤ denominator)
    (denominatorHigh : denominator < base ^ (bottom + 1)) :
    Int.log base ((numerator : ℚ) / denominator) =
      if (base : ℚ) ^ ((top : Int) - bottom) ≤ numerator / denominator then (top : Int) - bottom
      else (top : Int) - bottom - 1 := by
  have base' : (0 : ℚ) < base := by exact_mod_cast Nat.zero_lt_of_lt large
  have numerator' : (0 : ℚ) < numerator := by
    exact_mod_cast Nat.lt_of_lt_of_le (Nat.pow_pos (Nat.zero_lt_of_lt large)) numeratorLow
  have denominator' : (0 : ℚ) < denominator := by exact_mod_cast some
  have positive : (0 : ℚ) < numerator / denominator := div_pos numerator' denominator'
  have low : (base : ℚ) ^ ((top : Int) - bottom - 1) ≤ numerator / denominator := by
    have least : (base : ℚ) ^ top ≤ numerator := by exact_mod_cast numeratorLow
    have most : (denominator : ℚ) ≤ base ^ bottom * base := by exact_mod_cast denominatorHigh.le
    rw [zpow_sub₀ base'.ne', zpow_sub₀ base'.ne', zpow_one, zpow_natCast, zpow_natCast, div_div]
    exact div_le_div₀ numerator'.le least denominator' most
  have high : (numerator : ℚ) / denominator < base ^ ((top : Int) - bottom + 1) := by
    have most : (numerator : ℚ) < base ^ top * base := by exact_mod_cast numeratorHigh
    have least : (base : ℚ) ^ bottom ≤ denominator := by exact_mod_cast denominatorLow
    rw [zpow_add₀ base'.ne', zpow_sub₀ base'.ne', zpow_one, zpow_natCast, zpow_natCast,
      div_mul_eq_mul_div]
    exact div_lt_div₀ most least (by positivity) (by positivity)
  rw [Int.zpow_le_iff_le_log large positive] at low
  rw [Int.lt_zpow_iff_log_lt large positive] at high
  simp only [Int.zpow_le_iff_le_log large positive]
  split <;> omega

theorem leadingExponent_eq_log {numerator denominator : Nat} (some : 0 < numerator)
    (positive : 0 < denominator) :
    leadingExponent numerator denominator = Int.log 2 ((numerator : ℚ) / denominator) := by
  rw [log_div Nat.one_lt_two positive (Nat.log2_self_le some.ne') Nat.lt_log2_self
    (Nat.log2_self_le positive.ne') Nat.lt_log2_self, leadingExponent]
  simp only [zpow_le_div Nat.two_pos positive, Nat.pow_eq, ← Nat.not_lt, ite_not]

namespace RoundingInterval

/-- A number within an interval; the ends count if the interval is closed. -/
def Holds (interval : RoundingInterval) (x : ℚ) : Prop :=
  interval.lower.value ≤ x ∧ x ≤ interval.upper.value ∧
    (interval.closed = false → interval.lower.value < x ∧ x < interval.upper.value)

variable {format : Format} {mantissa : Nat} {exponent : Int}

theorem contains_iff {point : Fraction} (positive : 0 < point.denominator) :
    (ofFinite format mantissa exponent).contains point = true ↔
      (ofFinite format mantissa exponent).Holds point.value := by
  have lower : 0 < (ofFinite format mantissa exponent).lower.denominator :=
    Fraction.denominator_scaled Nat.two_pos ..
  have upper : 0 < (ofFinite format mantissa exponent).upper.denominator :=
    Fraction.denominator_scaled Nat.two_pos ..
  unfold contains Holds
  cases (ofFinite format mantissa exponent).closed with
  | true =>
    simp only [if_true, Bool.and_eq_true, Fraction.le_iff lower positive,
      Fraction.le_iff positive upper, reduceCtorEq, false_implies, and_true]
  | false =>
    simp only [Bool.false_eq_true, if_false, Bool.and_eq_true, Fraction.lt_iff lower positive,
      Fraction.lt_iff positive upper, true_implies]
    exact ⟨fun inside => ⟨inside.1.le, inside.2.le, inside⟩, fun inside => inside.2.2⟩

/-- How far below a value its interval reaches, in units of the last place. -/
def reach (format : Format) (mantissa : Nat) (exponent : Int) : ℚ :=
  if mantissa = 2 ^ format.fractionBits ∧ format.lowest < exponent then 1 / 4 else 1 / 2

theorem reach_le : reach format mantissa exponent ≤ 1 / 2 := by
  unfold reach
  split <;> norm_num

theorem lower_ofFinite (some : 0 < mantissa) :
    (ofFinite format mantissa exponent).lower.value =
      (mantissa - reach format mantissa exponent) * 2 ^ exponent := by
  rw [ofFinite, Fraction.value_scaled Nat.two_pos, reach]
  simp only [Nat.pow_eq]
  push_cast [zpow_sub₀ (two_ne_zero (α := ℚ))]
  split
  · rw [Nat.cast_sub (by omega)]
    push_cast
    ring
  · rw [Nat.cast_sub (by omega)]
    push_cast
    ring

theorem upper_ofFinite :
    (ofFinite format mantissa exponent).upper.value = (mantissa + 1 / 2) * 2 ^ exponent := by
  rw [ofFinite, Fraction.value_scaled Nat.two_pos]
  push_cast [zpow_sub₀ (two_ne_zero (α := ℚ))]
  ring

theorem value_ofFinite :
    (ofFinite format mantissa exponent).value.value = mantissa * 2 ^ exponent := by
  rw [ofFinite, Fraction.value_scaled Nat.two_pos]
  push_cast [zpow_sub₀ (two_ne_zero (α := ℚ))]
  ring

end RoundingInterval

namespace Format

variable {format : Format} {mantissa numerator denominator : Nat} {exponent : Int}

/-- A fraction in units of some last place, on the naturals that are computed. -/
theorem div_unit (numerator denominator : Nat) (unit : Int) :
    ((numerator * Nat.pow 2 (-unit).toNat : Nat) : ℚ) / (denominator * Nat.pow 2 unit.toNat : Nat) =
      numerator / denominator / 2 ^ unit := by
  have power := zpow_eq_div Nat.two_pos unit
  rw [Nat.cast_two] at power
  rw [power, div_div_eq_mul_div, Nat.pow_eq, Nat.pow_eq, Nat.cast_mul, Nat.cast_mul,
    div_mul_eq_mul_div, div_div]

/-- The last place that is kept of a fraction between two neighbouring powers of two, or below the
lowest normal one. -/
theorem unitExponent_eq (some : 0 < numerator) (positive : 0 < denominator) {unit : Int}
    (least : format.lowest ≤ unit)
    (low : format.lowest < unit →
      (2 : ℚ) ^ (unit + format.fractionBits) ≤ numerator / denominator)
    (high : (numerator : ℚ) / denominator < 2 ^ (unit + format.fractionBits + 1)) :
    format.unitExponent numerator denominator = unit := by
  have quotient : (0 : ℚ) < numerator / denominator := by positivity
  have top : leadingExponent numerator denominator < unit + format.fractionBits + 1 := by
    rw [leadingExponent_eq_log some positive]
    exact (Int.lt_zpow_iff_log_lt Nat.one_lt_two quotient).mp high
  have bottom : format.lowest < unit →
      unit + format.fractionBits ≤ leadingExponent numerator denominator := by
    intro normal
    rw [leadingExponent_eq_log some positive]
    exact (Int.zpow_le_iff_le_log Nat.one_lt_two quotient).mp (low normal)
  unfold unitExponent
  omega

/-- A fraction that is near a whole number of units of its last place is rounded to it. -/
theorem nearest_of_unit (some : 0 < numerator) (positive : 0 < denominator) {unit : Int}
    (place : format.unitExponent numerator denominator = unit) {whole : Nat}
    (low : (whole : ℚ) - 1 / 2 ≤ numerator / denominator / 2 ^ unit)
    (high : (numerator : ℚ) / denominator / 2 ^ unit ≤ whole + 1 / 2)
    (ties : whole % 2 = 1 → (whole : ℚ) - 1 / 2 < numerator / denominator / 2 ^ unit ∧
      (numerator : ℚ) / denominator / 2 ^ unit < whole + 1 / 2) :
    format.nearest numerator denominator = min (format.pattern whole unit) format.infinity := by
  rw [← div_unit] at low high ties
  have units : 0 < denominator * Nat.pow 2 unit.toNat :=
    Nat.mul_pos positive (Nat.two_pow_pos _)
  rw [nearest, if_neg some.ne', place, pattern]
  dsimp only
  rw [divideToEven_eq units low high ties, Nat.pow_eq]

/-- A full mantissa and the first mantissa of the next exponent are one pattern. -/
theorem pattern_carry (above : format.lowest < exponent) :
    format.pattern (2 * 2 ^ format.fractionBits) (exponent - 1) =
      format.pattern (2 ^ format.fractionBits) exponent := by
  have next : (exponent - format.lowest).toNat = (exponent - 1 - format.lowest).toNat + 1 := by
    omega
  rw [pattern, pattern, next]
  ring

/-- Just below a power of two the last place is half as large, and rounding carries. -/
theorem nearest_below_power (above : format.lowest < exponent) (positive : 0 < denominator)
    (low : (2 : ℚ) ^ format.fractionBits - 1 / 4 ≤ numerator / denominator / 2 ^ exponent)
    (high : (numerator : ℚ) / denominator / 2 ^ exponent < 2 ^ format.fractionBits) :
    format.nearest numerator denominator =
      min (format.pattern (2 ^ format.fractionBits) exponent) format.infinity := by
  have unit : (0 : ℚ) < 2 ^ exponent := by positivity
  have one : (1 : ℚ) ≤ 2 ^ format.fractionBits := one_le_pow₀ one_le_two
  have some : 0 < numerator := by
    refine Nat.pos_of_ne_zero fun none => ?_
    rw [none, Nat.cast_zero, zero_div, zero_div] at low
    linarith
  have double : (numerator : ℚ) / denominator / 2 ^ (exponent - 1) =
      2 * (numerator / denominator / 2 ^ exponent) := by
    rw [zpow_sub₀ two_ne_zero, zpow_one]
    field_simp
  have place : format.unitExponent numerator denominator = exponent - 1 := by
    refine unitExponent_eq some positive (by omega) ?_ ?_
    · intro _
      rw [zpow_add₀ two_ne_zero, zpow_natCast, mul_comm, ← le_div_iff₀ (by positivity), double]
      linarith
    · rw [add_right_comm, Int.sub_add_cancel, zpow_add₀ two_ne_zero, zpow_natCast, mul_comm,
        ← div_lt_iff₀ unit]
      exact high
  rw [← pattern_carry above]
  refine nearest_of_unit some positive place ?_ ?_ ?_
  · rw [double]
    push_cast
    linarith
  · rw [double]
    push_cast
    linarith
  · intro odd
    omega

/-- Whatever lies in the interval around a value is rounded to the value. -/
theorem nearest_eq (canonical : format.Canonical mantissa exponent) (some : 0 < mantissa)
    {fraction : Fraction} (positive : 0 < fraction.denominator)
    (inside : (RoundingInterval.ofFinite format mantissa exponent).Holds fraction.value) :
    format.nearest fraction.numerator fraction.denominator =
      min (format.pattern mantissa exponent) format.infinity := by
  obtain ⟨numerator, denominator⟩ := fraction
  rw [Fraction.value] at inside
  dsimp only at positive inside ⊢
  have unit : (0 : ℚ) < 2 ^ exponent := by positivity
  have closed : (RoundingInterval.ofFinite format mantissa exponent).closed = false ↔
      mantissa % 2 = 1 := by
    simp [RoundingInterval.ofFinite]
  obtain ⟨low, high, ends⟩ := inside
  rw [RoundingInterval.lower_ofFinite some, RoundingInterval.upper_ofFinite, closed,
    ← lt_div_iff₀ unit, ← div_lt_iff₀ unit] at ends
  rw [RoundingInterval.lower_ofFinite some, ← le_div_iff₀ unit] at low
  rw [RoundingInterval.upper_ofFinite, ← div_le_iff₀ unit] at high
  have fits : (mantissa : ℚ) + 1 ≤ 2 * 2 ^ format.fractionBits := by exact_mod_cast canonical.fits
  by_cases below : format.lowest < exponent ∧
      (numerator : ℚ) / denominator / 2 ^ exponent < 2 ^ format.fractionBits
  · obtain ⟨above, under⟩ := below
    have power : mantissa = 2 ^ format.fractionBits := by
      by_contra other
      have least : (2 : ℚ) ^ format.fractionBits + 1 ≤ mantissa := by
        exact_mod_cast lt_of_le_of_ne (canonical.large above) (Ne.symm other)
      rw [RoundingInterval.reach, if_neg fun both => other both.1] at low
      linarith
    rw [RoundingInterval.reach, if_pos ⟨power, above⟩, power, Nat.cast_pow, Nat.cast_two] at low
    rw [power]
    exact nearest_below_power above positive low under
  · have half : RoundingInterval.reach format mantissa exponent ≤ 1 / 2 := RoundingInterval.reach_le
    have one : (1 : ℚ) ≤ mantissa := by exact_mod_cast some
    have given : 0 < numerator := by
      refine Nat.pos_of_ne_zero fun none => ?_
      rw [none, Nat.cast_zero, zero_div, zero_div] at low
      linarith
    have place : format.unitExponent numerator denominator = exponent := by
      refine unitExponent_eq given positive canonical.lowest ?_ ?_
      · intro above
        rw [zpow_add₀ two_ne_zero, zpow_natCast, mul_comm, ← le_div_iff₀ unit]
        exact not_lt.mp fun under => below ⟨above, under⟩
      · rw [zpow_add₀ two_ne_zero, zpow_add₀ two_ne_zero, zpow_natCast, zpow_one, mul_assoc,
          mul_comm, ← div_lt_iff₀ unit]
        linarith
    refine nearest_of_unit given positive place (by linarith) high ?_
    intro odd
    obtain ⟨left, right⟩ := ends odd
    exact ⟨by linarith, right⟩

end Format

end LiveFragment.Number
