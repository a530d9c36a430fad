import LiveFragment.Proofs.Number.Exact
import LiveFragment.Proofs.Number.Narrowed
import LiveFragment.Proofs.Number.Unpacked

namespace LiveFragment.Number

open Float.Model (UnpackedFloat totalExponent)
open Float.Model.UnpackedFloat (Accuracy ExtendedMantissa Sign accuracyOfFraction div divCore pack
  roundWithAccuracy shiftToExponent shiftToTargetExponent unpack)

theorem roundedMantissa_of (mantissa : Nat) (accuracy : Accuracy) :
    (ExtendedMantissa.ofMantissaAndAccuracy mantissa accuracy).roundedMantissa =
      accuracy.roundToNearestEven mantissa := by
  cases accuracy with
  | exact => rfl
  | inexact order => cases order <;> rfl

/-- The residual of a division tells how its quotient is rounded. -/
theorem roundToNearestEven_div (numerator : Nat) {denominator : Nat} (positive : 0 < denominator) :
    (accuracyOfFraction (numerator % denominator) denominator).roundToNearestEven
      (numerator / denominator) = divideToEven numerator denominator := by
  unfold accuracyOfFraction divideToEven
  dsimp only
  generalize numerator % denominator = rest
  by_cases whole : rest = 0
  · rw [if_pos whole, if_pos (by omega)]
    rfl
  · rw [if_neg whole]
    rcases Nat.lt_trichotomy (2 * rest) denominator with less | same | more
    · rw [if_pos less, Nat.compare_eq_lt.mpr less]
      rfl
    · rw [if_neg (by omega), if_neg (by omega), Nat.compare_eq_eq.mpr same]
      rfl
    · rw [if_neg (by omega), if_pos more, Nat.compare_eq_gt.mpr more]
      rfl

theorem targetExponent_binary64 (mantissa : Nat) (exponent : Int) :
    Float.Model.Format.binary64.targetExponent (totalExponent mantissa exponent) =
      max (mantissa.log2 + 1 + exponent - 53) (-1074) := rfl

section Round

variable {mantissa : Nat} {exponent : Int} (lowest : -1074 ≤ exponent)

include lowest

theorem shiftToTargetExponent_full (low : 2 ^ 52 ≤ mantissa) (high : mantissa < 2 ^ 53)
    (accuracy : Accuracy) : shiftToTargetExponent .binary64 mantissa exponent accuracy =
      (.ofMantissaAndAccuracy mantissa accuracy, exponent) := by
  have target := targetExponent_binary64 mantissa exponent
  rw [(Nat.log2_eq_iff (by omega)).mpr ⟨low, high⟩] at target
  have kept : (Float.Model.Format.binary64.targetExponent (totalExponent mantissa exponent) -
      exponent).toNat = 0 := by omega
  rw [shiftToTargetExponent, shiftToExponent, kept, Nat.cast_zero, Int.add_zero]
  rfl

theorem shiftToTargetExponent_carry : shiftToTargetExponent .binary64 (2 ^ 53) exponent .exact =
      (.ofMantissaAndAccuracy (2 ^ 52) .exact, exponent + 1) := by
  have target := targetExponent_binary64 (2 ^ 53) exponent
  rw [Nat.log2_two_pow] at target
  have next : (Float.Model.Format.binary64.targetExponent (totalExponent (2 ^ 53) exponent) -
      exponent).toNat = 1 := by omega
  rw [shiftToTargetExponent, shiftToExponent, next, Nat.cast_one]
  rfl

end Round

theorem roundWithAccuracy_of {spec : Float.Model.Format} (sign : Sign) {mantissa last : Nat}
    {exponent unit final : Int} {accuracy : Accuracy} {first : ExtendedMantissa}
    (cut : shiftToTargetExponent spec mantissa exponent accuracy = (first, unit))
    (fits : shiftToTargetExponent spec first.roundedMantissa unit .exact =
      (.ofMantissaAndAccuracy last .exact, final)) (positive : 0 < last) :
    roundWithAccuracy spec sign mantissa exponent accuracy = .finite sign last final positive := by
  rw [roundWithAccuracy, cut]
  dsimp only
  generalize shiftToTargetExponent spec first.roundedMantissa unit .exact = result at fits
  subst fits
  exact dif_neg (Nat.ne_of_gt positive)

theorem roundToNearestEven_bounds (mantissa : Nat) (accuracy : Accuracy) :
    mantissa ≤ accuracy.roundToNearestEven mantissa ∧
      accuracy.roundToNearestEven mantissa ≤ mantissa + 1 := by
  cases accuracy with
  | exact => exact ⟨Nat.le_refl _, Nat.le_succ _⟩
  | inexact order =>
    cases order <;> simp only [Accuracy.roundToNearestEven] <;> omega

/-- What a mantissa of 53 bits is rounded to has its value with the rounded mantissa. -/
theorem exists_roundWithAccuracy (sign : Sign) {mantissa : Nat} (exponent : Int)
    (lowest : -1074 ≤ exponent) {accuracy : Accuracy} (low : 2 ^ 52 ≤ mantissa)
    (high : mantissa < 2 ^ 53 ∨ mantissa = 2 ^ 53 ∧ accuracy = .exact) :
    ∃ last final, ∃ positive : 0 < last,
      roundWithAccuracy .binary64 sign mantissa exponent accuracy =
        .finite sign last final positive ∧
      2 ^ 52 ≤ last ∧ last < 2 ^ 53 ∧ exponent ≤ final ∧ final ≤ exponent + 1 ∧
      (last : ℚ) * 2 ^ final = (accuracy.roundToNearestEven mantissa : ℚ) * 2 ^ exponent := by
  have carried :
      ((2 ^ 52 : Nat) : ℚ) * 2 ^ (exponent + 1) = ((2 ^ 53 : Nat) : ℚ) * 2 ^ exponent := by
    rw [zpow_add_one₀ two_ne_zero]
    push_cast
    ring
  rcases high with short | ⟨rfl, rfl⟩
  · have cut := shiftToTargetExponent_full lowest low short accuracy
    obtain ⟨least, most⟩ := roundToNearestEven_bounds mantissa accuracy
    rcases Nat.lt_or_ge (accuracy.roundToNearestEven mantissa) (2 ^ 53) with fits | full
    · refine ⟨_, exponent, by omega, roundWithAccuracy_of sign cut ?_ _, by omega, fits, le_rfl,
        by omega, rfl⟩
      rw [roundedMantissa_of]
      exact shiftToTargetExponent_full lowest (by omega) fits .exact
    · have same : accuracy.roundToNearestEven mantissa = 2 ^ 53 := by omega
      refine ⟨2 ^ 52, exponent + 1, by omega, roundWithAccuracy_of sign cut ?_ _, le_rfl, by omega,
        by omega, le_rfl, by rw [same, carried]⟩
      rw [roundedMantissa_of, same]
      exact shiftToTargetExponent_carry lowest
  · refine ⟨2 ^ 52, exponent + 1, by omega, roundWithAccuracy_of sign
      (shiftToTargetExponent_carry lowest) ?_ _, le_rfl, by omega, by omega, le_rfl, carried⟩
    exact shiftToTargetExponent_full (by omega) le_rfl (by omega) .exact

/-- The quotient of one and a mantissa of 53 bits, with what is left over. -/
theorem divCore_one {mantissa : Nat} {exponent : Int} (low : 2 ^ 52 ≤ mantissa)
    (high : mantissa < 2 ^ 53) (range : exponent ≤ 900) :
    divCore .binary64 (2 ^ 52) (-52) mantissa exponent =
      (2 ^ 105 / mantissa, -105 - exponent, accuracyOfFraction (2 ^ 105 % mantissa) mantissa) := by
  have one : totalExponent (2 ^ 52) (-52) = 1 := by
    rw [totalExponent, Nat.log2_two_pow]
    rfl
  have other : totalExponent mantissa exponent = 53 + exponent := by
    rw [totalExponent, (Nat.log2_eq_iff (by omega)).mpr ⟨low, high⟩]
    rfl
  have target : min (-52 - exponent)
      (Float.Model.Format.binary64.targetExponent (1 - (53 + exponent))) = -105 - exponent := by
    show min (-52 - exponent) (max (1 - (53 + exponent) - 53) (-1074)) = -105 - exponent
    omega
  have shift : (-52 - exponent - (-105 - exponent)).toNat = 53 := by omega
  have scaled : 2 ^ 52 <<< 53 = 2 ^ 105 := by decide
  simp only [divCore, one, other, target, shift, scaled]

theorem exists_div {mantissa : Nat} {exponent : Int} (positive : 0 < mantissa)
    (low : 2 ^ 52 ≤ mantissa) (high : mantissa < 2 ^ 53) (range : exponent ≤ 900) :
    ∃ last final, ∃ some : 0 < last,
      div .binary64 (.finite .positive (2 ^ 52) (-52) (Nat.two_pow_pos 52))
        (.finite .positive mantissa exponent positive) = .finite .positive last final some ∧
      2 ^ 52 ≤ last ∧ last < 2 ^ 53 ∧ -105 - exponent ≤ final ∧ final ≤ -104 - exponent ∧
      (last : ℚ) * 2 ^ final = (divideToEven (2 ^ 105) mantissa : ℚ) * 2 ^ (-105 - exponent) := by
  have least : 2 ^ 52 ≤ 2 ^ 105 / mantissa := by
    rw [Nat.le_div_iff_mul_le positive]
    calc 2 ^ 52 * mantissa
      _ ≤ 2 ^ 52 * 2 ^ 53 := Nat.mul_le_mul_left _ (Nat.le_of_lt high)
      _ = 2 ^ 105 := by decide
  have most : 2 ^ 105 / mantissa < 2 ^ 53 ∨ 2 ^ 105 / mantissa = 2 ^ 53 ∧
      accuracyOfFraction (2 ^ 105 % mantissa) mantissa = .exact := by
    rcases Nat.lt_or_eq_of_le low with more | rfl
    · left
      rw [Nat.div_lt_iff_lt_mul positive]
      calc 2 ^ 105
        _ = 2 ^ 53 * 2 ^ 52 := by decide
        _ < 2 ^ 53 * mantissa := Nat.mul_lt_mul_of_pos_left more (by decide)
    · exact .inr ⟨by decide, rfl⟩
  obtain ⟨last, final, some, rounded, full, fits, lower, upper, value⟩ :=
    exists_roundWithAccuracy .positive (-105 - exponent) (by omega) least most
  rw [roundToNearestEven_div _ positive] at value
  refine ⟨last, final, some, ?_, full, fits, lower, by omega, value⟩
  rw [← rounded, div]
  simp only [divCore_one low high range]
  rfl

namespace Double

theorem unpack_one : (Double.ofNat 1).toFloat.toModel.unpack =
    .finite .positive (2 ^ 52) (-52) (Nat.two_pow_pos 52) := by
  rw [unpack_toFloat]
  rfl

theorem unpack_of_reading {x : Double} {mantissa : Nat} {exponent : Int}
    (read : x.reading = .finite false mantissa exponent) (positive : 0 < mantissa) :
    x.toFloat.toModel.unpack = .finite .positive mantissa exponent positive := by
  rw [reading_eq] at read
  generalize x.toFloat.toModel.unpack = held at read
  cases held with
  | notANumber | infinity => cases read
  | zero sign =>
    simp only [Reading.ofUnpacked, Reading.finite.injEq] at read
    omega
  | finite sign mantissa' exponent' positive' =>
    simp only [Reading.ofUnpacked, Reading.finite.injEq] at read
    obtain ⟨sign', rfl, rfl⟩ := read
    cases sign with
    | negative => cases sign'
    | positive => rfl

/-- One over a normal number is a number with the rounded mantissa. -/
theorem reading_one_div {x : Double} {mantissa : Nat} {exponent : Int}
    (read : x.reading = .finite false mantissa exponent) (full : 2 ^ 52 ≤ mantissa)
    (lowest : -900 ≤ exponent) (highest : exponent ≤ 900) :
    ∃ last final, (Double.ofNat 1 / x).reading = .finite false last final ∧
      (last : ℚ) * 2 ^ final = (divideToEven (2 ^ 105) mantissa : ℚ) * 2 ^ (-105 - exponent) := by
  have fits : mantissa < 2 ^ 53 := (Format.decode_eq_finite read).1.fits
  have positive : 0 < mantissa := by omega
  obtain ⟨last, final, some, quotient, low, high, lower, upper, value⟩ :=
    exists_div positive full fits highest
  refine ⟨last, final, ?_, value⟩
  have canonical : (Format.ofModel .binary64).Canonical last final :=
    ⟨high, show -1074 ≤ final by omega, fun _ => low⟩
  have finite : (Format.ofModel .binary64).pattern last final <
      (Format.ofModel .binary64).infinity := by
    show (final - -1074).toNat * 2 ^ 52 + last < 2047 * 2 ^ 52
    omega
  show (ofFloat ((Double.ofNat 1).toFloat / x.toFloat)).reading = _
  rw [reading_ofFloat]
  have unpacked : ((Double.ofNat 1).toFloat / x.toFloat).toModel.unpack =
      unpack .binary64 (pack .binary64 (div .binary64 (Double.ofNat 1).toFloat.toModel.unpack
        x.toFloat.toModel.unpack)) := rfl
  rw [unpacked, unpack_one, unpack_of_reading read positive, quotient,
    unpack_pack_finite .binary64 (by decide) .positive some canonical finite]
  rfl

end Double

/-- The quotient of one is not rounded across a number of 53 bits. -/
theorem divideToEven_one_bounds {mantissa : Nat} (low : 2 ^ 52 ≤ mantissa)
    (high : mantissa < 2 ^ 53) {n : Nat} (short : n ≤ 2 ^ 53) (shift : Int) :
    ((n : ℚ) * 2 ^ shift ≤ 2 ^ 105 / mantissa →
      (n : ℚ) * 2 ^ shift ≤ divideToEven (2 ^ 105) mantissa) ∧
    ((2 : ℚ) ^ 105 / mantissa ≤ n * 2 ^ shift →
      (divideToEven (2 ^ 105) mantissa : ℚ) ≤ n * 2 ^ shift) := by
  have positive : 0 < mantissa := by omega
  have least : (2 : ℚ) ^ 52 < 2 ^ 105 / mantissa := by
    have : (mantissa : ℚ) < 2 ^ 53 := by exact_mod_cast high
    rw [lt_div_iff₀ (by positivity)]
    linarith
  have bounds := divideToEven_bounds (2 ^ 105) positive
  rw [Nat.cast_pow, Nat.cast_ofNat] at bounds
  rcases le_or_gt 0 shift with whole | part
  · -- the bound is a whole number
    obtain ⟨count, rfl⟩ := Int.eq_ofNat_of_zero_le whole
    have same : (n : ℚ) * 2 ^ (count : Int) = (n * 2 ^ count : Nat) := by
      rw [zpow_natCast]
      push_cast
      rfl
    rw [same]
    constructor
    · intro below
      exact_mod_cast (bounds _).1 below
    · intro above
      exact_mod_cast (bounds _).2 above
  · -- the bound is below the mantissas of 53 bits
    have half : (2 : ℚ) ^ shift ≤ 2 ^ (-1 : Int) := zpow_le_zpow_right₀ one_le_two (by omega)
    have count : (n : ℚ) ≤ 2 ^ 53 := by exact_mod_cast short
    have under : (n : ℚ) * 2 ^ shift ≤ 2 ^ 52 := by
      calc (n : ℚ) * 2 ^ shift
        _ ≤ 2 ^ 53 * 2 ^ (-1 : Int) := mul_le_mul count half (by positivity) (by positivity)
        _ = 2 ^ 52 := by norm_num
    have reached : 2 ^ 52 ≤ divideToEven (2 ^ 105) mantissa := (bounds _).1 (by
      push_cast
      exact least.le)
    have reached : (2 : ℚ) ^ 52 ≤ divideToEven (2 ^ 105) mantissa := by exact_mod_cast reached
    exact ⟨fun _ => under.trans reached, fun above => absurd (above.trans under) least.not_ge⟩

/-- One over a number does not cross a number of 53 bits when it is rounded. -/
theorem Double.one_div_bounds {x : Double} {mantissa : Nat} {exponent : Int}
    (read : x.reading = .finite false mantissa exponent) (full : 2 ^ 52 ≤ mantissa)
    (lowest : -900 ≤ exponent) (highest : exponent ≤ 900) :
    ∃ last final, (Double.ofNat 1 / x).reading = .finite false last final ∧
      ∀ n : Nat, n ≤ 2 ^ 53 → ∀ shift : Int,
        ((n : ℚ) * 2 ^ shift ≤ 1 / (mantissa * 2 ^ exponent) →
          (n : ℚ) * 2 ^ shift ≤ last * 2 ^ final) ∧
        (1 / ((mantissa : ℚ) * 2 ^ exponent) ≤ n * 2 ^ shift →
          (last : ℚ) * 2 ^ final ≤ n * 2 ^ shift) := by
  obtain ⟨last, final, quotient, value⟩ := reading_one_div read full lowest highest
  refine ⟨last, final, quotient, fun n short shift => ?_⟩
  have fits : mantissa < 2 ^ 53 := (Format.decode_eq_finite read).1.fits
  have unit : (0 : ℚ) < 2 ^ (-105 - exponent) := by positivity
  obtain ⟨below, above⟩ := divideToEven_one_bounds full fits short (shift - (-105 - exponent))
  have scaled : (n : ℚ) * 2 ^ shift =
      n * 2 ^ (shift - (-105 - exponent)) * 2 ^ (-105 - exponent) := by
    rw [mul_assoc, ← zpow_add₀ two_ne_zero, sub_add_cancel]
  have exact : 1 / ((mantissa : ℚ) * 2 ^ exponent) =
      2 ^ 105 / mantissa * 2 ^ (-105 - exponent) := by
    rw [zpow_sub₀ two_ne_zero, zpow_neg]
    have : (mantissa : ℚ) ≠ 0 := by
      have : 0 < mantissa := by omega
      positivity
    field_simp
  rw [scaled, exact, value, mul_le_mul_iff_left₀ unit, mul_le_mul_iff_left₀ unit,
    mul_le_mul_iff_left₀ unit, mul_le_mul_iff_left₀ unit]
  exact ⟨below, above⟩

theorem Single.full_toDouble {x : Single} {mantissa : Nat} {exponent : Int}
    (read : x.reading = .finite false mantissa exponent) (some : 0 < mantissa) :
    ∃ mantissa' exponent', x.toDouble.reading = .finite false mantissa' exponent' ∧
      (mantissa : ℚ) * 2 ^ exponent = mantissa' * 2 ^ exponent' ∧
      2 ^ 52 ≤ mantissa' ∧ -900 ≤ exponent' ∧ exponent' ≤ 900 := by
  obtain ⟨mantissa', exponent', wide, value⟩ := reading_toDouble read
  obtain ⟨canonical, -, finite, -⟩ := Format.decode_eq_finite read
  obtain ⟨narrow, -⟩ := Format.decode_eq_finite wide
  have lowest : -149 ≤ exponent := canonical.lowest
  have highest : exponent + 23 ≤ 2 ^ 7 := Format.leading_le finite
  have fits : (mantissa : ℚ) < 2 ^ 24 := by exact_mod_cast canonical.fits
  have fits' : (mantissa' : ℚ) < 2 ^ 53 := by exact_mod_cast narrow.fits
  have one : (1 : ℚ) ≤ mantissa := by exact_mod_cast some
  have least : -203 < exponent' := by
    by_contra small
    have low : (2 : ℚ) ^ (-149 : Int) ≤ 2 ^ exponent := zpow_le_zpow_right₀ one_le_two lowest
    have high : (2 : ℚ) ^ exponent' ≤ 2 ^ (-203 : Int) := zpow_le_zpow_right₀ one_le_two (by omega)
    have far : (2 : ℚ) ^ 53 * 2 ^ (-203 : Int) < 2 ^ (-149 : Int) := by norm_num
    have left : (2 : ℚ) ^ exponent ≤ mantissa * 2 ^ exponent :=
      le_mul_of_one_le_left (by positivity) one
    have right : (mantissa' : ℚ) * 2 ^ exponent' ≤ 2 ^ 53 * 2 ^ (-203 : Int) :=
      mul_le_mul fits'.le high (by positivity) (by positivity)
    linarith
  have full : 2 ^ 52 ≤ mantissa' := narrow.large (show -1074 < exponent' by omega)
  have full' : (2 : ℚ) ^ 52 ≤ mantissa' := by exact_mod_cast full
  refine ⟨mantissa', exponent', wide, value, full, by omega, ?_⟩
  by_contra large
  have high : (2 : ℚ) ^ exponent ≤ 2 ^ (105 : Int) := zpow_le_zpow_right₀ one_le_two (by omega)
  have low : (2 : ℚ) ^ (128 : Int) ≤ 2 ^ exponent' := zpow_le_zpow_right₀ one_le_two (by omega)
  have far : (2 : ℚ) ^ 24 * 2 ^ (105 : Int) < 2 ^ 52 * 2 ^ (128 : Int) := by norm_num
  have left : (mantissa : ℚ) * 2 ^ exponent ≤ 2 ^ 24 * 2 ^ (105 : Int) :=
    mul_le_mul fits.le high (by positivity) (by positivity)
  have right : (2 : ℚ) ^ 52 * 2 ^ (128 : Int) ≤ mantissa' * 2 ^ exponent' :=
    mul_le_mul full' low (by positivity) (by positivity)
  linarith

end LiveFragment.Number
