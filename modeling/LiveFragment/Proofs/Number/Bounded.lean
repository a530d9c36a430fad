import LiveFragment.Proofs.Number.Unpacked

/-! Native sums and products in single precision that stay finite. Rounding to nearest does not
reach above a value of 24 bits from less than half a unit above it, so that a bound on the exact
result is one on what it is rounded to. -/

namespace LiveFragment.Number

open Float.Model (UnpackedFloat totalExponent)
open Float.Model.UnpackedFloat (Accuracy ExtendedMantissa Sign decreaseExponent pack
  roundWithAccuracy shiftToTargetExponent unpack)

/-- A mantissa without some of its last bits. -/
def shifted (mantissa count : Nat) : ExtendedMantissa :=
  ExtendedMantissa.ofMantissaAndAccuracy mantissa .exact >>> count

theorem shifted_succ (mantissa count : Nat) :
    shifted mantissa (count + 1) = (shifted mantissa count).shiftRightOne := rfl

theorem mantissa_shifted (mantissa count : Nat) :
    (shifted mantissa count).mantissa = mantissa / 2 ^ count := by
  induction count with
  | zero => exact (Nat.div_one mantissa).symm
  | succ count ih =>
    rw [shifted_succ, ExtendedMantissa.shiftRightOne, ih, Nat.div_div_eq_div_mul, Nat.pow_succ]

/-- When the first bit that was lost is set, at least half a unit was lost. -/
theorem half_le_of_roundBit {mantissa count : Nat}
    (set : (shifted mantissa count).roundBit = true) :
    2 * (mantissa / 2 ^ count * 2 ^ count) + 2 ^ count ≤ 2 * mantissa := by
  cases count with
  | zero => cases set
  | succ count =>
    rw [shifted_succ, ExtendedMantissa.shiftRightOne, mantissa_shifted] at set
    have odd : mantissa / 2 ^ count % 2 = 1 := by
      have := bne_iff_ne.mp set
      omega
    have kept : mantissa / 2 ^ (count + 1) = mantissa / 2 ^ count / 2 := by
      rw [Nat.div_div_eq_div_mul, Nat.pow_succ]
    have whole := Nat.div_mul_le_self mantissa (2 ^ count)
    have double : mantissa / 2 ^ count = 2 * (mantissa / 2 ^ count / 2) + 1 := by omega
    rw [kept, Nat.pow_succ]
    generalize mantissa / 2 ^ count / 2 = half at double
    rw [double] at whole
    nlinarith

/-- Rounding goes up by at most one, and only when half a unit was lost. -/
theorem roundedMantissa_bounds (extended : ExtendedMantissa) :
    extended.mantissa ≤ extended.roundedMantissa ∧
      extended.roundedMantissa ≤ extended.mantissa + extended.roundBit.toNat := by
  obtain ⟨mantissa, roundBit, stickyBit⟩ := extended
  cases roundBit <;> cases stickyBit <;>
    simp [ExtendedMantissa.roundedMantissa, ExtendedMantissa.accuracy, Accuracy.roundToNearestEven]
  omega

/-- The exponent that a value is rounded at. -/
def unitOf (mantissa : Nat) (exponent : Int) : Int :=
  Float.Model.Format.binary32.targetExponent (totalExponent mantissa exponent)

theorem unitOf_eq (mantissa : Nat) (exponent : Int) :
    unitOf mantissa exponent = max (mantissa.log2 + 1 + exponent - 24) (-149) := rfl

/-- A rounded mantissa with one bit too many moves to the next exponent. -/
def carried (sign : Sign) (mantissa : Nat) (exponent : Int) : UnpackedFloat :=
  if mantissa = 2 ^ 24 then .finite sign (2 ^ 23) (exponent + 1) (Nat.two_pow_pos 23)
  else if empty : mantissa = 0 then .zero sign
  else .finite sign mantissa exponent (Nat.pos_of_ne_zero empty)

/-- What is rounded has at most 24 bits, and no less when it is above the lowest exponent. -/
theorem rounded_bounds {mantissa lost : Nat} {exponent : Int} (positive : 0 < mantissa)
    (reached : exponent + lost = unitOf mantissa exponent) :
    (shifted mantissa lost).roundedMantissa ≤ 2 ^ 24 ∧
      (-149 < unitOf mantissa exponent → 2 ^ 23 ≤ (shifted mantissa lost).roundedMantissa) ∧
      2 * ((shifted mantissa lost).roundedMantissa * 2 ^ lost) ≤ 2 * mantissa + 2 ^ lost := by
  have low : 2 ^ mantissa.log2 ≤ mantissa := Nat.log2_self_le (Nat.ne_of_gt positive)
  have high : mantissa < 2 ^ (mantissa.log2 + 1) := Nat.lt_log2_self
  have width := unitOf_eq mantissa exponent
  obtain ⟨least, most⟩ := roundedMantissa_bounds (shifted mantissa lost)
  rw [mantissa_shifted] at least most
  refine ⟨?_, ?_, ?_⟩
  · have short : mantissa / 2 ^ lost < 2 ^ 24 := by
      rw [Nat.div_lt_iff_lt_mul (Nat.two_pow_pos lost), ← Nat.pow_add]
      exact Nat.lt_of_lt_of_le high (Nat.pow_le_pow_right Nat.two_pos (by omega))
    have := Bool.toNat_le (shifted mantissa lost).roundBit
    omega
  · intro above
    have long : 2 ^ 23 ≤ mantissa / 2 ^ lost := by
      rw [Nat.le_div_iff_mul_le (Nat.two_pow_pos lost), ← Nat.pow_add]
      exact Nat.le_trans (Nat.pow_le_pow_right Nat.two_pos (by omega)) low
    exact Nat.le_trans long least
  · have unit := Nat.two_pow_pos lost
    have whole := Nat.div_mul_le_self mantissa (2 ^ lost)
    have scaled := Nat.mul_le_mul_right (2 ^ lost) most
    cases set : (shifted mantissa lost).roundBit with
    | false =>
      rw [set, Bool.toNat_false, Nat.add_zero] at scaled
      omega
    | true =>
      have half := half_le_of_roundBit set
      rw [set, Bool.toNat_true, Nat.add_mul, Nat.one_mul] at scaled
      omega

theorem shiftToTargetExponent_eq {mantissa lost : Nat} {exponent : Int}
    (reached : lost = (unitOf mantissa exponent - exponent).toNat) :
    shiftToTargetExponent .binary32 mantissa exponent .exact =
      (shifted mantissa lost, exponent + lost) := by
  rw [reached]
  rfl

theorem carried_eq (sign : Sign) {mantissa : Nat} {unit : Int} (short : mantissa ≤ 2 ^ 24)
    (lowest : -149 ≤ unit) :
    (if empty : (shiftToTargetExponent .binary32 mantissa unit .exact).1.mantissa = 0 then
        .zero sign
      else
        .finite sign (shiftToTargetExponent .binary32 mantissa unit .exact).1.mantissa
          (shiftToTargetExponent .binary32 mantissa unit .exact).2 (Nat.pos_of_ne_zero empty)) =
      carried sign mantissa unit := by
  have width := unitOf_eq mantissa unit
  rcases Nat.lt_or_eq_of_le short with small | rfl
  · have bits : mantissa.log2 ≤ 23 := by
      by_cases empty : mantissa = 0
      · rw [empty]
        decide
      · have := (Nat.log2_lt empty).mpr small
        omega
    have same := shiftToTargetExponent_eq (show 0 = (unitOf mantissa unit - unit).toNat by omega)
    rw [Nat.cast_zero, Int.add_zero] at same
    rw [carried, if_neg (Nat.ne_of_lt small)]
    generalize shiftToTargetExponent .binary32 mantissa unit .exact = result at same
    subst same
    rfl
  · rw [Nat.log2_two_pow] at width
    have same := shiftToTargetExponent_eq (show 1 = (unitOf (2 ^ 24) unit - unit).toNat by omega)
    rw [carried, if_pos rfl]
    generalize shiftToTargetExponent .binary32 (2 ^ 24) unit .exact = result at same
    subst same
    rfl

theorem roundWithAccuracy_eq (sign : Sign) {mantissa lost : Nat} {exponent : Int}
    (positive : 0 < mantissa) (reached : exponent + lost = unitOf mantissa exponent) :
    roundWithAccuracy .binary32 sign mantissa exponent .exact =
      carried sign (shifted mantissa lost).roundedMantissa (unitOf mantissa exponent) := by
  have lowest : -149 ≤ unitOf mantissa exponent := le_max_right _ _
  rw [← carried_eq sign (rounded_bounds positive reached).1 lowest, roundWithAccuracy,
    shiftToTargetExponent_eq (show lost = _ by omega)]
  simp only [reached]

/-- A packed number that is not larger than some bound, whatever its sign. -/
def Within (bound : ℚ) : UnpackedFloat → Prop
  | .zero _ => True
  | .finite _ mantissa exponent _ =>
    Format.single.Canonical mantissa exponent ∧
      Format.single.pattern mantissa exponent < Format.single.infinity ∧
      (mantissa : ℚ) * 2 ^ exponent ≤ bound
  | _ => False

/-- A normal number in single precision. -/
structure Normal (mantissa : Nat) (exponent : Int) : Prop where
  full : 2 ^ 23 ≤ mantissa
  fits : mantissa < 2 ^ 24
  lowest : -149 ≤ exponent
  bounded : exponent ≤ 104

theorem two_zpow_pos (exponent : Int) : (0 : ℚ) < 2 ^ exponent := zpow_pos two_pos exponent

theorem pattern_lt_infinity {mantissa most : Nat} {exponent last : Int}
    (canonical : Format.single.Canonical mantissa exponent) (normal : Normal most last)
    (below : (mantissa : ℚ) * 2 ^ exponent ≤ most * 2 ^ last) :
    Format.single.pattern mantissa exponent < Format.single.infinity := by
  obtain ⟨fits, lowest, large⟩ := canonical
  obtain ⟨-, narrow, -, bounded⟩ := normal
  rw [Format.lowest_single] at lowest large
  rw [Format.fractionBits_single] at fits large
  have small : exponent ≤ max last (-149) := by
    by_contra above
    have full : (2 ^ 23 : ℚ) ≤ mantissa := by
      exact_mod_cast large (by omega)
    have step : (2 : ℚ) ^ (last + 1) ≤ 2 ^ exponent := zpow_le_zpow_right₀ one_le_two (by omega)
    have some : (most : ℚ) < 2 ^ 24 := by exact_mod_cast narrow
    rw [zpow_add₀ two_ne_zero, zpow_one] at step
    have unit := two_zpow_pos last
    nlinarith
  rw [Format.pattern, Format.lowest_single, Format.infinity_single, Format.fractionBits_single]
  omega

theorem within_carried (sign : Sign) {mantissa most : Nat} {unit last : Int}
    (short : mantissa ≤ 2 ^ 24) (lowest : -149 ≤ unit) (large : -149 < unit → 2 ^ 23 ≤ mantissa)
    (normal : Normal most last) (below : (mantissa : ℚ) * 2 ^ unit ≤ most * 2 ^ last) :
    Within (most * 2 ^ last) (carried sign mantissa unit) := by
  have least := Format.lowest_single
  have bits := Format.fractionBits_single
  unfold carried
  split
  · rename_i full
    subst full
    have canonical : Format.single.Canonical (2 ^ 23) (unit + 1) :=
      ⟨by rw [bits]; decide, by omega, fun _ => Nat.le_refl _⟩
    have same : ((2 ^ 23 : Nat) : ℚ) * 2 ^ (unit + 1) = ((2 ^ 24 : Nat) : ℚ) * 2 ^ unit := by
      rw [zpow_add₀ two_ne_zero]
      push_cast
      ring
    rw [← same] at below
    exact ⟨canonical, pattern_lt_infinity canonical normal below, below⟩
  · split
    · trivial
    · rename_i other _
      have canonical : Format.single.Canonical mantissa unit :=
        ⟨by rw [bits]; omega, by omega, fun above => large (by omega)⟩
      exact ⟨canonical, pattern_lt_infinity canonical normal below, below⟩

/-- A value is rounded to at most half a unit above it. -/
theorem rounded_near {mantissa lost : Nat} {exponent : Int} (positive : 0 < mantissa)
    (reached : exponent + lost = unitOf mantissa exponent) :
    2 * (((shifted mantissa lost).roundedMantissa : ℚ) * 2 ^ unitOf mantissa exponent) ≤
      2 * (mantissa * 2 ^ exponent) + 2 ^ unitOf mantissa exponent := by
  have near : 2 * (((shifted mantissa lost).roundedMantissa : ℚ) * 2 ^ lost) ≤
      2 * mantissa + 2 ^ lost := by exact_mod_cast (rounded_bounds positive reached).2.2
  have scaled := mul_le_mul_of_nonneg_right near (two_zpow_pos exponent).le
  rw [← reached, zpow_add₀ two_ne_zero, zpow_natCast]
  linarith

/-- Less than half a unit above a normal number, no unit is coarser than that of the number. -/
theorem unitOf_le {mantissa most : Nat} {exponent last : Int} (positive : 0 < mantissa)
    (normal : Normal most last)
    (below : 2 * ((mantissa : ℚ) * 2 ^ exponent) < (2 * most + 1) * 2 ^ last) :
    unitOf mantissa exponent ≤ last := by
  obtain ⟨-, fits, lowest, -⟩ := normal
  have width := unitOf_eq mantissa exponent
  by_contra coarser
  have low : (2 : ℚ) ^ mantissa.log2 ≤ mantissa := by
    exact_mod_cast Nat.log2_self_le (Nat.ne_of_gt positive)
  have high : (2 : ℚ) ^ (last + 24) ≤ 2 ^ ((mantissa.log2 : Int) + exponent) :=
    zpow_le_zpow_right₀ one_le_two (by omega)
  have far : (2 : ℚ) ^ (24 : Int) = 2 ^ 24 := by norm_num
  rw [zpow_add₀ two_ne_zero, zpow_add₀ two_ne_zero, zpow_natCast, far] at high
  have fits : (most : ℚ) + 1 ≤ 2 ^ 24 := by exact_mod_cast fits
  have scaled := mul_le_mul_of_nonneg_right low (two_zpow_pos exponent).le
  have unit := two_zpow_pos last
  nlinarith

/-- What is less than half a unit above a normal number is not rounded to more than the number. -/
theorem within_roundWithAccuracy (sign : Sign) {mantissa most : Nat} {exponent last : Int}
    (positive : 0 < mantissa) (fine : exponent ≤ unitOf mantissa exponent)
    (normal : Normal most last)
    (below : 2 * ((mantissa : ℚ) * 2 ^ exponent) < (2 * most + 1) * 2 ^ last) :
    Within (most * 2 ^ last) (roundWithAccuracy .binary32 sign mantissa exponent .exact) := by
  obtain ⟨lost, reached⟩ := Int.le.dest fine
  obtain ⟨short, large, -⟩ := rounded_bounds positive reached
  have near := rounded_near positive reached
  have width := unitOf_eq mantissa exponent
  rw [roundWithAccuracy_eq sign positive reached]
  refine within_carried sign short (by omega) large normal ?_
  generalize (shifted mantissa lost).roundedMantissa = kept at *
  have unit := two_zpow_pos last
  rcases (unitOf_le positive normal below).lt_or_eq with finer | same
  · -- In a finer unit 24 bits do not reach as far as the normal number.
    have step : (2 : ℚ) ^ (unitOf mantissa exponent + 1) ≤ 2 ^ last :=
      zpow_le_zpow_right₀ one_le_two (by omega)
    rw [zpow_add₀ two_ne_zero, zpow_one] at step
    have short : (kept : ℚ) ≤ 2 ^ 24 := by exact_mod_cast short
    have full : (2 ^ 23 : ℚ) ≤ most := by exact_mod_cast normal.full
    nlinarith
  · rw [same] at near ⊢
    have less : (kept : ℚ) < most + 1 := by nlinarith
    have le : kept ≤ most := Nat.lt_succ_iff.mp (by exact_mod_cast less)
    have le : (kept : ℚ) ≤ most := by exact_mod_cast le
    nlinarith

theorem unitOf_shiftLeft {mantissa : Nat} (positive : 0 < mantissa) (exponent : Int) (count : Nat) :
    unitOf (mantissa <<< count) (exponent - count) = unitOf mantissa exponent := by
  have longer : (mantissa <<< count).log2 = mantissa.log2 + count := by
    have low := Nat.log2_self_le (Nat.ne_of_gt positive)
    have high := @Nat.lt_log2_self mantissa
    have long : mantissa * 2 ^ count ≠ 0 := by positivity
    rw [Nat.shiftLeft_eq, Nat.log2_eq_iff long, Nat.pow_add, Nat.add_right_comm, Nat.pow_add]
    exact ⟨Nat.mul_le_mul_right _ low, Nat.mul_lt_mul_of_pos_right high (Nat.two_pow_pos count)⟩
  rw [unitOf_eq, unitOf_eq, longer]
  congr 2
  omega

theorem within_round (sign : Sign) {mantissa most : Nat} {exponent last : Int}
    (positive : 0 < mantissa) (normal : Normal most last)
    (below : 2 * ((mantissa : ℚ) * 2 ^ exponent) < (2 * most + 1) * 2 ^ last) :
    Within (most * 2 ^ last) (UnpackedFloat.round .binary32 sign mantissa exponent) := by
  set count := (exponent - unitOf mantissa exponent).toNat with shift
  have same : UnpackedFloat.round .binary32 sign mantissa exponent =
      roundWithAccuracy .binary32 sign (mantissa <<< count) (exponent - count) .exact := rfl
  have value : ((mantissa <<< count : Nat) : ℚ) * 2 ^ (exponent - count) =
      mantissa * 2 ^ exponent := by
    rw [Nat.shiftLeft_eq, zpow_sub₀ two_ne_zero, zpow_natCast]
    push_cast
    field_simp
  have kept := unitOf_shiftLeft positive exponent count
  rw [same]
  refine within_roundWithAccuracy sign ?_ (by omega) normal (value ▸ below)
  rw [Nat.shiftLeft_eq]
  exact Nat.mul_pos positive (Nat.two_pow_pos count)

theorem within_normalize (sign : Sign) {mantissa : Int} {most : Nat} {exponent last : Int}
    (normal : Normal most last)
    (below : 2 * ((mantissa.natAbs : ℚ) * 2 ^ exponent) < (2 * most + 1) * 2 ^ last) :
    Within (most * 2 ^ last) (UnpackedFloat.normalize .binary32 mantissa exponent sign) := by
  unfold UnpackedFloat.normalize
  split
  · rename_i less
    have less : mantissa < 0 := Int.compare_eq_lt.mp less
    have same : (-mantissa).toNat = mantissa.natAbs := by omega
    rw [same]
    exact within_round _ (by omega) normal below
  · trivial
  · rename_i greater
    have greater : 0 < mantissa := Int.compare_eq_gt.mp greater
    have same : mantissa.toNat = mantissa.natAbs := by omega
    rw [same]
    exact within_round _ (by omega) normal below

theorem within_mul {bound : ℚ} {x : UnpackedFloat} (within : Within bound x) (sign : Sign)
    {factor most : Nat} {scale last : Int} (positive : 0 < factor) (long : 2 ^ 23 ≤ factor)
    (normal : Normal most last)
    (below : 2 * ((factor : ℚ) * 2 ^ scale * bound) < (2 * most + 1) * 2 ^ last) :
    Within (most * 2 ^ last)
      (UnpackedFloat.mul .binary32 (.finite sign factor scale positive) x) := by
  cases x with
  | zero => trivial
  | notANumber | infinity => exact within.elim
  | finite other mantissa exponent some' =>
    obtain ⟨-, -, small⟩ := within
    have product : 0 < factor * mantissa := Nat.mul_pos positive some'
    have wide : 23 ≤ (factor * mantissa).log2 := by
      rw [Nat.le_log2 (Nat.ne_of_gt product)]
      exact Nat.le_trans long (Nat.le_mul_of_pos_right factor some')
    have width := unitOf_eq (factor * mantissa) (scale + exponent)
    refine within_roundWithAccuracy _ product (by omega) normal ?_
    refine lt_of_le_of_lt ?_ below
    rw [zpow_add₀ two_ne_zero]
    push_cast
    have := mul_le_mul_of_nonneg_left small
      (mul_nonneg (Nat.cast_nonneg (α := ℚ) factor) (two_zpow_pos scale).le)
    linarith

theorem value_decreaseExponent (mantissa : Nat) {exponent lower : Int} (le : lower ≤ exponent) :
    ((decreaseExponent mantissa exponent lower).1 : ℚ) * 2 ^ lower = mantissa * 2 ^ exponent := by
  obtain ⟨count, rfl⟩ := Int.le.dest le
  have shift : (lower + count - lower).toNat = count := by omega
  rw [decreaseExponent, shift, Nat.shiftLeft_eq, zpow_add₀ two_ne_zero, zpow_natCast]
  push_cast
  ring

theorem natAbs_apply (sign : Sign) (mantissa : Nat) : (sign.apply mantissa).natAbs = mantissa := by
  cases sign <;> simp [Sign.apply]

theorem within_add {left right : ℚ} {x y : UnpackedFloat} (first : Within left x)
    (second : Within right y) {most : Nat} {last : Int} (normal : Normal most last)
    (below : 2 * (left + right) < (2 * most + 1) * 2 ^ last) :
    ∃ bound, Within bound (x.add .binary32 y) := by
  cases x with
  | notANumber | infinity => exact first.elim
  | zero sign =>
    cases y with
    | notANumber | infinity => exact second.elim
    | zero other =>
      refine ⟨0, ?_⟩
      unfold UnpackedFloat.add
      dsimp only
      split <;> trivial
    | finite => exact ⟨right, second⟩
  | finite sign mantissa exponent positive =>
    cases y with
    | notANumber | infinity => exact second.elim
    | zero => exact ⟨left, first⟩
    | finite other mantissa' exponent' positive' =>
      refine ⟨most * 2 ^ last, within_normalize _ normal ?_⟩
      refine lt_of_le_of_lt ?_ below
      have one := value_decreaseExponent mantissa (min_le_left exponent exponent')
      have two := value_decreaseExponent mantissa' (min_le_right exponent exponent')
      show 2 * (((sign.apply (decreaseExponent mantissa exponent (min exponent exponent')).1 +
        other.apply (decreaseExponent mantissa' exponent' (min exponent exponent')).1).natAbs : ℚ) *
          2 ^ min exponent exponent') ≤ _
      generalize (decreaseExponent mantissa exponent (min exponent exponent')).1 = a at one ⊢
      generalize (decreaseExponent mantissa' exponent' (min exponent exponent')).1 = b at two ⊢
      have triangle : (sign.apply a + other.apply b).natAbs ≤ a + b := by
        have := Int.natAbs_add_le (sign.apply a) (other.apply b)
        rwa [natAbs_apply, natAbs_apply] at this
      have triangle : ((sign.apply a + other.apply b).natAbs : ℚ) ≤ a + b := by
        exact_mod_cast triangle
      have scaled := mul_le_mul_of_nonneg_right triangle (two_zpow_pos (min exponent exponent')).le
      obtain ⟨-, -, small⟩ := first
      obtain ⟨-, -, small'⟩ := second
      linarith

/-- The largest number in single precision. -/
def largest : ℚ := (2 ^ 24 - 1) * 2 ^ (104 : Int)

theorem within_unpack (word : BitVec 32) (finite : (unpack .binary32 word).isFinite = true) :
    Within largest (unpack .binary32 word) := by
  have reads := @decode_toNat .binary32 word
  generalize unpack .binary32 word = held at reads finite
  cases held with
  | notANumber | infinity => cases finite
  | zero => trivial
  | finite sign mantissa exponent positive =>
    obtain ⟨canonical, -, ends, -⟩ := @Format.decode_eq_finite .single _ _ _ _ reads
    refine ⟨canonical, ends, ?_⟩
    obtain ⟨fits, lowest, large⟩ := canonical
    rw [Format.pattern, Format.lowest_single, Format.infinity_single,
      Format.fractionBits_single] at ends
    rw [Format.lowest_single] at lowest large
    rw [Format.fractionBits_single] at fits large
    have last : exponent ≤ 104 := by omega
    have step : (2 : ℚ) ^ exponent ≤ 2 ^ (104 : Int) := zpow_le_zpow_right₀ one_le_two last
    have short : (mantissa : ℚ) ≤ 2 ^ 24 - 1 := by
      have : (mantissa : ℚ) + 1 ≤ 2 ^ 24 := by exact_mod_cast fits
      linarith
    exact mul_le_mul short step (two_zpow_pos exponent).le (by norm_num)

theorem within_of_isFinite {x : Float32} (finite : x.isFinite = true) :
    Within largest x.toModel.unpack :=
  within_unpack x.toBits.toBitVec finite

/-- What is within bounds is packed and unpacked again. -/
theorem Within.settled {bound : ℚ} {x : UnpackedFloat} (within : Within bound x) :
    unpack .binary32 (pack .binary32 x) = x := by
  cases x with
  | notANumber | infinity => exact within.elim
  | zero sign => exact unpack_pack_zero .binary32 sign
  | finite sign mantissa exponent positive =>
    exact unpack_pack_finite .binary32 (by decide) sign positive within.1 within.2.1

theorem Within.isFinite {bound : ℚ} {x : UnpackedFloat} (within : Within bound x) :
    x.isFinite = true := by
  cases x with
  | notANumber | infinity => exact within.elim
  | _ => rfl

end LiveFragment.Number
