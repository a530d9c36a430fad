import LiveFragment.Proofs.Number.Exact
import LiveFragment.Proofs.Number.Grid
import LiveFragment.Proofs.Number.Narrowed

/-! Rounding twice. A single precision number is written with as few digits as tell it from the
numbers next to it, is read as a double and is narrowed again. The double lies between the same two
midpoints as the digits, unless they are so close to a midpoint that the double is the midpoint itself;
there narrowing takes the even neighbour. This happens to one magnitude only. -/

namespace LiveFragment.Number

namespace RoundingInterval

variable {format : Format} {mantissa : Nat} {exponent : Int}

/-- Away from the powers of two the odd values are in the middle of open intervals. -/
theorem holds_iff_of_odd (odd : mantissa % 2 = 1) (half : reach format mantissa exponent = 1 / 2)
    {x : ℚ} : (ofFinite format mantissa exponent).Holds x ↔
      |x - mantissa * 2 ^ exponent| < 2 ^ exponent / 2 := by
  have closed : (ofFinite format mantissa exponent).closed = false := by
    simp [ofFinite, odd]
  rw [Holds, lower_ofFinite (by omega), upper_ofFinite, half, closed, abs_lt]
  constructor
  · rintro ⟨-, -, inside⟩
    obtain ⟨low, high⟩ := inside rfl
    constructor <;> linarith
  · rintro ⟨low, high⟩
    exact ⟨by linarith, by linarith, fun _ => ⟨by linarith, by linarith⟩⟩

/-- A decimal found for an odd value is at most half a step of its grid away. -/
theorem onGrid_half (odd : mantissa % 2 = 1) (half : reach format mantissa exponent = 1 / 2)
    {grid : Int} {decimal : Decimal}
    (found : (ofFinite format mantissa exponent).onGrid grid = some decimal) :
    decimal.exponent = grid ∧ |decimal.value - mantissa * 2 ^ exponent| ≤ 10 ^ grid / 2 := by
  have unit : (0 : ℚ) < 10 ^ grid := by positivity
  obtain ⟨numerator, above⟩ : ∃ n, n = (ofFinite format mantissa exponent).value.numerator *
    (Fraction.scaled 1 10 grid).denominator := ⟨_, rfl⟩
  obtain ⟨denominator, below⟩ : ∃ n, n = (ofFinite format mantissa exponent).value.denominator *
    (Fraction.scaled 1 10 grid).numerator := ⟨_, rfl⟩
  have positive : 0 < denominator := below ▸ Nat.mul_pos (Fraction.denominator_scaled Nat.two_pos ..)
    (Nat.mul_pos Nat.one_pos (Nat.pow_pos (by decide)))
  obtain ⟨part, split, up, down, nearer, farther⟩ := div_eq_add_part numerator positive
  have cases := onGrid_cases found above below
  have valued : (mantissa * 2 ^ exponent : ℚ) = ((numerator / denominator : Nat) + part) * 10 ^ grid := by
    rw [← split, above, below, ← value_div_grid, div_mul_cancel₀ _ unit.ne']
  generalize (numerator / denominator : Nat) = floor at valued cases
  -- the two neighbours on the grid, and how far away they are
  have low : |(floor * 10 ^ grid - mantissa * 2 ^ exponent : ℚ)| = part * 10 ^ grid := by
    rw [valued, ← sub_mul, sub_add_cancel_left, abs_mul, abs_neg, abs_of_nonneg up, abs_of_pos unit]
  have high : |((floor + 1 : Nat) * 10 ^ grid - mantissa * 2 ^ exponent : ℚ)| =
      (1 - part) * 10 ^ grid := by
    rw [valued, ← sub_mul, Nat.cast_succ, add_sub_add_left_eq_sub, abs_mul,
      abs_of_nonneg (by linarith), abs_of_pos unit]
  have inside (digits : Nat) :
      (ofFinite format mantissa exponent).contains (.scaled digits 10 grid) = true ↔
        |(digits * 10 ^ grid - mantissa * 2 ^ exponent : ℚ)| < 2 ^ exponent / 2 := by
    rw [contains_iff (Fraction.denominator_scaled (by decide) ..), Fraction.value_scaled (by decide),
      holds_iff_of_odd odd half, Nat.cast_ofNat]
  rw [inside, inside, low, high] at cases
  have halfway {way : ℚ} (less : way ≤ 1 / 2) : way * 10 ^ grid ≤ 10 ^ grid / 2 := by
    linarith [mul_le_mul_of_nonneg_right less unit.le]
  rcases cases with ⟨rfl, -, reached, other⟩ | ⟨rfl, reached, other⟩
  · refine ⟨rfl, ?_⟩
    rw [Decimal.value, low]
    refine halfway (not_lt.mp fun more => ?_)
    -- the neighbour above is nearer, so it is in the interval too
    have closer : (1 - part) * 10 ^ grid < part * 10 ^ grid :=
      mul_lt_mul_of_pos_right (by linarith) unit
    have := farther.mpr more
    have := other (closer.trans reached)
    omega
  · refine ⟨rfl, ?_⟩
    rw [Decimal.value, high]
    refine halfway (not_lt.mp fun more => ?_)
    have closer : part * 10 ^ grid < (1 - part) * 10 ^ grid :=
      mul_lt_mul_of_pos_right (by linarith) unit
    rcases Nat.eq_zero_or_pos floor with rfl | some
    · -- zero is as far away as the value is large
      have one : (1 : ℚ) ≤ mantissa := by exact_mod_cast (by omega : 1 ≤ mantissa)
      have power : (0 : ℚ) < 2 ^ exponent := by positivity
      rw [Nat.cast_zero, zero_add] at valued
      linarith [mul_le_mul_of_nonneg_right one power.le]
    · have := nearer.mpr (by linarith)
      have := other some (closer.trans reached)
      omega

end RoundingInterval

namespace Format

variable {format : Format} {mantissa numerator denominator : Nat} {exponent : Int}

/-- A finite result is at most half of the last place away from what is rounded. -/
theorem nearest_near (some : 0 < numerator) (positive : 0 < denominator)
    (finite : format.nearest numerator denominator < format.infinity) :
    ∃ mantissa exponent, format.Canonical mantissa exponent ∧
      format.nearest numerator denominator = format.pattern mantissa exponent ∧
      |(numerator / denominator - mantissa * 2 ^ exponent : ℚ)| ≤
        2 ^ format.unitExponent numerator denominator / 2 := by
  obtain ⟨unit, place⟩ : ∃ unit, format.unitExponent numerator denominator = unit := ⟨_, rfl⟩
  obtain ⟨whole, divided⟩ : ∃ whole, divideToEven (numerator * Nat.pow 2 (-unit).toNat)
    (denominator * Nat.pow 2 unit.toNat) = whole := ⟨_, rfl⟩
  have bounds := @mantissa_bounds format _ _ some positive
  have lowest : format.lowest ≤ unit := place ▸ Int.le_max_right ..
  have units : 0 < denominator * Nat.pow 2 unit.toNat := Nat.mul_pos positive (Nat.two_pow_pos _)
  obtain ⟨low, high, -⟩ := divideToEven_near (numerator * Nat.pow 2 (-unit).toNat) units
  have rounded : format.nearest numerator denominator =
      min (format.pattern whole unit) format.infinity := by
    rw [nearest, if_neg some.ne', place]
    dsimp only
    rw [divided, pattern, Nat.pow_eq]
  rw [rounded] at finite ⊢
  simp only [place, divided] at bounds low high
  rw [div_unit] at low high
  obtain ⟨most, least⟩ := bounds
  have power : (0 : ℚ) < 2 ^ unit := by positivity
  have near : |(numerator / denominator - whole * 2 ^ unit : ℚ)| ≤ 2 ^ unit / 2 := by
    have scaled : (numerator / denominator - whole * 2 ^ unit : ℚ) =
        (numerator / denominator / 2 ^ unit - whole) * 2 ^ unit := by
      rw [sub_mul, div_mul_cancel₀ _ power.ne']
    have half : |(numerator / denominator / 2 ^ unit - whole : ℚ)| ≤ 1 / 2 :=
      abs_le.mpr ⟨by linarith, by linarith⟩
    rw [scaled, abs_mul, abs_of_pos power]
    linarith [mul_le_mul_of_nonneg_right half power.le]
  have below : format.pattern whole unit < format.infinity := by omega
  rw [Nat.min_eq_left below.le, place]
  rcases Nat.lt_or_eq_of_le most with fits | carry
  · exact ⟨whole, unit, ⟨fits, lowest, least⟩, rfl, near⟩
  · have above : format.lowest < unit + 1 := Int.lt_add_one_of_le lowest
    refine ⟨2 ^ format.fractionBits, unit + 1,
      ⟨by have := Nat.two_pow_pos format.fractionBits; omega, above.le, fun _ => Nat.le_refl _⟩, ?_, ?_⟩
    · rw [← pattern_carry above, Int.add_sub_cancel, carry]
    · rw [carry] at near
      rw [zpow_add₀ two_ne_zero, zpow_one]
      push_cast at near ⊢
      rwa [show (2 : ℚ) ^ format.fractionBits * (2 ^ unit * 2) = 2 * 2 ^ format.fractionBits * 2 ^ unit
        by ring]

theorem value_le_of_pattern_le {mantissa' : Nat} {exponent' : Int}
    (canonical : format.Canonical mantissa exponent)
    (finite : format.pattern mantissa exponent < format.infinity)
    (canonical' : format.Canonical mantissa' exponent')
    (finite' : format.pattern mantissa' exponent' < format.infinity)
    (le : format.pattern mantissa exponent ≤ format.pattern mantissa' exponent') :
    (mantissa : ℚ) * 2 ^ exponent ≤ mantissa' * 2 ^ exponent' := by
  by_contra more
  have first := Fraction.value_scaled Nat.two_pos mantissa exponent
  have second := Fraction.value_scaled Nat.two_pos mantissa' exponent'
  rw [Nat.cast_two] at first second
  have other := @nearest_mono format _ _ _ _ (Fraction.denominator_scaled Nat.two_pos ..)
    (Fraction.denominator_scaled Nat.two_pos ..)
    (second.trans_le ((not_le.mp more).le.trans first.symm.le))
  rw [nearest_exact canonical finite (Fraction.denominator_scaled Nat.two_pos ..) first,
    nearest_exact canonical' finite' (Fraction.denominator_scaled Nat.two_pos ..) second] at other
  have same := Nat.le_antisymm le other
  have read := decode_signed_pattern canonical finite false
  rw [same, decode_signed_pattern canonical' finite' false] at read
  obtain ⟨-, rfl, rfl⟩ := Reading.finite.inj read
  exact more le_rfl

/-- What is rounded stays on its side of every value of the format. -/
theorem nearest_between (canonical : format.Canonical mantissa exponent)
    (finite : format.pattern mantissa exponent < format.infinity) {fraction : Fraction}
    (positive : 0 < fraction.denominator)
    (rounded : format.nearest fraction.numerator fraction.denominator =
      format.pattern mantissa exponent)
    {mantissa' : Nat} {exponent' : Int} (canonical' : format.Canonical mantissa' exponent')
    (finite' : format.pattern mantissa' exponent' < format.infinity) :
    ((mantissa' : ℚ) * 2 ^ exponent' ≤ fraction.value →
      (mantissa' : ℚ) * 2 ^ exponent' ≤ mantissa * 2 ^ exponent) ∧
    (fraction.value ≤ (mantissa' : ℚ) * 2 ^ exponent' →
      (mantissa : ℚ) * 2 ^ exponent ≤ mantissa' * 2 ^ exponent') := by
  have scaled := Fraction.value_scaled Nat.two_pos mantissa' exponent'
  rw [Nat.cast_two] at scaled
  have given : 0 < (Fraction.scaled mantissa' 2 exponent').denominator :=
    Fraction.denominator_scaled Nat.two_pos ..
  have exact := nearest_exact canonical' finite' given scaled
  constructor
  · intro le
    have patterns := @nearest_mono format _ _ _ _ given positive (scaled.trans_le le)
    rw [exact, rounded] at patterns
    exact value_le_of_pattern_le canonical' finite' canonical finite patterns
  · intro le
    have patterns := @nearest_mono format _ _ _ _ positive given (le.trans scaled.symm.le)
    rw [exact, rounded] at patterns
    exact value_le_of_pattern_le canonical finite canonical' finite' patterns

theorem nearest_double_of_lt {fraction : Fraction} (some : 0 < fraction.numerator)
    (positive : 0 < fraction.denominator) {top : Int} (low : -1021 ≤ top) (high : top ≤ 200)
    (bits : fraction.value < 2 ^ top) :
    ∃ mantissa exponent, double.Canonical mantissa exponent ∧
      double.pattern mantissa exponent < double.infinity ∧
      double.nearest fraction.numerator fraction.denominator = double.pattern mantissa exponent ∧
      |(fraction.value - mantissa * 2 ^ exponent : ℚ)| ≤ 2 ^ (top - 53) / 2 := by
  have quotient : (0 : ℚ) < fraction.value := by
    rw [Fraction.value]
    positivity
  have place : double.unitExponent fraction.numerator fraction.denominator ≤ top - 53 := by
    have leading : leadingExponent fraction.numerator fraction.denominator < top := by
      rw [leadingExponent_eq_log some positive]
      exact (Int.lt_zpow_iff_log_lt Nat.one_lt_two quotient).mp bits
    show max (leadingExponent fraction.numerator fraction.denominator - 52) (-1074) ≤ top - 53
    omega
  have bounded : double.nearest fraction.numerator fraction.denominator < double.infinity := by
    have limit : fraction.value ≤ (2 ^ 200 : Nat) / (1 : Nat) := by
      have power : (2 : ℚ) ^ top ≤ 2 ^ ((200 : Nat) : Int) := zpow_le_zpow_right₀ one_le_two high
      rw [zpow_natCast] at power
      rw [Nat.cast_one, div_one, Nat.cast_pow, Nat.cast_ofNat]
      exact bits.le.trans power
    have less := @nearest_mono double _ _ _ _ positive Nat.one_pos limit
    have reached : double.nearest (2 ^ 200) 1 < double.infinity := by decide
    omega
  obtain ⟨mantissa, exponent, wide, rounded, near⟩ := nearest_near some positive bounded
  have step : (2 : ℚ) ^ double.unitExponent fraction.numerator fraction.denominator ≤
      2 ^ (top - 53) := zpow_le_zpow_right₀ one_le_two place
  exact ⟨mantissa, exponent, wide, rounded ▸ bounded, rounded,
    near.trans (div_le_div_of_nonneg_right step two_pos.le)⟩

/-- A decimal near a value of single precision is read as a double that is much nearer to it. -/
theorem exists_double (canonical : single.Canonical mantissa exponent)
    (finite : single.pattern mantissa exponent < single.infinity) (some : 0 < mantissa)
    {decimal : Decimal}
    (inside : (RoundingInterval.ofFinite single mantissa exponent).Holds decimal.value) :
    ∃ mantissa' exponent', double.Canonical mantissa' exponent' ∧
      double.pattern mantissa' exponent' < double.infinity ∧
      double.ofDecimal decimal = double.pattern mantissa' exponent' ∧
      double.nearest (Fraction.scaled decimal.digits 10 decimal.exponent).numerator
          (Fraction.scaled decimal.digits 10 decimal.exponent).denominator =
        double.pattern mantissa' exponent' ∧
      |(decimal.value - mantissa' * 2 ^ exponent' : ℚ)| ≤ 2 ^ (exponent - 1) / 2 ^ 29 := by
  obtain ⟨least, most⟩ := size_of_holds (by decide) (by decide) canonical some finite inside
  have unit : (0 : ℚ) < 2 ^ exponent := by positivity
  have fits : mantissa < 2 ^ 24 := canonical.fits
  have lowest : -149 ≤ exponent := canonical.lowest
  have highest : exponent + 23 ≤ 2 ^ 7 := leading_le finite
  have positive : 0 < (Fraction.scaled decimal.digits 10 decimal.exponent).denominator :=
    Fraction.denominator_scaled (by decide) ..
  have given : 0 < (Fraction.scaled decimal.digits 10 decimal.exponent).numerator := by
    refine Nat.mul_pos (Nat.pos_of_ne_zero fun none => ?_) (Nat.pow_pos (by decide))
    rw [Decimal.value, none, Nat.cast_zero, zero_mul] at least
    exact absurd least (not_le.mpr (by positivity))
  -- the value has at most 24 bits in front of the last place
  have bits : decimal.value < 2 ^ (exponent + 24) := by
    have high := inside.2.1
    rw [RoundingInterval.upper_ofFinite] at high
    have whole : (mantissa : ℚ) + 1 ≤ 2 ^ 24 := by exact_mod_cast fits
    rw [zpow_add₀ two_ne_zero, mul_comm]
    exact lt_of_le_of_lt high (mul_lt_mul_of_pos_right (by norm_num; linarith) unit)
  rw [← Fraction.value_decimal] at bits
  obtain ⟨mantissa', exponent', wide, bounded, rounded, near⟩ :=
    nearest_double_of_lt given positive (by omega) (by omega) bits
  rw [Fraction.value_decimal] at near
  refine ⟨mantissa', exponent', wide, bounded, (ofDecimal_eq_nearest least most).trans rounded,
    rounded, near.trans_eq ?_⟩
  rw [show exponent + 24 - 53 = exponent - 1 - 28 by omega, zpow_sub₀ two_ne_zero, div_div]
  norm_num

/-- The double that is nearest to a number does not leave the interval around a value of single
precision, since the ends of the interval are doubles. -/
theorem nearest_double_between (canonical : single.Canonical mantissa exponent)
    (finite : single.pattern mantissa exponent < single.infinity) {fraction : Fraction}
    (positive : 0 < fraction.denominator)
    (inside : (RoundingInterval.ofFinite single mantissa exponent).Holds fraction.value)
    {mantissa' : Nat} {exponent' : Int} (wide : double.Canonical mantissa' exponent')
    (bounded : double.pattern mantissa' exponent' < double.infinity)
    (rounded : double.nearest fraction.numerator fraction.denominator =
      double.pattern mantissa' exponent') :
    (RoundingInterval.ofFinite single mantissa exponent).lower.value ≤ mantissa' * 2 ^ exponent' ∧
      (mantissa' * 2 ^ exponent' : ℚ) ≤
        (RoundingInterval.ofFinite single mantissa exponent).upper.value := by
  have fits : mantissa < 2 ^ 24 := canonical.fits
  have lowest : -149 ≤ exponent := canonical.lowest
  have highest : exponent + 23 ≤ 2 ^ 7 := leading_le finite
  obtain ⟨low, high, -⟩ := inside
  rw [RoundingInterval.ofFinite, Fraction.value_scaled Nat.two_pos, Nat.cast_two] at low high
  rw [RoundingInterval.ofFinite, Fraction.value_scaled Nat.two_pos, Fraction.value_scaled Nat.two_pos,
    Nat.cast_two]
  have quarters {count : Nat} (few : count ≤ 4 * mantissa + 2) :=
    @canonical_double_of_lt count (exponent - 2) (by omega) (by omega) (by omega)
  constructor
  · obtain ⟨_, _, canonical', finite', valued⟩ := quarters (show 4 * mantissa - _ ≤ _ by omega)
    rw [valued] at low ⊢
    exact (nearest_between wide bounded positive rounded canonical' finite').1 low
  · obtain ⟨_, _, canonical', finite', valued⟩ := quarters le_rfl
    rw [valued] at high ⊢
    exact (nearest_between wide bounded positive rounded canonical' finite').2 high

/-- An odd mantissa is not a power of two, so its interval is symmetric. -/
theorem reach_of_odd (odd : mantissa % 2 = 1) :
    RoundingInterval.reach single mantissa exponent = 1 / 2 := by
  refine if_neg fun power => ?_
  rw [power.1] at odd
  exact absurd odd (by decide)

/-- The ends of the interval around an odd value are the midpoints next to it. -/
theorem ends_of_odd (odd : mantissa % 2 = 1) :
    (RoundingInterval.ofFinite single mantissa exponent).lower.value =
        (2 * mantissa - 1 : Nat) * 2 ^ (exponent - 1) ∧
      (RoundingInterval.ofFinite single mantissa exponent).upper.value =
        (2 * mantissa + 1 : Nat) * 2 ^ (exponent - 1) := by
  rw [RoundingInterval.lower_ofFinite (by omega), RoundingInterval.upper_ofFinite, reach_of_odd odd,
    zpow_sub₀ two_ne_zero, zpow_one, Nat.cast_sub (by omega)]
  push_cast
  exact ⟨by ring, by ring⟩

/-- The digits of a value are found on a grid that is at least as coarse as twice their distance from
the value, when the value is odd. -/
theorem shortest_half (canonical : single.Canonical mantissa exponent) (odd : mantissa % 2 = 1) :
    ∃ digits : Nat, ∃ grid : Int,
      (single.shortest mantissa exponent).value = digits * 10 ^ grid ∧
        |(digits * 10 ^ grid - mantissa * 2 ^ exponent : ℚ)| ≤ 10 ^ grid / 2 := by
  have half : RoundingInterval.reach single mantissa exponent = 1 / 2 := reach_of_odd odd
  obtain ⟨grid, decimal, found, same⟩ := shortest_eq_trim (by decide) canonical (by omega)
  obtain ⟨rfl, near⟩ := RoundingInterval.onGrid_half odd half found
  rw [same, Decimal.value_trim]
  exact ⟨decimal.digits, decimal.exponent, rfl, near⟩

/-- The digits of an odd value are not taken for a midpoint next to it, but for one pair. -/
theorem shortest_apart (canonical : single.Canonical mantissa exponent)
    (finite : single.pattern mantissa exponent < single.infinity) (odd : mantissa % 2 = 1)
    {midpoint : Nat} (next : midpoint = 2 * mantissa - 1 ∨ midpoint = 2 * mantissa + 1)
    (near : |((single.shortest mantissa exponent).value - midpoint * 2 ^ (exponent - 1) : ℚ)| ≤
      2 ^ (exponent - 1) / 2 ^ 29) :
    (single.shortest mantissa exponent).value = midpoint * 2 ^ (exponent - 1) ∨
      exponent = -107 ∧ midpoint = 22841339 := by
  have fits : mantissa < 2 ^ 24 := canonical.fits
  have lowest : -149 ≤ exponent := canonical.lowest
  have large : -149 < exponent → 2 ^ 23 ≤ mantissa := canonical.large
  have bounded : (exponent + 149).toNat * 2 ^ 23 + mantissa < 255 * 2 ^ 23 := finite
  obtain ⟨digits, grid, same, half⟩ := shortest_half canonical odd
  rw [same] at near ⊢
  have unit : (0 : ℚ) < 2 ^ (exponent - 1) := by positivity
  have double : (mantissa * 2 ^ exponent : ℚ) = 2 * mantissa * 2 ^ (exponent - 1) := by
    rw [zpow_sub₀ two_ne_zero, zpow_one]
    ring
  have coarse : (2 : ℚ) ^ (exponent - 1) * (2 - 2 / 2 ^ 29) ≤ 10 ^ grid := by
    rw [double] at half
    obtain ⟨below, above⟩ := abs_le.mp half
    obtain ⟨low, high⟩ := abs_le.mp near
    rcases next with rfl | rfl
    · rw [Nat.cast_sub (by omega)] at low high
      push_cast at low high
      linarith
    · push_cast at low high
      linarith
  rcases Grids.eq_or_of_near (by omega) (by omega) (by omega) (by omega) coarse near with
    equal | ⟨two, single⟩
  · exact .inl equal
  · exact .inr ⟨by omega, single⟩

/-- The double that the digits of a value are read as lies in the interval around the value, with one
exception. -/
theorem holds_double (canonical : single.Canonical mantissa exponent)
    (finite : single.pattern mantissa exponent < single.infinity) (some : 0 < mantissa)
    (regular : ¬(exponent = -107 ∧ mantissa = 11420669)) {decimal : Decimal}
    (same : decimal.value = (single.shortest mantissa exponent).value) :
    ∃ mantissa' exponent', double.Canonical mantissa' exponent' ∧
      double.pattern mantissa' exponent' < double.infinity ∧
      double.ofDecimal decimal = double.pattern mantissa' exponent' ∧
      (RoundingInterval.ofFinite single mantissa exponent).Holds (mantissa' * 2 ^ exponent') := by
  have inside := (shortest_spec (by decide) canonical some).2
  rw [← same] at inside
  obtain ⟨mantissa', exponent', wide, bounded, read, rounded, near⟩ :=
    exists_double canonical finite some inside
  obtain ⟨least, greatest⟩ := nearest_double_between canonical finite
    (Fraction.denominator_scaled (by decide) ..) (by rwa [Fraction.value_decimal]) wide bounded rounded
  refine ⟨mantissa', exponent', wide, bounded, read, least, greatest, fun opened => ?_⟩
  -- an open interval belongs to an odd value; its digits are not taken for an end
  have odd : mantissa % 2 = 1 := by simpa [RoundingInterval.ofFinite] using opened
  have apart {midpoint : Nat} (next : midpoint = 2 * mantissa - 1 ∨ midpoint = 2 * mantissa + 1)
      (equal : (mantissa' * 2 ^ exponent' : ℚ) = midpoint * 2 ^ (exponent - 1)) :
      decimal.value = midpoint * 2 ^ (exponent - 1) := by
    rw [equal, same] at near
    rw [same]
    refine (shortest_apart canonical finite odd next near).resolve_right fun only => ?_
    exact regular ⟨only.1, by omega⟩
  obtain ⟨below, above⟩ := @ends_of_odd mantissa exponent odd
  obtain ⟨left, right⟩ := inside.2.2 opened
  constructor
  · refine lt_of_le_of_ne least fun equal => left.ne' ?_
    rw [below, apart (.inl rfl) (equal.symm.trans below)]
  · refine lt_of_le_of_ne greatest fun equal => right.ne ?_
    rw [above, apart (.inr rfl) (equal.trans above)]

/-- Decimals of one value, of a size that formats have, are read as one pattern. -/
theorem ofDecimal_congr {decimal decimal' : Decimal} (low : (10 : ℚ) ^ (-400 : Int) ≤ decimal.value)
    (high : decimal.value < 10 ^ (401 : Int)) (same : decimal.value = decimal'.value) :
    format.ofDecimal decimal = format.ofDecimal decimal' := by
  have positive (decimal : Decimal) :
      0 < (Fraction.scaled decimal.digits 10 decimal.exponent).denominator :=
    Fraction.denominator_scaled (by decide) ..
  have equal : (Fraction.scaled decimal.digits 10 decimal.exponent).value =
      (Fraction.scaled decimal'.digits 10 decimal'.exponent).value := by
    rw [Fraction.value_decimal, Fraction.value_decimal, same]
  rw [ofDecimal_eq_nearest low high, ofDecimal_eq_nearest (same ▸ low) (same ▸ high)]
  exact Nat.le_antisymm (nearest_mono (positive _) (positive _) equal.le)
    (nearest_mono (positive _) (positive _) equal.ge)

end Format

theorem Double.reading_ofDecimal {mantissa : Nat} {exponent : Int}
    (canonical : Format.double.Canonical mantissa exponent)
    (finite : Format.double.pattern mantissa exponent < Format.double.infinity) {decimal : Decimal}
    (read : Format.double.ofDecimal decimal = Format.double.pattern mantissa exponent)
    (negative : Bool) : (ofDecimal negative decimal).reading = .finite negative mantissa exponent := by
  have kept := UInt64.toNat_ofNat_of_lt' (Format.signed_lt
    (Nat.lt_trans finite (Format.infinity_lt_signBit _)) negative)
  rw [ofDecimal, read, ofPattern, reading, kept, Format.decode_signed_pattern canonical finite]

namespace Single

/-- The magnitude whose digits, read as a double, are a midpoint: 7.038531e-26. -/
def unstable : Nat := 0x15ae43fd

/-- What becomes of a number whose digits are read as a double that is narrowed again. -/
def viaDouble (x : Single) : Single :=
  if x.bits.toNat % Format.single.signBit = unstable then ⟨x.bits + 1⟩ else x

theorem viaDouble_eq_iff {x : Single} :
    x.viaDouble = x ↔ x.bits.toNat % Format.single.signBit ≠ unstable := by
  unfold viaDouble
  split
  · rename_i same
    refine iff_of_false (fun fixed => ?_) (not_not.mpr same)
    have bits := congrArg Single.bits fixed
    simp at bits
  · rename_i other
    exact iff_of_true rfl other

variable {x : Single} {negative : Bool} {mantissa : Nat} {exponent : Int}

/-- The digits of the unstable magnitude are read as the midpoint above it. -/
theorem toSingle_ofDecimal_unstable (read : x.reading = .finite negative 11420669 (-107))
    {decimal : Decimal} (same : decimal.value = (Format.single.shortest 11420669 (-107)).value) :
    (Double.ofDecimal negative decimal).isFinite = true ∧
      (Double.ofDecimal negative decimal).toSingle = x.viaDouble := by
  obtain ⟨canonical, -, finite, -⟩ := Format.decode_eq_finite read
  have digits : Format.single.shortest 11420669 (-107) = ⟨7038531, -32⟩ := by decide +kernel
  obtain ⟨low, high⟩ := Format.size_of_holds (by decide) (by decide) canonical (by decide) finite
    (Format.shortest_spec (by decide) canonical (by decide)).2
  rw [← same] at low high
  rw [digits] at same
  have midpoint : Format.double.ofDecimal decimal = 0x3ab5c87fb0000000 := by
    rw [Format.ofDecimal_congr low high same]
    decide +kernel
  have bits : x.bits = UInt32.ofNat (Format.single.signed negative unstable) := by
    rw [← UInt32.toNat_inj, ← Format.signed_pattern read x.lt_signBit]
    cases negative <;> decide
  obtain ⟨bits⟩ := x
  subst bits
  rw [Double.ofDecimal, midpoint]
  cases negative <;> decide +kernel

theorem viaDouble_of_regular (read : x.reading = .finite negative mantissa exponent)
    (regular : ¬(exponent = -107 ∧ mantissa = 11420669)) : x.viaDouble = x := by
  refine viaDouble_eq_iff.mpr fun equal => regular ?_
  have word := Format.signed_pattern read x.lt_signBit
  rw [(Format.decode_eq_finite read).2.1] at equal
  rw [equal] at word
  have fixed : Format.single.decode (Format.single.signed negative unstable) =
      .finite negative 11420669 (-107) := by
    cases negative <;> decide +kernel
  rw [word] at fixed
  obtain ⟨-, rfl, rfl⟩ := Reading.finite.inj (fixed.symm.trans read)
  exact ⟨rfl, rfl⟩

/-- The digits of a value, zero too, are read as a double that rounds back to the value. -/
theorem exists_narrowed (canonical : Format.single.Canonical mantissa exponent)
    (finite : Format.single.pattern mantissa exponent < Format.single.infinity)
    (regular : ¬(exponent = -107 ∧ mantissa = 11420669)) {decimal : Decimal}
    (same : decimal.value =
      (if mantissa = 0 then ⟨0, 0⟩ else Format.single.shortest mantissa exponent : Decimal).value) :
    ∃ mantissa' exponent', Format.double.Canonical mantissa' exponent' ∧
      Format.double.pattern mantissa' exponent' < Format.double.infinity ∧
      Format.double.ofDecimal decimal = Format.double.pattern mantissa' exponent' ∧
      Format.single.nearest (Fraction.scaled mantissa' 2 exponent').numerator
        (Fraction.scaled mantissa' 2 exponent').denominator =
          Format.single.pattern mantissa exponent := by
  rcases Nat.eq_zero_or_pos mantissa with rfl | some
  · have none : decimal.digits = 0 := by
      have power : (10 : ℚ) ^ decimal.exponent ≠ 0 := by positivity
      rw [if_pos rfl, Decimal.value, Decimal.value, Nat.cast_zero, zero_mul, mul_eq_zero,
        or_iff_left power] at same
      exact_mod_cast same
    refine ⟨0, Format.double.lowest, ⟨by decide, Int.le_refl _, fun above => absurd above
      (Int.lt_irrefl _)⟩, by decide, ?_, ?_⟩
    · rw [Format.ofDecimal, if_pos none]
      decide
    · rw [canonical.pattern_zero]
      decide
  · rw [if_neg some.ne'] at same
    obtain ⟨mantissa', exponent', wide, bounded, digits, inside⟩ :=
      Format.holds_double canonical finite some regular same
    refine ⟨mantissa', exponent', wide, bounded, digits, ?_⟩
    have valued := Fraction.value_scaled Nat.two_pos mantissa' exponent'
    rw [Nat.cast_two] at valued
    rw [Format.nearest_eq canonical some (Fraction.denominator_scaled Nat.two_pos ..)
      (valued ▸ inside), Nat.min_eq_left finite.le]

/-- The digits that a finite number is written with, and any others of the same value, are read as a
finite double, and that is narrowed to the number itself with one exception. -/
theorem toSingle_ofDecimal (read : x.reading = .finite negative mantissa exponent) {decimal : Decimal}
    (same : decimal.value =
      (if mantissa = 0 then ⟨0, 0⟩ else Format.single.shortest mantissa exponent : Decimal).value) :
    (Double.ofDecimal negative decimal).isFinite = true ∧
      (Double.ofDecimal negative decimal).toSingle = x.viaDouble := by
  obtain ⟨canonical, -, finite, -⟩ := Format.decode_eq_finite read
  by_cases exception : exponent = -107 ∧ mantissa = 11420669
  · obtain ⟨rfl, rfl⟩ := exception
    rw [if_neg (by decide)] at same
    exact toSingle_ofDecimal_unstable read same
  · obtain ⟨mantissa', exponent', wide, bounded, digits, rounded⟩ :=
      exists_narrowed canonical finite exception same
    have double := Double.reading_ofDecimal wide bounded digits negative
    refine ⟨by rw [Double.isFinite, double], ?_⟩
    rw [Fraction.scaled] at rounded
    rw [Double.reading] at double
    rw [viaDouble_of_regular read exception, Double.toSingle, Format.convert, double]
    dsimp only
    rw [rounded, Format.signed_pattern read x.lt_signBit, ofPattern, UInt32.ofNat_toNat]

end Single

end LiveFragment.Number
