import Mathlib.Algebra.Order.Floor.Semifield
import LiveFragment.Proofs.Number.Rounding

/-! The shortest decimal of a value reads back as the value. The grid of seventeen digits is finer
than the interval around the value is wide, so that one of the two neighbours on it lies inside; the
decimal found lies inside too, and is rounded to the value as everything in the interval is. -/

namespace LiveFragment.Number

/-- The number that a decimal is. -/
def Decimal.value (decimal : Decimal) : ℚ := decimal.digits * 10 ^ decimal.exponent

theorem Fraction.value_decimal (decimal : Decimal) :
    (Fraction.scaled decimal.digits 10 decimal.exponent).value = decimal.value :=
  Fraction.value_scaled (by decide) ..

theorem Decimal.value_trim (decimal : Decimal) : decimal.trim.value = decimal.value := by
  induction decimal using Decimal.trim.induct with
  | case1 decimal even ih =>
    have digits : decimal.digits = decimal.digits / 10 * 10 :=
      (Nat.div_mul_cancel (Nat.dvd_of_mod_eq_zero even.2)).symm
    rw [Decimal.trim, dif_pos even, ih, value, value, zpow_add₀ (by norm_num), zpow_one,
      mul_comm (10 ^ _ : ℚ), ← mul_assoc]
    congr 1
    exact_mod_cast digits.symm
  | case2 decimal odd => rw [Decimal.trim, dif_neg odd]

theorem Decimal.digits_trim {decimal : Decimal} (some : decimal.digits ≠ 0) :
    decimal.trim.digits ≠ 0 := by
  induction decimal using Decimal.trim.induct with
  | case1 decimal even ih =>
    rw [Decimal.trim, dif_pos even]
    exact ih (show decimal.digits / 10 ≠ 0 by omega)
  | case2 decimal odd => rwa [Decimal.trim, dif_neg odd]

/-- The digit that leads a fraction stands at its decimal logarithm. -/
theorem Fraction.leadingDigit_eq_log {fraction : Fraction} (some : 0 < fraction.numerator)
    (positive : 0 < fraction.denominator) : fraction.leadingDigit = Int.log 10 fraction.value := by
  have length (n : Nat) : 0 < (Nat.toDigits 10 n).length := Nat.length_toDigits_pos
  have high (n : Nat) : n < 10 ^ ((Nat.toDigits 10 n).length - 1 + 1) := by
    rw [Nat.sub_add_cancel (length n), ← Nat.length_toDigits_le_iff (by decide) (length n)]
  have low {n : Nat} (some : 0 < n) : 10 ^ ((Nat.toDigits 10 n).length - 1) ≤ n := by
    rcases Nat.eq_zero_or_pos ((Nat.toDigits 10 n).length - 1) with one | more
    · rwa [one]
    · rw [← Nat.not_lt, ← Nat.length_toDigits_le_iff (by decide) more]
      have := length n
      omega
  have guess : ((Nat.toDigits 10 fraction.numerator).length : Int) -
        (Nat.toDigits 10 fraction.denominator).length =
      ((Nat.toDigits 10 fraction.numerator).length - 1 : Nat) -
        ((Nat.toDigits 10 fraction.denominator).length - 1 : Nat) := by
    have := length fraction.numerator
    have := length fraction.denominator
    omega
  rw [leadingDigit, value, log_div (by decide) positive (low some) (high _) (low positive) (high _),
    ← guess]
  have ten : 0 < 10 := by decide
  simp only [le_iff (denominator_scaled ten ..) positive, value_scaled ten, Nat.cast_one, one_mul]
  rw [value]

namespace RoundingInterval

variable {format : Format} {mantissa : Nat} {exponent : Int}

/-- The neighbour of the value that a grid gives, and that the other one is not nearer if it is in the
interval too. -/
theorem onGrid_cases {interval : RoundingInterval} {grid : Int} {decimal : Decimal}
    (found : interval.onGrid grid = some decimal) {numerator denominator : Nat}
    (above : numerator = interval.value.numerator * (Fraction.scaled 1 10 grid).denominator)
    (below : denominator = interval.value.denominator * (Fraction.scaled 1 10 grid).numerator) :
    (decimal = ⟨numerator / denominator, grid⟩ ∧ 0 < numerator / denominator ∧
      interval.contains (.scaled (numerator / denominator) 10 grid) = true ∧
      (interval.contains (.scaled (numerator / denominator + 1) 10 grid) = true →
        2 * (numerator % denominator) ≤ denominator)) ∨
    (decimal = ⟨numerator / denominator + 1, grid⟩ ∧
      interval.contains (.scaled (numerator / denominator + 1) 10 grid) = true ∧
      (0 < numerator / denominator →
        interval.contains (.scaled (numerator / denominator) 10 grid) = true →
          denominator ≤ 2 * (numerator % denominator))) := by
  unfold onGrid at found
  dsimp only at found
  rw [← above, ← below] at found
  split at found
  · rename_i both
    simp only [Bool.and_eq_true, decide_eq_true_eq] at both
    obtain ⟨⟨some, low⟩, high⟩ := both
    split at found <;> rename_i nearer <;> cases found <;>
      simp only [Bool.or_eq_true, Bool.and_eq_true, decide_eq_true_eq] at nearer
    · exact .inl ⟨rfl, some, low, fun _ => by omega⟩
    · exact .inr ⟨rfl, high, fun _ _ => by omega⟩
  · rename_i one
    split at found
    · rename_i low
      cases found
      obtain ⟨some, inside⟩ := Bool.and_eq_true_iff.mp low
      exact .inl ⟨rfl, of_decide_eq_true some, inside, fun high => absurd (by rw [low, high]; rfl) one⟩
    · split at found
      · rename_i low high
        cases found
        exact .inr ⟨rfl, high, fun some inside => absurd (by simp [some, inside]) low⟩
      · cases found

theorem onGrid_eq_some {interval : RoundingInterval} {grid : Int} {decimal : Decimal}
    (found : interval.onGrid grid = some decimal) :
    0 < decimal.digits ∧
      interval.contains (.scaled decimal.digits 10 decimal.exponent) = true := by
  rcases onGrid_cases found rfl rfl with ⟨rfl, some, low, -⟩ | ⟨rfl, high, -⟩
  · exact ⟨some, low⟩
  · exact ⟨Nat.succ_pos _, high⟩

/-- A grid without a decimal in the interval has neither neighbour of the value in it. -/
theorem onGrid_eq_none {interval : RoundingInterval} {grid : Int}
    (none : interval.onGrid grid = none) {down : Nat}
    (same : interval.value.numerator * (Fraction.scaled 1 10 grid).denominator /
      (interval.value.denominator * (Fraction.scaled 1 10 grid).numerator) = down)
    (some : 0 < down) :
    interval.contains (.scaled down 10 grid) ≠ true ∧
      interval.contains (.scaled (down + 1) 10 grid) ≠ true := by
  unfold onGrid at none
  dsimp only at none
  rw [same] at none
  split at none
  · split at none <;> cases none
  · split at none
    · cases none
    · split at none
      · cases none
      · rename_i low high
        exact ⟨fun inside => low (by simp [some, inside]), high⟩

theorem reach_pos : 0 < reach format mantissa exponent := by
  unfold reach
  split <;> norm_num

/-- A number closer to the value than the ends of the interval is inside. -/
theorem holds_of_near (some : 0 < mantissa) {x : ℚ}
    (low : (mantissa - reach format mantissa exponent) * 2 ^ exponent < x)
    (high : x < (mantissa + 1 / 2) * 2 ^ exponent) :
    (ofFinite format mantissa exponent).Holds x := by
  rw [Holds, lower_ofFinite some, upper_ofFinite]
  exact ⟨low.le, high.le, fun _ => ⟨low, high⟩⟩

/-- The value in units of a grid, on the naturals that are computed. -/
theorem value_div_grid {grid : Int} : (mantissa * 2 ^ exponent / 10 ^ grid : ℚ) =
    ((ofFinite format mantissa exponent).value.numerator *
        (Fraction.scaled 1 10 grid).denominator : Nat) /
      ((ofFinite format mantissa exponent).value.denominator *
        (Fraction.scaled 1 10 grid).numerator : Nat) := by
  have step := Fraction.value_scaled (show 0 < 10 by decide) 1 grid
  have valued : (ofFinite format mantissa exponent).value.value = mantissa * 2 ^ exponent :=
    value_ofFinite
  rw [Nat.cast_one, one_mul, Nat.cast_ofNat] at step
  rw [← valued, ← step, Fraction.value, Fraction.value, div_div_div_eq]
  push_cast
  rfl

/-- A grid that is finer than the interval is wide has a decimal in it. -/
theorem onGrid_ne_none (some : 0 < mantissa) {grid : Int}
    (reached : (10 : ℚ) ^ grid ≤ mantissa * 2 ^ exponent)
    (fine : (10 : ℚ) ^ grid < (reach format mantissa exponent + 1 / 2) * 2 ^ exponent) :
    (ofFinite format mantissa exponent).onGrid grid ≠ none := by
  intro none
  have ten : (0 : ℚ) < 10 ^ grid := by positivity
  have unit : (0 : ℚ) < 2 ^ exponent := by positivity
  have reach : 0 < reach format mantissa exponent := reach_pos
  obtain ⟨down, same⟩ : ∃ down,
      (ofFinite format mantissa exponent).value.numerator * (Fraction.scaled 1 10 grid).denominator /
        ((ofFinite format mantissa exponent).value.denominator *
          (Fraction.scaled 1 10 grid).numerator) = down := ⟨_, rfl⟩
  have floor : ⌊(mantissa * 2 ^ exponent / 10 ^ grid : ℚ)⌋₊ = down := by
    rw [value_div_grid, Nat.floor_div_eq_div, same]
  have low : (down : ℚ) * 10 ^ grid ≤ mantissa * 2 ^ exponent := by
    rw [← le_div_iff₀ ten, ← floor]
    exact Nat.floor_le (by positivity)
  have high : (mantissa * 2 ^ exponent : ℚ) < (down + 1) * 10 ^ grid := by
    rw [← div_lt_iff₀ ten, ← floor]
    exact Nat.lt_floor_add_one _
  have first : 0 < down := by
    rw [← floor, Nat.floor_pos]
    exact (one_le_div ten).mpr reached
  obtain ⟨lowOutside, highOutside⟩ := onGrid_eq_none none same first
  rw [Ne, contains_iff (Fraction.denominator_scaled (by decide) ..),
    Fraction.value_scaled (by decide)] at lowOutside highOutside
  push_cast at lowOutside highOutside
  by_cases near : (mantissa - RoundingInterval.reach format mantissa exponent) * 2 ^ exponent <
      (down * 10 ^ grid : ℚ)
  · refine lowOutside (holds_of_near some near ?_)
    linarith
  · refine highOutside (holds_of_near some ?_ ?_)
    · have := mul_pos reach unit
      linarith
    · linarith

/-- The interval around a value of at most 53 bits is wider than a unit of the seventeenth digit. -/
theorem onGrid_leading_ne_none (narrow : format.fractionBits ≤ 52)
    (canonical : format.Canonical mantissa exponent) (some : 0 < mantissa) :
    (ofFinite format mantissa exponent).onGrid
      ((ofFinite format mantissa exponent).value.leadingDigit - 16) ≠ none := by
  have unit : (0 : ℚ) < 2 ^ exponent := by positivity
  have one : (1 : ℚ) ≤ mantissa := by exact_mod_cast some
  have positive : (0 : ℚ) < mantissa * 2 ^ exponent := by positivity
  have leading : (10 : ℚ) ^ (ofFinite format mantissa exponent).value.leadingDigit ≤
      mantissa * 2 ^ exponent := by
    have given : 0 < (ofFinite format mantissa exponent).value.numerator :=
      Nat.mul_pos (Nat.mul_pos (by decide) some) (Nat.two_pow_pos _)
    rw [Fraction.leadingDigit_eq_log given (Fraction.denominator_scaled Nat.two_pos ..),
      value_ofFinite]
    exact_mod_cast Int.zpow_log_le_self (b := 10) (by decide) positive
  generalize (ofFinite format mantissa exponent).value.leadingDigit = digit at leading
  have step : (10 : ℚ) ^ (digit - 16) * 10 ^ 16 ≤ mantissa * 2 ^ exponent := by
    have places : (10 : ℚ) ^ (digit - 16) * 10 ^ 16 = 10 ^ digit := by
      rw [← zpow_natCast, ← zpow_add₀ (by norm_num), Nat.cast_ofNat, Int.sub_add_cancel]
    rwa [places]
  have ten : (0 : ℚ) < 10 ^ (digit - 16) := by positivity
  refine onGrid_ne_none some (by linarith) ?_
  have power : (2 : ℚ) ^ format.fractionBits ≤ 2 ^ 52 := pow_le_pow_right₀ one_le_two narrow
  have fits : (mantissa : ℚ) + 1 ≤ 2 * 2 ^ format.fractionBits := by exact_mod_cast canonical.fits
  rw [← mul_lt_mul_iff_of_pos_right (show (0 : ℚ) < 10 ^ 16 by norm_num)]
  refine lt_of_le_of_lt step ?_
  rw [mul_right_comm]
  refine mul_lt_mul_of_pos_right ?_ unit
  unfold reach
  split
  · rename_i both
    rw [both.1]
    push_cast
    linarith
  · linarith

end RoundingInterval

namespace Format

variable {format : Format} {mantissa : Nat} {exponent : Int}

/-- The shortest decimal of a value is found on one of the grids. -/
theorem shortest_eq_trim (narrow : format.fractionBits ≤ 52)
    (canonical : format.Canonical mantissa exponent) (some : 0 < mantissa) :
    ∃ grid decimal,
      (RoundingInterval.ofFinite format mantissa exponent).onGrid grid = Option.some decimal ∧
        format.shortest mantissa exponent = decimal.trim := by
  unfold shortest
  dsimp only
  set leading := (RoundingInterval.ofFinite format mantissa exponent).value.leadingDigit with named
  have member : leading - 16 ∈ (List.range 17).map fun extra : Nat => leading - (extra : Int) :=
    List.mem_map.mpr ⟨16, by decide, rfl⟩
  obtain ⟨decimal, search⟩ : ∃ decimal, ((List.range 17).map fun extra : Nat =>
      leading - (extra : Int)).findSome? (RoundingInterval.ofFinite format mantissa exponent).onGrid =
        Option.some decimal := by
    rw [← Option.isSome_iff_exists, List.findSome?_isSome_iff]
    exact ⟨_, member, Option.isSome_iff_ne_none.mpr
      (RoundingInterval.onGrid_leading_ne_none narrow canonical some)⟩
  obtain ⟨grid, -, found⟩ := List.exists_of_findSome?_eq_some search
  rw [search, Option.getD_some]
  exact ⟨grid, decimal, found, rfl⟩

/-- The shortest decimal of a value is in the interval around it. -/
theorem shortest_spec (narrow : format.fractionBits ≤ 52)
    (canonical : format.Canonical mantissa exponent) (some : 0 < mantissa) :
    (format.shortest mantissa exponent).digits ≠ 0 ∧
      (RoundingInterval.ofFinite format mantissa exponent).Holds
        (format.shortest mantissa exponent).value := by
  obtain ⟨grid, decimal, found, same⟩ := shortest_eq_trim narrow canonical some
  obtain ⟨digits, inside⟩ := RoundingInterval.onGrid_eq_some found
  rw [RoundingInterval.contains_iff (Fraction.denominator_scaled (by decide) ..),
    Fraction.value_decimal] at inside
  rw [same, Decimal.value_trim]
  exact ⟨Decimal.digits_trim digits.ne', inside⟩

/-- Decimals of a size that formats have are rounded, and not settled from their exponent. -/
theorem ofDecimal_eq_nearest {decimal : Decimal} (low : (10 : ℚ) ^ (-400 : Int) ≤ decimal.value)
    (high : decimal.value < 10 ^ (401 : Int)) :
    format.ofDecimal decimal =
      format.nearest (Fraction.scaled decimal.digits 10 decimal.exponent).numerator
        (Fraction.scaled decimal.digits 10 decimal.exponent).denominator := by
  have positive : 0 < decimal.value := lt_of_lt_of_le (by positivity) low
  have some : 0 < decimal.digits := by
    refine Nat.pos_of_ne_zero fun none => ?_
    rw [Decimal.value, none, Nat.cast_zero, zero_mul] at positive
    exact lt_irrefl _ positive
  have one : (1 : ℚ) ≤ decimal.digits := by exact_mod_cast some
  have ten : (0 : ℚ) < 10 ^ decimal.exponent := by positivity
  have top : ¬400 < decimal.exponent := by
    intro large
    have power : (10 : ℚ) ^ (401 : Int) ≤ 10 ^ decimal.exponent :=
      zpow_le_zpow_right₀ (by norm_num) (by omega)
    exact absurd (le_trans power (le_mul_of_one_le_left ten.le one)) (not_le.mpr high)
  have bottom : ¬(decimal.digits.log2 : Int) < 3 * (-decimal.exponent - 400) := by
    intro small
    obtain ⟨places, below⟩ : ∃ places : Nat, decimal.exponent = -400 - places :=
      ⟨(-decimal.exponent - 400).toNat, by omega⟩
    have digits : (decimal.digits : ℚ) < 10 ^ places := by
      have bits : decimal.digits < (2 ^ 3) ^ places := by
        rw [← Nat.pow_mul]
        exact Nat.lt_of_lt_of_le Nat.lt_log2_self (Nat.pow_le_pow_right Nat.two_pos (by omega))
      exact_mod_cast Nat.lt_of_lt_of_le bits (Nat.pow_le_pow_left (by decide) places)
    refine absurd low (not_le.mpr ?_)
    rw [Decimal.value, below, zpow_sub₀ (by norm_num), zpow_natCast, mul_div_left_comm]
    exact mul_lt_of_lt_one_right (by positivity) ((div_lt_one (by positivity)).mpr digits)
  rw [ofDecimal, if_neg some.ne', if_neg top, if_neg bottom]
  rfl

theorem le_lowest (narrow : format.fractionBits ≤ 52) (range : format.exponentBits ≤ 11) :
    -1074 ≤ format.lowest := by
  have power : 2 ^ (format.exponentBits - 1) ≤ 2 ^ 10 :=
    Nat.pow_le_pow_right Nat.two_pos (by omega)
  unfold lowest
  simp only [Nat.pow_eq]
  omega

theorem leading_le (finite : format.pattern mantissa exponent < format.infinity) :
    exponent + format.fractionBits ≤ (2 ^ (format.exponentBits - 1) : Nat) := by
  have double : 2 ^ format.exponentBits ≤ 2 * 2 ^ (format.exponentBits - 1) := by
    rw [← Nat.pow_succ']
    exact Nat.pow_le_pow_right Nat.two_pos (by omega)
  have level : (exponent - format.lowest).toNat < 2 ^ format.exponentBits - 1 := by
    unfold pattern infinity at finite
    exact Nat.lt_of_mul_lt_mul_right (Nat.lt_of_le_of_lt (Nat.le_add_right ..) finite)
  unfold lowest at level
  simp only [Nat.pow_eq] at level
  omega

theorem two_zpow_le (places : Nat) : (2 : ℚ) ^ (3 * places : Int) ≤ 10 ^ (places : Int) := by
  rw [zpow_mul, zpow_natCast, zpow_natCast]
  exact pow_le_pow_left₀ (by positivity) (by norm_num) places

/-- What lies in the interval around a finite value has a size that formats have. -/
theorem size_of_holds (narrow : format.fractionBits ≤ 52) (range : format.exponentBits ≤ 11)
    (canonical : format.Canonical mantissa exponent) (some : 0 < mantissa)
    (finite : format.pattern mantissa exponent < format.infinity) {x : ℚ}
    (inside : (RoundingInterval.ofFinite format mantissa exponent).Holds x) :
    (10 : ℚ) ^ (-400 : Int) ≤ x ∧ x < 10 ^ (401 : Int) := by
  have unit : (0 : ℚ) < 2 ^ exponent := by positivity
  constructor
  · have one : (1 : ℚ) ≤ mantissa := by exact_mod_cast some
    have half : RoundingInterval.reach format mantissa exponent ≤ 1 / 2 :=
      RoundingInterval.reach_le
    have low := inside.1
    rw [RoundingInterval.lower_ofFinite some] at low
    have lowest := canonical.lowest
    have bound := le_lowest narrow range
    calc (10 : ℚ) ^ (-400 : Int)
      _ ≤ 2 ^ (-1200 : Int) := by
        rw [zpow_neg, zpow_neg]
        exact inv_anti₀ (by positivity) (two_zpow_le 400)
      _ ≤ 2 ^ (exponent - 1) := zpow_le_zpow_right₀ one_le_two (by omega)
      _ = 1 / 2 * 2 ^ exponent := by
        rw [zpow_sub₀ two_ne_zero, zpow_one]
        ring
      _ ≤ (mantissa - RoundingInterval.reach format mantissa exponent) * 2 ^ exponent :=
        mul_le_mul_of_nonneg_right (by linarith) unit.le
      _ ≤ x := low
  · have fits : (mantissa : ℚ) + 1 ≤ 2 * 2 ^ format.fractionBits := by
      exact_mod_cast canonical.fits
    have high := inside.2.1
    rw [RoundingInterval.upper_ofFinite] at high
    have bound := leading_le finite
    have power : 2 ^ (format.exponentBits - 1) ≤ 2 ^ 10 :=
      Nat.pow_le_pow_right Nat.two_pos (by omega)
    calc x
      _ ≤ (mantissa + 1 / 2) * 2 ^ exponent := high
      _ < 2 * 2 ^ format.fractionBits * 2 ^ exponent := mul_lt_mul_of_pos_right (by linarith) unit
      _ = 2 ^ (exponent + format.fractionBits + 1) := by
        rw [zpow_add₀ two_ne_zero, zpow_add₀ two_ne_zero, zpow_natCast, zpow_one]
        ring
      _ ≤ 2 ^ (1203 : Int) := zpow_le_zpow_right₀ one_le_two (by omega)
      _ ≤ 10 ^ (401 : Int) := two_zpow_le 401

/-- A decimal in the interval around a value is read as the value. -/
theorem ofDecimal_eq (narrow : format.fractionBits ≤ 52) (range : format.exponentBits ≤ 11)
    (canonical : format.Canonical mantissa exponent) (some : 0 < mantissa)
    (finite : format.pattern mantissa exponent < format.infinity) {decimal : Decimal}
    (inside : (RoundingInterval.ofFinite format mantissa exponent).Holds decimal.value) :
    format.ofDecimal decimal = format.pattern mantissa exponent := by
  obtain ⟨least, most⟩ := size_of_holds narrow range canonical some finite inside
  rw [← Fraction.value_decimal] at inside
  rw [ofDecimal_eq_nearest least most,
    nearest_eq canonical some (Fraction.denominator_scaled (by decide) ..) inside,
    Nat.min_eq_left finite.le]

end Format

end LiveFragment.Number
