import LiveFragment.Proofs.Number.Shortest

namespace LiveFragment.Number

namespace RoundingInterval

theorem holds_self {format : Format} {mantissa : Nat} {exponent : Int} (some : 0 < mantissa) :
    (ofFinite format mantissa exponent).Holds (mantissa * 2 ^ exponent) := by
  have unit : (0 : ℚ) < 2 ^ exponent := by positivity
  have reach : 0 < reach format mantissa exponent := reach_pos
  exact holds_of_near some (mul_lt_mul_of_pos_right (by linarith) unit)
    (mul_lt_mul_of_pos_right (by linarith) unit)

end RoundingInterval

namespace Format

variable {format : Format} {mantissa word : Nat} {exponent : Int} {negative : Bool}

/-- Zero has the lowest exponent, and so the pattern without bits. -/
theorem Canonical.pattern_zero (canonical : format.Canonical 0 exponent) :
    format.pattern 0 exponent = 0 := by
  have lowest : exponent = format.lowest := by
    by_contra other
    have := canonical.large (lt_of_le_of_ne canonical.lowest (Ne.symm other))
    exact absurd this (Nat.not_le.mpr (Nat.two_pow_pos _))
  simp [pattern, lowest]

/-- A value of the format is kept, in whatever fraction it is given. -/
theorem nearest_exact (canonical : format.Canonical mantissa exponent)
    (finite : format.pattern mantissa exponent < format.infinity) {fraction : Fraction}
    (positive : 0 < fraction.denominator) (valued : fraction.value = mantissa * 2 ^ exponent) :
    format.nearest fraction.numerator fraction.denominator = format.pattern mantissa exponent := by
  rcases Nat.eq_zero_or_pos mantissa with rfl | some
  · have zero : fraction.numerator = 0 := by
      have positive' : (fraction.denominator : ℚ) ≠ 0 := by exact_mod_cast positive.ne'
      rw [Fraction.value, Nat.cast_zero, zero_mul, div_eq_zero_iff, or_iff_left positive'] at valued
      exact_mod_cast valued
    rw [nearest, if_pos zero, canonical.pattern_zero]
  · rw [nearest_eq canonical some positive (valued ▸ RoundingInterval.holds_self some),
      Nat.min_eq_left finite.le]

/-- A number converts to the number of the same value in another format. -/
theorem convert_exact {other : Format} {mantissa' : Nat} {exponent' : Int}
    (read : format.decode word = .finite negative mantissa exponent)
    (canonical : other.Canonical mantissa' exponent')
    (finite : other.pattern mantissa' exponent' < other.infinity)
    (valued : (mantissa : ℚ) * 2 ^ exponent = mantissa' * 2 ^ exponent') :
    format.convert other word = other.signed negative (other.pattern mantissa' exponent') := by
  have scaled : (Fraction.scaled mantissa 2 exponent).value = mantissa' * 2 ^ exponent' := by
    rw [Fraction.value_scaled Nat.two_pos, Nat.cast_two, valued]
  have rounded := nearest_exact canonical finite (Fraction.denominator_scaled Nat.two_pos ..) scaled
  rw [Fraction.scaled] at rounded
  rw [convert, read]
  dsimp only
  rw [rounded]

/-- The decimal that a value is written with, and any other of the same value, reads back as the
value. -/
theorem ofDecimal_written (narrow : format.fractionBits ≤ 52) (range : format.exponentBits ≤ 11)
    (read : format.decode word = .finite negative mantissa exponent)
    (within : word < 2 * format.signBit) {decimal : Decimal}
    (same : decimal.value =
      (if mantissa = 0 then ⟨0, 0⟩ else format.shortest mantissa exponent : Decimal).value) :
    format.signed negative (format.ofDecimal decimal) = word := by
  obtain ⟨canonical, -, finite, -⟩ := decode_eq_finite read
  have back : format.ofDecimal decimal = format.pattern mantissa exponent := by
    rcases Nat.eq_zero_or_pos mantissa with rfl | some
    · have digits : decimal.digits = 0 := by
        have power : (10 : ℚ) ^ decimal.exponent ≠ 0 := by positivity
        rw [if_pos rfl, Decimal.value, Decimal.value, Nat.cast_zero, zero_mul, mul_eq_zero,
          or_iff_left power] at same
        exact_mod_cast same
      rw [ofDecimal, if_pos digits, canonical.pattern_zero]
    · rw [if_neg some.ne'] at same
      exact ofDecimal_eq narrow range canonical some finite
        (same ▸ (shortest_spec narrow canonical some).2)
  rw [back, signed_pattern read within]

end Format

theorem Double.lt_signBit (x : Double) : x.bits.toNat < 2 * Format.double.signBit :=
  x.bits.toNat_lt

theorem Single.lt_signBit (x : Single) : x.bits.toNat < 2 * Format.single.signBit :=
  x.bits.toNat_lt

/-- The decimal that a double is written with, and any other of the same value, is read as the
double. -/
theorem Double.ofDecimal_written {x : Double} {negative : Bool} {mantissa : Nat} {exponent : Int}
    (read : x.reading = .finite negative mantissa exponent) {decimal : Decimal}
    (same : decimal.value =
      (if mantissa = 0 then ⟨0, 0⟩ else Format.double.shortest mantissa exponent : Decimal).value) :
    ofDecimal negative decimal = x := by
  rw [ofDecimal, Format.ofDecimal_written (by decide) (by decide) read x.lt_signBit same, ofPattern,
    UInt64.ofNat_toNat]

/-- The same holds of single precision. -/
theorem Single.ofDecimal_written {x : Single} {negative : Bool} {mantissa : Nat} {exponent : Int}
    (read : x.reading = .finite negative mantissa exponent) {decimal : Decimal}
    (same : decimal.value =
      (if mantissa = 0 then ⟨0, 0⟩ else Format.single.shortest mantissa exponent : Decimal).value) :
    ofDecimal negative decimal = x := by
  rw [ofDecimal, Format.ofDecimal_written (by decide) (by decide) read x.lt_signBit same, ofPattern,
    UInt32.ofNat_toNat]

/-- A mantissa of 53 bits and an exponent well within the range have a full mantissa in double
precision. -/
theorem Format.canonical_double_of_lt {mantissa : Nat} {exponent : Int} (fits : mantissa < 2 ^ 53)
    (lowest : -1022 ≤ exponent) (highest : exponent ≤ 900) :
    ∃ mantissa' exponent', double.Canonical mantissa' exponent' ∧
      double.pattern mantissa' exponent' < double.infinity ∧
      (mantissa : ℚ) * 2 ^ exponent = mantissa' * 2 ^ exponent' := by
  rcases Nat.eq_zero_or_pos mantissa with rfl | some
  · exact ⟨0, double.lowest, ⟨by decide, Int.le_refl _, fun above => absurd above (by decide)⟩,
      by decide, by simp⟩
  · have log : mantissa.log2 ≤ 52 := by
      have := Nat.log2_lt some.ne' |>.mpr fits
      omega
    obtain ⟨shift, shifted⟩ : ∃ shift, mantissa.log2 + shift = 52 := ⟨52 - mantissa.log2, by omega⟩
    have low : 2 ^ 52 ≤ mantissa * 2 ^ shift := by
      rw [← shifted, Nat.pow_add]
      exact Nat.mul_le_mul_right _ (Nat.log2_self_le some.ne')
    have high : mantissa * 2 ^ shift < 2 * 2 ^ 52 := by
      rw [← shifted, ← Nat.pow_succ', Nat.succ_eq_add_one, Nat.add_right_comm, Nat.pow_add]
      exact Nat.mul_lt_mul_of_pos_right Nat.lt_log2_self (Nat.two_pow_pos _)
    refine ⟨mantissa * 2 ^ shift, exponent - shift, ⟨high, ?_, fun _ => low⟩, ?_, ?_⟩
    · show -1074 ≤ exponent - shift
      omega
    · show (exponent - shift + 1074).toNat * 2 ^ 52 + mantissa * 2 ^ shift < 2047 * 2 ^ 52
      omega
    · rw [zpow_sub₀ two_ne_zero, zpow_natCast]
      push_cast
      field_simp

/-- A finite single precision value has a full mantissa in double precision. -/
theorem Format.canonical_double {mantissa : Nat} {exponent : Int}
    (canonical : single.Canonical mantissa exponent)
    (finite : single.pattern mantissa exponent < single.infinity) :
    ∃ mantissa' exponent', double.Canonical mantissa' exponent' ∧
      double.pattern mantissa' exponent' < double.infinity ∧
      (mantissa : ℚ) * 2 ^ exponent = mantissa' * 2 ^ exponent' := by
  have fits : mantissa < 2 * 2 ^ 23 := canonical.fits
  have lowest : -149 ≤ exponent := canonical.lowest
  have highest : exponent + 23 ≤ 2 ^ 7 := leading_le finite
  exact canonical_double_of_lt (by omega) (by omega) (by omega)

/-- A finite single precision number has its value in double precision. -/
theorem Single.reading_toDouble {x : Single} {negative : Bool} {mantissa : Nat} {exponent : Int}
    (read : x.reading = .finite negative mantissa exponent) :
    ∃ mantissa' exponent', x.toDouble.reading = .finite negative mantissa' exponent' ∧
      (mantissa : ℚ) * 2 ^ exponent = mantissa' * 2 ^ exponent' := by
  obtain ⟨canonical, -, finite, -⟩ := Format.decode_eq_finite read
  obtain ⟨mantissa', exponent', wide, bounded, valued⟩ := Format.canonical_double canonical finite
  refine ⟨mantissa', exponent', ?_, valued⟩
  have kept := UInt64.toNat_ofNat_of_lt' (Format.signed_lt
    (Nat.lt_trans bounded (Format.infinity_lt_signBit _)) negative)
  rw [toDouble, Format.convert_exact read wide bounded valued, Double.ofPattern, Double.reading,
    kept, Format.decode_signed_pattern wide bounded]

theorem Single.isFinite_toDouble {x : Single} (finite : x.isFinite = true) :
    x.toDouble.isFinite = true := by
  cases read : x.reading with
  | finite negative mantissa exponent =>
    obtain ⟨_, _, wide, -⟩ := reading_toDouble read
    rw [Double.isFinite, wide]
  | _ => simp [isFinite, read] at finite

/-- Single precision comes back from double precision. -/
theorem Single.toSingle_toDouble {x : Single} (finite : x.isFinite = true) :
    x.toDouble.toSingle = x := by
  cases read : x.reading with
  | nan => simp [isFinite, read] at finite
  | infinite => simp [isFinite, read] at finite
  | finite negative mantissa exponent =>
    obtain ⟨mantissa', exponent', widened, valued⟩ := reading_toDouble read
    obtain ⟨canonical, -, bounded, -⟩ := Format.decode_eq_finite read
    rw [Double.toSingle, Format.convert_exact widened canonical bounded valued.symm,
      Format.signed_pattern read x.lt_signBit, ofPattern, UInt32.ofNat_toNat]

end LiveFragment.Number
