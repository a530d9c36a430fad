import LiveFragment.Proofs.Number.Rounding

namespace LiveFragment.Number

theorem div_eq_add_part (numerator : Nat) {denominator : Nat} (positive : 0 < denominator) :
    ∃ part : ℚ, (numerator : ℚ) / denominator = (numerator / denominator : Nat) + part ∧
      0 ≤ part ∧ part < 1 ∧
      (2 * (numerator % denominator) < denominator ↔ part < 1 / 2) ∧
      (denominator < 2 * (numerator % denominator) ↔ 1 / 2 < part) := by
  have positive' : (0 : ℚ) < denominator := by exact_mod_cast positive
  refine ⟨(numerator % denominator : Nat) / denominator, ?_, by positivity, ?_, ?_, ?_⟩
  · rw [← mul_right_inj' positive'.ne', mul_add, mul_div_cancel₀ _ positive'.ne',
      mul_div_cancel₀ _ positive'.ne']
    exact_mod_cast (Nat.div_add_mod numerator denominator).symm
  · rw [div_lt_one positive']
    exact_mod_cast Nat.mod_lt numerator positive
  · rw [div_lt_div_iff₀ positive' two_pos]
    exact_mod_cast by rw [Nat.mul_comm, Nat.one_mul]
  · rw [div_lt_div_iff₀ two_pos positive']
    exact_mod_cast by rw [Nat.mul_comm 2, Nat.one_mul]

/-- A quotient is at most a half away from what it is rounded to, and from exactly a half away it
goes to an even number. -/
theorem divideToEven_near (numerator : Nat) {denominator : Nat} (positive : 0 < denominator) :
    (divideToEven numerator denominator : ℚ) - 1 / 2 ≤ numerator / denominator ∧
      (numerator : ℚ) / denominator ≤ divideToEven numerator denominator + 1 / 2 ∧
      ((numerator : ℚ) / denominator = divideToEven numerator denominator - 1 / 2 ∨
        (numerator : ℚ) / denominator = divideToEven numerator denominator + 1 / 2 →
          divideToEven numerator denominator % 2 = 0) := by
  obtain ⟨part, same, least, most, low, high⟩ := div_eq_add_part numerator positive
  rw [same]
  unfold divideToEven
  simp only [low, high]
  generalize (numerator / denominator : Nat) = quotient
  split
  · refine ⟨by linarith, by linarith, ?_⟩
    rintro (half | half) <;> linarith
  · split
    · push_cast
      refine ⟨by linarith, by linarith, ?_⟩
      rintro (half | half) <;> linarith
    · -- exactly between two numbers
      rename_i down up
      have half : part = 1 / 2 := le_antisymm (not_lt.mp up) (not_lt.mp down)
      rcases Nat.mod_two_eq_zero_or_one quotient with even | odd
      · rw [even, Nat.add_zero]
        exact ⟨by linarith, by linarith, fun _ => even⟩
      · rw [odd]
        push_cast
        exact ⟨by linarith, by linarith, fun _ => by omega⟩

theorem divideToEven_bounds (numerator : Nat) {denominator : Nat} (positive : 0 < denominator)
    (whole : Nat) :
    ((whole : ℚ) ≤ numerator / denominator → whole ≤ divideToEven numerator denominator) ∧
      ((numerator : ℚ) / denominator ≤ whole → divideToEven numerator denominator ≤ whole) := by
  obtain ⟨low, high, -⟩ := divideToEven_near numerator positive
  constructor
  · intro below
    have less : (whole : ℚ) < divideToEven numerator denominator + 1 := by linarith
    exact Nat.lt_succ_iff.mp (by exact_mod_cast less)
  · intro above
    have less : (divideToEven numerator denominator : ℚ) < whole + 1 := by linarith
    exact Nat.lt_succ_iff.mp (by exact_mod_cast less)

theorem divideToEven_mono {numerator denominator numerator' denominator' : Nat}
    (positive : 0 < denominator) (positive' : 0 < denominator')
    (le : (numerator : ℚ) / denominator ≤ numerator' / denominator') :
    divideToEven numerator denominator ≤ divideToEven numerator' denominator' := by
  obtain ⟨low, -, tie⟩ := divideToEven_near numerator positive
  obtain ⟨-, high, tie'⟩ := divideToEven_near numerator' positive'
  by_contra above
  have step : divideToEven numerator' denominator' + 1 ≤ divideToEven numerator denominator :=
    Nat.not_le.mp above
  have step' : (divideToEven numerator' denominator' : ℚ) + 1 ≤
      divideToEven numerator denominator := by exact_mod_cast step
  -- both quotients lie halfway between two neighbours, and cannot go to both of them
  have even := tie (.inl (by linarith))
  have even' := tie' (.inr (by linarith))
  have next : (divideToEven numerator denominator : ℚ) = divideToEven numerator' denominator' + 1 := by
    linarith
  have next : divideToEven numerator denominator = divideToEven numerator' denominator' + 1 := by
    exact_mod_cast next
  omega

namespace Format

variable {format : Format} {numerator denominator numerator' denominator' : Nat}

/-- The mantissa that a fraction is rounded to fits its field, or is the next power of two. -/
theorem mantissa_bounds (some : 0 < numerator) (positive : 0 < denominator) :
    let unit := format.unitExponent numerator denominator
    let mantissa :=
      divideToEven (numerator * Nat.pow 2 (-unit).toNat) (denominator * Nat.pow 2 unit.toNat)
    mantissa ≤ 2 * 2 ^ format.fractionBits ∧
      (format.lowest < unit → 2 ^ format.fractionBits ≤ mantissa) := by
  intro unit mantissa
  have units : 0 < denominator * Nat.pow 2 unit.toNat := Nat.mul_pos positive (Nat.two_pow_pos _)
  obtain ⟨low, high, -⟩ := divideToEven_near (numerator * Nat.pow 2 (-unit).toNat) units
  rw [div_unit] at low high
  have quotient : (0 : ℚ) < numerator / denominator := by positivity
  have power : (0 : ℚ) < 2 ^ unit := by positivity
  have log := leadingExponent_eq_log some positive
  constructor
  · have top : (numerator : ℚ) / denominator / 2 ^ unit < 2 * 2 ^ format.fractionBits := by
      rw [div_lt_iff₀ power, ← pow_succ', ← zpow_natCast, ← zpow_add₀ two_ne_zero]
      refine (Int.lt_zpow_iff_log_lt Nat.one_lt_two quotient).mpr ?_
      rw [← log]
      show leadingExponent numerator denominator < _ + format.unitExponent numerator denominator
      unfold unitExponent
      omega
    have bound : (mantissa : ℚ) < 2 * 2 ^ format.fractionBits + 1 := by linarith
    exact Nat.lt_succ_iff.mp (by exact_mod_cast bound)
  · intro above
    have bottom : (2 : ℚ) ^ format.fractionBits ≤ numerator / denominator / 2 ^ unit := by
      rw [le_div_iff₀ power, ← zpow_natCast, ← zpow_add₀ two_ne_zero]
      refine (Int.zpow_le_iff_le_log Nat.one_lt_two quotient).mpr ?_
      rw [← log]
      change format.lowest < format.unitExponent numerator denominator at above
      show _ + format.unitExponent numerator denominator ≤ leadingExponent numerator denominator
      unfold unitExponent at above ⊢
      omega
    have bound : (2 : ℚ) ^ format.fractionBits < mantissa + 1 := by linarith
    exact Nat.lt_succ_iff.mp (by exact_mod_cast bound)

/-- Of two numbers the larger one is not rounded to the smaller pattern. -/
theorem nearest_mono (positive : 0 < denominator) (positive' : 0 < denominator')
    (le : (numerator : ℚ) / denominator ≤ numerator' / denominator') :
    format.nearest numerator denominator ≤ format.nearest numerator' denominator' := by
  rcases Nat.eq_zero_or_pos numerator with rfl | some
  · exact (if_pos rfl : format.nearest 0 denominator = 0) ▸ Nat.zero_le _
  have quotient : (0 : ℚ) < numerator / denominator := by positivity
  have some' : 0 < numerator' := by
    refine Nat.pos_of_ne_zero fun none => ?_
    rw [none, Nat.cast_zero, zero_div] at le
    linarith
  have logs : leadingExponent numerator denominator ≤ leadingExponent numerator' denominator' := by
    rw [leadingExponent_eq_log some positive, leadingExponent_eq_log some' positive']
    exact Int.log_mono_right quotient le
  have units : format.unitExponent numerator denominator ≤
      format.unitExponent numerator' denominator' := by
    unfold unitExponent
    omega
  obtain ⟨most, -⟩ := @mantissa_bounds format _ _ some positive
  obtain ⟨-, least⟩ := @mantissa_bounds format _ _ some' positive'
  have lowest : format.lowest ≤ format.unitExponent numerator denominator := Int.le_max_right ..
  rw [nearest, if_neg some.ne', nearest, if_neg some'.ne']
  dsimp only
  refine min_le_min_right _ ?_
  rcases Int.lt_or_eq_of_le units with below | same
  · have least := least (by omega)
    obtain ⟨step, next⟩ : ∃ step, (format.unitExponent numerator' denominator' - format.lowest).toNat =
        (format.unitExponent numerator denominator - format.lowest).toNat + 1 + step :=
      ⟨(format.unitExponent numerator' denominator' -
        format.unitExponent numerator denominator - 1).toNat, by omega⟩
    rw [next, Nat.add_mul, Nat.add_mul, Nat.one_mul]
    simp only [Nat.pow_eq] at most least ⊢
    omega
  · rw [← same]
    refine Nat.add_le_add_left (divideToEven_mono ?_ ?_ ?_) _
    · exact Nat.mul_pos positive (Nat.two_pow_pos _)
    · exact Nat.mul_pos positive' (Nat.two_pow_pos _)
    · rw [div_unit, div_unit]
      exact div_le_div_of_nonneg_right le (by positivity)

/-- A magnitude in single precision is finite up to a half of the last place beyond the largest
one. -/
theorem nearest_single_lt (positive : 0 < denominator) :
    single.nearest numerator denominator < single.infinity ↔
      (numerator : ℚ) / denominator < 2 ^ 128 - 2 ^ 103 := by
  have largest : single.Canonical (2 ^ 24 - 1) 104 := ⟨by decide, by decide, fun _ => by decide⟩
  constructor
  · intro finite
    by_contra beyond
    have limit : ((2 ^ 128 - 2 ^ 103 : Nat) : ℚ) / (1 : Nat) ≤ numerator / denominator := by
      push_cast
      linarith
    have least : _ ≤ single.nearest numerator denominator := nearest_mono Nat.one_pos positive limit
    have reached : single.nearest (2 ^ 128 - 2 ^ 103) 1 = single.infinity := by decide
    omega
  · intro below
    by_cases low : (numerator : ℚ) / denominator ≤ (2 ^ 24 - 1) * 2 ^ 104
    · have limit : (numerator : ℚ) / denominator ≤ ((2 ^ 24 - 1) * 2 ^ 104 : Nat) / (1 : Nat) := by
        push_cast
        linarith
      have most : single.nearest numerator denominator ≤ _ := nearest_mono positive Nat.one_pos limit
      have reached : single.nearest ((2 ^ 24 - 1) * 2 ^ 104) 1 < single.infinity := by decide
      omega
    · have inside : (RoundingInterval.ofFinite single (2 ^ 24 - 1) 104).Holds
          (Fraction.mk numerator denominator).value := by
        rw [RoundingInterval.Holds, RoundingInterval.lower_ofFinite (by decide),
          RoundingInterval.upper_ofFinite, RoundingInterval.reach, if_neg (by decide), Fraction.value]
        push_cast
        refine ⟨?_, ?_, fun _ => ⟨?_, ?_⟩⟩ <;> norm_num at low below ⊢ <;> linarith
      have rounded : single.nearest numerator denominator = _ :=
        nearest_eq largest (by decide) (show 0 < (Fraction.mk numerator denominator).denominator from
          positive) inside
      have finite : single.pattern (2 ^ 24 - 1) 104 < single.infinity := by decide
      rw [rounded, Nat.min_eq_left finite.le]
      exact finite

end Format

theorem Single.isFinite_ofPattern {magnitude : Nat} (bounded : magnitude ≤ Format.single.infinity)
    (negative : Bool) : (ofPattern (Format.single.signed negative magnitude)).isFinite = true ↔
      magnitude < Format.single.infinity := by
  have below := Nat.lt_of_le_of_lt bounded (Format.infinity_lt_signBit _)
  have kept : (ofPattern (Format.single.signed negative magnitude)).bits.toNat =
      Format.single.signed negative magnitude :=
    UInt32.toNat_ofNat_of_lt' (Format.signed_lt below negative)
  rw [isFinite, reading, kept]
  unfold Format.decode
  simp only [Format.signed_mod below, Nat.not_lt.mpr bounded, if_false]
  split_ifs with infinite low
  · exact iff_of_false (by simp) (infinite ▸ Nat.lt_irrefl _)
  · exact iff_of_true rfl (Nat.lt_of_le_of_ne bounded infinite)
  · exact iff_of_true rfl (Nat.lt_of_le_of_ne bounded infinite)

/-- A finite double that is smaller than a bound, whatever its sign. -/
def Double.Below (bound : ℚ) (x : Double) : Prop :=
  ∃ negative mantissa exponent, x.reading = .finite negative mantissa exponent ∧
    (mantissa * 2 ^ exponent : ℚ) < bound

/-- A finite double becomes infinite in single precision from one bound on. -/
theorem Double.isFinite_toSingle {x : Double} (finite : x.isFinite = true) :
    x.toSingle.isFinite = true ↔ x.Below (2 ^ 128 - 2 ^ 103) := by
  cases read : x.reading with
  | nan => simp [isFinite, read] at finite
  | infinite => simp [isFinite, read] at finite
  | finite negative mantissa exponent =>
    have below : x.Below (2 ^ 128 - 2 ^ 103) ↔
        (mantissa * 2 ^ exponent : ℚ) < 2 ^ 128 - 2 ^ 103 := by
      simp [Below, read]
    have valued := Fraction.value_scaled Nat.two_pos mantissa exponent
    have rounded := @Format.nearest_single_lt (Fraction.scaled mantissa 2 exponent).numerator _
      (Fraction.denominator_scaled Nat.two_pos mantissa exponent)
    rw [Fraction.value, Nat.cast_two] at valued
    rw [valued] at rounded
    rw [below, ← rounded]
    rw [reading] at read
    rw [toSingle, Format.convert, read]
    exact Single.isFinite_ofPattern (Format.nearest_le ..) negative

/-- The whole part of a finite double, cut to the range of 32 bits. -/
def Double.Truncates (x : Double) (n : Int32) : Prop :=
  ∃ negative mantissa exponent, x.reading = .finite negative mantissa exponent ∧
    n.toInt = max (-2 ^ 31) (min (2 ^ 31 - 1)
      (if negative then -⌊(mantissa * 2 ^ exponent : ℚ)⌋ else ⌊(mantissa * 2 ^ exponent : ℚ)⌋))

theorem Double.truncates_toInt32 {x : Double} (finite : x.isFinite = true) :
    x.Truncates x.toInt32 := by
  cases read : x.reading with
  | nan => simp [isFinite, read] at finite
  | infinite => simp [isFinite, read] at finite
  | finite negative mantissa exponent =>
    refine ⟨negative, mantissa, exponent, read, ?_⟩
    have whole : ⌊(mantissa * 2 ^ exponent : ℚ)⌋ =
        (mantissa * Nat.pow 2 exponent.toNat / Nat.pow 2 (-exponent).toNat : Nat) := by
      have power := zpow_eq_div Nat.two_pos exponent
      rw [Nat.cast_two] at power
      rw [power, ← mul_div_assoc, ← Nat.cast_mul, Rat.floor_natCast_div_natCast, Nat.pow_eq,
        Nat.pow_eq, Int.natCast_ediv]
    rw [whole]
    simp only [toInt32, read]
    generalize (mantissa * Nat.pow 2 exponent.toNat / Nat.pow 2 (-exponent).toNat : Nat) = n
    cases negative with
    | false =>
      simp only [Bool.false_eq_true, if_false]
      split
      · rw [Int32.toInt_maxValue]
        omega
      · rw [Int32.toInt_ofNat_of_lt (by omega)]
        omega
    | true =>
      simp only [if_true]
      split
      · rw [Int32.toInt_minValue]
        omega
      · rw [Int32.toInt_ofInt_of_le (by omega) (by omega)]
        omega

end LiveFragment.Number
