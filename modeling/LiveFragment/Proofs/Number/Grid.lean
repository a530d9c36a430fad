import Mathlib.Tactic.NormNum.Abs
import LiveFragment.Proofs.Number.Rounding

namespace LiveFragment.Number

/-- A grid of multiples of a power of ten next to one of a power of two, in whole numbers: the quotient
of the powers is `numerator / denominator`. -/
structure Grids where
  /-- The power of ten. -/
  ten : Int
  /-- The power of two. -/
  two : Int
deriving DecidableEq

namespace Grids

variable (grids : Grids)

def numerator : Nat := 10 ^ grids.ten.toNat * 2 ^ (-grids.two).toNat

def denominator : Nat := 10 ^ (-grids.ten).toNat * 2 ^ grids.two.toNat

/-- The power of ten that is next to twice a power of two, or just below it. -/
def next (two : Int) : Grids := ⟨-(-(two + 1) * 30103 / 100000), two⟩

/-- The convergents of a quotient, by Euclid's algorithm. -/
def convergents : Nat → Nat → Nat → Nat × Nat → Nat × Nat → List (Nat × Nat)
  | 0, _, _, _, _ => []
  | _, _, 0, _, _ => []
  | steps + 1, a, b + 1, before, last =>
    let quotient := a / (b + 1)
    let following := (quotient * last.1 + before.1, quotient * last.2 + before.2)
    following :: convergents steps (b + 1) (a % (b + 1)) last following

/-- How far a fraction is from the quotient of the powers, times both denominators. -/
def error (fraction : Nat × Nat) : Nat :=
  (grids.numerator * fraction.2 - fraction.1 * grids.denominator) +
    (fraction.1 * grids.denominator - grids.numerator * fraction.2)

/-- The power of ten reaches twice the power of two up to the precision of a double, and a tenth of
it does not. -/
def Leads : Prop :=
  2 ^ 30 * grids.denominator ≤ 2 ^ 29 * grids.numerator + 2 * grids.denominator ∧
    2 ^ 29 * grids.numerator + 20 * grids.denominator < 20 * 2 ^ 29 * grids.denominator

/-- Whether a fraction keeps the multiples of the two powers apart: those that are not multiples of
its own terms because the fraction is in lowest terms and close to the quotient, and those that are
because they agree, or still differ, or are too large. -/
def Separates (fraction : Nat × Nat) : Prop :=
  0 < fraction.2 ∧ Nat.Coprime fraction.1 fraction.2 ∧
    2 ^ 29 * 2 ^ 24 * grids.error fraction + grids.denominator * fraction.2 <
      2 ^ 29 * grids.denominator ∧
    (grids.error fraction = 0 ∨ grids.denominator < 2 ^ 29 * grids.error fraction ∨
      2 ^ 25 ≤ fraction.1 ∨ grids.two = -108 ∧ fraction.1 = 22841339)

instance : Decidable grids.Leads := inferInstanceAs (Decidable (_ ∧ _))

instance (fraction : Nat × Nat) : Decidable (grids.Separates fraction) :=
  inferInstanceAs (Decidable (_ ∧ _))

variable {grids : Grids} {fraction : Nat × Nat}

theorem error_eq : (grids.error fraction : ℤ) =
    |(grids.numerator : ℤ) * fraction.2 - fraction.1 * grids.denominator| := by
  unfold error
  rcases Nat.le_total (fraction.1 * grids.denominator) (grids.numerator * fraction.2) with le | le
  · rw [Nat.sub_eq_zero_of_le le, Nat.add_zero, Nat.cast_sub le, abs_of_nonneg]
    · push_cast
      rfl
    · exact sub_nonneg.mpr (by exact_mod_cast le)
  · rw [Nat.sub_eq_zero_of_le le, Nat.zero_add, Nat.cast_sub le, abs_of_nonpos]
    · push_cast
      ring
    · exact sub_nonpos.mpr (by exact_mod_cast le)

theorem denominator_pos : 0 < grids.denominator :=
  Nat.mul_pos (Nat.pow_pos (by decide)) (Nat.pow_pos (by decide))

/-- Two multiples that are close enough for a double not to tell them apart have terms of 24 bits. -/
theorem Leads.digits_lt (leads : grids.Leads) {digits mantissa : Nat} (small : mantissa < 2 ^ 25)
    (near : 2 ^ 29 * |(digits : ℤ) * grids.numerator - mantissa * grids.denominator| ≤
      grids.denominator) : digits < 2 ^ 24 := by
  have positive : (0 : ℤ) < grids.denominator := by exact_mod_cast denominator_pos
  have reached : 2 ^ 30 * (grids.denominator : ℤ) ≤
      2 ^ 29 * grids.numerator + 2 * grids.denominator := by
    exact_mod_cast leads.1
  have most : 2 ^ 29 * ((digits : ℤ) * grids.numerator - mantissa * grids.denominator) ≤
      grids.denominator :=
    le_trans (mul_le_mul_of_nonneg_left (le_abs_self _) (by norm_num)) near
  have bound : (mantissa : ℤ) + 1 ≤ 2 ^ 25 := by exact_mod_cast small
  by_contra large
  have least : (2 ^ 24 : ℤ) ≤ digits := by exact_mod_cast Nat.not_lt.mp large
  have product : (2 ^ 24 : ℤ) * grids.numerator ≤ digits * grids.numerator :=
    mul_le_mul_of_nonneg_right least (by positivity)
  have whole : (mantissa : ℤ) * grids.denominator ≤ (2 ^ 25 - 1) * grids.denominator :=
    mul_le_mul_of_nonneg_right (by linarith) positive.le
  linarith

/-- Multiples that are the same multiple of the terms of the fraction are as far apart as the fraction
is from the quotient, that many times. -/
theorem Separates.apart_of_multiple {digits mantissa : Nat} (separates : grids.Separates fraction)
    (multiple : digits * fraction.1 = mantissa * fraction.2) :
    ∃ times, mantissa = fraction.1 * times ∧
      |(digits : ℤ) * grids.numerator - mantissa * grids.denominator| =
        times * grids.error fraction := by
  obtain ⟨positive, lowest, -⟩ := separates
  obtain ⟨times, rfl⟩ : fraction.2 ∣ digits :=
    lowest.symm.dvd_of_dvd_mul_right (multiple ▸ Nat.dvd_mul_left ..)
  obtain rfl : mantissa = fraction.1 * times :=
    Nat.eq_of_mul_eq_mul_right positive (by rw [← multiple]; ring)
  refine ⟨times, rfl, ?_⟩
  rw [error_eq, ← Nat.abs_cast times, ← abs_mul]
  congr 1
  push_cast
  ring

/-- Other multiples are a whole unit apart in terms of the fraction, so a double tells them apart. -/
theorem Separates.multiple_of_near {digits mantissa : Nat} (separates : grids.Separates fraction)
    (leads : grids.Leads) (small : mantissa < 2 ^ 25)
    (near : 2 ^ 29 * |(digits : ℤ) * grids.numerator - mantissa * grids.denominator| ≤
      grids.denominator) : digits * fraction.1 = mantissa * fraction.2 := by
  obtain ⟨positive, -, close, -⟩ := separates
  have digitsLt := leads.digits_lt small near
  have denominator : (0 : ℤ) < grids.denominator := by exact_mod_cast denominator_pos
  have positive : (0 : ℤ) < fraction.2 := by exact_mod_cast positive
  have split : (fraction.2 : ℤ) * (digits * grids.numerator - mantissa * grids.denominator) =
      digits * (grids.numerator * fraction.2 - fraction.1 * grids.denominator) +
        grids.denominator * (digits * fraction.1 - mantissa * fraction.2) := by ring
  have error : (grids.error fraction : ℤ) = _ := error_eq
  generalize (grids.numerator : ℤ) * fraction.2 - fraction.1 * grids.denominator = off at split error
  generalize (digits : ℤ) * grids.numerator - mantissa * grids.denominator = distance at split near
  by_contra multiple
  have unit : 1 ≤ |(digits : ℤ) * fraction.1 - mantissa * fraction.2| :=
    Int.one_le_abs (sub_ne_zero.mpr (by exact_mod_cast multiple))
  have close : 2 ^ 29 * 2 ^ 24 * |off| + grids.denominator * fraction.2 <
      2 ^ 29 * (grids.denominator : ℤ) := by
    rw [← error]
    exact_mod_cast close
  have whole : (grids.denominator : ℤ) ≤ fraction.2 * |distance| + 2 ^ 24 * |off| := by
    calc (grids.denominator : ℤ)
      _ ≤ grids.denominator * |(digits : ℤ) * fraction.1 - mantissa * fraction.2| :=
        le_mul_of_one_le_right denominator.le unit
      _ = |fraction.2 * distance - digits * off| := by
        rw [split, add_sub_cancel_left, abs_mul, abs_of_pos denominator]
      _ ≤ |fraction.2 * distance| + |digits * off| := abs_sub _ _
      _ = fraction.2 * |distance| + digits * |off| := by
        rw [abs_mul, abs_mul, abs_of_pos positive, Nat.abs_cast]
      _ ≤ fraction.2 * |distance| + 2 ^ 24 * |off| :=
        add_le_add_right (mul_le_mul_of_nonneg_right (by exact_mod_cast digitsLt.le)
          (abs_nonneg off)) _
  have product := mul_le_mul_of_nonneg_left near positive.le
  linarith

/-- Multiples of the two powers that a double does not tell apart agree, but for one pair. -/
theorem Separates.eq_or (separates : grids.Separates fraction) (leads : grids.Leads)
    {digits mantissa : Nat} (some : 0 < mantissa) (small : mantissa < 2 ^ 25)
    (near : 2 ^ 29 * |(digits : ℤ) * grids.numerator - mantissa * grids.denominator| ≤
      grids.denominator) :
    digits * grids.numerator = mantissa * grids.denominator ∨
      grids.two = -108 ∧ mantissa = 22841339 := by
  obtain ⟨times, rfl, apart⟩ :=
    separates.apart_of_multiple (separates.multiple_of_near leads small near)
  have again : 0 < times := Nat.pos_of_mul_pos_left some
  rcases separates.2.2.2 with none | far | large | ⟨two, single⟩
  · left
    rw [none, Nat.cast_zero, mul_zero, abs_eq_zero, sub_eq_zero] at apart
    exact_mod_cast apart
  · exfalso
    rw [apart] at near
    have near : 2 ^ 29 * (times * grids.error fraction) ≤ grids.denominator := by
      exact_mod_cast near
    have further : grids.error fraction ≤ times * grids.error fraction :=
      Nat.le_mul_of_pos_left _ again
    omega
  · exact absurd small (Nat.not_lt.mpr (large.trans (Nat.le_mul_of_pos_right _ again)))
  · right
    rw [single] at small ⊢
    exact ⟨two, by omega⟩

/-- For each power of two that single precision has there is such a fraction. -/
theorem exists_separates : ∀ step < 254,
    let grids := next ((step : Nat) - 150)
    grids.Leads ∧ ∃ fraction ∈ convergents 80 grids.numerator grids.denominator (0, 1) (1, 0),
      grids.Separates fraction := by
  decide +kernel

theorem numerator_eq : (grids.numerator : ℚ) * 2 ^ grids.two = grids.denominator * 10 ^ grids.ten := by
  have ten := zpow_eq_div (show 0 < 10 by decide) grids.ten
  have two := zpow_eq_div Nat.two_pos grids.two
  rw [Nat.cast_ofNat] at ten two
  rw [ten, two, numerator, denominator]
  push_cast
  field_simp

/-- A decimal on a grid of at least two units of the last place is a whole number of them, or far
enough from it for a double to tell the two apart, with one exception. -/
theorem eq_or_of_near {two : Int} (low : -150 ≤ two) (high : two ≤ 103) {exponent : Int}
    {digits mantissa : Nat} (some : 0 < mantissa) (small : mantissa < 2 ^ 25)
    (coarse : (2 : ℚ) ^ two * (2 - 2 / 2 ^ 29) ≤ 10 ^ exponent)
    (near : |(digits * 10 ^ exponent - mantissa * 2 ^ two : ℚ)| ≤ 2 ^ two / 2 ^ 29) :
    (digits * 10 ^ exponent : ℚ) = mantissa * 2 ^ two ∨ two = -108 ∧ mantissa = 22841339 := by
  obtain ⟨step, within, rfl⟩ : ∃ step < 254, two = (step : Nat) - 150 :=
    ⟨(two + 150).toNat, by omega, by omega⟩
  obtain ⟨leads, fraction, -, separates⟩ := exists_separates step within
  obtain ⟨grids, named⟩ : ∃ grids, grids = next ((step : Nat) - 150) := ⟨_, rfl⟩
  rw [← named] at leads separates
  have same : grids.two = (step : Nat) - 150 := by rw [named, next]
  rw [← same] at coarse near ⊢
  have unit : (0 : ℚ) < 2 ^ grids.two := by positivity
  have denominator : (0 : ℚ) < grids.denominator := by exact_mod_cast denominator_pos
  obtain ⟨ratio, quotient⟩ : ∃ ratio : ℚ, grids.numerator = ratio * grids.denominator :=
    ⟨grids.numerator / grids.denominator, (div_mul_cancel₀ _ denominator.ne').symm⟩
  have ten : (10 : ℚ) ^ grids.ten = ratio * 2 ^ grids.two := by
    have equal : (grids.numerator : ℚ) * 2 ^ grids.two = _ := numerator_eq
    rw [quotient, mul_comm ratio, mul_assoc] at equal
    exact (mul_left_cancel₀ denominator.ne' equal).symm
  obtain ⟨finer, places⟩ : ∃ finer : Nat, exponent = grids.ten + finer := by
    have below : (10 : ℚ) ^ (grids.ten - 1) < 10 ^ exponent := by
      refine lt_of_lt_of_le ?_ coarse
      have lead : (2 ^ 29 * ratio + 20) * grids.denominator < 20 * 2 ^ 29 * grids.denominator := by
        rw [add_mul, mul_assoc, ← quotient]
        exact_mod_cast leads.2
      have lead := lt_of_mul_lt_mul_right lead denominator.le
      rw [zpow_sub₀ (by norm_num), zpow_one, ten, mul_comm, mul_div_assoc]
      exact mul_lt_mul_of_pos_left (by linarith) unit
    have := (zpow_lt_zpow_iff_right₀ (by norm_num)).mp below
    exact ⟨(exponent - grids.ten).toNat, by omega⟩
  have valued : (digits * 10 ^ exponent : ℚ) = (digits * 10 ^ finer : Nat) * ratio * 2 ^ grids.two := by
    rw [places, zpow_add₀ (by norm_num), ten, zpow_natCast]
    push_cast
    ring
  rw [valued, ← sub_mul, abs_mul, abs_of_pos unit, mul_comm, div_eq_mul_inv,
    mul_le_mul_iff_right₀ unit, ← one_div, le_div_iff₀' (by norm_num)] at near
  have whole : 2 ^ 29 * |((digits * 10 ^ finer : Nat) : ℤ) * grids.numerator -
      mantissa * grids.denominator| ≤ grids.denominator := by
    have scaled := mul_le_mul_of_nonneg_right near denominator.le
    rw [one_mul, mul_assoc, ← abs_of_pos denominator, ← abs_mul, sub_mul, mul_assoc, ← quotient,
      abs_of_pos denominator] at scaled
    exact_mod_cast scaled
  rcases separates.eq_or leads some small whole with equal | only
  · left
    have equal : ((digits * 10 ^ finer : Nat) : ℚ) * grids.numerator =
        mantissa * grids.denominator := by exact_mod_cast equal
    rw [quotient, ← mul_assoc] at equal
    rw [valued, mul_right_cancel₀ denominator.ne' equal]
  · exact .inr only

end Grids

end LiveFragment.Number
