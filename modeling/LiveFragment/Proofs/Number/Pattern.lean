import Mathlib.Algebra.Ring.Nat
import LiveFragment.Proofs.Number.Finite

namespace LiveFragment.Number

namespace Format

/-- A value in the terms of a format: a mantissa that fits, and that is as large as it can be unless
the exponent is the lowest there is. -/
structure Canonical (format : Format) (mantissa : Nat) (exponent : Int) : Prop where
  fits : mantissa < 2 * 2 ^ format.fractionBits
  lowest : format.lowest ≤ exponent
  large : format.lowest < exponent → 2 ^ format.fractionBits ≤ mantissa

/-- The pattern of a value in the terms of a format, without its sign. -/
def pattern (format : Format) (mantissa : Nat) (exponent : Int) : Nat :=
  (exponent - format.lowest).toNat * 2 ^ format.fractionBits + mantissa

variable {format : Format} {mantissa : Nat} {exponent : Int}

/-- What a finite pattern stands for is in the terms of the format, and is the pattern. -/
theorem decode_eq_finite {word : Nat} {negative : Bool}
    (finite : format.decode word = .finite negative mantissa exponent) :
    format.Canonical mantissa exponent ∧ word % format.signBit = format.pattern mantissa exponent ∧
      format.pattern mantissa exponent < format.infinity ∧
      negative = decide (format.signBit ≤ word) := by
  have fraction := Nat.mod_lt (word % format.signBit) (Nat.two_pow_pos format.fractionBits)
  have parts := Nat.div_add_mod (word % format.signBit) (2 ^ format.fractionBits)
  unfold decode at finite
  dsimp only at finite
  simp only [Nat.pow_eq] at finite
  split at finite
  · cases finite
  · rename_i number
    split at finite
    · cases finite
    · rename_i below
      have below : word % format.signBit < format.infinity :=
        Nat.lt_of_le_of_ne (Nat.not_lt.mp number) below
      split at finite
      · rename_i level
        cases finite
        have same : word % format.signBit =
            format.pattern (word % format.signBit % 2 ^ format.fractionBits) format.lowest := by
          rw [pattern, Int.sub_self, Int.toNat_zero, Nat.zero_mul, Nat.zero_add]
          rwa [level, Nat.mul_zero, Nat.zero_add, eq_comm] at parts
        refine ⟨⟨by omega, Int.le_refl _, fun above => absurd above (Int.lt_irrefl _)⟩, same, ?_, rfl⟩
        rwa [← same]
      · rename_i level
        cases finite
        obtain ⟨step, next⟩ := Nat.exists_eq_succ_of_ne_zero level
        have same : word % format.signBit =
            format.pattern
              (2 ^ format.fractionBits + word % format.signBit % 2 ^ format.fractionBits)
              (format.lowest + (word % format.signBit / 2 ^ format.fractionBits - 1 : Nat)) := by
          rw [next, Nat.mul_succ, Nat.mul_comm] at parts
          rw [pattern, next, Nat.succ_sub_one, Int.add_comm, Int.add_sub_cancel,
            Int.toNat_natCast]
          omega
        refine ⟨⟨by omega, by omega, fun _ => Nat.le_add_right ..⟩, same, ?_, rfl⟩
        rwa [← same]

theorem signBit_le_signed {magnitude : Nat} (below : magnitude < format.signBit) (negative : Bool) :
    format.signBit ≤ format.signed negative magnitude ↔ negative = true := by
  cases negative with
  | false => simp [signed, below]
  | true => simp [signed]

theorem decode_signed_pattern (canonical : format.Canonical mantissa exponent)
    (finite : format.pattern mantissa exponent < format.infinity) (negative : Bool) :
    format.decode (format.signed negative (format.pattern mantissa exponent)) =
      .finite negative mantissa exponent := by
  have below := Nat.lt_trans finite format.infinity_lt_signBit
  have positive := Nat.two_pow_pos format.fractionBits
  obtain ⟨fits, lowest, large⟩ := canonical
  unfold decode
  simp only [signed_mod below, signBit_le_signed below, Nat.not_lt.mpr (Nat.le_of_lt finite),
    Nat.ne_of_lt finite, if_false, Nat.pow_eq, Bool.decide_eq_true]
  rcases Int.lt_or_eq_of_le lowest with above | rfl
  · have large := large above
    have level : format.pattern mantissa exponent / 2 ^ format.fractionBits =
        (exponent - format.lowest).toNat + 1 := by
      rw [pattern, Nat.mul_comm, Nat.mul_add_div positive]
      congr 1
      exact Nat.div_eq_of_lt_le (by omega) (by omega)
    have fraction : format.pattern mantissa exponent % 2 ^ format.fractionBits =
        mantissa - 2 ^ format.fractionBits := by
      rw [pattern, Nat.mul_add_mod_self_right, Nat.mod_eq_sub_mod large]
      exact Nat.mod_eq_of_lt (by omega)
    rw [if_neg (by omega), level, fraction]
    congr 1 <;> omega
  · have same : format.pattern mantissa format.lowest = mantissa := by
      simp [pattern]
    rw [same]
    by_cases small : mantissa < 2 ^ format.fractionBits
    · rw [if_pos (Nat.div_eq_of_lt small), Nat.mod_eq_of_lt small]
    · have level : mantissa / 2 ^ format.fractionBits = 1 :=
        Nat.div_eq_of_lt_le (by omega) (by omega)
      rw [if_neg (by omega), level, Nat.mod_eq_sub_mod (by omega), Nat.mod_eq_of_lt (by omega)]
      congr 1 <;> omega

/-- A finite pattern is made of its sign and of what it stands for. -/
theorem signed_pattern {word : Nat} {negative : Bool}
    (finite : format.decode word = .finite negative mantissa exponent)
    (within : word < 2 * format.signBit) :
    format.signed negative (format.pattern mantissa exponent) = word := by
  obtain ⟨-, same, -, sign⟩ := decode_eq_finite finite
  rw [← same, sign, signed]
  split
  · rename_i high
    have high : format.signBit ≤ word := of_decide_eq_true high
    rw [Nat.mod_eq_sub_mod high, Nat.mod_eq_of_lt (by omega)]
    omega
  · rename_i low
    exact Nat.mod_eq_of_lt (Nat.not_le.mp fun high => low (decide_eq_true high))

end Format

end LiveFragment.Number
