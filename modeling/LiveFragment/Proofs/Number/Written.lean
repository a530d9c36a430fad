import Mathlib.Tactic.IntervalCases
import LiveFragment.Number.Style
import LiveFragment.Proofs.Number.Shortest
import LiveFragment.Proofs.Text.Reading

namespace LiveFragment.Number

open LiveFragment.Text

/-- The digits of a whole number. Only zero starts with a zero. -/
structure Numeral (digits : List Char) : Prop where
  nonempty : digits ≠ []
  all : ∀ c ∈ digits, isDigit c = true
  leading : digits.head? = some '0' → digits = ['0']

theorem head?_toDigits {n : Nat} (positive : 0 < n) : (Nat.toDigits 10 n).head? ≠ some '0' := by
  induction n using Nat.strongRecOn with
  | ind n ih =>
    rcases Nat.lt_or_ge n 10 with one | more
    · rw [Nat.toDigits_of_lt_base one]
      interval_cases n <;> decide
    · rw [Nat.toDigits_of_base_le (by decide) more, List.head?_append_of_ne_nil _ Nat.toDigits_ne_nil]
      exact ih (n / 10) (by omega) (by omega)

theorem numeral_toDigits (n : Nat) : Numeral (Nat.toDigits 10 n) where
  nonempty := Nat.toDigits_ne_nil
  all _ := isDigit_of_mem_toDigits
  leading zero := by
    rcases Nat.eq_zero_or_pos n with rfl | positive
    · rfl
    · exact absurd zero (head?_toDigits positive)

/-- The sign that a text of a number starts with. -/
def sign (negative : Bool) : List Char := if negative then ['-'] else []

/-- A whole number in decimal digits, with the sign of a negative one before them. -/
theorem toList_toString_int (value : Int) :
    (toString value).toList = sign (decide (value < 0)) ++ Nat.toDigits 10 value.natAbs := by
  cases value with
  | ofNat n =>
    have plain : toString (Int.ofNat n) = toString n := rfl
    rw [plain, toList_toString]
    simp [sign]
  | negSucc n =>
    have dashed : toString (Int.negSucc n) = "-" ++ toString (n + 1) := rfl
    rw [dashed, String.toList_append, toList_toString]
    simp [sign, Int.negSucc_lt_zero]

/-- A text that is a whole number, a point, and digits after it. -/
structure Pointed (text whole fraction : List Char) : Prop where
  eq : text = whole ++ '.' :: fraction
  whole : Numeral whole
  nonempty : fraction ≠ []
  all : ∀ c ∈ fraction, isDigit c = true

theorem isDigit_of_mem_zeros {count : Nat} {c : Char} (member : c ∈ List.replicate count '0') :
    isDigit c = true := by
  rw [List.eq_of_mem_replicate member]
  rfl

namespace Pointed

variable {digits : List Char}

theorem below_one (numeral : Numeral digits) (count : Nat) :
    Pointed ('0' :: '.' :: (List.replicate count '0' ++ digits)) ['0']
      (List.replicate count '0' ++ digits) where
  eq := rfl
  whole := numeral_toDigits 0
  nonempty := by simp [numeral.nonempty]
  all _ member := (List.mem_append.mp member).elim isDigit_of_mem_zeros (numeral.all _)

theorem whole_number (numeral : Numeral digits) (nonzero : digits.head? ≠ some '0') (count : Nat) :
    Pointed (digits ++ List.replicate count '0' ++ ['.', '0']) (digits ++ List.replicate count '0')
      ['0'] where
  eq := rfl
  whole :=
    { nonempty := by simp [numeral.nonempty]
      all := fun _ member =>
        (List.mem_append.mp member).elim (numeral.all _) isDigit_of_mem_zeros
      leading := fun zero => by
        rw [List.head?_append_of_ne_nil _ numeral.nonempty] at zero
        exact absurd zero nonzero }
  nonempty := by simp
  all := List.forall_mem_singleton.mpr rfl

theorem cut (numeral : Numeral digits) (nonzero : digits.head? ≠ some '0') {places : Nat}
    (some : 0 < places) (short : places < digits.length) :
    Pointed (digits.take places ++ '.' :: digits.drop places) (digits.take places)
      (digits.drop places) where
  eq := rfl
  whole :=
    { nonempty := by
        simp only [ne_eq, List.take_eq_nil_iff, not_or]
        exact ⟨by omega, numeral.nonempty⟩
      all := fun _ member => numeral.all _ (List.mem_of_mem_take member)
      leading := fun zero => by
        rw [List.head?_take, if_neg (by omega)] at zero
        exact absurd zero nonzero }
  nonempty := by
    simp only [ne_eq, List.drop_eq_nil_iff]
    omega
  all _ member := numeral.all _ (List.mem_of_mem_drop member)

end Pointed

/-- What a whole number and a fraction spell. -/
def Decimal.ofPointed (whole fraction : List Char) : Decimal :=
  ⟨digitsValue (whole ++ fraction), -fraction.length⟩

/-- The decimal as its text with a point spells it: with at least one digit behind the point. -/
def Decimal.pointed (decimal : Decimal) : Decimal :=
  if decimal.digits ≠ 0 ∧ decimal.exponent < 0 then decimal
  else ⟨decimal.digits * 10 ^ (decimal.exponent.toNat + 1), -1⟩

theorem Decimal.value_pointed (decimal : Decimal) : decimal.pointed.value = decimal.value := by
  unfold pointed
  split
  · rfl
  · rename_i whole
    by_cases zero : decimal.digits = 0
    · simp [value, zero]
    · obtain ⟨places, up⟩ : ∃ places : Nat, decimal.exponent = places :=
        Int.eq_ofNat_of_zero_le (by omega)
      have tenth : (10 : ℚ) ^ (-1 : Int) = 10⁻¹ := zpow_neg_one 10
      rw [value, value, up, tenth, zpow_natCast, Int.toNat_natCast]
      push_cast
      rw [pow_succ]
      field_simp

namespace Style

theorem toList_zeros (count : Nat) : (zeros count).toList = List.replicate count '0' :=
  String.toList_ofList

/-- Digits with the point put among them, or zeros on the side where it stands, spell their number
with as many places before the point. -/
theorem placePoint_pointed {n : Nat} (positive : 0 < n) {digits : List Char}
    (spelled : digits = Nat.toDigits 10 n) (places : Int) :
    ∃ whole fraction, Pointed (placePoint true digits places).toList whole fraction ∧
      .ofPointed whole fraction = (Decimal.mk n (places - digits.length)).pointed := by
  have numeral : Numeral digits := spelled ▸ numeral_toDigits n
  have nonzero : digits.head? ≠ some '0' := spelled ▸ head?_toDigits positive
  have value : digitsValue digits = n := spelled ▸ digitsValue_toDigits n
  have length := List.length_pos_iff.mpr numeral.nonempty
  unfold placePoint Decimal.pointed
  split
  · -- all digits stand behind the point
    rename_i low
    have text : ("0." ++ zeros (-places).toNat ++ String.ofList digits).toList =
        '0' :: '.' :: (List.replicate (-places).toNat '0' ++ digits) := by
      simp [toList_zeros]
    have zeros : digitsValue ('0' :: (List.replicate (-places).toNat '0' ++ digits)) =
        digitsValue digits := by
      have run := digitsValue_append (List.replicate ((-places).toNat + 1) '0') digits
      rwa [digitsValue_zeros, Nat.zero_mul, Nat.zero_add, List.replicate_succ] at run
    rw [text]
    refine ⟨_, _, .below_one numeral _, ?_⟩
    rw [if_pos ⟨positive.ne', by dsimp only; omega⟩, Decimal.ofPointed, List.singleton_append,
      zeros, value, List.length_append, List.length_replicate]
    congr 1
    omega
  · rename_i high
    split
    · -- zeros stand between the digits and the point
      rename_i long
      obtain ⟨more, spread⟩ : ∃ more : Nat, places = digits.length + more :=
        ⟨places.toNat - digits.length, by omega⟩
      have filled : places.toNat - digits.length = more := by omega
      have text : (String.ofList digits ++ zeros more ++ ".0").toList =
          digits ++ List.replicate more '0' ++ ['.', '0'] := by
        simp [toList_zeros]
      rw [filled, if_pos rfl, text]
      refine ⟨_, _, .whole_number numeral nonzero _, ?_⟩
      rw [if_neg (by dsimp only; omega), Decimal.ofPointed, List.append_assoc, spread,
        digitsValue_append, ← List.replicate_succ', digitsValue_zeros, List.length_replicate, value,
        add_sub_cancel_left, Int.toNat_natCast]
      rfl
    · -- the point stands among the digits
      rename_i short
      have text : (String.ofList (digits.take places.toNat) ++ "." ++
          String.ofList (digits.drop places.toNat)).toList =
          digits.take places.toNat ++ '.' :: digits.drop places.toNat := by
        simp
      rw [text]
      refine ⟨_, _, .cut numeral nonzero (by omega) (by omega), ?_⟩
      rw [if_pos ⟨positive.ne', by dsimp only; omega⟩, Decimal.ofPointed,
        List.take_append_drop, value, List.length_drop]
      congr 1
      omega

/-- The text of a decimal in a configuration file spells the decimal with a point. -/
theorem magnitude_file (decimal : Decimal) :
    ∃ whole fraction, Pointed (file.magnitude decimal).toList whole fraction ∧
      .ofPointed whole fraction = decimal.pointed := by
  obtain ⟨n, exponent⟩ := decimal
  rcases Nat.eq_zero_or_pos n with rfl | positive
  · have text : file.magnitude ⟨0, exponent⟩ = "0.0" := by
      simp [magnitude, file, placePoint, zeros]
    exact ⟨['0'], ['0'],
      ⟨text ▸ rfl, numeral_toDigits 0, by simp, List.forall_mem_singleton.mpr rfl⟩,
      by simp [Decimal.ofPointed, Decimal.pointed, digitsValue, digitValue]⟩
  · have text : file.magnitude ⟨n, exponent⟩ =
        placePoint true (Nat.toDigits 10 n) (exponent + (Nat.toDigits 10 n).length) := by
      simp [magnitude, file, positive.ne']
    have spelled := placePoint_pointed positive rfl (exponent + (Nat.toDigits 10 n).length)
    rw [add_sub_cancel_right] at spelled
    rwa [text]

end Style

end LiveFragment.Number
