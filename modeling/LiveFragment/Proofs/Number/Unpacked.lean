import Mathlib
import LiveFragment.Proofs.Number.Pattern

namespace LiveFragment.Number

open Float.Model (UnpackedFloat)
open Float.Model.UnpackedFloat (Sign isNaN_iff pack packComponents pack_unpack packedZero unpack
  unpackExponent unpackExponent_packComponents unpackMantissa unpackMantissa_packComponents
  unpackSign unpackSign_packComponents unpack_packedNaN
  packComponents_unpackSign_unpackExponent_unpackMantissa)

namespace Format

/-- The format of unpacked floats. -/
def ofModel (spec : Float.Model.Format) : Format :=
  ⟨spec.mantissaBitsWithoutImplicit, spec.exponentBits⟩

example : ofModel .binary32 = single := rfl
example : ofModel .binary64 = double := rfl

theorem lowest_single : single.lowest = -149 := rfl

theorem infinity_single : single.infinity = 255 * 2 ^ 23 := rfl

theorem fractionBits_single : single.fractionBits = 23 := rfl

end Format

/-- Below zero, also of a zero. -/
def isNegative : Sign → Bool
  | .negative => true
  | .positive => false

/-- What an unpacked float stands for. A zero has the lowest exponent. -/
def Reading.ofUnpacked (format : Format) : UnpackedFloat → Reading
  | .notANumber => .nan
  | .infinity sign => .infinite (isNegative sign)
  | .zero sign => .finite (isNegative sign) 0 format.lowest
  | .finite sign mantissa exponent _ => .finite (isNegative sign) mantissa exponent

theorem eq_allOnes_iff {width : Nat} {field : BitVec width} :
    field = -.ofNat width 1 ↔ field.toNat = 2 ^ width - 1 := by
  rw [BitVec.neg_one_eq_allOnes, ← BitVec.toNat_inj, BitVec.toNat_allOnes]

theorem eq_zero_iff {width : Nat} {field : BitVec width} :
    field = .ofNat width 0 ↔ field.toNat = 0 := by
  rw [← BitVec.toNat_inj, BitVec.toNat_zero]

theorem toNat_implicit {width : Nat} (fraction : BitVec width) :
    (1#1 ++ fraction).toNat = 2 ^ width + fraction.toNat := by
  rw [BitVec.toNat_append, ← Nat.shiftLeft_add_eq_or_of_lt fraction.isLt, Nat.shiftLeft_eq]
  simp

namespace Format

theorem decode_fields (format : Format) {level fraction : Nat}
    (narrow : level < 2 ^ format.exponentBits) (small : fraction < 2 ^ format.fractionBits)
    (negative : Bool) :
    format.decode (format.signed negative (level * 2 ^ format.fractionBits + fraction)) =
      if level = 2 ^ format.exponentBits - 1 then
        if fraction = 0 then .infinite negative else .nan
      else if level = 0 then .finite negative fraction format.lowest
      else .finite negative (2 ^ format.fractionBits + fraction)
        (format.lowest + (level - 1 : Nat)) := by
  have positive := Nat.two_pow_pos format.fractionBits
  have top : (level + 1) * 2 ^ format.fractionBits ≤
      2 ^ format.exponentBits * 2 ^ format.fractionBits :=
    Nat.mul_le_mul_right _ narrow
  have below : level * 2 ^ format.fractionBits + fraction < format.signBit := by
    rw [signBit, Nat.pow_eq, Nat.add_comm format.fractionBits, Nat.pow_add]
    rw [Nat.succ_mul] at top
    omega
  have whole : (level * 2 ^ format.fractionBits + fraction) / 2 ^ format.fractionBits = level := by
    rw [Nat.mul_comm, Nat.mul_add_div positive, Nat.div_eq_of_lt small, Nat.add_zero]
  have rest : (level * 2 ^ format.fractionBits + fraction) % 2 ^ format.fractionBits =
      fraction := by
    rw [Nat.mul_add_mod_self_right, Nat.mod_eq_of_lt small]
  unfold decode
  simp only [signed_mod below, signBit_le_signed below, Nat.pow_eq, whole, rest,
    Bool.decide_eq_true, infinity]
  by_cases last : level = 2 ^ format.exponentBits - 1
  · subst last
    rw [if_pos rfl]
    by_cases empty : fraction = 0
    · subst empty
      rw [if_neg (by omega), if_pos (by omega), if_pos rfl]
    · rw [if_pos (by omega), if_neg empty]
  · have less : level * 2 ^ format.fractionBits + fraction <
        (2 ^ format.exponentBits - 1) * 2 ^ format.fractionBits := by
      have step : (level + 1) * 2 ^ format.fractionBits ≤
          (2 ^ format.exponentBits - 1) * 2 ^ format.fractionBits :=
        Nat.mul_le_mul_right _ (by omega)
      rw [Nat.succ_mul] at step
      omega
    rw [if_neg last, if_neg (by omega), if_neg (by omega)]

end Format

section Words

variable {spec : Float.Model.Format}

theorem toNat_packComponents (sign : Sign) (level : BitVec spec.exponentBits)
    (fraction : BitVec spec.mantissaBitsWithoutImplicit) :
    (packComponents spec sign level fraction).toNat =
      (Format.ofModel spec).signed (isNegative sign)
        (level.toNat * 2 ^ spec.mantissaBitsWithoutImplicit + fraction.toNat) := by
  rw [packComponents, BitVec.toNat_append, ← Nat.shiftLeft_add_eq_or_of_lt fraction.isLt,
    BitVec.toNat_append, ← Nat.shiftLeft_add_eq_or_of_lt level.isLt, Nat.shiftLeft_eq,
    Nat.shiftLeft_eq, Nat.add_mul, Nat.mul_assoc, ← Nat.pow_add, Format.signed, Format.signBit]
  cases sign with
  | negative =>
    simp only [isNegative, Sign.toBitVec, Format.ofModel, if_true, Nat.pow_eq, BitVec.toNat_ofNat]
    rw [Nat.add_comm spec.exponentBits]
    omega
  | positive => simp [isNegative, Sign.toBitVec]

theorem toNat_eq_signed (word : BitVec spec.numBits) :
    word.toNat = (Format.ofModel spec).signed (isNegative (.ofBitVec (unpackSign word)))
      ((unpackExponent word).toNat * 2 ^ spec.mantissaBitsWithoutImplicit +
        (unpackMantissa word).toNat) := by
  rw [← toNat_packComponents, packComponents_unpackSign_unpackExponent_unpackMantissa]

theorem lowest_ofModel (spec : Float.Model.Format) :
    (Format.ofModel spec).lowest =
      1 - (spec.exponentBias + spec.mantissaBitsWithoutImplicit : Int) := by
  have positive := Nat.two_pow_pos (spec.exponentBits - 1)
  simp only [Format.lowest, Format.ofModel, Float.Model.Format.exponentBias, Nat.pow_eq]
  omega

theorem decode_toNat (word : BitVec spec.numBits) :
    (Format.ofModel spec).decode word.toNat =
      .ofUnpacked (.ofModel spec) (unpack spec word) := by
  have fields := (Format.ofModel spec).decode_fields (unpackExponent word).isLt
    (unpackMantissa word).isLt (isNegative (.ofBitVec (unpackSign word)))
  have same : (Format.ofModel spec).decode word.toNat = _ :=
    (congrArg _ (toNat_eq_signed word)).trans fields
  have lowest := lowest_ofModel spec
  have top : unpackExponent word = -1#_ ↔
      (unpackExponent word).toNat = 2 ^ (Format.ofModel spec).exponentBits - 1 := eq_allOnes_iff
  rw [same, unpack]
  by_cases last : unpackExponent word = -1#_
  · rw [if_pos (top.mp last)]
    simp only [last, if_true]
    by_cases empty : unpackMantissa word = 0#_
    · rw [if_pos (eq_zero_iff.mp empty), if_pos empty]
      rfl
    · rw [if_neg (mt eq_zero_iff.mpr empty), if_neg empty]
      rfl
  rw [if_neg (mt top.mpr last)]
  simp only [last, if_false]
  by_cases level : unpackExponent word = 0#_
  · rw [if_pos (eq_zero_iff.mp level), if_pos level]
    by_cases empty : unpackMantissa word = 0#_
    · rw [dif_pos empty, eq_zero_iff.mp empty]
      rfl
    · rw [dif_neg empty, eq_zero_iff.mp level, lowest]
      simp only [Reading.ofUnpacked]
      congr 1
      omega
  · have normal : (unpackExponent word).toNat ≠ 0 := mt eq_zero_iff.mpr level
    rw [if_neg normal, if_neg level, lowest]
    simp only [Reading.ofUnpacked, toNat_implicit]
    congr 1
    omega

end Words

theorem isNegative_inj {left right : Sign} (same : isNegative left = isNegative right) :
    left = right := by
  cases left <;> cases right <;> first | rfl | cases same

section Packing

variable (spec : Float.Model.Format)

theorem unpack_pack_zero (sign : Sign) : unpack spec (pack spec (.zero sign)) = .zero sign := by
  have level : (0 : BitVec spec.exponentBits) ≠ -1#_ := by
    intro same
    have top := eq_allOnes_iff.mp same
    have wide : 2 ^ 1 ≤ 2 ^ spec.exponentBits := Nat.pow_le_pow_right Nat.two_pos spec.he
    rw [BitVec.ofNat_eq_ofNat, BitVec.toNat_zero] at top
    omega
  have empty : unpackMantissa (packComponents spec sign 0 0) = 0#_ :=
    unpackMantissa_packComponents
  rw [pack, packedZero, unpack, unpackExponent_packComponents, if_neg level,
    if_pos (show (0 : BitVec spec.exponentBits) = 0#_ from rfl), dif_pos empty,
    unpackSign_packComponents]
  cases sign <;> rfl

section Finite

variable (wide : 2 ≤ spec.exponentBits) (sign : Sign) {mantissa : Nat} {exponent : Int}
  (positive : 0 < mantissa) (canonical : (Format.ofModel spec).Canonical mantissa exponent)
  (finite : (Format.ofModel spec).pattern mantissa exponent < (Format.ofModel spec).infinity)

include wide canonical finite

theorem toNat_pack_finite :
    (pack spec (.finite sign mantissa exponent positive)).toNat =
      (Format.ofModel spec).signed (isNegative sign)
        ((Format.ofModel spec).pattern mantissa exponent) := by
  obtain ⟨fits, lowest, large⟩ := canonical
  have bias := lowest_ofModel spec
  have bits : (Format.ofModel spec).fractionBits = spec.mantissaBitsWithoutImplicit := rfl
  have unit := Nat.two_pow_pos spec.mantissaBitsWithoutImplicit
  have levels : 2 ^ 2 ≤ 2 ^ spec.exponentBits := Nat.pow_le_pow_right Nat.two_pos wide
  have ends : (Format.ofModel spec).infinity =
      (2 ^ spec.exponentBits - 1) * 2 ^ spec.mantissaBitsWithoutImplicit := rfl
  have level : (exponent + spec.exponentBias + spec.mantissaBitsWithoutImplicit).toNat =
      (exponent - (Format.ofModel spec).lowest).toNat + 1 := by omega
  rw [bits] at fits large
  rw [Format.pattern, bits, ends] at finite
  rw [Format.pattern, bits]
  unfold pack
  dsimp only
  rw [level]
  by_cases normal : 2 ^ spec.mantissaBitsWithoutImplicit ≤ mantissa
  · have narrow : (exponent - (Format.ofModel spec).lowest).toNat + 1 <
        2 ^ spec.exponentBits - 1 := by
      refine Nat.lt_of_mul_lt_mul_right (a := 2 ^ spec.mantissaBitsWithoutImplicit) ?_
      rw [Nat.succ_mul]
      omega
    have full : mantissa.log2 + 1 = spec.mantissaBits := by
      rw [(Nat.log2_eq_iff (Nat.ne_of_gt positive)).mpr ⟨normal, by omega⟩, Nat.add_comm]
      rfl
    rw [if_neg (by omega), if_pos full, toNat_packComponents, BitVec.toNat_ofNat,
      BitVec.toNat_ofNat, Nat.mod_eq_of_lt (by omega : _ + 1 < 2 ^ spec.exponentBits),
      Nat.mod_eq_sub_mod normal, Nat.mod_eq_of_lt (by omega), Nat.succ_mul]
    congr 1
    omega
  · have low : (exponent - (Format.ofModel spec).lowest).toNat = 0 := by omega
    have short : mantissa.log2 + 1 ≠ spec.mantissaBits := by
      have below := (Nat.log2_lt (Nat.ne_of_gt positive)).mpr (Nat.not_le.mp normal)
      rw [Float.Model.Format.mantissaBits]
      omega
    rw [low, if_neg (by omega), if_neg short, toNat_packComponents, BitVec.toNat_ofNat,
      BitVec.toNat_ofNat, Nat.zero_mod, Nat.mod_eq_of_lt (Nat.not_le.mp normal)]

theorem unpack_pack_finite :
    unpack spec (pack spec (.finite sign mantissa exponent positive)) =
      .finite sign mantissa exponent positive := by
  have reads := decode_toNat (pack spec (.finite sign mantissa exponent positive))
  rw [toNat_pack_finite spec wide sign positive canonical finite] at reads
  have value := Format.decode_signed_pattern canonical finite (isNegative sign)
  replace reads := value.symm.trans reads
  unfold Reading.ofUnpacked at reads
  split at reads
  · cases reads
  · cases reads
  · simp only [Reading.finite.injEq] at reads
    omega
  · rename_i held
    simp only [Reading.finite.injEq] at reads
    obtain ⟨signs, rfl, rfl⟩ := reads
    rw [held, isNegative_inj signs]

end Finite

/-- What was unpacked is packed and unpacked again. -/
theorem unpack_pack_unpack (wide : 2 ≤ spec.exponentBits) (word : BitVec spec.numBits) :
    unpack spec (pack spec (unpack spec word)) = unpack spec word := by
  rw [pack_unpack word wide]
  split
  · rename_i nan
    obtain ⟨top, filled⟩ := of_decide_eq_true nan
    rw [unpack_packedNaN, unpack, if_pos top, if_neg filled]
  · rfl

end Packing

section Spreading

variable {spec : Float.Model.Format} {x y : UnpackedFloat}

/-- What is "not a number" on either side spreads through an operation that keeps it on both. -/
theorem isNaN_of_either {op : UnpackedFloat → UnpackedFloat → UnpackedFloat}
    (left : ∀ y, op .notANumber y = .notANumber) (right : ∀ x, op x .notANumber = .notANumber)
    (nan : x.isNaN = true ∨ y.isNaN = true) : (op x y).isNaN = true := by
  rcases nan with nan | nan
  · rw [isNaN_iff.mp nan, left]
    rfl
  · rw [isNaN_iff.mp nan, right]
    rfl

theorem isNaN_add (nan : x.isNaN = true ∨ y.isNaN = true) : (x.add spec y).isNaN = true :=
  isNaN_of_either (fun _ => rfl) (fun x => by cases x <;> rfl) nan

theorem isNaN_sub (nan : x.isNaN = true ∨ y.isNaN = true) : (x.sub spec y).isNaN = true :=
  isNaN_of_either (fun _ => rfl) (fun x => by cases x <;> rfl) nan

theorem isNaN_mul (nan : x.isNaN = true ∨ y.isNaN = true) : (x.mul spec y).isNaN = true :=
  isNaN_of_either (fun _ => rfl) (fun x => by cases x <;> rfl) nan

theorem isNaN_sqrt (nan : x.isNaN = true) : (x.sqrt spec).isNaN = true := by
  rw [isNaN_iff.mp nan]
  rfl

/-- An infinite sum stays infinite, or becomes "not a number" when both signs meet. -/
theorem isFinite_add (infinite : x.isFinite = false ∨ y.isFinite = false) :
    (x.add spec y).isFinite = false := by
  cases x with
  | infinity sign =>
    cases y with
    | infinity other => cases sign <;> cases other <;> rfl
    | _ => rfl
  | notANumber => rfl
  | zero sign | finite sign =>
    rcases infinite with infinite | infinite
    · cases infinite
    · cases y <;> first | rfl | cases infinite

theorem isFinite_mul {sign : Sign} {mantissa : Nat} {exponent : Int} (positive : 0 < mantissa)
    (infinite : y.isFinite = false) :
    (UnpackedFloat.mul spec (.finite sign mantissa exponent positive) y).isFinite = false := by
  cases y <;> first | rfl | cases infinite

theorem isNaN_settled (nan : x.isNaN = true) :
    (unpack .binary32 (pack .binary32 x)).isNaN = true := by
  rw [isNaN_iff.mp nan]
  rfl

theorem isNaN_settled_double (nan : x.isNaN = true) :
    (unpack .binary64 (pack .binary64 x)).isNaN = true := by
  rw [isNaN_iff.mp nan]
  rfl

theorem isFinite_settled (infinite : x.isFinite = false) :
    (unpack .binary32 (pack .binary32 x)).isFinite = false := by
  cases x with
  | notANumber => rfl
  | infinity sign => cases sign <;> rfl
  | _ => cases infinite

end Spreading

namespace Single

theorem unpack_toFloat32 (x : Single) :
    x.toFloat32.toModel.unpack = unpack .binary32 x.bits.toBitVec :=
  unpack_pack_unpack .binary32 (by decide) x.bits.toBitVec

theorem reading_ofFloat32 (x : Float32) :
    (ofFloat32 x).reading = .ofUnpacked .single x.toModel.unpack :=
  @decode_toNat .binary32 x.toBits.toBitVec

theorem reading_eq (x : Single) : x.reading = .ofUnpacked .single x.toFloat32.toModel.unpack := by
  rw [unpack_toFloat32]
  exact @decode_toNat .binary32 x.bits.toBitVec

end Single

namespace Double

theorem unpack_toFloat (x : Double) :
    x.toFloat.toModel.unpack = unpack .binary64 x.bits.toBitVec :=
  unpack_pack_unpack .binary64 (by decide) x.bits.toBitVec

theorem reading_ofFloat (x : Float) :
    (ofFloat x).reading = .ofUnpacked .double x.toModel.unpack :=
  @decode_toNat .binary64 x.toBits.toBitVec

theorem reading_eq (x : Double) : x.reading = .ofUnpacked .double x.toFloat.toModel.unpack := by
  rw [unpack_toFloat]
  exact @decode_toNat .binary64 x.bits.toBitVec

end Double

theorem Reading.ofUnpacked_beq_nan (format : Format) (x : UnpackedFloat) :
    (Reading.ofUnpacked format x == .nan) = x.isNaN := by
  cases x <;> rfl

namespace Single

theorem isNaN_ofFloat32 (x : Float32) : (ofFloat32 x).isNaN = x.isNaN := by
  rw [isNaN, reading_ofFloat32, Reading.ofUnpacked_beq_nan]
  rfl

theorem isNaN_toFloat32 (x : Single) : x.toFloat32.isNaN = x.isNaN := by
  rw [isNaN, reading_eq, Reading.ofUnpacked_beq_nan]
  rfl

theorem isFinite_ofFloat32 (x : Float32) : (ofFloat32 x).isFinite = x.isFinite := by
  rw [isFinite, reading_ofFloat32, Float32.isFinite, Float32.Model.isFinite]
  cases x.toModel.unpack <;> rfl

theorem isFinite_toFloat32 (x : Single) : x.toFloat32.isFinite = x.isFinite := by
  rw [isFinite, reading_eq, Float32.isFinite, Float32.Model.isFinite]
  cases x.toFloat32.toModel.unpack <;> rfl

theorem isNaN_toDouble {x : Single} (nan : x.isNaN = true) : x.toDouble.toFloat.isNaN = true := by
  have held : Format.single.decode x.bits.toNat = .nan := eq_of_beq nan
  rw [toDouble, Format.convert, held]
  rfl

end Single

theorem Double.isNaN_toSingle_ofFloat {x : Float} (nan : x.isNaN = true) :
    (Double.ofFloat x).toSingle.isNaN = true := by
  have held : Format.double.decode x.toBits.toNat = .nan := by
    have reads := @decode_toNat .binary64 x.toBits.toBitVec
    refine reads.trans (eq_of_beq ?_)
    rw [Reading.ofUnpacked_beq_nan]
    exact nan
  rw [toSingle, ofFloat, Format.convert, held]
  rfl

theorem lt_self (x : UnpackedFloat) : x.lt x = false := by
  cases x with
  | notANumber => rfl
  | infinity sign | zero sign => cases sign <;> rfl
  | finite sign mantissa exponent positive =>
    cases sign <;> simp [UnpackedFloat.lt, UnpackedFloat.compare]

theorem lt_of_isNaN {x y : UnpackedFloat} (nan : y.isNaN = true) : x.lt y = false := by
  rw [isNaN_iff.mp nan]
  cases x <;> rfl

section Arithmetic

variable {x y : Float32}

theorem not_float32_lt_self (x : Float32) : ¬ x < x := by
  intro less
  exact Bool.false_ne_true ((lt_self x.toModel.unpack).symm.trans (of_decide_eq_true less))

theorem not_float32_lt_of_isNaN (nan : y.isNaN = true) : ¬ x < y := by
  intro less
  exact Bool.false_ne_true ((lt_of_isNaN nan).symm.trans (of_decide_eq_true less))

theorem unpack_float32_add (x y : Float32) :
    (x + y).toModel.unpack =
      unpack .binary32 (pack .binary32 (x.toModel.unpack.add .binary32 y.toModel.unpack)) := rfl

theorem unpack_float32_mul (x y : Float32) :
    (x * y).toModel.unpack =
      unpack .binary32 (pack .binary32 (x.toModel.unpack.mul .binary32 y.toModel.unpack)) := rfl

theorem isNaN_float32_add (nan : x.isNaN = true ∨ y.isNaN = true) : (x + y).isNaN = true :=
  isNaN_settled (isNaN_add nan)

theorem isNaN_float32_mul (nan : x.isNaN = true ∨ y.isNaN = true) : (x * y).isNaN = true :=
  isNaN_settled (isNaN_mul nan)

theorem isFinite_float32_add (infinite : x.isFinite = false ∨ y.isFinite = false) :
    (x + y).isFinite = false :=
  isFinite_settled (isFinite_add infinite)

theorem isFinite_float32_mul {sign : Sign} {mantissa : Nat} {exponent : Int}
    {positive : 0 < mantissa} (factor : x.toModel.unpack = .finite sign mantissa exponent positive)
    (infinite : y.isFinite = false) : (x * y).isFinite = false := by
  rw [Float32.isFinite, Float32.Model.isFinite, unpack_float32_mul, factor]
  exact isFinite_settled (isFinite_mul positive infinite)

end Arithmetic

section DoubleArithmetic

variable {x y : Float}

theorem isNaN_float_add (nan : x.isNaN = true ∨ y.isNaN = true) : (x + y).isNaN = true :=
  isNaN_settled_double (isNaN_add nan)

theorem isNaN_float_sub (nan : x.isNaN = true ∨ y.isNaN = true) : (x - y).isNaN = true :=
  isNaN_settled_double (isNaN_sub nan)

theorem isNaN_float_mul (nan : x.isNaN = true ∨ y.isNaN = true) : (x * y).isNaN = true :=
  isNaN_settled_double (isNaN_mul nan)

theorem isNaN_float_sqrt (nan : x.isNaN = true) : x.sqrt.isNaN = true :=
  isNaN_settled_double (isNaN_sqrt nan)

end DoubleArithmetic

namespace Double

theorem unpack_zero : zero.toFloat.toModel.unpack = .zero .positive := by
  rw [unpack_toFloat]
  rfl

theorem exists_unpack_zero_mul {x : Double} (finite : x.isFinite = true) :
    ∃ sign, (zero * x).toFloat.toModel.unpack = .zero sign := by
  have product : (zero * x).toFloat.toModel.unpack = unpack .binary64 (pack .binary64
      (zero.toFloat.toModel.unpack.mul .binary64 x.toFloat.toModel.unpack)) := by
    rw [unpack_toFloat]
    rfl
  rw [isFinite, reading_eq] at finite
  rw [product, unpack_zero]
  cases held : x.toFloat.toModel.unpack with
  | notANumber | infinity =>
    rw [held] at finite
    cases finite
  | zero sign | finite sign => exact ⟨_, unpack_pack_zero .binary64 _⟩

theorem zero_add_of_unpack {x : Double} {sign : Sign}
    (nothing : x.toFloat.toModel.unpack = .zero sign) : zero + x = zero := by
  have sum : zero + x = ⟨⟨pack .binary64
      (zero.toFloat.toModel.unpack.add .binary64 x.toFloat.toModel.unpack)⟩⟩ := rfl
  rw [sum, unpack_zero, nothing]
  cases sign <;> rfl

end Double

end LiveFragment.Number
