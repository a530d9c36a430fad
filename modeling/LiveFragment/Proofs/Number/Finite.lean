import LiveFragment.Number.Literal

namespace LiveFragment.Number

namespace Format

theorem nearest_le (format : Format) (numerator denominator : Nat) :
    format.nearest numerator denominator ≤ format.infinity := by
  unfold nearest
  split
  · exact Nat.zero_le _
  · exact Nat.min_le_right ..

theorem infinity_lt_signBit (format : Format) : format.infinity < format.signBit := by
  have split : format.signBit = Nat.pow 2 format.exponentBits * Nat.pow 2 format.fractionBits := by
    rw [signBit, Nat.add_comm]
    exact Nat.pow_add ..
  rw [infinity, split]
  exact Nat.mul_lt_mul_of_pos_right (Nat.sub_lt (Nat.two_pow_pos _) Nat.one_pos)
    (Nat.two_pow_pos _)

theorem signed_mod {format : Format} {magnitude : Nat} (below : magnitude < format.signBit)
    (negative : Bool) : format.signed negative magnitude % format.signBit = magnitude := by
  cases negative with
  | false => exact Nat.mod_eq_of_lt below
  | true => rw [signed, if_pos rfl, Nat.add_mod_left, Nat.mod_eq_of_lt below]

theorem decode_signed_ne_nan {format : Format} {magnitude : Nat}
    (bounded : magnitude ≤ format.infinity) (negative : Bool) :
    format.decode (format.signed negative magnitude) ≠ .nan := by
  have below : magnitude < format.signBit :=
    Nat.lt_of_le_of_lt bounded format.infinity_lt_signBit
  unfold decode
  simp only [signed_mod below, Nat.not_lt.mpr bounded, if_false]
  split
  · nofun
  · split <;> nofun

theorem signed_lt {format : Format} {magnitude : Nat} (below : magnitude < format.signBit)
    (negative : Bool) : format.signed negative magnitude < 2 * format.signBit := by
  unfold signed
  split <;> omega

end Format

theorem Single.sameNumber_self {x : Single} (number : x.isNaN = false) :
    x.sameNumber x = true := by
  simp [sameNumber, number]

theorem Single.isNaN_ofPattern {magnitude : Nat} (bounded : magnitude ≤ Format.single.infinity)
    (negative : Bool) : (ofPattern (Format.single.signed negative magnitude)).isNaN = false := by
  have kept : (ofPattern (Format.single.signed negative magnitude)).bits.toNat =
      Format.single.signed negative magnitude :=
    UInt32.toNat_ofNat_of_lt' (Format.signed_lt
      (Nat.lt_of_le_of_lt bounded (Format.infinity_lt_signBit _)) negative)
  rw [isNaN, reading, kept, beq_eq_false_iff_ne]
  exact Format.decode_signed_ne_nan bounded negative

/-- A number becomes a number in single precision, if perhaps an infinite one. -/
theorem Double.isNaN_toSingle {x : Double} (number : x.isNaN = false) :
    x.toSingle.isNaN = false := by
  rw [isNaN, reading, beq_eq_false_iff_ne] at number
  unfold toSingle Format.convert
  split
  · contradiction
  · exact Single.isNaN_ofPattern (Nat.le_refl _) _
  · exact Single.isNaN_ofPattern (Format.nearest_le ..) _

theorem Double.isNaN_of_isFinite {x : Double} (finite : x.isFinite = true) : x.isNaN = false := by
  unfold isFinite at finite
  rw [isNaN, beq_eq_false_iff_ne]
  intro nan
  rw [nan] at finite
  cases finite

theorem finiteDouble?_isNaN {text : List Char} {x : Double} (found : finiteDouble? text = some x) :
    x.isNaN = false :=
  Double.isNaN_of_isFinite (Option.filter_eq_some_iff.mp found).2

end LiveFragment.Number
