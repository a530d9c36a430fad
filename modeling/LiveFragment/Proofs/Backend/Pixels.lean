import Mathlib.Algebra.Order.Ring.Nat
import LiveFragment.Backend.Error

namespace LiveFragment.Backend.TextureDesc

/-- The number of bytes of the pixels, counted without a limit. -/
def trueLength (desc : TextureDesc) : Nat :=
  desc.width.toNat * desc.height.toNat * desc.format.bytesPerPixel

/-- A picture that is not empty and has all its bytes. -/
def Exact (desc : TextureDesc) (pixels : Bytes) : Prop :=
  0 < desc.width.toNat ∧ 0 < desc.height.toNat ∧ pixels.size = desc.trueLength

/-- The number of bytes does not fit the word that counts them, and what the word keeps of it is the
number of bytes that are there. -/
def Wraps (desc : TextureDesc) (pixels : Bytes) : Prop :=
  UInt64.size ≤ desc.trueLength ∧ pixels.size = desc.trueLength % UInt64.size

instance (desc : TextureDesc) (pixels : Bytes) : Decidable (desc.Exact pixels) :=
  inferInstanceAs (Decidable (_ ∧ _))

instance (desc : TextureDesc) (pixels : Bytes) : Decidable (desc.Wraps pixels) :=
  inferInstanceAs (Decidable (_ ∧ _))

theorem toNat_pos {edge : UInt32} : 0 < edge.toNat ↔ edge ≠ 0 := by
  rw [Nat.pos_iff_ne_zero, ne_eq, ne_eq, ← UInt32.toNat_inj, UInt32.toNat_zero]

theorem edges_of_trueLength {desc : TextureDesc} (large : 0 < desc.trueLength) :
    0 < desc.width.toNat ∧ 0 < desc.height.toNat := by
  have edges := Nat.pos_of_mul_pos_right large
  exact ⟨Nat.pos_of_mul_pos_right edges, Nat.pos_of_mul_pos_left edges⟩

theorem checkPixels_eq_ok {desc : TextureDesc} {pixels : Bytes} :
    desc.checkPixels pixels = .ok () ↔
      0 < desc.width.toNat ∧ 0 < desc.height.toNat ∧
        pixels.size = desc.trueLength % UInt64.size := by
  rw [toNat_pos, toNat_pos]
  unfold checkPixels
  split
  · rename_i empty
    simp only [reduceCtorEq, false_iff]
    rintro ⟨width, height, _⟩
    exact empty.elim width height
  · rename_i edges
    obtain ⟨width, height⟩ := not_or.mp edges
    split
    · rename_i wrong
      simp only [reduceCtorEq, false_iff]
      exact fun fits => wrong fits.2.2
    · rename_i right
      exact iff_of_true rfl ⟨width, height, not_not.mp right⟩

/-- Pixels pass the check when they are exact, or when their number wraps. -/
theorem checkPixels_eq_ok_iff {desc : TextureDesc} {pixels : Bytes} :
    desc.checkPixels pixels = .ok () ↔
      (desc.Exact pixels ∧ pixels.size < UInt64.size) ∨ desc.Wraps pixels := by
  rw [checkPixels_eq_ok]
  constructor
  · rintro ⟨width, height, size⟩
    by_cases fits : desc.trueLength < UInt64.size
    · rw [Nat.mod_eq_of_lt fits] at size
      exact .inl ⟨⟨width, height, size⟩, size ▸ fits⟩
    · exact .inr ⟨Nat.le_of_not_lt fits, size⟩
  · rintro (⟨⟨width, height, size⟩, fits⟩ | ⟨large, size⟩)
    · exact ⟨width, height, by rw [← size, Nat.mod_eq_of_lt fits]⟩
    · obtain ⟨width, height⟩ := edges_of_trueLength (Nat.lt_of_lt_of_le (by decide) large)
      exact ⟨width, height, size⟩

theorem Wraps.format {desc : TextureDesc} {pixels : Bytes} (wraps : desc.Wraps pixels) :
    desc.format = .rgba8 := by
  obtain ⟨width, height, format⟩ := desc
  cases format with
  | rgba8 => rfl
  | r8 =>
    have product : width.toNat * height.toNat < 2 ^ 32 * 2 ^ 32 :=
      Nat.mul_lt_mul'' width.toNat_lt height.toNat_lt
    have large := wraps.1
    simp only [trueLength, PixelFormat.bytesPerPixel, Nat.mul_one, UInt64.size] at large
    omega

end LiveFragment.Backend.TextureDesc
