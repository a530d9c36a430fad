import Mathlib.Algebra.Ring.Nat
import Mathlib.Data.List.Basic
import LiveFragment.Backend.Device
import LiveFragment.Proofs.Picture.Flipped

namespace LiveFragment.Backend

/-- In words of 32 bits a row has the bytes that it has, as long as the device can pad it. -/
theorem toNat_rowBytes {width : UInt32} (fits : width.toNat * 4 + 255 < UInt32.size) :
    (rowBytes width).toNat = width.toNat * 4 := by
  have fits : width.toNat * 4 < 2 ^ 32 := by
    rw [UInt32.size] at fits
    omega
  rw [rowBytes, UInt32.toNat_mul]
  exact Nat.mod_eq_of_lt fits

/-- A row is rounded up to whole blocks of 256 bytes, and both counts run over at `2 ^ 32`. -/
theorem toNat_paddedRowBytes_wraps (width : UInt32) :
    (paddedRowBytes width).toNat =
      (width.toNat * 4 % 2 ^ 32 + 255) / 256 * 256 % 2 ^ 32 := by
  have row : (rowBytes width).toNat = width.toNat * 4 % 2 ^ 32 := UInt32.toNat_mul _ _
  have full : rowBytes width % 256 = 0 ↔ (rowBytes width).toNat % 256 = 0 := by
    rw [← UInt32.toNat_inj, UInt32.toNat_mod]
    rfl
  have blocks (more : UInt32) :
      ((rowBytes width / 256 + more) * 256).toNat =
        ((rowBytes width).toNat / 256 + more.toNat) * 256 % 2 ^ 32 := by
    rw [UInt32.toNat_mul, UInt32.toNat_add, UInt32.toNat_div]
    have literal : UInt32.toNat 256 = 256 := rfl
    rw [literal, Nat.mod_mul_mod]
  simp only [paddedRowBytes, full]
  split
  · rw [blocks 0, show UInt32.toNat 0 = 0 from rfl]
    omega
  · rw [blocks 1, show UInt32.toNat 1 = 1 from rfl]
    omega

theorem toNat_paddedRowBytes {width : UInt32} (fits : width.toNat * 4 + 255 < UInt32.size) :
    (paddedRowBytes width).toNat = (width.toNat * 4 + 255) / 256 * 256 := by
  rw [UInt32.size] at fits
  rw [toNat_paddedRowBytes_wraps]
  omega

/-- Rows are copied exactly as long as a row is counted right together with its padding. From there
on the padded row runs over to nothing, and at last the row runs over as well. -/
theorem copiesRows_iff {width : UInt32} :
    copiesRows width = true ↔ width.toNat * 4 + 255 < UInt32.size := by
  rw [copiesRows, decide_eq_true_iff, toNat_paddedRowBytes_wraps, UInt32.size]
  omega

/-- Rows of one length that lie inside a copy are put together without a loss. -/
theorem size_rows {copy : Bytes} {stride length : Nat} {rows : List Nat}
    (inside : ∀ r ∈ rows, r * stride + length ≤ copy.size) (start : Bytes) :
    ((rows.map fun r => copy.extract (r * stride) (r * stride + length)).foldl
      (· ++ ·) start).size = start.size + rows.length * length := by
  induction rows generalizing start with
  | nil => simp
  | cons r rest ih =>
    have first : r * stride + length ≤ copy.size := inside r (by simp)
    have others := ih (fun other member => inside other (by simp [member]))
    rw [List.map_cons, List.foldl_cons, others, Array.size_append, Array.size_extract,
      List.length_cons, Nat.succ_mul]
    omega

theorem size_unpad {copy : Bytes} {width height : UInt32}
    (fits : width.toNat * 4 + 255 < UInt32.size)
    (whole : copy.size = (paddedRowBytes width).toNat * height.toNat) :
    (unpad copy width height).size = height.toNat * (width.toNat * 4) := by
  have short : (rowBytes width).toNat ≤ (paddedRowBytes width).toNat := by
    rw [toNat_rowBytes fits, toNat_paddedRowBytes fits]
    omega
  rw [unpad, size_rows]
  · simp [toNat_rowBytes fits]
  · intro r member
    rw [whole, Nat.mul_comm (paddedRowBytes width).toNat]
    exact row_inside (by simpa using member) short

/-- Whatever the device copied, a picture has four bytes for each of its pixels. -/
theorem size_readBack {copy : Bytes} {width height : UInt32}
    (fits : width.toNat * 4 + 255 < UInt32.size)
    (whole : copy.size = (paddedRowBytes width).toNat * height.toNat) (order : ScanlineOrder) :
    (readBack copy width height order).size = height.toNat * (width.toNat * 4) := by
  have pixels := size_unpad fits whole
  cases order with
  | topDown => exact pixels
  | bottomUp => exact size_flipRows pixels

end LiveFragment.Backend
