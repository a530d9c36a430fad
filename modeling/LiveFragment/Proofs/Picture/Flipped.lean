import LiveFragment.Backend.Texture

/-! Reversing the rows of a picture in place. Once the outermost rows at both ends were exchanged,
each of them holds the row opposite to it, and the rows between still hold their own. So a picture
that is whole is reversed without going past its end, and a second time gives the picture back. -/

namespace LiveFragment

namespace Bytes

/-- The position whose byte comes to a position when two parts are exchanged. -/
def crossed (first second count p : Nat) : Nat :=
  if first ≤ p ∧ p < first + count then second + (p - first)
  else if second ≤ p ∧ p < second + count then first + (p - second)
  else p

theorem crossed_one (first second p : Nat) :
    crossed first second 1 p = if second = p then first else if first = p then second else p := by
  grind [crossed]

theorem crossed_succ {first second count : Nat} (apart : first + (count + 1) ≤ second) (p : Nat) :
    crossed first second 1 (crossed (first + 1) (second + 1) count p) =
      crossed first second (count + 1) p := by
  grind [crossed]

variable {bytes : Bytes} {first second count : Nat}

theorem getElem?_swap (one : first < bytes.size) (other : second < bytes.size) (p : Nat) :
    (bytes.swapIfInBounds first second)[p]? = bytes[crossed first second 1 p]? := by
  rw [Array.swapIfInBounds_def, dif_pos one, dif_pos other, Array.getElem?_swap,
    ← Array.getElem?_eq_getElem one, ← Array.getElem?_eq_getElem other, crossed_one]
  split
  · rfl
  · split <;> rfl

theorem size_exchange (bytes : Bytes) (first second count : Nat) :
    (bytes.exchange first second count).size = bytes.size := by
  induction count generalizing bytes first second with
  | zero => rfl
  | succ count ih => rw [exchange, ih, Array.size_swapIfInBounds]

theorem getElem?_exchange (apart : first + count ≤ second) (inside : second + count ≤ bytes.size)
    (p : Nat) : (bytes.exchange first second count)[p]? = bytes[crossed first second count p]? := by
  induction count generalizing bytes first second with
  | zero =>
    rw [exchange, crossed, if_neg (by omega), if_neg (by omega)]
  | succ count ih =>
    have kept : second + 1 + count ≤ (bytes.swapIfInBounds first second).size := by
      rw [Array.size_swapIfInBounds]
      omega
    rw [exchange, ih (by omega) kept, getElem?_swap (by omega) (by omega), crossed_succ apart]

end Bytes

section Rows

variable {length height : Nat}

theorem row_inside {r height stride length : Nat} (row : r < height) (short : length ≤ stride) :
    r * stride + length ≤ height * stride :=
  calc r * stride + length
    _ ≤ r * stride + stride := Nat.add_le_add_left short _
    _ = (r + 1) * stride := (Nat.succ_mul r stride).symm
    _ ≤ height * stride := Nat.mul_le_mul_right _ row

/-- The row that comes to a row when two rows are exchanged. -/
def crossedRow (upper lower r : Nat) : Nat :=
  if r = upper then lower else if r = lower then upper else r

theorem crossed_row {upper lower i : Nat} (apart : upper * length + length ≤ lower * length)
    (r : Nat) (within : i < length) :
    Bytes.crossed (upper * length) (lower * length) length (r * length + i) =
      crossedRow upper lower r * length + i := by
  have outside {s : Nat} (other : r ≠ s) :
      ¬ (s * length ≤ r * length + i ∧ r * length + i < s * length + length) := by
    rcases Nat.lt_or_gt_of_ne other with before | behind
    · have ends := row_inside before (Nat.le_refl length)
      omega
    · have ends := row_inside behind (Nat.le_refl length)
      omega
  unfold Bytes.crossed crossedRow
  by_cases top : r = upper
  · subst top
    rw [if_pos (by omega), if_pos rfl]
    omega
  · rw [if_neg (outside top), if_neg top]
    by_cases bottom : r = lower
    · subst bottom
      rw [if_pos (by omega), if_pos rfl]
      omega
    · rw [if_neg (outside bottom), if_neg bottom]

theorem exchangeRows?_rows {pixels : Bytes} {upper lower : Nat} (before : upper < lower)
    (inside : lower * length + length ≤ pixels.size) :
    ∃ next, exchangeRows? length pixels upper lower = some next ∧ next.size = pixels.size ∧
      ∀ r i, i < length →
        next[r * length + i]? = pixels[crossedRow upper lower r * length + i]? := by
  have apart := row_inside before (Nat.le_refl length)
  refine ⟨_, if_pos ⟨apart, inside⟩, Bytes.size_exchange .., fun r i within => ?_⟩
  rw [Bytes.getElem?_exchange apart inside, crossed_row apart r within]

/-- The row that a row holds once so many rows at both ends were exchanged. -/
def mirroredRow (height done r : Nat) : Nat :=
  if min r (height - 1 - r) < done then height - 1 - r else r

theorem mirroredRow_zero (r : Nat) : mirroredRow height 0 r = r := if_neg (Nat.not_lt_zero _)

theorem mirroredRow_half {r : Nat} (row : r < height) :
    mirroredRow height (height / 2) r = height - 1 - r := by
  unfold mirroredRow
  split <;> omega

theorem mirroredRow_succ {done r : Nat} (more : done < height / 2) (row : r < height) :
    mirroredRow height done (crossedRow done (height - 1 - done) r) =
      mirroredRow height (done + 1) r := by
  grind [mirroredRow, crossedRow]

theorem flipRows?_upto {pixels : Bytes} (whole : height * length ≤ pixels.size) {done : Nat}
    (half : done ≤ height / 2) :
    ∃ next, (List.range done).foldlM
        (fun pixels top => exchangeRows? length pixels top (height - 1 - top)) pixels = some next ∧
      next.size = pixels.size ∧
      ∀ r i, r < height → i < length →
        next[r * length + i]? = pixels[mirroredRow height done r * length + i]? := by
  induction done with
  | zero =>
    refine ⟨pixels, rfl, rfl, fun r i _ _ => ?_⟩
    rw [mirroredRow_zero]
  | succ done ih =>
    obtain ⟨before, reached, size, rows⟩ := ih (Nat.le_of_succ_le half)
    have last : height - 1 - done < height := by omega
    have inside := Nat.le_trans (row_inside last (Nat.le_refl length)) (size ▸ whole)
    have apart : done < height - 1 - done := by omega
    obtain ⟨next, exchanged, same, moved⟩ := exchangeRows?_rows apart inside
    refine ⟨next, ?_, same.trans size, fun r i row within => ?_⟩
    · rw [List.range_succ, List.foldlM_append, reached]
      simpa using exchanged
    · have inner : crossedRow done (height - 1 - done) r < height := by
        unfold crossedRow
        split
        · exact last
        · split <;> omega
      rw [moved r i within, rows _ i inner within, mirroredRow_succ half row]

end Rows

/-- A row of a picture of four bytes per pixel. -/
def pictureRow (pixels : Bytes) (width r : Nat) : Bytes :=
  pixels.extract (r * (width * 4)) (r * (width * 4) + width * 4)

/-- A picture holds the rows of another, from the last to the first, and nothing else. Reversed in
place it is that other one again. -/
structure Flipped (pixels : Bytes) (width height : Nat) (flipped : Bytes) : Prop where
  size : flipped.size = pixels.size
  rows : ∀ r, r < height → pictureRow flipped width r = pictureRow pixels width (height - 1 - r)
  back : flipRows? flipped width height = some pixels

section Pictures

variable {pixels : Bytes} {width height : Nat}

theorem getElem?_pictureRow {r : Nat} (row : r < height) (whole : height * (width * 4) ≤ pixels.size)
    (i : Nat) : (pictureRow pixels width r)[i]? =
      if i < width * 4 then pixels[r * (width * 4) + i]? else none := by
  have inside := row_inside row (Nat.le_refl (width * 4))
  rw [pictureRow, Array.getElem?_extract, Nat.min_eq_left (Nat.le_trans inside whole),
    Nat.add_sub_cancel_left]

/-- Pictures of one size are the same when they have the same rows. -/
theorem eq_of_pictureRow {other : Bytes} (whole : pixels.size = height * (width * 4))
    (same : other.size = pixels.size)
    (rows : ∀ r, r < height → pictureRow other width r = pictureRow pixels width r) :
    other = pixels := by
  apply Array.ext_getElem?
  intro p
  by_cases inside : p < height * (width * 4)
  · have wide : 0 < width * 4 := Nat.pos_of_mul_pos_left (Nat.zero_lt_of_lt inside)
    have row : p / (width * 4) < height := (Nat.div_lt_iff_lt_mul wide).mpr inside
    have within : p % (width * 4) < width * 4 := Nat.mod_lt _ wide
    have here := congrArg (·[p % (width * 4)]?) (rows _ row)
    rw [getElem?_pictureRow row (Nat.le_of_eq (whole.symm.trans same.symm)), if_pos within,
      getElem?_pictureRow row (Nat.le_of_eq whole.symm), if_pos within, Nat.div_add_mod'] at here
    exact here
  · rw [Array.getElem?_eq_none (by omega), Array.getElem?_eq_none (by omega)]

/-- A picture that has its rows within its bytes is reversed. -/
theorem flipRows?_rows (whole : height * (width * 4) ≤ pixels.size) :
    flipRows? pixels width height = some (flipRows pixels width height) ∧
      (flipRows pixels width height).size = pixels.size ∧
      ∀ r, r < height → pictureRow (flipRows pixels width height) width r =
        pictureRow pixels width (height - 1 - r) := by
  obtain ⟨flipped, reached, size, rows⟩ := flipRows?_upto whole (Nat.le_refl (height / 2))
  have reversed : flipRows? pixels width height = some flipped := reached
  have same : flipRows pixels width height = flipped := by
    rw [flipRows, reversed, Option.getD_some]
  rw [same]
  refine ⟨reversed, size, fun r row => ?_⟩
  have opposite : height - 1 - r < height := by omega
  apply Array.ext_getElem?
  intro i
  rw [getElem?_pictureRow row (size ▸ whole), getElem?_pictureRow opposite whole]
  split
  · rename_i within
    rw [rows r i row within, mirroredRow_half row]
  · rfl

theorem size_flipRows (whole : pixels.size = height * (width * 4)) :
    (flipRows pixels width height).size = height * (width * 4) :=
  (flipRows?_rows (Nat.le_of_eq whole.symm)).2.1.trans whole

example : flipRows #[0, 0, 0, 0, 1, 1, 1, 1, 2, 3, 2, 3] 1 3 =
    #[2, 3, 2, 3, 1, 1, 1, 1, 0, 0, 0, 0] := by decide

/-- Reversing twice gives the picture back. -/
theorem flipRows_flipRows (whole : pixels.size = height * (width * 4)) :
    flipRows (flipRows pixels width height) width height = pixels := by
  obtain ⟨-, size, rows⟩ := flipRows?_rows (Nat.le_of_eq whole.symm)
  obtain ⟨-, again, opposite⟩ := flipRows?_rows (Nat.le_of_eq (size_flipRows whole).symm)
  refine eq_of_pictureRow whole (again.trans size) fun r row => ?_
  have other : height - 1 - r < height := by omega
  have back : height - 1 - (height - 1 - r) = r := by omega
  rw [opposite r row, rows _ other, back]

theorem flipped_flipRows (whole : pixels.size = height * (width * 4)) :
    flipRows? pixels width height = some (flipRows pixels width height) ∧
      Flipped pixels width height (flipRows pixels width height) := by
  obtain ⟨reversed, size, rows⟩ := flipRows?_rows (Nat.le_of_eq whole.symm)
  refine ⟨reversed, size, rows, ?_⟩
  rw [(flipRows?_rows (Nat.le_of_eq (size_flipRows whole).symm)).1, flipRows_flipRows whole]

end Pictures

end LiveFragment
