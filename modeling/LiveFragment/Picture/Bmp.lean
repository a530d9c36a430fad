import LiveFragment.Picture.Png

namespace LiveFragment.Picture.Bmp

open LiveFragment.Media

/-- A number of so many bytes at a position. -/
def number (bytes : List UInt8) (position count : Nat) : Nat :=
  natOfBytes ((bytes.drop position).take count)

/-- Pixels of blue, green and red as pixels with an opaque fourth channel. -/
def colors : List UInt8 → List UInt8
  | blue :: green :: red :: rest => red :: green :: blue :: 255 :: colors rest
  | _ => []

/-- Rows of pixels; a row is filled up to a multiple of four bytes. -/
def rows? (width : Nat) : Nat → List UInt8 → Option (List (List UInt8))
  | 0, _ => some []
  | height + 1, bytes => do
    let (row, rest) ← takeBytes? ((width * 3 + 3) / 4 * 4) bytes
    let more ← rows? width height rest
    some (colors (row.take (width * 3)) :: more)

/-- The bottom row comes first in the file, unless the height is negative. -/
def decode? (bytes : List UInt8) : Option Frame :=
  let width := number bytes 18 4
  let height := number bytes 22 4
  let topDown := decide (0x80000000 ≤ height)
  let height := if topDown then UInt32.size - height else height
  if bytes.take 2 ≠ [0x42, 0x4d] ∨ bytes.length < 54 ∨ number bytes 14 4 < 40 ∨
      number bytes 28 2 ≠ 24 ∨ number bytes 30 4 ≠ 0 ∨ width = 0 ∨ 0x80000000 ≤ width ∨
      height = 0 then
    none
  else
    (rows? width height (bytes.drop (number bytes 10 4))).map fun rows =>
      let rows := if topDown then rows else rows.reverse
      ⟨.ofNat width, .ofNat height, rows.flatten.toArray⟩

end LiveFragment.Picture.Bmp
