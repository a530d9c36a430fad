import LiveFragment.Channel.Services
import LiveFragment.Channel.Spectrum

namespace LiveFragment.Channel

open LiveFragment.Number

namespace Fourier

def single (mantissa : Nat) (exponent : Int) : Float32 :=
  (Single.ofDecimal false ⟨mantissa, exponent⟩).toFloat32

def pi : Float32 := single 314159265 (-8)

/-- The weight of a sample in a block: a Blackman window. -/
def weight (size index : Nat) : Float32 :=
  let phase := 2 * pi * index.toFloat32 / (size.toFloat32 - 1)
  single 42 (-2) - single 5 (-1) * phase.cos + single 8 (-2) * (2 * phase).cos

/-- The samples of a block, each with its weight. -/
def weighted (block : List Single) : List Single :=
  block.mapIdx fun index sample => .ofFloat32 (sample.toFloat32 * weight block.length index)

/-- The strengths of a block: of its magnitudes the lower half, in parts of the block. -/
def strengths (transform : Transform) (block : List Single) : Option (List Single) :=
  (transform.magnitudes (weighted block)).map fun magnitudes =>
    (magnitudes.take (block.length / 2)).map fun magnitude =>
      .ofFloat32 (magnitude.toFloat32 * (1 / block.length.toFloat32))

theorem length_strengths {transform : Transform} {block found : List Single}
    (heard : strengths transform block = some found) : found.length = block.length / 2 := by
  obtain ⟨magnitudes, made, rfl⟩ := Option.map_eq_some_iff.mp heard
  have length := transform.length_magnitudes made
  rw [weighted, List.length_mapIdx] at length
  rw [List.length_map, List.length_take, length]
  omega

/-- Four fifths of a strength are carried on. -/
def blend (before now : Single) : Single :=
  let kept := single 8 (-1)
  .ofFloat32 (kept * before.toFloat32 + (1 - kept) * now.toFloat32)

/-- A part of the whole as a byte; outside the whole its nearer end. -/
def byteOf (part : Float32) : UInt8 :=
  let part := if part < 0 then 0 else if 1 < part then 1 else part
  (part * 255).round.toUInt8

/-- Decibels between -100 and -30, spread over a byte. -/
def loudness (strength : Single) : UInt8 :=
  let least := single 1 (-12)
  let audible := if least < strength.toFloat32 then strength.toFloat32 else least
  byteOf ((20 * audible.log10 + 100) / 70)

/-- A sample between -1 and 1, spread over a byte. It is cut to these bounds, halved and raised by a
half, and stretched to a byte; "not a number" is zero. -/
def amplitude (sample : Single) : UInt8 :=
  match sample.reading with
  | .nan => 0
  | .infinite negative => if negative then 0 else 255
  | .finite negative mantissa exponent =>
    let whole := Nat.pow 2 (-exponent).toNat
    let size := min (mantissa * Nat.pow 2 exponent.toNat) whole
    let sum := if negative then whole - size else whole + size
    let (upper, lower) := Format.single.fraction (Format.single.nearest sum (2 * whole))
    let (upper, lower) := Format.single.fraction (Format.single.nearest (255 * upper) lower)
    .ofNat ((2 * upper + lower) / (2 * lower))

/-- Sound in single precision. -/
def sound (transform : Transform) : Sound Single where
  silence := .zero
  strengths := strengths transform
  length_strengths := length_strengths
  blend := blend
  loudness := loudness
  amplitude := amplitude

end Fourier

end LiveFragment.Channel
