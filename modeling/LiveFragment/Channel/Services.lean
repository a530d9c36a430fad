import LiveFragment.Media.Frame
import LiveFragment.Number.Single

namespace LiveFragment.Channel

open LiveFragment.Media LiveFragment.Number

/-- A generator of random numbers once it is seeded: what it gives when so many bytes are drawn from
it, or so many colors of three bytes. -/
structure Random where
  bytes : (count : Nat) → Vector UInt8 count
  colors : (count : Nat) → Vector (UInt8 × UInt8 × UInt8) count

instance : Inhabited Random :=
  ⟨fun count => .replicate count 0, fun count => .replicate count (0, 0, 0)⟩

/-- A Fourier transform of real numbers. It may fail. -/
structure Transform where
  /-- The magnitudes of the frequencies of a block, up to half the number of its samples. -/
  magnitudes : List Single → Option (List Single)
  length_magnitudes : ∀ {block found}, magnitudes block = some found →
    found.length = block.length / 2 + 1

instance : Inhabited Transform := ⟨fun _ => none, fun found => by cases found⟩

/-- What channels take from other libraries: decoders of pictures, generators of random numbers and
a Fourier transform. -/
structure Services where
  /-- The picture of a file. -/
  picture? : String → Bytes → Option Frame
  /-- The pictures of a file that is played, each with its delay in hundredths of a second. -/
  pictures? : Bytes → Option (List (Frame × Nat))
  picture_whole : ∀ {path content frame}, picture? path content = some frame →
    frame.isWhole = true
  pictures_whole : ∀ {content frames}, pictures? content = some frames →
    ∀ entry ∈ frames, entry.1.isWhole = true
  seeded : UInt64 → Random
  /-- The generators that are seeded by the machine, one after the other. -/
  fresh : Nat → Random
  transform : Transform

instance : Inhabited Services where
  default :=
    { picture? := fun _ _ => none
      pictures? := fun _ => none
      picture_whole := fun found => by cases found
      pictures_whole := fun found => by cases found
      seeded := fun _ => default
      fresh := fun _ => default
      transform := default }

end LiveFragment.Channel
