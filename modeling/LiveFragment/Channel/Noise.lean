import LiveFragment.Channel.Services
import LiveFragment.Directive.Texture

namespace LiveFragment.Channel

open LiveFragment.Directive LiveFragment.Media

namespace Noise

/-- The pixels of a pattern. One byte stands for all colors, or there is a byte for each. -/
def pixels (random : Random) (count : Nat) : Pattern → List (List UInt8)
  | .noise => (random.bytes count).toList.map fun byte => [byte, byte, byte, 255]
  | .noiseRgb => (random.colors count).toList.map fun (red, green, blue) => [red, green, blue, 255]

/-- A square picture of noise; an empty one would have one pixel. -/
def picture (random : Random) (pattern : Pattern) (size : UInt32) : Frame :=
  let edge := max size 1
  ⟨edge, edge, (pixels random (edge.toNat * edge.toNat) pattern).flatten.toArray⟩

end Noise

end LiveFragment.Channel
