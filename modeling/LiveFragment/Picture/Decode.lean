import LiveFragment.Files.Path
import LiveFragment.Picture.Gif

namespace LiveFragment.Picture

open LiveFragment.Files LiveFragment.Media

inductive Format
  | png
  | bmp
  | gif
deriving DecidableEq, Repr

def Format.ofPath? (path : String) : Option Format :=
  if hasExtension path "png" || hasExtension path "apng" then some .png
  else if hasExtension path "bmp" then some .bmp
  else if hasExtension path "gif" then some .gif
  else none

/-- Whether a format has room for a picture; a GIF counts its edges in 16 bits. -/
def Format.holds (format : Format) (frame : Frame) : Bool :=
  format ≠ .gif || (frame.width ≤ 65535 && frame.height ≤ 65535)

def decode? (path : String) (content : Bytes) : Option Frame :=
  match Format.ofPath? path with
  | some .png => Png.decode? content.toList
  | some .bmp => Bmp.decode? content.toList
  | some .gif => Gif.decode? content.toList
  | none => none

end LiveFragment.Picture
