import LiveFragment.Bytes

namespace LiveFragment

namespace Backend

structure ProgramHandle where
  id : Nat
deriving DecidableEq, Repr, Inhabited

structure TextureHandle where
  id : Nat
deriving DecidableEq, Repr, Inhabited

def ProgramHandle.text (handle : ProgramHandle) : String :=
  "ProgramHandle(" ++ toString handle.id ++ ")"

def TextureHandle.text (handle : TextureHandle) : String :=
  "TextureHandle(" ++ toString handle.id ++ ")"

inductive PixelFormat
  | rgba8
  | r8
deriving DecidableEq, Repr, Inhabited

namespace PixelFormat

def bytesPerPixel : PixelFormat → Nat
  | rgba8 => 4
  | r8 => 1

def name : PixelFormat → String
  | rgba8 => "Rgba8"
  | r8 => "R8"

end PixelFormat

structure TextureDesc where
  width : UInt32
  height : UInt32
  format : PixelFormat
deriving DecidableEq, Repr, Inhabited

namespace TextureDesc

def rgba (width height : UInt32) : TextureDesc := ⟨width, height, .rgba8⟩

def r8 (width height : UInt32) : TextureDesc := ⟨width, height, .r8⟩

/-- The number of bytes of the pixels, counted in a word of 64 bits. -/
def byteLength (desc : TextureDesc) : Nat :=
  desc.width.toNat * desc.height.toNat * desc.format.bytesPerPixel % UInt64.size

def text (desc : TextureDesc) : String :=
  "TextureDesc \x7b width: " ++ toString desc.width ++ ", height: " ++ toString desc.height ++
    ", format: " ++ desc.format.name ++ " \x7d"

end TextureDesc

/-- The order of rows in a picture that is read back. -/
inductive ScanlineOrder
  | topDown
  | bottomUp
deriving DecidableEq, Repr, Inhabited

end Backend

/-- Exchanges a row with one below it. There is nothing when the upper one does not end before the
lower one begins, or when the lower one goes past the end. -/
def exchangeRows? (length : Nat) (pixels : Bytes) (upper lower : Nat) : Option Bytes :=
  if upper * length + length ≤ lower * length ∧ lower * length + length ≤ pixels.size then
    some (pixels.exchange (upper * length) (lower * length) length)
  else none

/-- Reverses the rows of a picture of four bytes per pixel in place: the first is exchanged with the
last, and so on up to the middle. There is nothing when a row goes past the end. -/
def flipRows? (pixels : Bytes) (width height : Nat) : Option Bytes :=
  (List.range (height / 2)).foldlM
    (fun pixels top => exchangeRows? (width * 4) pixels top (height - 1 - top)) pixels

/-- The rows of a picture of four bytes per pixel, from the last to the first. The picture has to be
whole. -/
def flipRows (pixels : Bytes) (width height : Nat) : Bytes :=
  (flipRows? pixels width height).getD pixels

end LiveFragment
