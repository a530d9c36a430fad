import LiveFragment.Bytes

namespace LiveFragment.Media

structure Frame where
  width : UInt32
  height : UInt32
  pixels : Bytes
deriving DecidableEq, Repr, Inhabited

namespace Frame

/-- The number of bytes that a picture of this size has. -/
def byteCount (frame : Frame) : Nat := frame.width.toNat * frame.height.toNat * 4

/-- A picture is well formed when it is not empty and has the right number of bytes, counted in a
word of 64 bits. -/
def isWellFormed (frame : Frame) : Bool :=
  frame.width ≠ 0 && frame.height ≠ 0 && frame.pixels.size = frame.byteCount % UInt64.size

/-- Whether every row of the picture lies within its bytes. -/
def isWhole (frame : Frame) : Bool := frame.byteCount ≤ frame.pixels.size

end Frame

end LiveFragment.Media
