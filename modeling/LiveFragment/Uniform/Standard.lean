import LiveFragment.Bytes
import LiveFragment.Number.Single

namespace LiveFragment.Uniform

open LiveFragment.Number

/-- The width, height and depth of what a channel samples. -/
structure Resolution where
  width : Single
  height : Single
  depth : Single
deriving DecidableEq, Repr, Inhabited

namespace Resolution

/-- The resolution of a channel without a picture. -/
def empty : Resolution := ⟨.zero, .zero, .one⟩

def ofSize (width height : UInt32) : Resolution :=
  ⟨.ofNat width.toNat, .ofNat height.toNat, .one⟩

end Resolution

/-- Four numbers, as a program's vector of four. -/
structure Quad where
  x : Single
  y : Single
  z : Single
  w : Single
deriving DecidableEq, Repr, Inhabited

def Quad.zero : Quad := ⟨.zero, .zero, .zero, .zero⟩

/-- The standard inputs. The date is year, month, day and seconds since midnight. -/
structure Standard where
  resolution : Resolution
  time : Single
  delta : Single
  frame : UInt32
  rate : Single
  beat : Single
  pointer : Quad
  date : Quad
  channels : Vector Resolution 4
deriving Repr, Inhabited

namespace Standard

def ofSize (width height : UInt32) : Standard where
  resolution := .ofSize width height
  time := .zero
  delta := .zero
  frame := 0
  rate := .zero
  beat := .zero
  pointer := .zero
  date := .zero
  channels := .replicate 4 .empty

def setResolution (standard : Standard) (width height : UInt32) : Standard :=
  { standard with resolution := .ofSize width height }

/-- Sets the size of a channel; there are no channels behind the fourth. -/
def setChannel (standard : Standard) (index : Nat) (resolution : Resolution) : Standard :=
  if h : index < 4 then { standard with channels := standard.channels.set index resolution h }
  else standard

def words (standard : Standard) : List UInt32 :=
  let three (r : Resolution) : List UInt32 := [r.width.bits, r.height.bits, r.depth.bits]
  let four (q : Quad) : List UInt32 := [q.x.bits, q.y.bits, q.z.bits, q.w.bits]
  three standard.resolution ++
    [standard.time.bits, standard.delta.bits, standard.frame, standard.rate.bits,
      standard.beat.bits] ++
    four standard.pointer ++ four standard.date ++
    standard.channels.toList.flatMap fun r => three r ++ [0]

/-- The block as a program reads it, 128 bytes. -/
def bytes (standard : Standard) : Bytes := (standard.words.flatMap wordBytes).toArray

end Standard

end LiveFragment.Uniform
