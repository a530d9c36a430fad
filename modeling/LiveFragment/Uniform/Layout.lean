import LiveFragment.Parameter.Definition

namespace LiveFragment.Uniform

open LiveFragment.Parameter

/-- The largest parameter block that every device accepts. -/
def maxBlockBytes : Nat := 65536

/-- The distance between two elements of an array. -/
def arrayStride : Nat := 16

def alignUp (position alignment : Nat) : Nat :=
  (position + alignment - 1) / alignment * alignment

def alignment : Shape → Nat
  | .int | .float => 4
  | .vec2 => 8
  | .vec3 | .color | .vec4 => 16

def byteSize : Shape → Nat
  | .int | .float => 4
  | .vec2 => 8
  | .vec3 | .color => 12
  | .vec4 => 16

/-- The offsets of every member's elements, and the size of the block. -/
structure Layout where
  offsets : List (List Nat)
  size : Nat
deriving DecidableEq, Repr

namespace Layout

/-- Places one member behind a position: the offsets of its elements and the position behind it.
There is none when the member would reach past the largest block. -/
def place? (position : Nat) (member : Definition) : Option (List Nat × Nat) :=
  match member.length with
  | some length =>
    let start := alignUp position arrayStride
    let stop := start + arrayStride * length
    if stop ≤ maxBlockBytes then
      some ((List.range length).map fun index => start + index * arrayStride, stop)
    else none
  | none =>
    let start := alignUp position (alignment member.shape)
    let stop := start + byteSize member.shape
    if stop ≤ maxBlockBytes then some ([start], stop) else none

/-- Places members one behind the other. -/
def placeAll? : Nat → List Definition → Option (List (List Nat) × Nat)
  | position, [] => some ([], position)
  | position, member :: rest => do
    let (offsets, stop) ← place? position member
    let (others, last) ← placeAll? stop rest
    some (offsets :: others, last)

/-- The layout of a block, unless it is larger than a block may be. -/
def ofDefinitions? (members : List Definition) : Option Layout :=
  (placeAll? 0 members).map fun (offsets, stop) => ⟨offsets, alignUp stop 16⟩

end Layout

end LiveFragment.Uniform
