import LiveFragment.Bytes
import LiveFragment.Parameter.Value

namespace LiveFragment.Uniform

open LiveFragment.Number LiveFragment.Parameter

/-- The bytes of an element as a program reads them. -/
def elementBytes : Element → List UInt8
  | .int value => wordBytes value.toUInt32
  | element => element.floats.flatMap fun x => wordBytes x.bits

/-- A block and the number of writes since its frame began. -/
structure Block where
  bytes : Bytes
  writes : Nat
deriving Repr, Inhabited

namespace Block

def empty : Block := ⟨#[], 0⟩

def zeros (size : Nat) : Block := ⟨.fill 0 size, 0⟩

def beginFrame (block : Block) : Block := { block with writes := 0 }

def put (block : Block) (offset : Nat) (data : List UInt8) : Block :=
  if offset + data.length ≤ block.bytes.size then
    ⟨block.bytes.overwrite offset data, block.writes + 1⟩
  else block

def write (block : Block) (offset : Nat) (element : Element) : Block :=
  block.put offset (elementBytes element)

def word? (block : Block) (offset : Nat) : Option UInt32 :=
  (block.bytes.slice? offset 4).map wordOfBytes

def float? (block : Block) (offset component : Nat) : Option Single :=
  (block.word? (offset + component * 4)).map fun bits => ⟨bits⟩

def int? (block : Block) (offset : Nat) : Option Int32 := (block.word? offset).map UInt32.toInt32

end Block

end LiveFragment.Uniform
