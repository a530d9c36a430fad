import LiveFragment.Media.Frame

namespace LiveFragment.Picture

open LiveFragment.Media

/-- A natural number held by bytes, the highest first. -/
def natOfBytesDown (bytes : List UInt8) : Nat := natOfBytes bytes.reverse

/-- So many bytes, and the rest. -/
def takeBytes? (count : Nat) (bytes : List UInt8) : Option (List UInt8 × List UInt8) :=
  if count ≤ bytes.length then some (bytes.take count, bytes.drop count) else none

namespace Png

def signature : List UInt8 := [0x89, 0x50, 0x4e, 0x47, 0x0d, 0x0a, 0x1a, 0x0a]

/-- One byte more of the cyclic redundancy check. -/
def checkByte (check : UInt32) (byte : UInt8) : UInt32 :=
  (List.range 8).foldl
    (fun check _ => if check &&& 1 = 1 then (check >>> 1) ^^^ 0xedb88320 else check >>> 1)
    (check ^^^ byte.toUInt32)

def checksum (bytes : List UInt8) : UInt32 := (bytes.foldl checkByte 0xffffffff) ^^^ 0xffffffff

structure Chunk where
  name : List UInt8
  data : List UInt8
deriving DecidableEq, Repr

/-- The chunk that bytes start with, and what follows it. -/
def chunk? (bytes : List UInt8) : Option (Chunk × List UInt8) := do
  let (length, rest) ← takeBytes? 4 bytes
  let (name, rest) ← takeBytes? 4 rest
  let (data, rest) ← takeBytes? (natOfBytesDown length) rest
  let (check, rest) ← takeBytes? 4 rest
  if natOfBytesDown check = (checksum (name ++ data)).toNat then some (⟨name, data⟩, rest)
  else none

def headerName : List UInt8 := [0x49, 0x48, 0x44, 0x52]

def dataName : List UInt8 := [0x49, 0x44, 0x41, 0x54]

def endName : List UInt8 := [0x49, 0x45, 0x4e, 0x44]

/-- The chunks up to the one that ends the picture. -/
def chunks? : Nat → List UInt8 → Option (List Chunk)
  | 0, _ => none
  | bound + 1, bytes => do
    let (chunk, rest) ← chunk? bytes
    if chunk.name = endName then some []
    else
      let more ← chunks? bound rest
      some (chunk :: more)

/-- The bytes of stored blocks, up to the last one. -/
def storedBlocks? : Nat → List UInt8 → Option (List UInt8)
  | 0, _ => none
  | bound + 1, bytes => do
    let (head, rest) ← takeBytes? 1 bytes
    let (length, rest) ← takeBytes? 2 rest
    let (complement, rest) ← takeBytes? 2 rest
    let (data, rest) ← takeBytes? (natOfBytes length) rest
    if natOfBytes length + natOfBytes complement ≠ 0xffff then none
    else
      match head with
      | [1] => some data
      | [0] => (storedBlocks? bound rest).map (data ++ ·)
      | _ => none

/-- The data behind the two bytes that announce it. -/
def inflate? (bytes : List UInt8) : Option (List UInt8) :=
  match bytes with
  | method :: flags :: rest =>
    if method &&& 0x0f = 8 ∧ (method.toNat * 256 + flags.toNat) % 31 = 0 then
      storedBlocks? rest.length rest
    else none
  | _ => none

/-- Rows of pixels, each behind a byte that says it is stored as it is. -/
def rows? (width : Nat) : Nat → List UInt8 → Option (List UInt8)
  | 0, _ => some []
  | height + 1, bytes => do
    let (filter, rest) ← takeBytes? 1 bytes
    let (row, rest) ← takeBytes? (width * 4) rest
    if filter ≠ [0] then none
    else
      let more ← rows? width height rest
      some (row ++ more)

def decode? (bytes : List UInt8) : Option Frame := do
  let rest ← signature.isPrefixOf? bytes
  match ← chunks? rest.length rest with
  | header :: chunks =>
    let width := natOfBytesDown (header.data.take 4)
    let height := natOfBytesDown ((header.data.drop 4).take 4)
    if header.name ≠ headerName ∨ header.data.length ≠ 13 ∨ width = 0 ∨ height = 0 ∨
        header.data.drop 8 ≠ [8, 6, 0, 0, 0] then none
    else
      let packed := (chunks.filter (·.name = dataName)).flatMap (·.data)
      let pixels ← rows? width height (← inflate? packed)
      some ⟨.ofNat width, .ofNat height, pixels.toArray⟩
  | [] => none

end Png

end LiveFragment.Picture
