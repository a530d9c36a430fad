namespace LiveFragment

abbrev Bytes := Array UInt8

namespace Bytes

def fill (byte : UInt8) (count : Nat) : Bytes := Array.replicate count byte

/-- Overwrites bytes from a position on; what would fall behind the end is dropped. -/
def overwrite (bytes : Bytes) (position : Nat) : List UInt8 → Bytes
  | [] => bytes
  | byte :: rest => overwrite (bytes.setIfInBounds position byte) (position + 1) rest

/-- Exchanges as many bytes from one position on with those from another. -/
def exchange (bytes : Bytes) (first second : Nat) : Nat → Bytes
  | 0 => bytes
  | count + 1 => exchange (bytes.swapIfInBounds first second) (first + 1) (second + 1) count

/-- The `count` bytes from a position on, when all of them exist. -/
def slice? (bytes : Bytes) (position count : Nat) : Option (List UInt8) :=
  if position + count ≤ bytes.size then some (bytes.extract position (position + count)).toList
  else none

end Bytes

/-- A word as four bytes. -/
def wordBytes (word : UInt32) : List UInt8 :=
  [word.toUInt8, (word >>> 8).toUInt8, (word >>> 16).toUInt8, (word >>> 24).toUInt8]

/-- The word that up to four bytes hold. -/
def wordOfBytes : List UInt8 → UInt32
  | [] => 0
  | byte :: rest => byte.toUInt32 ||| (wordOfBytes rest <<< 8)

/-- A natural number held by bytes, the lowest first. -/
def natOfBytes : List UInt8 → Nat
  | [] => 0
  | byte :: rest => byte.toNat + 256 * natOfBytes rest

end LiveFragment
