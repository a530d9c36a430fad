import LiveFragment.Backend.Device

namespace LiveFragment

namespace Backend

/-- A graphics library that checks what it is told and draws nothing. -/
structure NullAdapter where
  /-- Whether there is an adapter. -/
  present : Bool
  /-- The longest edge that it offers. -/
  limit : UInt32
  /-- How far the program of a text reads into the parameter buffer. -/
  reach : String → Nat
deriving Inhabited

namespace NullAdapter

/-- Whether a block can be written into a buffer: it fits, and it consists of whole words. -/
def takes (room : Nat) (block : Bytes) : Bool := block.size ≤ room && block.size % 4 == 0

def allows (adapter : NullAdapter) : Command → Bool
  | .standard block => takes standardRoom block
  | .custom room block => takes room block
  | .draw text room _ => adapter.reach text ≤ room
  | _ => true

end NullAdapter

end Backend

open Backend

instance : Graphics NullAdapter where
  connect adapter :=
    (if adapter.present then .ok adapter.limit else .error .noAdapter, adapter)
  isLost _ := false
  link adapter _ := (.ok (), adapter)
  execute adapter command := (adapter.allows command, adapter)
  copy adapter width height :=
    (some (.ok (.fill 0 ((paddedRowBytes width).toNat * height.toNat))), adapter)

end LiveFragment
