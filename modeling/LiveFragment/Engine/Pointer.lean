import LiveFragment.Uniform.Standard

namespace LiveFragment

open LiveFragment.Number LiveFragment.Uniform

structure Pointer where
  position : Option (Single × Single)
  /-- Where the button was last pressed. -/
  click : Option (Single × Single)
  pressed : Bool
deriving DecidableEq, Repr, Inhabited

namespace Pointer

def none : Pointer := ⟨.none, .none, false⟩

def move (pointer : Pointer) (x y : Single) : Pointer := { pointer with position := some (x, y) }

def button (pointer : Pointer) (pressed : Bool) : Pointer :=
  if pressed ∧ !pointer.pressed then { pointer with click := pointer.position, pressed }
  else { pointer with pressed }

/-- The position and the last click; the click is negated while the button is up. -/
def uniform (pointer : Pointer) (height : Single) : Quad :=
  let (x, y) : Single × Single :=
    match pointer.position with
    | some (x, y) => (x, height - y)
    | .none => (.zero, .zero)
  let sign : Single := if pointer.pressed then .one else .ofInt (-1)
  let (z, w) : Single × Single :=
    match pointer.click with
    | some (x, y) => (sign * x, sign * (height - y))
    | .none => (.zero, .zero)
  ⟨x, y, z, w⟩

end Pointer

end LiveFragment
