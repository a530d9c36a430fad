import LiveFragment.Number.Single

namespace LiveFragment.Parameter

open LiveFragment.Number

/-- The declared shape of a parameter. A color is a vector of three with a hint for editors. -/
inductive Shape
  | int
  | float
  | vec2
  | vec3
  | vec4
  | color
deriving DecidableEq, Repr

namespace Shape

/-- The word for a shape in a directive. -/
def keyword : Shape → String
  | int => "int"
  | float => "float"
  | vec2 => "vec2"
  | vec3 => "vec3"
  | vec4 => "vec4"
  | color => "color"

def all : List Shape := [int, float, vec2, vec3, vec4, color]

def ofKeyword? (word : String) : Option Shape := all.find? fun shape => shape.keyword == word

/-- The type written into the program text. -/
def programType : Shape → String
  | color => "vec3"
  | shape => shape.keyword

def components : Shape → Nat
  | int | float => 1
  | vec2 => 2
  | vec3 | color => 3
  | vec4 => 4

def isColor (shape : Shape) : Bool := shape == color

end Shape

/-- One scalar or vector. -/
inductive Element
  | int (value : Int32)
  | float (x : Single)
  | vec2 (x y : Single)
  | vec3 (x y z : Single)
  | vec4 (x y z w : Single)
deriving DecidableEq, Repr, Inhabited

namespace Element

/-- The element of a shape with the given components; missing ones are zero. -/
def ofComponents (shape : Shape) (components : List Double) : Element :=
  let at' (index : Nat) : Single := (components[index]?.getD Double.zero).toSingle
  match shape with
  | .int => .int (components[0]?.getD Double.zero).toInt32
  | .float => .float (at' 0)
  | .vec2 => .vec2 (at' 0) (at' 1)
  | .vec3 | .color => .vec3 (at' 0) (at' 1) (at' 2)
  | .vec4 => .vec4 (at' 0) (at' 1) (at' 2) (at' 3)

def zero (shape : Shape) : Element := ofComponents shape []

def fits : Element → Shape → Bool
  | .int _, .int => true
  | .float _, .float => true
  | .vec2 .., .vec2 => true
  | .vec3 .., .vec3 => true
  | .vec3 .., .color => true
  | .vec4 .., .vec4 => true
  | _, _ => false

/-- The element as a shape wants it. Only an integer given for a float is converted. -/
def coerce? (element : Element) (shape : Shape) : Option Element :=
  match element, shape with
  | .int value, .float => some (.float (.ofInt value.toInt))
  | element, shape => if element.fits shape then some element else none

/-- The components as single precision numbers; an integer has none. -/
def floats : Element → List Single
  | .int _ => []
  | .float x => [x]
  | .vec2 x y => [x, y]
  | .vec3 x y z => [x, y, z]
  | .vec4 x y z w => [x, y, z, w]

/-- Equality of the numbers held, under which the two zeros agree. -/
def sameNumbers : Element → Element → Bool
  | .int a, .int b => a == b
  | .float a, .float b => a.sameNumber b
  | .vec2 a b, .vec2 c d => a.sameNumber c && b.sameNumber d
  | .vec3 a b c, .vec3 d e f => a.sameNumber d && b.sameNumber e && c.sameNumber f
  | .vec4 a b c d, .vec4 e f g h =>
    a.sameNumber e && b.sameNumber f && c.sameNumber g && d.sameNumber h
  | _, _ => false

end Element

/-- A parameter's value. Arrays of arrays can be written down, but fit no definition. -/
inductive Value
  | element (element : Element)
  | array (elements : List Value)
deriving Repr, Inhabited

namespace Value

def zero (shape : Shape) : Value := .element (.zero shape)

def ofComponents (shape : Shape) (components : List Double) : Value :=
  .element (.ofComponents shape components)

def elementFits (value : Value) (shape : Shape) : Bool :=
  match value with
  | .element e => e.fits shape
  | .array _ => false

/-- Whether a value has the shape of a definition; an array has exactly its length. -/
def fits (value : Value) (shape : Shape) (length : Option Nat) : Bool :=
  match value, length with
  | .element e, none => e.fits shape
  | .array elements, some length =>
    elements.length == length && elements.all (·.elementFits shape)
  | _, _ => false

def coerceElement? (value : Value) (shape : Shape) : Option Value :=
  match value with
  | .element e => (e.coerce? shape).map .element
  | .array _ => none

def asArray? : Value → Option (List Value)
  | .element _ => none
  | .array elements => some elements

mutual

def sameNumbers : Value → Value → Bool
  | .element a, .element b => a.sameNumbers b
  | .array as, .array bs => sameNumbersList as bs
  | _, _ => false

def sameNumbersList : List Value → List Value → Bool
  | [], [] => true
  | a :: as, b :: bs => sameNumbers a b && sameNumbersList as bs
  | _, _ => false

end

end Value

end LiveFragment.Parameter
