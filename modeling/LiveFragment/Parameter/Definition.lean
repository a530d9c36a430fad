import LiveFragment.Parameter.Value

namespace LiveFragment.Parameter

open LiveFragment.Number

/-- One declared parameter. An array has a length, anything else has none. -/
structure Definition where
  name : String
  shape : Shape
  length : Option Nat
  initial : Value
  min : Option Single
  max : Option Single
  description : String
deriving Repr

namespace Definition

/-- The member written into the program's parameter block. -/
def declaration (definition : Definition) : String :=
  let subscript :=
    match definition.length with
    | none => ""
    | some length => "[" ++ toString length ++ "]"
  definition.shape.programType ++ " " ++ definition.name ++ subscript ++ ";"

def isArray (definition : Definition) : Bool := definition.length.isSome

/-- The number of elements, one for anything that is not an array. -/
def count (definition : Definition) : Nat := definition.length.getD 1

/-- The shape with its subscript, as messages name it. -/
def shapeText (definition : Definition) : String :=
  match definition.length with
  | none => definition.shape.keyword
  | some length => definition.shape.keyword ++ "[" ++ toString length ++ "]"

private def sameBound : Option Single → Option Single → Bool
  | none, none => true
  | some a, some b => a.sameNumber b
  | _, _ => false

/-- Whether two definitions agree in every field, numbers being compared as numbers. -/
def agrees (left right : Definition) : Bool :=
  left.name == right.name && left.shape == right.shape && left.length == right.length &&
    left.initial.sameNumbers right.initial && sameBound left.min right.min &&
    sameBound left.max right.max && left.description == right.description

/-- Whether two lists of definitions agree one by one. -/
def agreeAll : List Definition → List Definition → Bool
  | [], [] => true
  | a :: as, b :: bs => a.agrees b && agreeAll as bs
  | _, _ => false

end Definition

/-- Values by name, in the order of the names. -/
structure Valuation where
  entries : List (String × Value)
deriving Repr, Inhabited

namespace Valuation

def empty : Valuation := ⟨[]⟩

def find? (valuation : Valuation) (name : String) : Option Value :=
  valuation.entries.lookup name

/-- Puts an entry at its place among sorted entries, over an entry of the same name. -/
def insertEntry (name : String) (value : Value) :
    List (String × Value) → List (String × Value)
  | [] => [(name, value)]
  | (other, held) :: rest =>
    if name = other then (name, value) :: rest
    else if name < other then (name, value) :: (other, held) :: rest
    else (other, held) :: insertEntry name value rest

def insert (valuation : Valuation) (name : String) (value : Value) : Valuation :=
  ⟨insertEntry name value valuation.entries⟩

/-- The initial value of every definition. -/
def initial (definitions : List Definition) : Valuation :=
  definitions.foldl (fun valuation d => valuation.insert d.name d.initial) empty

end Valuation

end LiveFragment.Parameter
