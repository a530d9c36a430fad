import LiveFragment.Directive.Item
import LiveFragment.Directive.Line
import LiveFragment.Parameter.Definition

namespace LiveFragment.Directive

open LiveFragment.Number LiveFragment.Text LiveFragment.Parameter

def paramKeyword : String := "@param"

/-- The longest array a parameter may be declared as. -/
def maxArrayLength : Nat := 1024

/-- What the items of a directive have spelled so far. -/
structure Spelling where
  initial : Option Value
  elements : Option (List Value)
  range : Option (Single × Single)
deriving Repr, Inhabited

namespace Spelling

def none : Spelling := ⟨.none, .none, .none⟩

/-- One value for each item of a list of defaults; a nested list inside one counts as empty. -/
def elementValues (shape : Shape) (items : List Item) : List Value :=
  items.map fun item =>
    match item with
    | .number value => .ofComponents shape [value]
    | .group inner => .ofComponents shape ((Item.numbers? inner).getD [])

/-- Reads one item. The first default, the first list of defaults and the first range count. A
flat group with one number for each component is the default while there is none; after that, or
when it has another length, two numbers are the range. -/
def read (shape : Shape) (isArray : Bool) (spelling : Spelling) (item : Item) : Spelling :=
  match item with
  | .number value =>
    if shape.components = 1 ∧ spelling.initial.isNone then
      { spelling with initial := some (.ofComponents shape [value]) }
    else spelling
  | .group inner =>
    match Item.numbers? inner with
    | some numbers =>
      if spelling.initial.isNone ∧ spelling.elements.isNone ∧
          numbers.length = shape.components then
        { spelling with initial := some (.ofComponents shape numbers) }
      else
        match spelling.range, numbers with
        | .none, [low, high] => { spelling with range := some (low.toSingle, high.toSingle) }
        | _, _ => spelling
    | .none =>
      if isArray ∧ spelling.elements.isNone then
        { spelling with elements := some (elementValues shape inner) }
      else spelling

/-- The initial value: for an array, the listed elements and then copies of the default. -/
def value (spelling : Spelling) (shape : Shape) (length : Option Nat) : Value :=
  let filler := spelling.initial.getD (.zero shape)
  match length with
  | .none => filler
  | some length =>
    let listed := (spelling.elements.getD []).take length
    .array (listed ++ List.replicate (length - listed.length) filler)

end Spelling

/-- A type word: a shape, or a shape and an array length in brackets. -/
def shape? (word : List Char) : Option (Shape × Option Nat) :=
  match cutAt? (· == '[') word with
  | none => (Shape.ofKeyword? (String.ofList word)).map (·, none)
  | some (keyword, subscript) => do
    let digits ← ([']'] : List Char).isSuffixOf? subscript
    let length ← index? (trim digits)
    if length = 0 ∨ maxArrayLength < length then none
    else (Shape.ofKeyword? (String.ofList keyword)).map (·, some length)

/-- The definition that a line declares, if it is a well-formed parameter directive. -/
def definition? (line : List Char) : Option Definition := do
  let body ← body? paramKeyword.toList line
  let (body, description) := takeDescription body
  let (name, rest) ← nextWord? body
  if !isIdentifier name then none
  else
    let (word, rest) ← nextWord? rest
    let (shape, length) ← shape? word
    let items ← items? rest
    let spelling := items.foldl (Spelling.read shape length.isSome) .none
    some {
      name := String.ofList name
      shape := shape
      length := length
      initial := spelling.value shape length
      min := spelling.range.map (·.1)
      max := spelling.range.map (·.2)
      description := String.ofList (description.getD []) }

end LiveFragment.Directive
