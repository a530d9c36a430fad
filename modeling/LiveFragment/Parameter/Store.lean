import LiveFragment.Parameter.Definition

namespace LiveFragment.Parameter

/-- Why a write was rejected. -/
inductive WriteError
  | unknown (name : String)
  | indexOutOfRange (name : String) (index count : Nat)
  | shapeMismatch (name expected : String)
deriving DecidableEq, Repr

namespace WriteError

def text : WriteError → String
  | unknown name => "unknown parameter '" ++ name ++ "'"
  | indexOutOfRange name index count =>
    "index " ++ toString index ++ " out of range for parameter '" ++ name ++ "' with " ++
      toString count ++ " element(s)"
  | shapeMismatch name expected =>
    "value does not match the shape of parameter '" ++ name ++ "' (expected " ++ expected ++ ")"

end WriteError

structure Store where
  definitions : List Definition
  values : Valuation
deriving Repr, Inhabited

namespace Store

def empty : Store := ⟨[], .empty⟩

/-- All parameters at their initial values. -/
def ofDefinitions (definitions : List Definition) : Store := ⟨definitions, .initial definitions⟩

def definition? (store : Store) (name : String) : Option Definition :=
  store.definitions.find? (·.name == name)

/-- The elements that an array has now. -/
def elements (store : Store) (definition : Definition) : List Value :=
  ((store.values.find? definition.name).bind Value.asArray?).getD
    (List.replicate definition.count (.zero definition.shape))

/-- All elements as a shape wants them. -/
def coerceAll? (shape : Shape) (elements : List Value) : Option (List Value) :=
  elements.mapM fun element => element.coerceElement? shape

/-- The value that a parameter has after a write: an element of an array where an index is given,
else the whole value. Integers given for floats are converted. -/
def replacement? (store : Store) (definition : Definition) (index : Option Nat) (value : Value) :
    Option Value :=
  match definition.length, index with
  | some _, some index =>
    (value.coerceElement? definition.shape).map fun element =>
      .array ((store.elements definition).set index element)
  | some length, none =>
    match value with
    | .element _ => none
    | .array elements =>
      if elements.length = length then
        (coerceAll? definition.shape elements).map .array
      else none
  | none, _ => value.coerceElement? definition.shape

/-- Writes a parameter, or one element of an array. -/
def set (store : Store) (name : String) (index : Option Nat) (value : Value) :
    Except WriteError Store :=
  match store.definition? name with
  | none => .error (.unknown name)
  | some definition =>
    match index.filter (definition.count ≤ ·) with
    | some index => .error (.indexOutOfRange name index definition.count)
    | none =>
      match store.replacement? definition index value with
      | none => .error (.shapeMismatch name definition.shapeText)
      | some value => .ok { store with values := store.values.insert name value }

/-- Takes over the values of a store whose definitions agree. -/
def carryOver (store previous : Store) : Store :=
  if Definition.agreeAll previous.definitions store.definitions then
    { store with values := previous.values }
  else store

end Store

end LiveFragment.Parameter
