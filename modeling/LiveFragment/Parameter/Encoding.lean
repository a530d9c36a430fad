import LiveFragment.Json.Reader
import LiveFragment.Parameter.Definition

namespace LiveFragment

open LiveFragment.Number LiveFragment.Parameter

namespace Document

/-- The value of a field that a table has exactly once. -/
def fieldOnce? (name : String) (fields : List (String × Document)) : Option Document :=
  match fields.filter (·.1 == name) with
  | [(_, document)] => some document
  | _ => none

/-- A list of numbers in single precision. -/
def singles? (origin : Origin) : Document → Option (List Single)
  | .list items => items.mapM (single? origin)
  | _ => none

/-- A field that may be missing or null. -/
def optional? {α : Type} (read : Document → Option α) : Option Document → Option (Option α)
  | none | some .null => some none
  | some document => (read document).map some

def string? : Document → Option String
  | .text content => some content
  | _ => none

end Document

namespace Parameter

open Document

namespace Element

def typeName : Element → String
  | .int _ => "int"
  | .float _ => "float"
  | .vec2 .. => "vec2"
  | .vec3 .. => "vec3"
  | .vec4 .. => "vec4"

def content : Element → Document
  | .int value => .integer value.toInt
  | .float x => .ofSingle x
  | element => .list (element.floats.map .ofSingle)

/-- The element with a type name and a content. -/
def ofContent? (origin : Origin) (typeName : String) (content : Document) : Option Element :=
  if typeName = "int" then
    (content.integerWithin? (-0x80000000) 0x7fffffff).map fun value => .int (.ofInt value)
  else if typeName = "float" then (content.single? origin).map .float
  else
    match typeName, content.singles? origin with
    | "vec2", some [x, y] => some (.vec2 x y)
    | "vec3", some [x, y, z] => some (.vec3 x y z)
    | "vec4", some [x, y, z, w] => some (.vec4 x y z w)
    | _, _ => none

end Element

namespace Value

private def tagged (typeName : String) (content : Document) : Document :=
  .table [("type", .text typeName), ("value", content)]

mutual

def toDocument : Value → Document
  | .element held => tagged held.typeName held.content
  | .array elements => tagged "array" (.list (toDocuments elements))

def toDocuments : List Value → List Document
  | [] => []
  | value :: rest => toDocument value :: toDocuments rest

end

/-- The type name and the content of a value. Content that stands before its type is held back. -/
def parts? (origin : Origin) : Document → Option (String × Document × Origin)
  | .table fields =>
    if fieldsReadable fields then do
      let typeName ← (← fieldOnce? "type" fields).word? origin some
      let content ← fieldOnce? "value" fields
      let first? := fields.find? fun field => field.1 == "type" || field.1 == "value"
      if first?.any (·.1 == "type") then some (typeName, content, origin)
      else if content.isHoldable then some (typeName, content, .held)
      else none
    else none
  | .list [type, content] => (type.word? origin some).map (·, content, origin)
  | _ => none

/-- Reads a value that may hold only so many levels of lists and tables. -/
def withinLevels? : Nat → Origin → Document → Option Value
  | 0, _, _ => none
  | levels + 1, origin, document =>
    match parts? origin document with
    | some ("array", .list items, origin) =>
      match levels with
      | 0 => none
      | levels + 1 => (items.mapM (withinLevels? levels origin)).map .array
    | some (typeName, content, origin) =>
      match levels, content with
      | 0, .list _ => none
      | _, content => (Element.ofContent? origin typeName content).map .element
    | none => none

/-- The levels of lists and tables that a value may hold. -/
def maxLevels : Nat := 127

def ofDocument? (origin : Origin) (document : Document) : Option Value :=
  withinLevels? maxLevels origin document

/-- The value that a JSON text holds and nothing else. -/
def ofJson? (text : String) : Option Value :=
  match Json.read text with
  | (document, true) => ofDocument? .json document
  | (_, false) => none

end Value

namespace Definition

def toDocument (definition : Definition) : Document :=
  .table [
    ("name", .text definition.name),
    ("base_type", .text definition.shape.keyword),
    ("array_size", (definition.length.map fun n => Document.integer n).getD .null),
    ("default", definition.initial.toDocument),
    ("min", (definition.min.map Document.ofSingle).getD .null),
    ("max", (definition.max.map Document.ofSingle).getD .null),
    ("description", .text definition.description)]

def ofDocument? (origin : Origin) : Document → Option Definition
  | .table fields => do
    let name ← (← fieldOnce? "name" fields).string?
    let shape ← (← fieldOnce? "base_type" fields).word? origin Shape.ofKeyword?
    let length ← optional? (wordOf? 64) (fieldOnce? "array_size" fields)
    let initial ← Value.ofDocument? origin (← fieldOnce? "default" fields)
    let min ← optional? (single? origin) (fieldOnce? "min" fields)
    let max ← optional? (single? origin) (fieldOnce? "max" fields)
    let description ← (← fieldOnce? "description" fields).string?
    some ⟨name, shape, length, initial, min, max, description⟩
  | _ => none

end Definition

end Parameter

end LiveFragment
