import LiveFragment.Json.Token

/-! Reading JSON. A machine takes the tokens one by one and keeps the lists and tables that are
still open. Where a token does not fit, it closes everything around a mark for the unreadable rest,
so that whoever reads the document in order meets what was wrong with it in the order of the
text. -/

namespace LiveFragment.Json

/-- An open list or table, its parts in reverse. A table is open at the value of a field. -/
inductive Frame
  | list (items : List Document)
  | table (fields : List (String × Document)) (key : String)
deriving Inhabited

/-- What the next token may be. -/
inductive Expecting
  | value
  /-- The first item of a list, or its end. -/
  | item
  /-- The first key of a table, or its end. -/
  | field (fields : List (String × Document))
  /-- A key after a comma. -/
  | key (fields : List (String × Document))
  | colon (fields : List (String × Document)) (key : String)
  /-- Whatever follows a value. -/
  | after (document : Document)
deriving Inhabited

namespace Frame

/-- The list or table with a last part. -/
def close (document : Document) : Frame → Document
  | .list items => .list (document :: items).reverse
  | .table fields key => .table ((key, document) :: fields).reverse

/-- Closes all frames around a document, innermost first. -/
def closeAll (document : Document) (frames : List Frame) : Document :=
  frames.foldl (fun inner frame => frame.close inner) document

end Frame

/-- The document of a text that breaks off. What is complete stays; the mark for the rest stands
behind it. -/
def breakOff (expecting : Expecting) (frames : List Frame) : Document :=
  match expecting, frames with
  | .value, frames | .item, frames => Frame.closeAll .unreadable frames
  | .field fields, frames | .key fields, frames | .colon fields _, frames =>
    Frame.closeAll (.table (("", .unreadable) :: fields).reverse) frames
  | .after document, [] => document
  | .after document, .list items :: frames =>
    Frame.closeAll (.list (.unreadable :: document :: items).reverse) frames
  | .after document, .table fields key :: frames =>
    Frame.closeAll (.table (("", .unreadable) :: (key, document) :: fields).reverse) frames

/-- Builds the document of a list of tokens, and says whether it is all that the text holds. -/
def build : List Token → Expecting → List Frame → Document × Bool
  | [], .after document, [] => (document, true)
  | .openList :: rest, .value, frames | .openList :: rest, .item, frames =>
    build rest .item (.list [] :: frames)
  | .openTable :: rest, .value, frames | .openTable :: rest, .item, frames =>
    build rest (.field []) frames
  | .leaf document :: rest, .value, frames | .leaf document :: rest, .item, frames =>
    build rest (.after document) frames
  | .closeList :: rest, .item, .list items :: frames =>
    build rest (.after (.list items.reverse)) frames
  | .closeTable :: rest, .field fields, frames =>
    build rest (.after (.table fields.reverse)) frames
  | .leaf (.text key) :: rest, .field fields, frames
  | .leaf (.text key) :: rest, .key fields, frames => build rest (.colon fields key) frames
  | .colon :: rest, .colon fields key, frames =>
    build rest .value (.table fields key :: frames)
  | .comma :: rest, .after document, .list items :: frames =>
    build rest .value (.list (document :: items) :: frames)
  | .comma :: rest, .after document, .table fields key :: frames =>
    build rest (.key ((key, document) :: fields)) frames
  | .closeList :: rest, .after document, .list items :: frames =>
    build rest (.after (.list (document :: items).reverse)) frames
  | .closeTable :: rest, .after document, .table fields key :: frames =>
    build rest (.after (.table ((key, document) :: fields).reverse)) frames
  | _, expecting, frames => (breakOff expecting frames, false)

/-- The document of a text, and whether the text holds nothing else. -/
def read (text : String) : Document × Bool := build (tokens text.toList) .value []

end LiveFragment.Json
