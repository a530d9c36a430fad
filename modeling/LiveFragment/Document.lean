import LiveFragment.Number.Literal
import LiveFragment.Number.Shortest

namespace LiveFragment

open LiveFragment.Number

inductive Document
  | null
  | boolean (value : Bool)
  | integer (value : Int)
  | real (literal : Literal)
  | text (content : String)
  /-- A text with a half of a character pair. It can be passed over but not read. -/
  | garbled
  /-- A date or a time of day. -/
  | moment
  | list (items : List Document)
  | table (fields : List (String × Document))
  /-- Stands where the text could not be read on; nothing follows it. -/
  | unreadable
deriving Inhabited

namespace Document

/-- Where a document comes from. Formats differ in what they refuse, and JSON that was held back
until the field that explains it was read has lost the precision its numbers are meant for. -/
inductive Origin
  | json
  | held
  | toml
deriving DecidableEq, Repr

mutual

/-- Whether the text of a document was read to its end. -/
def isReadable : Document → Bool
  | .unreadable => false
  | .list items => areReadable items
  | .table fields => fieldsReadable fields
  | _ => true

def areReadable : List Document → Bool
  | [] => true
  | item :: rest => item.isReadable && areReadable rest

def fieldsReadable : List (String × Document) → Bool
  | [] => true
  | (_, item) :: rest => item.isReadable && fieldsReadable rest

end

mutual

/-- Whether a document of JSON can be held back: its numbers fit into double precision and its texts
can be read. -/
def isHoldable : Document → Bool
  | .unreadable | .garbled => false
  | .real literal => literal.toDouble.isFinite
  | .list items => areHoldable items
  | .table fields => fieldsHoldable fields
  | _ => true

def areHoldable : List Document → Bool
  | [] => true
  | item :: rest => item.isHoldable && areHoldable rest

def fieldsHoldable : List (String × Document) → Bool
  | [] => true
  | (_, item) :: rest => item.isHoldable && fieldsHoldable rest

end

/-- A whole number between two bounds. -/
def integerWithin? (lower upper : Int) : Document → Option Int
  | .integer value => if lower ≤ value ∧ value ≤ upper then some value else none
  | _ => none

/-- A whole number that a word of the given width holds. -/
def wordOf? (bits : Nat) (document : Document) : Option Nat :=
  (document.integerWithin? 0 (Nat.pow 2 bits - 1 : Nat)).map Int.toNat

/-- A number in single precision. A number of a JSON text is rounded once and is not too large for
that precision; other numbers are rounded by way of double precision, unless they are whole. -/
def single? (origin : Origin) : Document → Option Single
  | .integer value => some (.ofInt value)
  | .real literal =>
    if origin = .json then some literal.toSingle |>.filter Single.isFinite
    else some literal.toDouble.toSingle
  | _ => none

/-- A number as a document writes it: the shortest decimal that reads back in its format. -/
def ofReading (format : Format) : Reading → Document
  | .nan => .real .nan
  | .infinite negative => .real (.infinite negative)
  | .finite negative mantissa exponent =>
    .real (.decimal negative (if mantissa = 0 then ⟨0, 0⟩ else format.shortest mantissa exponent))

def ofSingle (x : Single) : Document := ofReading .single x.reading

def ofDouble (x : Double) : Document := ofReading .double x.reading

/-- A word out of a list of words: its text, or a table of one field with that name and nothing
under it. -/
def word? {α : Type} (origin : Origin) (read : String → Option α) : Document → Option α
  | .text content => read content
  | .table [(name, .null)] => if origin = .toml then none else read name
  | .table [(name, .list [])] => if origin = .toml then read name else none
  | .table [(name, .table [])] => if origin = .toml then read name else none
  | _ => none

end Document

end LiveFragment
