import LiveFragment.Number.Single
import LiveFragment.Text.Numeral

namespace LiveFragment.Number

open LiveFragment.Text

/-- What a literal spells, before any rounding. -/
inductive Literal
  | nan
  | infinite (negative : Bool)
  | decimal (negative : Bool) (magnitude : Decimal)
deriving DecidableEq, Repr

namespace Literal

/-- The sign of a text and what follows it. -/
def takeSign : List Char → Bool × List Char
  | '-' :: rest => (true, rest)
  | '+' :: rest => (false, rest)
  | text => (false, text)

/-- The exponent after the mantissa; a text that ends there has exponent zero. -/
def exponent? : List Char → Option Int
  | [] => some 0
  | c :: rest =>
    if c = 'e' ∨ c = 'E' then
      let (negative, digits) := takeSign rest
      (digits? digits).map fun n => if negative then -(n : Int) else n
    else none

/-- Digits with an optional point, then an optional exponent. -/
def magnitude? (text : List Char) : Option Decimal :=
  let (whole, rest) := text.span isDigit
  let (fraction, rest) :=
    match rest with
    | '.' :: rest => rest.span isDigit
    | rest => ([], rest)
  if whole = [] ∧ fraction = [] then none
  else (exponent? rest).map fun e => ⟨digitsValue (whole ++ fraction), e - fraction.length⟩

def ofChars? (text : List Char) : Option Literal :=
  let (negative, rest) := takeSign text
  let word := String.ofList (rest.map Char.toLower)
  if word = "inf" ∨ word = "infinity" then some (.infinite negative)
  else if word = "nan" then some .nan
  else (magnitude? rest).map (.decimal negative)

def toDouble : Literal → Double
  | .nan => .ofPattern Format.double.quietNaN
  | .infinite negative => .ofPattern (Format.double.signed negative Format.double.infinity)
  | .decimal negative magnitude => .ofDecimal negative magnitude

def toSingle : Literal → Single
  | .nan => .ofPattern Format.single.quietNaN
  | .infinite negative => .ofPattern (Format.single.signed negative Format.single.infinity)
  | .decimal negative magnitude => .ofDecimal negative magnitude

end Literal

/-- The double nearest to a literal, when it is finite. -/
def finiteDouble? (text : List Char) : Option Double :=
  ((Literal.ofChars? text).map Literal.toDouble).filter Double.isFinite

end LiveFragment.Number
