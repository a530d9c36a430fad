import LiveFragment.Number.Shortest
import LiveFragment.Number.Single

namespace LiveFragment.Number

/-- How a finite number is laid out. -/
structure Style where
  /-- Decimal exponents written without an exponent field; all of them when absent. -/
  positional : Option (Int × Int)
  /-- A whole number written positionally ends in a point and a zero. -/
  pointed : Bool
deriving DecidableEq, Repr

namespace Style

/-- Numbers in messages: digits and a point only where one is needed. -/
def message : Style := ⟨none, false⟩

/-- Numbers in configuration files: always with a point, never with an exponent. -/
def file : Style := ⟨none, true⟩

/-- Numbers in reports: an exponent below a millionth and from ten million millions on. -/
def report : Style := ⟨some (-6, 12), true⟩

def zeros (count : Nat) : String := String.ofList (List.replicate count '0')

/-- Digits with the point after the first `whole` of them; zeros fill what is missing. -/
def placePoint (pointed : Bool) (digits : List Char) (whole : Int) : String :=
  if whole ≤ 0 then "0." ++ zeros (-whole).toNat ++ String.ofList digits
  else if digits.length ≤ whole.toNat then
    String.ofList digits ++ zeros (whole.toNat - digits.length) ++ (if pointed then ".0" else "")
  else
    String.ofList (digits.take whole.toNat) ++ "." ++ String.ofList (digits.drop whole.toNat)

def exponentField (exponent : Int) : String :=
  if exponent < 0 then "e-" ++ toString exponent.natAbs else "e+" ++ toString exponent.natAbs

/-- A decimal magnitude in a style; zero is one digit. -/
def magnitude (style : Style) (decimal : Decimal) : String :=
  let digits := Nat.toDigits 10 decimal.digits
  let leading : Int := if decimal.digits = 0 then 0 else decimal.exponent + digits.length - 1
  let positional :=
    match style.positional with
    | none => true
    | some (low, high) => decide (decimal.digits = 0 ∨ (low ≤ leading ∧ leading ≤ high))
  if positional then placePoint style.pointed digits (leading + 1)
  else
    match digits with
    | [d] => String.ofList [d] ++ exponentField leading
    | d :: rest => String.ofList [d] ++ "." ++ String.ofList rest ++ exponentField leading
    | [] => ""

def write (style : Style) (format : Format) (reading : Reading) : String :=
  let sign (negative : Bool) := if negative then "-" else ""
  match reading with
  | .nan => "NaN"
  | .infinite negative => sign negative ++ "inf"
  | .finite negative mantissa exponent =>
    sign negative ++
      style.magnitude (if mantissa = 0 then ⟨0, 0⟩ else format.shortest mantissa exponent)

end Style

def Single.write (style : Style) (x : Single) : String := style.write .single x.reading

def Double.write (style : Style) (x : Double) : String := style.write .double x.reading

end LiveFragment.Number
