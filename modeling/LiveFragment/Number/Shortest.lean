import LiveFragment.Number.Format

/-! The shortest decimal that reads back as a given binary value. The reals that round to a value
form an interval around it; the answer is the first decimal grid, from coarse to fine, on which a
neighbour of the value lies in that interval, and of two such neighbours the nearer one. -/

namespace LiveFragment.Number

/-- A fraction of naturals. -/
structure Fraction where
  numerator : Nat
  denominator : Nat
deriving DecidableEq, Repr

namespace Fraction

/-- `mantissa * base ^ exponent` as a fraction. -/
def scaled (mantissa base : Nat) (exponent : Int) : Fraction :=
  ⟨mantissa * base.pow exponent.toNat, base.pow (-exponent).toNat⟩

def lt (left right : Fraction) : Bool :=
  left.numerator * right.denominator < right.numerator * left.denominator

def le (left right : Fraction) : Bool :=
  left.numerator * right.denominator ≤ right.numerator * left.denominator

/-- The decimal exponent of the leading digit of a positive fraction. -/
def leadingDigit (value : Fraction) : Int :=
  let guess : Int :=
    ((Nat.toDigits 10 value.numerator).length : Int) - (Nat.toDigits 10 value.denominator).length
  if (scaled 1 10 guess).le value then guess else guess - 1

end Fraction

/-- The reals that round to one value, with the value itself. The ends belong to it exactly when
the mantissa is even. -/
structure RoundingInterval where
  lower : Fraction
  value : Fraction
  upper : Fraction
  closed : Bool
deriving DecidableEq, Repr

namespace RoundingInterval

/-- Below a power of two the next smaller value is only half a unit away. -/
def ofFinite (format : Format) (mantissa : Nat) (exponent : Int) : RoundingInterval :=
  let below :=
    if mantissa = Nat.pow 2 format.fractionBits ∧ format.lowest < exponent then 1 else 2
  { lower := .scaled (4 * mantissa - below) 2 (exponent - 2)
    value := .scaled (4 * mantissa) 2 (exponent - 2)
    upper := .scaled (4 * mantissa + 2) 2 (exponent - 2)
    closed := mantissa % 2 = 0 }

def contains (interval : RoundingInterval) (point : Fraction) : Bool :=
  if interval.closed then interval.lower.le point && point.le interval.upper
  else interval.lower.lt point && point.lt interval.upper

/-- The better neighbour of the value among the multiples of `10 ^ exponent`, if one of the two
lies in the interval. -/
def onGrid (interval : RoundingInterval) (exponent : Int) : Option Decimal :=
  let value := interval.value
  let unit := Fraction.scaled 1 10 exponent
  let numerator := value.numerator * unit.denominator
  let denominator := value.denominator * unit.numerator
  let down := numerator / denominator
  let point (digits : Nat) := Fraction.scaled digits 10 exponent
  let lowHit := 0 < down && interval.contains (point down)
  let highHit := interval.contains (point (down + 1))
  let doubled := 2 * (numerator % denominator)
  if lowHit && highHit then
    if doubled < denominator || (doubled = denominator && down % 2 = 0) then some ⟨down, exponent⟩
    else some ⟨down + 1, exponent⟩
  else if lowHit then some ⟨down, exponent⟩
  else if highHit then some ⟨down + 1, exponent⟩
  else none

end RoundingInterval

/-- Moves trailing zeros of the digits into the exponent. -/
def Decimal.trim (decimal : Decimal) : Decimal :=
  if h : decimal.digits ≠ 0 ∧ decimal.digits % 10 = 0 then
    Decimal.trim ⟨decimal.digits / 10, decimal.exponent + 1⟩
  else decimal
termination_by decimal.digits
decreasing_by omega

/-- The shortest decimal that rounds to `mantissa * 2 ^ exponent`; seventeen digits always do. -/
def Format.shortest (format : Format) (mantissa : Nat) (exponent : Int) : Decimal :=
  let interval := RoundingInterval.ofFinite format mantissa exponent
  let leading := interval.value.leadingDigit
  let grids := (List.range 17).map fun (extra : Nat) => leading - (extra : Int)
  ((grids.findSome? interval.onGrid).getD ⟨0, 0⟩).trim

end LiveFragment.Number
