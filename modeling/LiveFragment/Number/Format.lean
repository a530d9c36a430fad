namespace LiveFragment.Number

/-- A binary interchange format, given by the widths of its fraction and exponent fields. -/
structure Format where
  fractionBits : Nat
  exponentBits : Nat
deriving DecidableEq, Repr

/-- What a bit pattern stands for. A finite pattern is `mantissa * 2 ^ exponent`. -/
inductive Reading
  | nan
  | infinite (negative : Bool)
  | finite (negative : Bool) (mantissa : Nat) (exponent : Int)
deriving DecidableEq, Repr

/-- A quotient rounded to the nearest whole number, a half going to the even one. -/
def divideToEven (numerator denominator : Nat) : Nat :=
  let quotient := numerator / denominator
  let doubled := 2 * (numerator % denominator)
  if doubled < denominator then quotient
  else if denominator < doubled then quotient + 1
  else quotient + quotient % 2

/-- The exponent of the leading bit of a positive fraction. -/
def leadingExponent (numerator denominator : Nat) : Int :=
  let guess : Int := (numerator.log2 : Int) - denominator.log2
  if numerator * Nat.pow 2 (-guess).toNat < denominator * Nat.pow 2 guess.toNat then guess - 1
  else guess

namespace Format

def single : Format := ⟨23, 8⟩

def double : Format := ⟨52, 11⟩

/-- The exponent of the least positive value; every finite value is a multiple of it. -/
def lowest (format : Format) : Int :=
  2 - Nat.pow 2 (format.exponentBits - 1) - format.fractionBits

/-- The pattern of positive infinity; all larger magnitudes are not numbers. -/
def infinity (format : Format) : Nat :=
  (Nat.pow 2 format.exponentBits - 1) * Nat.pow 2 format.fractionBits

def signBit (format : Format) : Nat :=
  Nat.pow 2 (format.fractionBits + format.exponentBits)

/-- The one pattern this library writes for "not a number". -/
def quietNaN (format : Format) : Nat :=
  format.infinity + Nat.pow 2 (format.fractionBits - 1)

def signed (format : Format) (negative : Bool) (magnitude : Nat) : Nat :=
  if negative then format.signBit + magnitude else magnitude

def decode (format : Format) (pattern : Nat) : Reading :=
  let negative := decide (format.signBit ≤ pattern)
  let magnitude := pattern % format.signBit
  let level := magnitude / Nat.pow 2 format.fractionBits
  let fraction := magnitude % Nat.pow 2 format.fractionBits
  if format.infinity < magnitude then .nan
  else if magnitude = format.infinity then .infinite negative
  else if level = 0 then .finite negative fraction format.lowest
  else
    .finite negative (Nat.pow 2 format.fractionBits + fraction) (format.lowest + (level - 1 : Nat))

/-- The exponent of the last place kept when a positive fraction is rounded to the format. -/
def unitExponent (format : Format) (numerator denominator : Nat) : Int :=
  max (leadingExponent numerator denominator - format.fractionBits) format.lowest

/-- The pattern nearest to a fraction. A mantissa that rounds up past its field carries into the
exponent field, which is the next larger value; past the largest finite value it is infinity. -/
def nearest (format : Format) (numerator denominator : Nat) : Nat :=
  if numerator = 0 then 0
  else
    let unit := format.unitExponent numerator denominator
    let mantissa :=
      divideToEven (numerator * Nat.pow 2 (-unit).toNat) (denominator * Nat.pow 2 unit.toNat)
    min ((unit - format.lowest).toNat * Nat.pow 2 format.fractionBits + mantissa) format.infinity

/-- The magnitude of a finite pattern as a fraction of naturals. -/
def fraction (format : Format) (pattern : Nat) : Nat × Nat :=
  match format.decode pattern with
  | .finite _ mantissa exponent =>
    (mantissa * Nat.pow 2 exponent.toNat, Nat.pow 2 (-exponent).toNat)
  | _ => (0, 1)

/-- The pattern of `other` nearest to a pattern of `format`. -/
def convert (format other : Format) (pattern : Nat) : Nat :=
  match format.decode pattern with
  | .nan => other.quietNaN
  | .infinite negative => other.signed negative other.infinity
  | .finite negative mantissa exponent =>
    other.signed negative
      (other.nearest (mantissa * Nat.pow 2 exponent.toNat) (Nat.pow 2 (-exponent).toNat))

end Format

/-- A decimal magnitude, `digits * 10 ^ exponent`. -/
structure Decimal where
  digits : Nat
  exponent : Int
deriving DecidableEq, Repr

/-- The pattern nearest to a decimal. Magnitudes far outside every format are settled from the
exponent alone, so that no power of ten is larger than the literal that asked for it. -/
def Format.ofDecimal (format : Format) (decimal : Decimal) : Nat :=
  if decimal.digits = 0 then 0
  else if 400 < decimal.exponent then format.infinity
  else if (decimal.digits.log2 : Int) < 3 * (-decimal.exponent - 400) then 0
  else
    format.nearest (decimal.digits * Nat.pow 10 decimal.exponent.toNat)
      (Nat.pow 10 (-decimal.exponent).toNat)

end LiveFragment.Number
