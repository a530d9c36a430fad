import LiveFragment.Number.Format

namespace LiveFragment.Number

/-- A single precision number. -/
structure Single where
  bits : UInt32
deriving DecidableEq, Repr, Inhabited

/-- A double precision number. -/
structure Double where
  bits : UInt64
deriving DecidableEq, Repr, Inhabited

namespace Single

def ofPattern (pattern : Nat) : Single := ⟨UInt32.ofNat pattern⟩

def zero : Single := ⟨0⟩

def one : Single := ⟨0x3f800000⟩

def reading (x : Single) : Reading := Format.single.decode x.bits.toNat

def isNaN (x : Single) : Bool := x.reading == .nan

def isFinite (x : Single) : Bool :=
  match x.reading with
  | .finite .. => true
  | _ => false

def isZero (x : Single) : Bool := x.bits.toNat % Format.single.signBit == 0

/-- Less than zero; false for both zeros and for "not a number". -/
def isNegative (x : Single) : Bool :=
  !x.isNaN && !x.isZero && decide (Format.single.signBit ≤ x.bits.toNat)

def sameNumber (x y : Single) : Bool :=
  !x.isNaN && !y.isNaN && (x == y || (x.isZero && y.isZero))

/-- The single precision number nearest to a natural. -/
def ofNat (n : Nat) : Single := ofPattern (Format.single.nearest n 1)

/-- The single precision number nearest to an integer. -/
def ofInt (i : Int) : Single :=
  ofPattern (Format.single.signed (decide (i < 0)) (Format.single.nearest i.natAbs 1))

def ofDecimal (negative : Bool) (decimal : Decimal) : Single :=
  ofPattern (Format.single.signed negative (Format.single.ofDecimal decimal))

def ofFloat32 (x : Float32) : Single := ⟨x.toBits⟩

def toFloat32 (x : Single) : Float32 := Float32.ofBits x.bits

/-- Applies single precision arithmetic. -/
def map₂ (f : Float32 → Float32 → Float32) (x y : Single) : Single :=
  ofFloat32 (f x.toFloat32 y.toFloat32)

/-- Comparison of numbers; false when one of them is "not a number". -/
def less (x y : Single) : Bool := x.toFloat32 < y.toFloat32

instance : Add Single := ⟨map₂ (· + ·)⟩
instance : Sub Single := ⟨map₂ (· - ·)⟩
instance : Mul Single := ⟨map₂ (· * ·)⟩
instance : Div Single := ⟨map₂ (· / ·)⟩

end Single

namespace Double

def ofPattern (pattern : Nat) : Double := ⟨UInt64.ofNat pattern⟩

def zero : Double := ⟨0⟩

def reading (x : Double) : Reading := Format.double.decode x.bits.toNat

def isNaN (x : Double) : Bool := x.reading == .nan

def isFinite (x : Double) : Bool :=
  match x.reading with
  | .finite .. => true
  | _ => false

def isZero (x : Double) : Bool := x.bits.toNat % Format.double.signBit == 0

/-- The sign bit, also of a zero. -/
def signBit (x : Double) : Bool := decide (Format.double.signBit ≤ x.bits.toNat)

def ofNat (n : Nat) : Double := ofPattern (Format.double.nearest n 1)

def ofDecimal (negative : Bool) (decimal : Decimal) : Double :=
  ofPattern (Format.double.signed negative (Format.double.ofDecimal decimal))

def ofFloat (x : Float) : Double := ⟨x.toBits⟩

def toFloat (x : Double) : Float := Float.ofBits x.bits

def map₂ (f : Float → Float → Float) (x y : Double) : Double :=
  ofFloat (f x.toFloat y.toFloat)

instance : Add Double := ⟨map₂ (· + ·)⟩
instance : Mul Double := ⟨map₂ (· * ·)⟩
instance : Div Double := ⟨map₂ (· / ·)⟩

/-- The single precision number nearest to a double; too large becomes infinite. -/
def toSingle (x : Double) : Single :=
  .ofPattern (Format.double.convert .single x.bits.toNat)

/-- The larger of a number and zero; "not a number" gives zero. -/
def clampNegative (x : Double) : Double :=
  if x.isNaN || x.signBit then zero else x

/-- The whole part of a number, cut to 32 bits; "not a number" is zero. -/
def toInt32 (x : Double) : Int32 :=
  match x.reading with
  | .nan => 0
  | .infinite negative => if negative then Int32.minValue else Int32.maxValue
  | .finite negative mantissa exponent =>
    let whole : Nat := mantissa * Nat.pow 2 exponent.toNat / Nat.pow 2 (-exponent).toNat
    if negative then
      if 0x80000000 ≤ whole then Int32.minValue else Int32.ofInt (-whole)
    else if 0x80000000 ≤ whole then Int32.maxValue else Int32.ofNat whole

end Double

/-- The same number in double precision. -/
def Single.toDouble (x : Single) : Double :=
  .ofPattern (Format.single.convert .double x.bits.toNat)

end LiveFragment.Number
