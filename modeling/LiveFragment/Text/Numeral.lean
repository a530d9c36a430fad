namespace LiveFragment.Text

def isDigit (c : Char) : Bool := '0' ≤ c && c ≤ '9'

def digitValue (c : Char) : Nat := c.toNat - '0'.toNat

/-- The number that digits spell; only meant for digits. -/
def digitsValue (digits : List Char) : Nat :=
  digits.foldl (fun value c => 10 * value + digitValue c) 0

/-- One or more digits and nothing else. -/
def digits? (text : List Char) : Option Nat :=
  if text ≠ [] ∧ text.all isDigit then some (digitsValue text) else none

/-- A natural number, with an optional plus sign, below a limit. -/
def naturalBelow? (limit : Nat) (text : List Char) : Option Nat :=
  let digits :=
    match text with
    | '+' :: rest => rest
    | _ => text
  (digits? digits).filter (· < limit)

/-- A number that counts or indexes something in memory: below `2 ^ 64`. -/
def index? (text : List Char) : Option Nat := naturalBelow? UInt64.size text

/-- A number with an optional sign, between two bounds. -/
def integerWithin? (lower upper : Int) (text : List Char) : Option Int :=
  let value : Option Int :=
    match text with
    | '-' :: rest => (digits? rest).map fun n => -(n : Int)
    | '+' :: rest => (digits? rest).map Int.ofNat
    | _ => (digits? text).map Int.ofNat
  value.filter fun i => decide (lower ≤ i ∧ i ≤ upper)

end LiveFragment.Text
