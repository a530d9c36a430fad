import LiveFragment.Toml.Quoted

namespace LiveFragment.Toml

open LiveFragment.Number LiveFragment.Text

/-- Digits of a class, with single underscores between them, and what follows. -/
def digitRun (isMember : Char → Bool) : List Char → List Char × List Char
  | [] => ([], [])
  | '_' :: c :: rest =>
    if isMember c then
      let (digits, behind) := digitRun isMember rest
      (c :: digits, behind)
    else ([], '_' :: c :: rest)
  | c :: rest =>
    if isMember c then
      let (digits, behind) := digitRun isMember rest
      (c :: digits, behind)
    else ([], c :: rest)

/-- One or more digits; the first character is no underscore. -/
def run? (isMember : Char → Bool) (text : List Char) : Option (List Char × List Char) :=
  match text with
  | c :: _ => if isMember c then some (digitRun isMember text) else none
  | [] => none

def isDigitOf (base : Nat) (c : Char) : Bool :=
  match Json.hexValue? c with
  | some value => value < base
  | none => false

/-- The digits of a whole number. One that starts with zero has no other digit. -/
def wholePart? : List Char → Option (List Char × List Char)
  | '0' :: rest => some (['0'], rest)
  | text => run? isDigit text

/-- A whole number within the range of a word with a sign. -/
def signed? (value : Int) : Option Document :=
  if -0x8000000000000000 ≤ value ∧ value < 0x8000000000000000 then some (.integer value) else none

def based? (base : Nat) (text : List Char) : Option (Document × List Char) := do
  let (digits, rest) ← run? (isDigitOf base) text
  let value := digits.foldl (fun value c => base * value + (Json.hexValue? c).getD 0) 0
  some (← signed? value, rest)

def integer? : List Char → Option (Document × List Char)
  | '0' :: 'x' :: rest => based? 16 rest
  | '0' :: 'o' :: rest => based? 8 rest
  | '0' :: 'b' :: rest => based? 2 rest
  | text => do
    let (negative, rest) := Literal.takeSign text
    let (digits, rest) ← wholePart? rest
    let size : Int := digitsValue digits
    some (← signed? (if negative then -size else size), rest)

/-- A fraction: a point and digits. -/
def fraction? : List Char → Option (List Char × List Char)
  | '.' :: rest => run? isDigit rest
  | _ => none

def exponent? : List Char → Option (Int × List Char)
  | c :: rest =>
    if c = 'e' ∨ c = 'E' then do
      let (negative, rest) := Literal.takeSign rest
      let (digits, rest) ← run? isDigit rest
      let size : Int := digitsValue digits
      some (if negative then -size else size, rest)
    else none
  | [] => none

/-- Infinity and "not a number" by their names. -/
def named? (text : List Char) : Option (Document × List Char) :=
  let (negative, rest) := Literal.takeSign text
  match rest with
  | 'i' :: 'n' :: 'f' :: rest => some (.real (.infinite negative), rest)
  | 'n' :: 'a' :: 'n' :: rest => some (.real .nan, rest)
  | _ => none

/-- A number with a fraction or an exponent. A positive one may not round to infinity. -/
def real? (text : List Char) : Option (Document × List Char) := do
  let (negative, rest) := Literal.takeSign text
  let (whole, rest) ← wholePart? rest
  let (fraction, rest, given) :=
    match fraction? rest with
    | some (digits, behind) => (digits, behind, true)
    | none => ([], rest, false)
  let (exponent, rest, given) :=
    match exponent? rest with
    | some (exponent, behind) => (exponent, behind, true)
    | none => (0, rest, given)
  let literal :=
    Literal.decimal negative ⟨digitsValue (whole ++ fraction), exponent - fraction.length⟩
  if given ∧ (negative ∨ literal.toDouble.isFinite) then some (.real literal, rest) else none

/-- A number of exactly so many digits within bounds. -/
def fixed? (count lower upper : Nat) (text : List Char) : Option (Nat × List Char) := do
  let value ← digits? (text.take count)
  if (text.take count).length = count ∧ lower ≤ value ∧ value ≤ upper then
    some (value, text.drop count)
  else none

def expect? (c : Char) : List Char → Option (List Char)
  | first :: rest => if first = c then some rest else none
  | [] => none

def daysIn (year month : Nat) : Nat :=
  if month = 2 then
    if year % 4 = 0 ∧ (year % 100 ≠ 0 ∨ year % 400 = 0) then 29 else 28
  else if month = 4 ∨ month = 6 ∨ month = 9 ∨ month = 11 then 30
  else 31

def date? (text : List Char) : Option (List Char) := do
  let (year, rest) ← fixed? 4 0 9999 text
  let (month, rest) ← fixed? 2 1 12 (← expect? '-' rest)
  let (_, rest) ← fixed? 2 1 (daysIn year month) (← expect? '-' rest)
  some rest

/-- A time of day; a minute may end in a leap second. -/
def time? (text : List Char) : Option (List Char) := do
  let (_, rest) ← fixed? 2 0 23 text
  let (_, rest) ← fixed? 2 0 59 (← expect? ':' rest)
  let (_, rest) ← fixed? 2 0 60 (← expect? ':' rest)
  match rest with
  | '.' :: c :: after => if isDigit c then some (after.dropWhile isDigit) else some rest
  | _ => some rest

/-- The distance from universal time, when one follows. -/
def offset (text : List Char) : List Char :=
  let distance? (rest : List Char) : Option (List Char) := do
    let (_, rest) ← fixed? 2 0 23 rest
    let (_, rest) ← fixed? 2 0 59 (← expect? ':' rest)
    some rest
  match text with
  | c :: rest =>
    if c = 'Z' ∨ c = 'z' then rest
    else if c = '+' ∨ c = '-' then (distance? rest).getD text
    else text
  | [] => text

/-- A date, a time, or a date and a time. -/
def moment? (text : List Char) : Option (Document × List Char) :=
  match date? text with
  | none => (time? text).map (.moment, ·)
  | some behind =>
    match behind with
    | c :: rest =>
      if c = 'T' ∨ c = 't' ∨ c = ' ' then
        match time? rest with
        | some after => some (.moment, offset after)
        | none => some (.moment, behind)
      else some (.moment, behind)
    | [] => some (.moment, [])

/-- The value without parts that a text starts with. -/
def scalar : List Char → Option (Document × List Char)
  | 't' :: 'r' :: 'u' :: 'e' :: rest => some (.boolean true, rest)
  | 'f' :: 'a' :: 'l' :: 's' :: 'e' :: rest => some (.boolean false, rest)
  | text =>
    match quoted? text with
    | some (content, rest) => some (.text (String.ofList content), rest)
    | none => moment? text <|> real? text <|> named? text <|> integer? text

end LiveFragment.Toml
