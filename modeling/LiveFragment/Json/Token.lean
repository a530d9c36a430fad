import LiveFragment.Document

namespace LiveFragment.Json

open LiveFragment.Number LiveFragment.Text

inductive Token
  | openList
  | closeList
  | openTable
  | closeTable
  | comma
  | colon
  /-- A number, text or word. -/
  | leaf (document : Document)
  | broken
deriving Inhabited

def isSpace (c : Char) : Bool := c == ' ' || c == '\t' || c == '\n' || c == '\r'

def mark? (c : Char) : Option Token :=
  if c = '[' then some .openList
  else if c = ']' then some .closeList
  else if c = '\x7b' then some .openTable
  else if c = '\x7d' then some .closeTable
  else if c = ',' then some .comma
  else if c = ':' then some .colon
  else none

def hexValue? (c : Char) : Option Nat :=
  if '0' ≤ c ∧ c ≤ '9' then some (c.toNat - '0'.toNat)
  else if 'a' ≤ c ∧ c ≤ 'f' then some (c.toNat - 'a'.toNat + 10)
  else if 'A' ≤ c ∧ c ≤ 'F' then some (c.toNat - 'A'.toNat + 10)
  else none

/-- The number that hexadecimal digits spell. -/
def hexNumber? (digits : List Char) : Option Nat :=
  digits.foldlM (fun value c => (hexValue? c).map (16 * value + ·)) 0

/-- The character after a backslash, when it stands for one character. -/
def escaped? (c : Char) : Option Char :=
  if c = '"' ∨ c = '\\' ∨ c = '/' then some c
  else if c = 'b' then some '\x08'
  else if c = 'f' then some '\x0c'
  else if c = 'n' then some '\n'
  else if c = 'r' then some '\r'
  else if c = 't' then some '\t'
  else none

/-- The character of a UTF-16 unit that stands alone. -/
def unitCharacter? (unit : Nat) : Option Char :=
  if 0xd800 ≤ unit ∧ unit < 0xe000 then none else some (Char.ofNat unit)

/-- The character of a pair of UTF-16 units. -/
def pairCharacter? (high low : Nat) : Option Char :=
  if 0xd800 ≤ high ∧ high < 0xdc00 ∧ 0xdc00 ≤ low ∧ low < 0xe000 then
    some (Char.ofNat (0x10000 + (high - 0xd800) * 0x400 + (low - 0xdc00)))
  else none

/-- A text up to its closing quote, and what follows that quote. -/
def quoted? : List Char → Option (List Char × List Char)
  | '"' :: rest => some ([], rest)
  | '\\' :: 'u' :: a :: b :: c :: d :: rest => do
    let unit ← hexNumber? [a, b, c, d]
    match unitCharacter? unit with
    | some character => do
      let (content, after) ← quoted? rest
      some (character :: content, after)
    | none =>
      match rest with
      | '\\' :: 'u' :: e :: f :: g :: h :: rest => do
        let low ← hexNumber? [e, f, g, h]
        let character ← pairCharacter? unit low
        let (content, after) ← quoted? rest
        some (character :: content, after)
      | _ => none
  | '\\' :: c :: rest => do
    let character ← escaped? c
    let (content, after) ← quoted? rest
    some (character :: content, after)
  | c :: rest =>
    if c.toNat < 0x20 ∨ c = '\\' then none
    else do
      let (content, after) ← quoted? rest
      some (c :: content, after)
  | [] => none

/-- What follows the closing quote of a text whose escapes are not resolved. -/
def behindQuoted? : List Char → Option (List Char)
  | '"' :: rest => some rest
  | '\\' :: 'u' :: a :: b :: c :: d :: rest => do
    let _ ← hexNumber? [a, b, c, d]
    behindQuoted? rest
  | '\\' :: c :: rest => do
    let _ ← escaped? c
    behindQuoted? rest
  | c :: rest => if c.toNat < 0x20 ∨ c = '\\' then none else behindQuoted? rest
  | [] => none

/-- The digits after a point, when a point follows; there is at least one. -/
def fraction? : List Char → Option (List Char × List Char)
  | '.' :: rest =>
    let digits := rest.takeWhile isDigit
    if digits = [] then none else some (digits, rest.dropWhile isDigit)
  | rest => some ([], rest)

/-- The exponent, when a letter `e` follows. -/
def exponent? : List Char → Option (Option Int × List Char)
  | [] => some (none, [])
  | c :: rest =>
    if c = 'e' ∨ c = 'E' then
      let (negative, rest) := Literal.takeSign rest
      let digits := rest.takeWhile isDigit
      if digits = [] then none
      else
        let size : Int := digitsValue digits
        some (some (if negative then -size else size), rest.dropWhile isDigit)
    else some (none, c :: rest)

/-- A number from its digits. It is whole when it has neither point nor exponent and fits into a
word of 64 bits; minus zero is no whole number. -/
def numberOf (negative : Bool) (whole fraction : List Char) (exponent : Option Int) : Document :=
  let size := digitsValue whole
  let fits := if negative then 0 < size ∧ size ≤ 0x8000000000000000 else size < UInt64.size
  if fraction = [] ∧ exponent = none ∧ fits then
    .integer (if negative then -(size : Int) else size)
  else
    .real (.decimal negative
      ⟨digitsValue (whole ++ fraction), exponent.getD 0 - fraction.length⟩)

/-- The number a text starts with. A whole part of several digits does not start with zero. -/
def number? (text : List Char) : Option (Document × List Char) := do
  let (negative, rest) :=
    match text with
    | '-' :: rest => (true, rest)
    | _ => (false, text)
  let whole := rest.takeWhile isDigit
  if whole = [] ∨ (whole.head? = some '0' ∧ 1 < whole.length) then none
  else
    let (fraction, rest) ← fraction? (rest.dropWhile isDigit)
    let (exponent, rest) ← exponent? rest
    some (numberOf negative whole fraction exponent, rest)

/-- The leaf a text starts with. -/
def leaf? : List Char → Option (Document × List Char)
  | '"' :: rest =>
    match quoted? rest with
    | some (content, after) => some (.text (String.ofList content), after)
    | none => (behindQuoted? rest).map (.garbled, ·)
  | 'n' :: 'u' :: 'l' :: 'l' :: rest => some (.null, rest)
  | 't' :: 'r' :: 'u' :: 'e' :: rest => some (.boolean true, rest)
  | 'f' :: 'a' :: 'l' :: 's' :: 'e' :: rest => some (.boolean false, rest)
  | text => number? text

/-- The tokens of a text. Every token takes at least one character, so the length of the text
bounds their number. -/
def tokensWithin : Nat → List Char → List Token
  | 0, _ => []
  | _, [] => []
  | bound + 1, c :: rest =>
    if isSpace c then tokensWithin bound rest
    else
      match mark? c with
      | some mark => mark :: tokensWithin bound rest
      | none =>
        match leaf? (c :: rest) with
        | some (document, after) => .leaf document :: tokensWithin bound after
        | none => [.broken]

def tokens (text : List Char) : List Token := tokensWithin text.length text

end LiveFragment.Json
