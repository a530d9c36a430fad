import LiveFragment.Duration.Basic
import LiveFragment.Text.Blank
import LiveFragment.Text.Numeral

namespace LiveFragment.Duration

open LiveFragment.Number LiveFragment.Text

/-- A number of seconds or of nanoseconds. -/
inductive Amount
  | seconds (count : Nat)
  | nanos (count : Nat)
deriving DecidableEq, Repr

namespace Amount

def secondsPart : Amount → Nat
  | .seconds count => count
  | .nanos _ => 0

def nanosPart : Amount → Nat
  | .seconds _ => 0
  | .nanos count => count

/-- A count below `2 ^ 64`. -/
def word? (count : Nat) : Option Nat := if count < UInt64.size then some count else none

/-- Several times an amount. -/
def times? (factor : Nat) : Amount → Option Amount
  | .seconds count => (word? (factor * count)).map .seconds
  | .nanos count => (word? (factor * count)).map .nanos

/-- An amount divided without remainder. -/
def divide? (divisor : Nat) : Amount → Option Amount
  | .seconds count => if count % divisor = 0 then some (.seconds (count / divisor)) else none
  | .nanos count => if count % divisor = 0 then some (.nanos (count / divisor)) else none

end Amount

/-- A unit: its names, what one of it is, and in which amount its fractions are counted. -/
structure TimeUnit where
  names : List String
  whole : Amount
  fraction : Option Amount
deriving DecidableEq, Repr

def timeUnits : List TimeUnit := [
  ⟨["nanos", "nsec", "ns"], .nanos 1, none⟩,
  ⟨["usec", "us", "µs"], .nanos 1000, some (.nanos 1000)⟩,
  ⟨["millis", "msec", "ms"], .nanos 1000000, some (.nanos 1000000)⟩,
  ⟨["seconds", "second", "secs", "sec", "s"], .seconds 1, some (.nanos 1000000000)⟩,
  ⟨["minutes", "minute", "min", "mins", "m"], .seconds 60, some (.nanos 60000000000)⟩,
  ⟨["hours", "hour", "hr", "hrs", "h"], .seconds 3600, some (.seconds 3600)⟩,
  ⟨["days", "day", "d"], .seconds 86400, some (.seconds 86400)⟩,
  ⟨["weeks", "week", "wk", "wks", "w"], .seconds 604800, some (.seconds 604800)⟩,
  ⟨["months", "month", "M"], .seconds 2630016, some (.seconds 2630016)⟩,
  ⟨["years", "year", "yr", "yrs", "y"], .seconds 31557600, some (.seconds 31557600)⟩]

def timeUnit? (name : List Char) : Option TimeUnit :=
  timeUnits.find? fun unit => unit.names.contains (String.ofList name)

/-- Why a text or number gives no duration. -/
inductive Fault
  | negative
  | malformed
  /-- The time is `2 ^ 64` seconds or more, and reading ends at once. -/
  | tooLong
deriving DecidableEq, Repr

/-- The words for what is wrong with a duration that a person has written. -/
def Fault.message? : Fault → Option String
  | negative => some "duration must be non-negative"
  | malformed => some "invalid duration"
  | tooLong => none

/-- Adds an amount. The nanoseconds are summed first; a sum of exactly one second there is carried
last, after all limits have been checked. -/
def add (total : Duration) (amount : Amount) : Except Fault Duration :=
  let below := total.subsecondNanos + amount.nanosPart
  let sum := total.nanos + amount.secondsPart * nanosPerSecond + amount.nanosPart
  if UInt64.size ≤ below then .error .malformed
  else
    match ofNanos? sum with
    | some duration => .ok duration
    | none =>
      if below = nanosPerSecond ∧ sum = UInt64.size * nanosPerSecond then .error .tooLong
      else .error .malformed

/-- One number with its unit. -/
structure Span where
  digits : List Char
  fraction : Option (List Char)
  unit : List Char
deriving Repr

def orMalformed {α : Type} (result : Option α) : Except Fault α :=
  match result with
  | some value => .ok value
  | none => .error .malformed

namespace Span

/-- The amount of a fraction of a unit. Its digits stand over a power of ten. -/
def part? (unit : TimeUnit) (digits : List Char) : Option Amount := do
  let amount ← (← unit.fraction).times? (digitsValue digits)
  if Nat.pow 10 digits.length < UInt64.size then amount.divide? (Nat.pow 10 digits.length) else none

/-- Adds a span to a duration. The whole units are added before the fraction is looked at. -/
def addTo (span : Span) (total : Duration) : Except Fault Duration := do
  let unit ← orMalformed (timeUnit? span.unit)
  let count ← orMalformed ((digits? span.digits).filter (· < UInt64.size))
  let total ← add total (← orMalformed (unit.whole.times? count))
  match span.fraction with
  | none => .ok total
  | some digits => add total (← orMalformed (part? unit digits))

end Span

def isUnitLetter (c : Char) : Bool :=
  ('a' ≤ c && c ≤ 'z') || ('A' ≤ c && c ≤ 'Z') || c == 'µ'

def isDigitOrBlank (c : Char) : Bool := isDigit c || isBlank c

/-- The fraction of a number and what follows it; a point has at least one digit behind it. -/
def fraction? : List Char → Option (Option (List Char) × List Char)
  | '.' :: rest =>
    let digits := (rest.takeWhile isDigitOrBlank).filter isDigit
    if digits = [] then none else some (some digits, rest.dropWhile isDigitOrBlank)
  | rest => some (none, rest)

/-- Whether a unit may end where a text starts: at white space, at a digit or at the end. -/
def endsUnit : List Char → Bool
  | [] => true
  | c :: _ => isDigitOrBlank c

theorem length_dropWhile_le (p : Char → Bool) (text : List Char) :
    (text.dropWhile p).length ≤ text.length := (List.dropWhile_sublist p).length_le

theorem length_of_fraction? {text after : List Char} {digits : Option (List Char)}
    (read : fraction? text = some (digits, after)) : after.length ≤ text.length := by
  unfold fraction? at read
  split at read
  · rename_i rest
    by_cases empty : (rest.takeWhile isDigitOrBlank).filter isDigit = []
    · simp [empty] at read
    · simp only [empty, ite_false, Option.some.injEq, Prod.mk.injEq] at read
      obtain ⟨_, rfl⟩ := read
      exact Nat.le_succ_of_le (length_dropWhile_le isDigitOrBlank rest)
  · simp only [Option.some.injEq, Prod.mk.injEq] at read
    obtain ⟨_, rfl⟩ := read
    exact Nat.le_refl _

set_option linter.unusedVariables false in
/-- The spans of a text. The last one is missing where the text breaks off. -/
def spans (text : List Char) : List (Option Span) :=
  match start : trimStart text with
  | [] => []
  | c :: rest =>
    if !isDigit c then [none]
    else
      let digits := c :: (rest.takeWhile isDigitOrBlank).filter isDigit
      match behind : fraction? (rest.dropWhile isDigitOrBlank) with
      | none => [none]
      | some (fraction, tail) =>
        let after := tail.dropWhile isUnitLetter
        if endsUnit after then
          some ⟨digits, fraction, tail.takeWhile isUnitLetter⟩ :: spans after
        else [none]
termination_by text.length
decreasing_by
  have trimmed := length_dropWhile_le isBlank text
  have read := length_of_fraction? behind
  have number := length_dropWhile_le isDigitOrBlank rest
  have unit := length_dropWhile_le isUnitLetter tail
  simp only [trimStart] at start
  simp only [start, List.length_cons] at trimmed
  omega

/-- Adds up spans in order; what is wrong first ends the sum. -/
def sum (total : Duration) : List (Option Span) → Except Fault Duration
  | [] => .ok total
  | none :: _ => .error .malformed
  | some span :: rest => do sum (← span.addTo total) rest

/-- Reads a duration. A lone zero needs no unit. -/
def parse (text : String) : Except Fault Duration :=
  if text = "0" then .ok zero
  else
    match spans text.toList with
    | [] => .error .malformed
    | spans => sum zero spans

/-- The counts of the units that a duration is written in, largest first. -/
def parts (duration : Duration) : List (Nat × String) :=
  let years := duration.wholeSeconds / 31557600
  let inYear := duration.wholeSeconds % 31557600
  let inMonth := inYear % 2630016
  let inDay := inMonth % 86400
  let plural (name : String) (count : Nat) : String := if 1 < count then name ++ "s" else name
  let months := inYear / 2630016
  let days := inMonth / 86400
  [(years, plural "year" years), (months, plural "month" months), (days, plural "day" days),
    (inDay / 3600, "h"), (inDay % 3600 / 60, "m"), (inDay % 60, "s"),
    (duration.subsecondNanos / 1000000, "ms"), (duration.subsecondNanos / 1000 % 1000, "us"),
    (duration.subsecondNanos % 1000, "ns")]

/-- A duration in words; a part that is zero is left out. -/
def write (duration : Duration) : String :=
  if duration.nanos = 0 then "0s"
  else
    let present := duration.parts.filter fun part => part.1 ≠ 0
    String.intercalate " " (present.map fun (count, name) => toString count ++ name)

end LiveFragment.Duration
