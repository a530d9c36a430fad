import LiveFragment.Number.Single

namespace LiveFragment

open LiveFragment.Number

def nanosPerSecond : Nat := 1000000000

structure Duration where
  nanos : Nat
  bounded : nanos < UInt64.size * nanosPerSecond
deriving DecidableEq, Repr

namespace Duration

def zero : Duration := ⟨0, by decide⟩

instance : Inhabited Duration := ⟨zero⟩

def ofNanos? (nanos : Nat) : Option Duration :=
  if h : nanos < UInt64.size * nanosPerSecond then some ⟨nanos, h⟩ else none

/-- A number of seconds below `2 ^ 64`. -/
def ofWholeSeconds (seconds : UInt64) : Duration where
  nanos := seconds.toNat * nanosPerSecond
  bounded := by
    have below := seconds.toNat_lt
    exact Nat.mul_lt_mul_of_pos_right below (by decide)

/-- A number of seconds rounded to nanoseconds, a half going to the even one. There is none for a
negative number, nor for `2 ^ 64` seconds and more. -/
def ofSeconds? (seconds : Double) : Option Duration :=
  match seconds.reading with
  | .finite negative mantissa exponent =>
    if negative ∧ mantissa ≠ 0 then none
    else
      ofNanos? (divideToEven (mantissa * Nat.pow 2 exponent.toNat * nanosPerSecond)
        (Nat.pow 2 (-exponent).toNat))
  | _ => none

def wholeSeconds (duration : Duration) : Nat := duration.nanos / nanosPerSecond

def subsecondNanos (duration : Duration) : Nat := duration.nanos % nanosPerSecond

end Duration

end LiveFragment
