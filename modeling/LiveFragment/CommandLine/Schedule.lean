import LiveFragment.Duration.Basic

/-! The instants at which the frames of a rendering take place: equal steps from the start, in whole
nanoseconds. A frame rate may be so low that a step is no duration, or that the time to a later
frame is none, or that the frame lies beyond what the clock can count. -/

namespace LiveFragment.CommandLine

open LiveFragment.Number

/-- A frame rate that frames can be spaced by. -/
def isRate (rate : Single) : Bool := rate.isFinite && !rate.isZero && !rate.isNegative

namespace Schedule

/-- The time between two frames, if it is a duration. -/
def interval? (rate : Single) : Option Duration :=
  Duration.ofSeconds? (Double.ofNat 1 / rate.toDouble)

/-- The time from the first frame to another one, if it is a duration. -/
def passed? (interval : Duration) (index : Nat) : Option Duration :=
  Duration.ofNanos? (interval.nanos * index)

/-- The clock counts fewer than `2 ^ 63` seconds from its zero. -/
def horizon : Nat := 0x8000000000000000 * nanosPerSecond

/-- The instant that lies some time after another one, if the clock can count to it. -/
def later? (start : Nat) (passed : Duration) : Option Nat :=
  if start + passed.nanos < horizon then some (start + passed.nanos) else none

/-- The instant of a frame of a rendering that starts at some instant. -/
def instant? (start : Nat) (interval : Duration) (index : Nat) : Option Nat :=
  (passed? interval index).bind (later? start)

end Schedule

end LiveFragment.CommandLine
