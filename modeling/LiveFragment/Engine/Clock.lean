import LiveFragment.Number.Single

namespace LiveFragment

open LiveFragment.Number

/-- The numbers of a clock: `S` for program time, `R` for speeds and for what is reported. -/
class Timescale (S : outParam Type) (R : Type) where
  start : S
  noRate : R
  noDelta : R
  /-- A number of nanoseconds in seconds, as program time and as reported. -/
  seconds : Nat → S
  reportedSeconds : Nat → R
  add : S → S → S
  /-- Time passed at a speed. -/
  scale : S → R → S
  /-- The time itself, but never before the start. -/
  notBefore : S → S
  report : S → R
  /-- A number of frames over a number of nanoseconds. -/
  rate : Nat → Nat → R

/-- Program time in double precision, reported in single precision. -/
instance : Timescale Double Single where
  start := .zero
  noRate := .zero
  noDelta := .zero
  seconds nanos :=
    Double.ofNat (nanos / 1000000000) + Double.ofNat (nanos % 1000000000) / Double.ofNat 1000000000
  reportedSeconds nanos :=
    Single.ofNat (nanos / 1000000000) + Single.ofNat (nanos % 1000000000) / Single.ofNat 1000000000
  add := (· + ·)
  scale time speed := time * speed.toDouble
  notBefore := Double.clampNegative
  report := Double.toSingle
  rate frames nanos :=
    Single.ofNat frames /
      (Single.ofNat (nanos / 1000000000) +
        Single.ofNat (nanos % 1000000000) / Single.ofNat 1000000000)

structure Clock (S R : Type) where
  playing : Bool
  speed : R
  /-- The program time at the anchor, or at all times while the clock does not run. -/
  base : S
  anchor : Option Nat
  frames : UInt64
  lastTick : Option Nat
  /-- The time over which the frame rate is measured. -/
  window : Nat
  rate : R
  /-- The ticks in the window so far. -/
  counted : UInt32
  windowStart : Option Nat
deriving Repr

namespace Clock

/-- What a clock tells about one tick. -/
structure Tick (R : Type) where
  time : R
  delta : R
  rate : R
deriving Repr

variable {S R : Type} [Timescale S R]

def new (speed : R) (window : Nat) : Clock S R where
  playing := true
  speed := speed
  base := Timescale.start R
  anchor := none
  frames := 0
  lastTick := none
  window := window
  rate := Timescale.noRate
  counted := 0
  windowStart := none

/-- The program time at an instant. -/
def timeAt (clock : Clock S R) (now : Nat) : S :=
  match clock.playing, clock.anchor with
  | true, some anchor =>
    Timescale.add R clock.base (Timescale.scale (Timescale.seconds R (now - anchor)) clock.speed)
  | _, _ => clock.base

/-- Starts to count from an instant, at the time that it is then. -/
def rebase (clock : Clock S R) (now : Nat) : Clock S R :=
  { clock with base := clock.timeAt now, anchor := some now }

def play (clock : Clock S R) (now : Nat) : Clock S R :=
  if clock.playing then clock else { clock with playing := true, anchor := some now }

def pause (clock : Clock S R) (now : Nat) : Clock S R :=
  if clock.playing then { clock.rebase now with playing := false } else clock

/-- Goes back to time zero and frame zero. -/
def reset (clock : Clock S R) (now : Nat) : Clock S R :=
  { clock with base := Timescale.start R, anchor := some now, frames := 0 }

def seek (clock : Clock S R) (seconds : S) (now : Nat) : Clock S R :=
  { clock with base := Timescale.notBefore R seconds, anchor := some now }

def setSpeed (clock : Clock S R) (speed : R) (now : Nat) : Clock S R :=
  { clock.rebase now with speed }

/-- Counts a tick for the frame rate. A window that is long enough is closed: the rate is its ticks
over its length, and the next window starts. -/
def measure (clock : Clock S R) (now : Nat) : Clock S R :=
  let counted := clock.counted + 1
  let windowStart := clock.windowStart.getD now
  let elapsed := now - windowStart
  if clock.window ≤ elapsed ∧ elapsed ≠ 0 then
    { clock with
      rate := Timescale.rate counted.toNat elapsed
      counted := 0
      windowStart := some now }
  else { clock with counted, windowStart := some windowStart }

/-- Ticks. The first tick anchors a clock that has no anchor yet. -/
def advance (clock : Clock S R) (now : Nat) : Tick R × Clock S R :=
  let clock := { clock with anchor := some (clock.anchor.getD now) }
  let delta : R :=
    match clock.lastTick with
    | some last => Timescale.reportedSeconds (now - last)
    | none => Timescale.noDelta
  let clock := { clock with lastTick := some now }.measure now
  (⟨Timescale.report (clock.timeAt now), delta, clock.rate⟩, clock)

/-- Counts a finished frame, unless the clock is paused. -/
def completeFrame (clock : Clock S R) : Clock S R :=
  if clock.playing then { clock with frames := clock.frames + 1 } else clock

end Clock

end LiveFragment
