import LiveFragment.Media.Frame

namespace LiveFragment.Channel

open LiveFragment.Media

structure Playback where
  /-- The pictures and how long each is shown, in nanoseconds. -/
  frames : List (Frame × Nat)
  start : Option Nat
  /-- The picture reported last. -/
  current : Option Nat
deriving Repr, Inhabited

namespace Playback

/-- Delays below this count as not given. -/
def minDelay : Nat := 20000000

def defaultDelay : Nat := 100000000

/-- The time a picture is shown, from a delay in hundredths of a second. -/
def delayOf (hundredths : Nat) : Nat :=
  let delay := hundredths * 10000000
  if delay < minDelay then defaultDelay else delay

def ofFrames (frames : List (Frame × Nat)) : Playback := ⟨frames, none, none⟩

def total (playback : Playback) : Nat :=
  playback.frames.foldl (fun time (_, delay) => time + delay) 0

/-- The picture whose stretch of the loop holds a position, unless it lies behind all stretches. -/
def search? : List (Frame × Nat) → Nat → Option Nat
  | [], _ => none
  | (_, delay) :: rest, position =>
    if position < delay then some 0 else (search? rest (position - delay)).map (· + 1)

/-- The position in the loop after some time of playing. -/
def position (playback : Playback) (elapsed : Nat) : Nat :=
  elapsed % max playback.total 1 % UInt64.size

/-- The picture due after some time of playing; behind all stretches it is the last one. -/
def indexAt (playback : Playback) (elapsed : Nat) : Nat :=
  (search? playback.frames (playback.position elapsed)).getD (playback.frames.length - 1)

/-- The picture due now, unless it was reported last. -/
def poll (playback : Playback) (now : Nat) : Option Frame × Playback :=
  let start := playback.start.getD now
  let index := playback.indexAt (now - start)
  if playback.current = some index then (none, { playback with start := some start })
  else
    ((playback.frames[index]?).map (·.1),
      { playback with start := some start, current := some index })

end Playback

end LiveFragment.Channel
