import Mathlib.Data.Rat.Cast.Order
import Mathlib.Tactic.Linarith
import Mathlib.Tactic.Positivity
import Mathlib.Tactic.Ring
import LiveFragment.Engine.Clock

namespace LiveFragment

namespace Clock

/-- What may be asked of a clock. -/
inductive Control (S R : Type)
  | advance
  | play
  | pause
  | setSpeed (speed : R)
  | seek (seconds : S)
  | reset

/-- Something asked of a clock at an instant. -/
structure Call (S R : Type) where
  control : Control S R
  instant : Nat

variable {S R : Type}

section Run

variable [Timescale S R]

def call (clock : Clock S R) (call : Call S R) : Clock S R :=
  match call.control with
  | .advance => (clock.advance call.instant).2
  | .play => clock.play call.instant
  | .pause => clock.pause call.instant
  | .setSpeed speed => clock.setSpeed speed call.instant
  | .seek seconds => clock.seek seconds call.instant
  | .reset => clock.reset call.instant

def run (clock : Clock S R) (calls : List (Call S R)) : Clock S R := calls.foldl call clock

theorem run_append_singleton (clock : Clock S R) (calls : List (Call S R)) (last : Call S R) :
    clock.run (calls ++ [last]) = (clock.run calls).call last := by
  simp [run]

/-- The instants of the calls do not go back, and an instant is not before the last of them. -/
def Ordered (calls : List (Call S R)) (now : Nat) : Prop :=
  calls.Pairwise (fun earlier later => earlier.instant ≤ later.instant) ∧
    ∀ call ∈ calls, call.instant ≤ now

end Run

instance (calls : List (Call S R)) (now : Nat) : Decidable (Ordered calls now) :=
  inferInstanceAs (Decidable (_ ∧ _))

theorem ordered_append_singleton {calls : List (Call S R)} {last : Call S R} {now : Nat}
    (ordered : Ordered (calls ++ [last]) now) :
    Ordered calls last.instant ∧ last.instant ≤ now := by
  obtain ⟨pairs, before⟩ := ordered
  obtain ⟨earlier, _, met⟩ := List.pairwise_append.mp pairs
  exact ⟨⟨earlier, fun call member => met call member last (by simp)⟩, before last (by simp)⟩

theorem Ordered.append {calls : List (Call S R)} {last : Call S R} {now : Nat}
    (ordered : Ordered calls last.instant) (after : last.instant ≤ now) :
    Ordered (calls ++ [last]) now := by
  refine ⟨List.pairwise_append.mpr ⟨ordered.1, List.pairwise_singleton _ _, ?_⟩, ?_⟩
  · simpa using ordered.2
  · rw [List.forall_mem_append, List.forall_mem_singleton]
    exact ⟨fun call member => (ordered.2 call member).trans after, after⟩

/-- Whether the clock plays from now on. -/
def Control.mode? : Control S R → Option Bool
  | play => some true
  | pause => some false
  | _ => none

def Control.speed? : Control S R → Option R
  | setSpeed speed => some speed
  | _ => none

/-- Whether time begins to count with the control: a clock plays from the start, but it has no
anchor before something else than playing is asked of it. -/
def Control.anchors : Control S R → Bool
  | play => false
  | _ => true

/-- Whether a control sets the time. -/
def Control.sets : Control S R → Bool
  | seek _ => true
  | reset => true
  | _ => false

/-- What the latest of the calls that tell something tells. -/
def latest {α : Type} (tells : Control S R → Option α) (otherwise : α) (calls : List (Call S R)) :
    α :=
  (calls.reverse.findSome? fun call => tells call.control).getD otherwise

theorem latest_append_singleton {α : Type} (tells : Control S R → Option α) (otherwise : α)
    (calls : List (Call S R)) (last : Call S R) :
    latest tells otherwise (calls ++ [last]) =
      (tells last.control).getD (latest tells otherwise calls) := by
  simp only [latest, List.reverse_append, List.reverse_singleton, List.singleton_append,
    List.findSome?_cons]
  cases tells last.control <;> rfl

theorem latest_append {α : Type} {P : α → Prop} {tells : Control S R → Option α} {otherwise : α}
    (before : List (Call S R)) {after : List (Call S R)} (first : P (latest tells otherwise before))
    (told : ∀ call ∈ after, ∀ given, tells call.control = some given → P given) :
    P (latest tells otherwise (before ++ after)) := by
  induction after using List.reverseRecOn with
  | nil =>
    rw [List.append_nil]
    exact first
  | append_singleton after last ih =>
    rw [← List.append_assoc, latest_append_singleton]
    cases given : tells last.control with
    | none => exact ih fun call member => told call (List.mem_append_left _ member)
    | some value => exact told last (by simp) value given

/-- The instant of the next call, or of what comes behind all of them. -/
theorem next_append_singleton (rest : List (Call S R)) (last : Call S R) (now : Nat) :
    ((rest ++ [last]).head?.map Call.instant).getD now =
      (rest.head?.map Call.instant).getD last.instant := by
  cases rest <;> rfl

def anchored (calls : List (Call S R)) : Bool := calls.any fun call => call.control.anchors

theorem anchored_append_singleton (calls : List (Call S R)) (last : Call S R) :
    anchored (calls ++ [last]) = (anchored calls || last.control.anchors) := by
  simp [anchored]

/-- Numbers that are not rounded. -/
instance unrounded : Timescale ℚ ℚ where
  start := 0
  noRate := 0
  noDelta := 0
  seconds nanos := nanos / 10 ^ 9
  reportedSeconds nanos := nanos / 10 ^ 9
  add := (· + ·)
  scale time speed := time * speed
  notBefore seconds := max seconds 0
  report := id
  rate frames nanos := frames / (nanos / 10 ^ 9)

/-- The time that a control sets. -/
def Control.jump? : Control ℚ ℚ → Option ℚ
  | seek seconds => some (max seconds 0)
  | reset => some 0
  | _ => none

theorem Control.jump?_eq_none_iff {control : Control ℚ ℚ} :
    control.jump? = none ↔ control.sets = false := by
  cases control <;> simp [jump?, sets]

/-- A stretch of time between two calls, or from the last call on. -/
structure Stretch where
  start : Nat
  stop : Nat
  playing : Bool
  speed : ℚ
deriving DecidableEq, Repr

/-- What program time gains in a stretch: its length in seconds times the speed. -/
def Stretch.gain (stretch : Stretch) : ℚ :=
  if stretch.playing then (stretch.stop - stretch.start) / 10 ^ 9 * stretch.speed else 0

/-- The stretch behind some calls, up to an instant. -/
def stretchAfter (speed : ℚ) (calls : List (Call ℚ ℚ)) (start stop : Nat) : Stretch where
  start := start
  stop := stop
  playing := latest Control.mode? true calls
  speed := latest Control.speed? speed calls

/-- The stretches behind each of some further calls that count: time has begun to count, and it is
not set again. -/
def stretches (speed : ℚ) (before : List (Call ℚ ℚ)) : List (Call ℚ ℚ) → Nat → List Stretch
  | [], _ => []
  | call :: rest, now =>
    let stop := (rest.head?.map Call.instant).getD now
    let later := stretches speed (before ++ [call]) rest now
    if anchored (before ++ [call]) ∧ ∀ other ∈ rest, other.control.jump? = none then
      stretchAfter speed (before ++ [call]) call.instant stop :: later
    else later

/-- The time that was set last, and what was gained since then. -/
def elapsed (speed : ℚ) (calls : List (Call ℚ ℚ)) (now : Nat) : ℚ :=
  latest Control.jump? 0 calls + ((stretches speed [] calls now).map Stretch.gain).sum

/-- A further call cuts the last stretch, or all of them no longer count. -/
theorem stretches_append_singleton (speed : ℚ) (before calls : List (Call ℚ ℚ)) (last : Call ℚ ℚ)
    (now : Nat) :
    stretches speed before (calls ++ [last]) now =
      (if last.control.jump? = none then stretches speed before calls last.instant else []) ++
        if anchored (before ++ calls ++ [last]) then
          [stretchAfter speed (before ++ calls ++ [last]) last.instant now] else [] := by
  induction calls generalizing before with
  | nil => simp [stretches]
  | cons call rest ih =>
    have quiet : (∀ other ∈ rest ++ [last], other.control.jump? = none) ↔
        (∀ other ∈ rest, other.control.jump? = none) ∧ last.control.jump? = none := by
      rw [List.forall_mem_append, List.forall_mem_singleton]
    have further := ih (before ++ [call])
    rw [List.append_assoc before [call] rest, List.singleton_append] at further
    simp only [List.cons_append, stretches, next_append_singleton, quiet, further]
    by_cases jumps : last.control.jump? = none
    · simp only [jumps, and_true, if_true]
      split <;> rfl
    · simp only [jumps, and_false, if_false]

theorem elapsed_append_singleton (speed : ℚ) (calls : List (Call ℚ ℚ)) (last : Call ℚ ℚ)
    (now : Nat) :
    elapsed speed (calls ++ [last]) now =
      (last.control.jump?).getD (elapsed speed calls last.instant) +
        if anchored (calls ++ [last]) then
          (stretchAfter speed (calls ++ [last]) last.instant now).gain else 0 := by
  have gained (condition : Bool) (stretch : Stretch) :
      ((if condition then [stretch] else []).map Stretch.gain).sum =
        if condition then stretch.gain else 0 := by
    cases condition <;> simp
  unfold elapsed
  rw [stretches_append_singleton, latest_append_singleton, List.nil_append, List.map_append,
    List.sum_append, gained]
  cases last.control.jump? with
  | none => simp [add_assoc]
  | some time => simp

section Calls

variable [Timescale S R] (clock : Clock S R) (now : Nat)

@[simp]
theorem advance_playing : (clock.advance now).2.playing = clock.playing := by
  simp only [advance, measure]
  split <;> rfl

@[simp]
theorem advance_speed : (clock.advance now).2.speed = clock.speed := by
  simp only [advance, measure]
  split <;> rfl

@[simp]
theorem advance_base : (clock.advance now).2.base = clock.base := by
  simp only [advance, measure]
  split <;> rfl

@[simp]
theorem advance_anchor : (clock.advance now).2.anchor = some (clock.anchor.getD now) := by
  simp only [advance, measure]
  split <;> rfl

/-- A clock that does not play, or has no anchor, shows what it was set to. -/
theorem timeAt_still {clock : Clock S R} (still : clock.playing = false ∨ clock.anchor = none)
    (now : Nat) : clock.timeAt now = clock.base := by
  unfold timeAt
  rcases still with paused | free
  · rw [paused]
  · rw [free]
    cases clock.playing <;> rfl

theorem call_playing (last : Call S R) :
    (clock.call last).playing = (last.control.mode?).getD clock.playing := by
  obtain ⟨control, instant⟩ := last
  cases control with
  | advance => simp [call, Control.mode?]
  | play =>
    simp only [call, Control.mode?, play]
    split
    · assumption
    · rfl
  | pause =>
    simp only [call, Control.mode?, pause]
    split
    · rfl
    · rename_i paused
      exact Bool.eq_false_of_not_eq_true paused
  | _ => rfl

theorem call_speed (last : Call S R) :
    (clock.call last).speed = (last.control.speed?).getD clock.speed := by
  obtain ⟨control, instant⟩ := last
  cases control with
  | advance => simp [call, Control.speed?]
  | play =>
    simp only [call, Control.speed?, play]
    split <;> rfl
  | pause =>
    simp only [call, Control.speed?, pause]
    split <;> rfl
  | _ => rfl

end Calls

/-- A call that does not set the time anchors a clock at what it shows, or leaves the time alone. -/
theorem call_smooth [Timescale S R] (clock : Clock S R) {last : Call S R}
    (smooth : last.control.sets = false) :
    ((clock.call last).anchor = some last.instant ∧
        (clock.call last).base = clock.timeAt last.instant) ∨
      ((clock.call last).playing = clock.playing ∧ (clock.call last).speed = clock.speed ∧
        (clock.call last).base = clock.base ∧ (clock.call last).anchor = clock.anchor) := by
  obtain ⟨control, instant⟩ := last
  cases control with
  | advance =>
    cases free : clock.anchor with
    | none =>
      left
      simp [call, free, timeAt_still (.inr free)]
    | some anchor =>
      right
      simp [call, free]
  | play =>
    cases playing : clock.playing with
    | false =>
      left
      simp [call, play, playing, timeAt_still (.inl playing)]
    | true =>
      right
      simp [call, play, playing]
  | pause =>
    cases playing : clock.playing with
    | false =>
      right
      simp [call, pause, playing]
    | true =>
      left
      simp [call, pause, playing, rebase]
  | setSpeed speed => exact .inl ⟨rfl, rfl⟩
  | seek seconds => cases smooth
  | reset => cases smooth

/-- A call anchors a clock at the time that it shows or that is set, or it leaves the time alone. -/
theorem call_cases (clock : Clock ℚ ℚ) (last : Call ℚ ℚ) :
    ((clock.call last).anchor = some last.instant ∧
        (clock.call last).base = (last.control.jump?).getD (clock.timeAt last.instant)) ∨
      (last.control.jump? = none ∧ (clock.call last).playing = clock.playing ∧
        (clock.call last).speed = clock.speed ∧ (clock.call last).base = clock.base ∧
        (clock.call last).anchor = clock.anchor) := by
  cases sets : last.control.sets with
  | true =>
    left
    obtain ⟨control, instant⟩ := last
    cases control with
    | seek seconds => exact ⟨rfl, rfl⟩
    | reset => exact ⟨rfl, rfl⟩
    | _ => cases sets
  | false =>
    rw [Control.jump?_eq_none_iff.mpr sets, Option.getD_none]
    exact (clock.call_smooth sets).imp_right fun same => ⟨rfl, same⟩

/-- How a clock runs, as a stretch between two instants. -/
def stretch (clock : Clock ℚ ℚ) (start stop : Nat) : Stretch :=
  ⟨start, stop, clock.playing, clock.speed⟩

theorem gain_self (clock : Clock ℚ ℚ) (start : Nat) : (clock.stretch start start).gain = 0 := by
  simp [Stretch.gain, stretch]

theorem counted_gain_nonneg {clock : Clock ℚ ℚ} (counts : Bool) (forward : 0 ≤ clock.speed)
    {start stop : Nat} (after : start ≤ stop) :
    0 ≤ if counts then (clock.stretch start stop).gain else 0 := by
  have length : (0 : ℚ) ≤ (stop - start) / 10 ^ 9 :=
    div_nonneg (sub_nonneg.mpr (Nat.cast_le.mpr after)) (by positivity)
  unfold Stretch.gain stretch
  split_ifs
  · exact mul_nonneg length forward
  · exact le_rfl
  · exact le_rfl

/-- An anchored clock gains what it plays. -/
theorem timeAt_later {clock : Clock ℚ ℚ} {anchor start stop : Nat}
    (held : clock.anchor = some anchor) (before : anchor ≤ start) (after : start ≤ stop) :
    clock.timeAt stop = clock.timeAt start + (clock.stretch start stop).gain := by
  unfold timeAt Stretch.gain stretch
  rw [held]
  cases clock.playing with
  | false => simp
  | true =>
    simp only [Timescale.add, Timescale.scale, Timescale.seconds, if_true]
    rw [Nat.cast_sub (before.trans after), Nat.cast_sub before]
    ring

theorem timeAt_anchor {clock : Clock ℚ ℚ} {anchor : Nat} (held : clock.anchor = some anchor) :
    clock.timeAt anchor = clock.base := by
  unfold timeAt
  rw [held]
  cases clock.playing <;> simp [Timescale.add, Timescale.scale, Timescale.seconds]

theorem timeAt_gain {clock : Clock ℚ ℚ} {start stop : Nat}
    (past : ∀ anchor, clock.anchor = some anchor → anchor ≤ start) (after : start ≤ stop) :
    clock.timeAt stop = clock.timeAt start +
      if clock.anchor.isSome then (clock.stretch start stop).gain else 0 := by
  cases held : clock.anchor with
  | none => simp [timeAt_still (.inr held)]
  | some anchor => simpa using timeAt_later held (past anchor held) after

/-- Time goes on from where it was when a call came, or from where the call set it. -/
theorem call_timeAt {clock : Clock ℚ ℚ} {last : Call ℚ ℚ} {now : Nat}
    (past : ∀ anchor, clock.anchor = some anchor → anchor ≤ last.instant)
    (after : last.instant ≤ now) :
    (clock.call last).timeAt now = (last.control.jump?).getD (clock.timeAt last.instant) +
      if (clock.call last).anchor.isSome then
        ((clock.call last).stretch last.instant now).gain else 0 := by
  rcases clock.call_cases last with ⟨held, base⟩ | ⟨jumps, playing, speed, base, anchor⟩
  · rw [timeAt_later held (Nat.le_refl _) after, timeAt_anchor held, base, held]
    simp
  · have same (instant : Nat) : (clock.call last).timeAt instant = clock.timeAt instant := by
      simp only [timeAt, playing, speed, base, anchor]
    have stretched : (clock.call last).stretch last.instant now =
        clock.stretch last.instant now := by
      simp only [stretch, playing, speed]
    rw [same, jumps, Option.getD_none, anchor, stretched]
    exact timeAt_gain past after

/-- The first call that is not to play anchors a clock, and none takes the anchor away. A clock that
is paused must have been anchored. -/
theorem call_anchored [Timescale S R] {clock : Clock S R}
    (paused : clock.playing = false → clock.anchor.isSome = true) (last : Call S R) :
    (clock.call last).anchor.isSome = (clock.anchor.isSome || last.control.anchors) := by
  obtain ⟨control, instant⟩ := last
  cases control with
  | play =>
    cases playing : clock.playing with
    | false => simp [call, play, playing, paused playing]
    | true => simp [call, play, playing, Control.anchors]
  | pause =>
    cases playing : clock.playing with
    | false => simp [call, pause, playing, paused playing]
    | true => simp [call, pause, playing, rebase, Control.anchors]
  | _ => simp [call, Control.anchors, setSpeed, seek, reset, rebase]

/-- A clock plays, at the speed and with the anchor that its calls tell. -/
structure Tracks [Timescale S R] (initial : R) (calls : List (Call S R)) (clock : Clock S R) :
    Prop where
  playing : clock.playing = latest Control.mode? true calls
  speed : clock.speed = latest Control.speed? initial calls
  anchored : clock.anchor.isSome = anchored calls
  paused : clock.playing = false → clock.anchor.isSome = true

namespace Tracks

variable [Timescale S R] {initial : R} {calls : List (Call S R)} {clock : Clock S R}

theorem new (initial : R) (window : Nat) :
    Tracks initial ([] : List (Call S R)) (Clock.new initial window) where
  playing := rfl
  speed := rfl
  anchored := rfl
  paused playing := by cases playing

theorem call (tracks : Tracks initial calls clock) (last : Call S R) :
    Tracks initial (calls ++ [last]) (clock.call last) where
  playing := by rw [call_playing, latest_append_singleton, tracks.playing]
  speed := by rw [call_speed, latest_append_singleton, tracks.speed]
  anchored := by rw [call_anchored tracks.paused, tracks.anchored, anchored_append_singleton]
  paused paused := by
    rw [call_anchored tracks.paused]
    rw [call_playing] at paused
    cases control : last.control with
    | play => simp [control, Control.mode?] at paused
    | _ => simp [Control.anchors]

theorem run (initial : R) (window : Nat) (calls : List (Call S R)) :
    Tracks initial calls ((Clock.new initial window).run calls) := by
  induction calls using List.reverseRecOn with
  | nil => exact new initial window
  | append_singleton calls last ih =>
    rw [run_append_singleton]
    exact ih.call last

end Tracks

/-- A clock and the calls that it was given tell the same. -/
structure Follows (initial : ℚ) (calls : List (Call ℚ ℚ)) (clock : Clock ℚ ℚ) : Prop where
  playing : clock.playing = latest Control.mode? true calls
  speed : clock.speed = latest Control.speed? initial calls
  anchored : clock.anchor.isSome = anchored calls
  paused : clock.playing = false → clock.anchor.isSome = true
  past : ∀ anchor, clock.anchor = some anchor → ∀ now, Ordered calls now → anchor ≤ now
  time : ∀ now, Ordered calls now → clock.timeAt now = elapsed initial calls now

namespace Follows

variable {initial : ℚ} {calls : List (Call ℚ ℚ)} {clock : Clock ℚ ℚ}

theorem new (initial : ℚ) (window : Nat) : Follows initial [] (Clock.new initial window) where
  playing := rfl
  speed := rfl
  anchored := rfl
  paused playing := by cases playing
  past _ held := by cases held
  time now _ := by simp [timeAt, Clock.new, elapsed, latest, stretches, Timescale.start]

theorem tracks (follows : Follows initial calls clock) : Tracks initial calls clock :=
  ⟨follows.playing, follows.speed, follows.anchored, follows.paused⟩

theorem call (follows : Follows initial calls clock) (last : Call ℚ ℚ) :
    Follows initial (calls ++ [last]) (clock.call last) where
  playing := (follows.tracks.call last).playing
  speed := (follows.tracks.call last).speed
  anchored := (follows.tracks.call last).anchored
  paused := (follows.tracks.call last).paused
  past anchor held now ordered := by
    obtain ⟨earlier, after⟩ := ordered_append_singleton ordered
    rcases clock.call_cases last with ⟨renewed, _⟩ | ⟨_, _, _, _, kept⟩
    · exact Option.some.inj (renewed.symm.trans held) ▸ after
    · exact (follows.past anchor (kept ▸ held) _ earlier).trans after
  time now ordered := by
    obtain ⟨earlier, after⟩ := ordered_append_singleton ordered
    have past (anchor : Nat) (held : clock.anchor = some anchor) : anchor ≤ last.instant :=
      follows.past anchor held _ earlier
    have stretched : (clock.call last).stretch last.instant now =
        stretchAfter initial (calls ++ [last]) last.instant now := by
      simp only [stretch, stretchAfter, call_playing, call_speed, latest_append_singleton,
        follows.playing, follows.speed]
    rw [call_timeAt past after, elapsed_append_singleton, follows.time _ earlier,
      call_anchored follows.paused, follows.anchored, anchored_append_singleton, stretched]

theorem run (initial : ℚ) (window : Nat) (calls : List (Call ℚ ℚ)) :
    Follows initial calls ((Clock.new initial window).run calls) := by
  induction calls using List.reverseRecOn with
  | nil => exact new initial window
  | append_singleton calls last ih =>
    rw [run_append_singleton]
    exact ih.call last

/-- Only a seek or a reset moves the time at its own instant. -/
theorem continuous (follows : Follows initial calls clock) {last : Call ℚ ℚ}
    (smooth : last.control.jump? = none) (ordered : Ordered calls last.instant) :
    (clock.call last).timeAt last.instant = clock.timeAt last.instant := by
  have past (anchor : Nat) (held : clock.anchor = some anchor) : anchor ≤ last.instant :=
    follows.past anchor held _ ordered
  rw [call_timeAt past (Nat.le_refl _), smooth, gain_self, ite_self, add_zero, Option.getD_none]

/-- At a speed that is not negative, time does not go back while nothing is asked of the clock. -/
theorem monotone (follows : Follows initial calls clock) (forward : 0 ≤ clock.speed)
    {start stop : Nat} (ordered : Ordered calls start) (after : start ≤ stop) :
    clock.timeAt start ≤ clock.timeAt stop := by
  have past (anchor : Nat) (held : clock.anchor = some anchor) : anchor ≤ start :=
    follows.past anchor held _ ordered
  rw [timeAt_gain past after]
  exact le_add_of_nonneg_right (counted_gain_nonneg _ forward after)

/-- A call that sets no time lets it go on, at a speed that is not negative. -/
theorem forward (follows : Follows initial calls clock) {last : Call ℚ ℚ} {now : Nat}
    (smooth : last.control.jump? = none) (forward : 0 ≤ (clock.call last).speed)
    (ordered : Ordered (calls ++ [last]) now) :
    clock.timeAt last.instant ≤ (clock.call last).timeAt now := by
  obtain ⟨earlier, after⟩ := ordered_append_singleton ordered
  have past (anchor : Nat) (held : clock.anchor = some anchor) : anchor ≤ last.instant :=
    follows.past anchor held _ earlier
  rw [call_timeAt past after, smooth, Option.getD_none]
  exact le_add_of_nonneg_right (counted_gain_nonneg _ forward after)

end Follows

/-- Behind some calls come further ones, none of them before an instant. They neither set the time
nor make the speed negative, and it is not negative before them. -/
structure Forward (initial : ℚ) (before after : List (Call ℚ ℚ)) (start : Nat) : Prop where
  begun : Ordered before start
  later : ∀ call ∈ after, start ≤ call.instant
  smooth : ∀ call ∈ after, call.control.jump? = none
  speed : 0 ≤ latest Control.speed? initial before
  speeds : ∀ call ∈ after, ∀ speed, call.control.speed? = some speed → 0 ≤ speed

namespace Forward

variable {initial : ℚ} {before after : List (Call ℚ ℚ)} {start : Nat}

theorem dropLast {last : Call ℚ ℚ} (forward : Forward initial before (after ++ [last]) start) :
    Forward initial before after start where
  begun := forward.begun
  later call member := forward.later call (List.mem_append_left _ member)
  smooth call member := forward.smooth call (List.mem_append_left _ member)
  speed := forward.speed
  speeds call member := forward.speeds call (List.mem_append_left _ member)

theorem nonneg (forward : Forward initial before after start) :
    0 ≤ latest Control.speed? initial (before ++ after) :=
  latest_append before forward.speed forward.speeds

theorem timeAt_le (forward : Forward initial before after start) (window : Nat) {now : Nat}
    (ordered : Ordered (before ++ after) now) (past : start ≤ now) :
    ((Clock.new initial window).run before).timeAt start ≤
      ((Clock.new initial window).run (before ++ after)).timeAt now := by
  induction after using List.reverseRecOn generalizing now with
  | nil =>
    have follows := Follows.run initial window before
    rw [List.append_nil]
    exact follows.monotone (follows.speed ▸ forward.speed) forward.begun past
  | append_singleton after last ih =>
    rw [← List.append_assoc] at ordered ⊢
    obtain ⟨earlier, _⟩ := ordered_append_singleton ordered
    have follows := Follows.run initial window (before ++ after)
    have fast : 0 ≤ (((Clock.new initial window).run (before ++ after)).call last).speed := by
      have nonneg := forward.nonneg
      rw [← List.append_assoc, ← (follows.call last).speed] at nonneg
      exact nonneg
    calc ((Clock.new initial window).run before).timeAt start
        ≤ ((Clock.new initial window).run (before ++ after)).timeAt last.instant :=
          ih forward.dropLast earlier (forward.later last (by simp))
      _ ≤ ((Clock.new initial window).run (before ++ after ++ [last])).timeAt now := by
          rw [run_append_singleton]
          exact follows.forward (forward.smooth last (by simp)) fast ordered

end Forward

/-- The program time after any calls is the time that was set last and what was played since then.
So a call that sets no time does not move it, and at speeds that are not negative it does not go
back before it is set again. -/
theorem run_timeAt (initial : ℚ) (window : Nat) {calls : List (Call ℚ ℚ)} {now : Nat}
    (ordered : Ordered calls now) :
    ((Clock.new initial window).run calls).timeAt now = elapsed initial calls now ∧
      (∀ control : Control ℚ ℚ, control.jump? = none →
        (((Clock.new initial window).run calls).call ⟨control, now⟩).timeAt now =
          ((Clock.new initial window).run calls).timeAt now) ∧
      ∀ before after start, calls = before ++ after → Forward initial before after start →
        start ≤ now → ((Clock.new initial window).run before).timeAt start ≤
          ((Clock.new initial window).run calls).timeAt now := by
  have follows := Follows.run initial window calls
  refine ⟨follows.time now ordered, ?_, ?_⟩
  · intro control smooth
    exact follows.continuous smooth ordered
  · rintro before after start rfl forward past
    exact forward.timeAt_le window ordered past

/-- A clock that gets its anchor from a change of speed, is set while it is paused, and changes its
speed again before it goes on. -/
def soughtCalls : List (Call ℚ ℚ) :=
  [⟨.play, 0⟩, ⟨.setSpeed 2, 500000000⟩, ⟨.advance, 1000000000⟩, ⟨.pause, 2000000000⟩,
    ⟨.seek 10, 3000000000⟩, ⟨.setSpeed 4, 4000000000⟩, ⟨.play, 5000000000⟩,
    ⟨.advance, 5500000000⟩]

theorem run_timeAt_sought :
    Ordered soughtCalls 6000000000 ∧
      ((Clock.new 1 1000000000).run soughtCalls).timeAt 6000000000 = 14 := by
  have ordered : Ordered soughtCalls 6000000000 := by decide
  refine ⟨ordered, (run_timeAt 1 1000000000 ordered).1.trans ?_⟩
  decide +kernel

end Clock

end LiveFragment
