import LiveFragment.Proofs.Clock.Elapsed
import LiveFragment.Proofs.Number.Exact
import LiveFragment.Proofs.Number.Unpacked

/-! The time that a clock tells at its first tick. It is zero as long as the clock has not played
since it was anchored, and the first tick is not all that anchors it: a change of speed does, and so
does a pause, which playing then ends. -/

namespace LiveFragment

open LiveFragment.Number

namespace Clock

variable {S R : Type}

/-- Whether a clock plays for some time behind one of some further calls, once it is anchored. -/
def plays (before : List (Call S R)) : List (Call S R) → Nat → Bool
  | [], _ => false
  | call :: rest, now =>
    let stop := (rest.head?.map Call.instant).getD now
    (anchored (before ++ [call]) && latest Control.mode? true (before ++ [call]) &&
      decide (call.instant < stop)) || plays (before ++ [call]) rest now

theorem plays_append_singleton (before calls : List (Call S R)) (last : Call S R) (now : Nat) :
    plays before (calls ++ [last]) now = (plays before calls last.instant ||
      (anchored (before ++ calls ++ [last]) &&
        latest Control.mode? true (before ++ calls ++ [last]) && decide (last.instant < now))) := by
  induction calls generalizing before with
  | nil =>
    simp only [plays, List.nil_append, List.append_nil, List.head?_nil, Option.map_none,
      Option.getD_none, Bool.or_false, Bool.false_or]
    rfl
  | cons call rest ih =>
    have further := ih (before ++ [call])
    rw [List.append_assoc before [call] rest, List.singleton_append] at further
    simp only [List.cons_append, plays, next_append_singleton, further, Bool.or_assoc]

/-- The speeds of a clock, the first and those that it is given. -/
structure Speeds (P : R → Prop) (initial : R) (calls : List (Call S R)) : Prop where
  initial : P initial
  told : ∀ call ∈ calls, ∀ speed, call.control.speed? = some speed → P speed

/-- Calls none of which sets the time. -/
def Smooth (calls : List (Call S R)) : Prop := ∀ call ∈ calls, call.control.sets = false

instance (calls : List (Call S R)) : Decidable (Smooth calls) :=
  inferInstanceAs (Decidable (∀ call ∈ calls, _))

section Induction

variable {P : R → Prop} {initial : R} {calls : List (Call S R)} {last : Call S R}

theorem Speeds.dropLast (speeds : Speeds P initial (calls ++ [last])) : Speeds P initial calls where
  initial := speeds.initial
  told call member := speeds.told call (List.mem_append_left _ member)

theorem Speeds.latest (speeds : Speeds P initial calls) :
    P (latest Control.speed? initial calls) :=
  latest_append [] speeds.initial speeds.told

theorem Speeds.advance (speeds : Speeds P initial calls) (now : Nat) :
    Speeds P initial (calls ++ [⟨.advance, now⟩]) where
  initial := speeds.initial
  told call member speed given := by
    rcases List.mem_append.mp member with earlier | last
    · exact speeds.told call earlier speed given
    · obtain rfl := List.mem_singleton.mp last
      cases given

theorem smooth_append_singleton :
    Smooth (calls ++ [last]) ↔ Smooth calls ∧ last.control.sets = false := by
  rw [Smooth, List.forall_mem_append, List.forall_mem_singleton, Smooth]

theorem Smooth.advance (smooth : Smooth calls) (now : Nat) :
    Smooth (calls ++ [⟨.advance, now⟩]) :=
  smooth_append_singleton.mpr ⟨smooth, rfl⟩

theorem plays_advance (calls : List (Call S R)) (now : Nat) :
    plays [] (calls ++ [⟨.advance, now⟩]) now = plays [] calls now := by
  simp [plays_append_singleton]

end Induction

section Rests

variable [Timescale S R] {P : R → Prop} {initial : R} {calls : List (Call S R)}

/-- A clock that shows the start goes on to show it, unless it plays from the call on. -/
theorem call_start {clock : Clock S R} {last : Call S R} {now : Nat}
    (smooth : last.control.sets = false) (base : clock.base = Timescale.start R)
    (time : clock.timeAt last.instant = Timescale.start R)
    (still : Timescale.add R (Timescale.start R) (Timescale.scale (Timescale.seconds R 0)
      (clock.call last).speed) = Timescale.start R)
    (rests : (clock.call last).playing = true → (clock.call last).anchor.isSome = true →
      now = last.instant) :
    (clock.call last).base = Timescale.start R ∧
      (clock.call last).timeAt now = Timescale.start R := by
  rcases clock.call_smooth smooth with ⟨held, kept⟩ | ⟨playing, speed, kept, anchor⟩
  · refine ⟨kept.trans time, ?_⟩
    cases playing : (clock.call last).playing with
    | false => rw [timeAt_still (.inl playing), kept, time]
    | true =>
      obtain rfl := rests playing (by rw [held]; rfl)
      rw [timeAt, playing, held, kept, time]
      simpa only [Nat.sub_self] using still
  · refine ⟨kept.trans base, ?_⟩
    have same (instant : Nat) : (clock.call last).timeAt instant = clock.timeAt instant := by
      simp only [timeAt, playing, speed, kept, anchor]
    by_cases runs : (clock.call last).playing = true ∧ (clock.call last).anchor.isSome = true
    · obtain rfl := rests runs.1 runs.2
      exact (same _).trans time
    · have idle : (clock.call last).playing = false ∨ (clock.call last).anchor = none := by
        rw [Decidable.not_and_iff_or_not] at runs
        simpa using runs
      rw [timeAt_still idle, kept, base]

variable (still : ∀ speed, P speed → Timescale.add R (Timescale.start R)
  (Timescale.scale (Timescale.seconds R 0) speed) = Timescale.start R)

include still

/-- As long as it has not played, a clock shows the start. -/
theorem run_start (window : Nat) (smooth : Smooth calls) (speeds : Speeds P initial calls) :
    ∀ now, Ordered calls now → plays [] calls now = false →
      ((Clock.new initial window).run calls).base = Timescale.start R ∧
        ((Clock.new initial window).run calls).timeAt now = Timescale.start R := by
  induction calls using List.reverseRecOn with
  | nil => exact fun _ _ _ => ⟨rfl, rfl⟩
  | append_singleton calls last ih =>
    intro now ordered quiet
    obtain ⟨smooth, smoothly⟩ := smooth_append_singleton.mp smooth
    obtain ⟨earlier, after⟩ := ordered_append_singleton ordered
    rw [plays_append_singleton, Bool.or_eq_false_iff, List.nil_append] at quiet
    obtain ⟨base, time⟩ := ih smooth speeds.dropLast last.instant earlier quiet.1
    have tracks := Tracks.run initial window (calls ++ [last])
    rw [run_append_singleton] at tracks ⊢
    refine call_start smoothly base time (still _ ?_) fun playing anchored => ?_
    · rw [tracks.speed]
      exact speeds.latest
    · rw [tracks.playing] at playing
      rw [tracks.anchored] at anchored
      have passed : ¬last.instant < now := by
        simpa [playing, anchored] using quiet.2
      omega

theorem advance_start (window : Nat) {now : Nat} (smooth : Smooth calls)
    (speeds : Speeds P initial calls) (ordered : Ordered calls now)
    (quiet : plays [] calls now = false) :
    (((Clock.new initial window).run calls).advance now).1.time =
      Timescale.report (Timescale.start R) := by
  have last := run_start still window (smooth.advance now) (speeds.advance now) now
    (ordered.append (Nat.le_refl now))
  rw [plays_advance, run_append_singleton] at last
  exact congrArg Timescale.report (last quiet).2

end Rests

/-- A stretch at a speed above zero gains something if it is played and not empty. -/
theorem Stretch.gain_eq_zero_iff (stretch : Stretch) (forward : 0 < stretch.speed)
    (after : stretch.start ≤ stretch.stop) : 0 ≤ stretch.gain ∧
      (stretch.gain = 0 ↔
        (stretch.playing && decide (stretch.start < stretch.stop)) = false) := by
  unfold gain
  cases stretch.playing with
  | false => simp
  | true =>
    have length : (0 : ℚ) ≤ stretch.stop - stretch.start := sub_nonneg.mpr (Nat.cast_le.mpr after)
    refine ⟨by simpa using by positivity, ?_⟩
    have none : (stretch.stop - stretch.start : ℚ) = 0 ↔ ¬stretch.start < stretch.stop := by
      rw [sub_eq_zero, Nat.cast_inj]
      omega
    simp [forward.ne', none]

theorem elapsed_eq_zero_iff {initial : ℚ} {calls : List (Call ℚ ℚ)} (smooth : Smooth calls)
    (speeds : Speeds (0 < ·) initial calls) :
    ∀ now, Ordered calls now → 0 ≤ elapsed initial calls now ∧
      (elapsed initial calls now = 0 ↔ plays [] calls now = false) := by
  induction calls using List.reverseRecOn with
  | nil => simp [elapsed, latest, stretches, plays]
  | append_singleton calls last ih =>
    intro now ordered
    obtain ⟨smooth, smoothly⟩ := smooth_append_singleton.mp smooth
    obtain ⟨earlier, after⟩ := ordered_append_singleton ordered
    obtain ⟨before, begun⟩ := ih smooth speeds.dropLast last.instant earlier
    obtain ⟨gained, more⟩ := Stretch.gain_eq_zero_iff
      (stretchAfter initial (calls ++ [last]) last.instant now) speeds.latest after
    rw [elapsed_append_singleton, Control.jump?_eq_none_iff.mpr smoothly, Option.getD_none,
      plays_append_singleton, List.nil_append, Bool.or_eq_false_iff, ← begun]
    cases anchored (calls ++ [last]) with
    | false => simpa using before
    | true =>
      rw [if_pos rfl, Bool.true_and, add_eq_zero_iff_of_nonneg before gained, more]
      exact ⟨add_nonneg before gained, Iff.rfl⟩

/-- A tick of a clock whose time was never set tells zero as long as the clock has not played since
it was anchored. Without rounding, and at speeds above zero, it tells zero only then. -/
theorem advance_time_start (window : Nat) {now : Nat} :
    (∀ (initial : Single) (calls : List (Call Double Single)), Smooth calls → Ordered calls now →
      Speeds (fun speed => speed.isFinite = true) initial calls → plays [] calls now = false →
      (((Clock.new initial window).run calls).advance now).1.time = .zero) ∧
    ∀ (initial : ℚ) (calls : List (Call ℚ ℚ)), Smooth calls → Ordered calls now →
      Speeds (0 < ·) initial calls →
      ((((Clock.new initial window).run calls).advance now).1.time = 0 ↔
        plays [] calls now = false) := by
  constructor
  · intro initial calls smooth ordered speeds quiet
    have still (speed : Single) (finite : speed.isFinite = true) :
        Timescale.add Single (Timescale.start Single)
          (Timescale.scale (Timescale.seconds Single 0) speed) = Timescale.start Single := by
      have none : Timescale.seconds Single 0 = Double.zero := by decide +kernel
      obtain ⟨sign, nothing⟩ :=
        Double.exists_unpack_zero_mul (Single.isFinite_toDouble finite)
      rw [none]
      exact Double.zero_add_of_unpack nothing
    exact advance_start still window smooth speeds ordered quiet
  · intro initial calls smooth ordered speeds
    have ticked : Ordered (calls ++ [⟨.advance, now⟩]) now := ordered.append (Nat.le_refl now)
    have told := (Follows.run initial window (calls ++ [⟨.advance, now⟩])).time now ticked
    have zero := (elapsed_eq_zero_iff (smooth.advance now) (speeds.advance now) now ticked).2
    rw [← told, plays_advance, run_append_singleton] at zero
    exact zero

/-- The speed is changed in a pause. -/
def pausedCalls : List (Call Double Single) :=
  [⟨.pause, 0⟩, ⟨.setSpeed ⟨0x40000000⟩, 500000000⟩]

theorem advance_time_start_paused :
    Smooth pausedCalls ∧ plays [] pausedCalls 1000000000 = false ∧
      (((Clock.new Single.one 1000000000).run pausedCalls).advance 1000000000).1.time =
        Single.zero := by
  have smooth : Smooth pausedCalls := by decide
  have ordered : Ordered pausedCalls 1000000000 := by decide
  have speeds : Speeds (fun speed => speed.isFinite = true) Single.one pausedCalls := by
    refine ⟨by decide +kernel, fun call member speed given => ?_⟩
    rcases List.mem_pair.mp member with rfl | rfl
    · cases given
    · obtain rfl := Option.some.inj given
      decide +kernel
  have quiet : plays [] pausedCalls 1000000000 = false := by decide
  exact ⟨smooth, quiet, (advance_time_start 1000000000).1 _ _ smooth ordered speeds quiet⟩

/-- A change of speed before the first tick anchors the clock, which then plays. -/
def hastyCalls : List (Call Double Single) := [⟨.setSpeed ⟨0x40000000⟩, 0⟩]

theorem advance_time_hasty :
    Smooth hastyCalls ∧ Ordered hastyCalls 1000000000 ∧
      (((Clock.new Single.one 1000000000).run hastyCalls).advance 1000000000).1.time =
        ⟨0x40000000⟩ ∧ (⟨0x40000000⟩ : Single) ≠ .zero :=
  ⟨by decide, by decide, by decide +kernel, by decide⟩

end Clock

end LiveFragment
