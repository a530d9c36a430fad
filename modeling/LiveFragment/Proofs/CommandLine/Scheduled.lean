import LiveFragment.CommandLine.Rendering
import LiveFragment.Proofs.Duration.Limit
import LiveFragment.Proofs.Number.Reciprocal

namespace LiveFragment

open LiveFragment.Number

namespace Number

/-- The number that is read, if it is a finite one. -/
def Reading.value : Reading → ℚ
  | .finite negative mantissa exponent =>
    (if negative then -1 else 1) * (mantissa * 2 ^ exponent)
  | _ => 0

def Single.value (x : Single) : ℚ := x.reading.value

/-- Between two neighbours in single precision there is no third number. -/
theorem next_le {mantissa : Nat} (fits : mantissa < 2 ^ 24) {exponent unit : Int} {count : Nat}
    (large : 2 ^ 23 ≤ count) (above : (count : ℚ) * 2 ^ unit < mantissa * 2 ^ exponent) :
    ((count + 1 : Nat) : ℚ) * 2 ^ unit ≤ mantissa * 2 ^ exponent := by
  have positive : (0 : ℚ) < 2 ^ unit := by positivity
  rcases le_or_gt unit exponent with coarse | fine
  · -- the number is a whole number of units
    obtain ⟨more, rfl⟩ := Int.le.dest coarse
    have same : (mantissa : ℚ) * 2 ^ (unit + more) = (mantissa * 2 ^ more : Nat) * 2 ^ unit := by
      rw [zpow_add₀ two_ne_zero, zpow_natCast]
      push_cast
      ring
    rw [same, mul_lt_mul_iff_left₀ positive] at above
    rw [same, mul_le_mul_iff_left₀ positive]
    exact_mod_cast (by exact_mod_cast above : count < mantissa * 2 ^ more)
  · -- in finer units 24 bits do not reach so far
    have small : (2 : ℚ) ^ (exponent + 1) ≤ 2 ^ unit := zpow_le_zpow_right₀ one_le_two (by omega)
    rw [zpow_add_one₀ two_ne_zero] at small
    have bits : (mantissa : ℚ) ≤ 2 ^ 24 := by exact_mod_cast fits.le
    have reached : (2 : ℚ) ^ 23 ≤ count := by exact_mod_cast large
    have scaled := mul_le_mul_of_nonneg_right bits (by positivity : (0 : ℚ) ≤ 2 ^ exponent)
    have scaled' := mul_le_mul_of_nonneg_right reached positive.le
    exact absurd above (by linarith)

end Number

namespace CommandLine

theorem exists_of_isRate {rate : Single} (accepted : isRate rate = true) :
    ∃ mantissa exponent, rate.reading = .finite false mantissa exponent ∧ 0 < mantissa := by
  simp only [isRate, Bool.and_eq_true, Bool.not_eq_true'] at accepted
  obtain ⟨⟨finite, nonzero⟩, upward⟩ := accepted
  cases read : rate.reading with
  | nan => simp [Single.isFinite, read] at finite
  | infinite => simp [Single.isFinite, read] at finite
  | finite negative mantissa exponent =>
    obtain ⟨canonical, same, -, sign⟩ := Format.decode_eq_finite read
    have number : rate.isNaN = false := by simp [Single.isNaN, read]
    obtain rfl : negative = false := by
      simpa [Single.isNegative, number, nonzero, sign] using upward
    refine ⟨mantissa, exponent, rfl, Nat.pos_of_ne_zero ?_⟩
    rintro rfl
    have bottom : exponent = Format.single.lowest := by
      by_contra above
      have full := canonical.large (lt_of_le_of_ne canonical.lowest (Ne.symm above))
      exact absurd full (by decide)
    subst bottom
    have empty : Format.single.pattern 0 Format.single.lowest = 0 := rfl
    simp [Single.isZero, same, empty] at nonzero

namespace Schedule

/-- The time between two frames, in whole nanoseconds: one over the rate, and no whole number of
seconds with 53 bits lies between both. -/
theorem exists_interval {rate : Single} (accepted : isRate rate = true) :
    0 < rate.value ∧ ∃ nanos, interval? rate = Duration.ofNanos? nanos ∧
      ∀ n : Nat, n ≤ 2 ^ 53 → ∀ count : Nat,
        (((n * 2 ^ count : Nat) : ℚ) ≤ 1 / rate.value →
          n * 2 ^ count * nanosPerSecond ≤ nanos) ∧
        (1 / rate.value ≤ ((n * 2 ^ count : Nat) : ℚ) →
          nanos ≤ n * 2 ^ count * nanosPerSecond) := by
  obtain ⟨mantissa, exponent, read, some⟩ := exists_of_isRate accepted
  obtain ⟨mantissa', exponent', wide, same, full, lowest, highest⟩ :=
    Single.full_toDouble read some
  have value : rate.value = mantissa' * 2 ^ exponent' := by
    rw [Single.value, read, Reading.value, ← same]
    simp
  have positive : 0 < rate.value := by
    rw [value]
    have : 0 < mantissa' := by omega
    positivity
  obtain ⟨last, final, quotient, bounds⟩ := Double.one_div_bounds wide full lowest highest
  refine ⟨positive, divideToEven (last * Nat.pow 2 final.toNat * nanosPerSecond)
    (Nat.pow 2 (-final).toNat), ?_, fun n short count => ?_⟩
  · rw [interval?, Duration.ofSeconds?, quotient]
    simp
  · have unit : 0 < Nat.pow 2 (-final).toNat := Nat.two_pow_pos _
    have second : (0 : ℚ) < nanosPerSecond := by norm_num [nanosPerSecond]
    have exact : ((last * Nat.pow 2 final.toNat * nanosPerSecond : Nat) : ℚ) /
        (Nat.pow 2 (-final).toNat : Nat) = last * 2 ^ final * nanosPerSecond := by
      have power := zpow_eq_div two_pos final
      rw [Nat.cast_ofNat] at power
      rw [power]
      push_cast [Nat.pow_eq]
      ring
    have whole : ((n * 2 ^ count : Nat) : ℚ) = n * 2 ^ (count : Int) := by
      rw [zpow_natCast]
      push_cast
      rfl
    obtain ⟨below, above⟩ := divideToEven_bounds (last * Nat.pow 2 final.toNat * nanosPerSecond)
      unit (n * 2 ^ count * nanosPerSecond)
    rw [exact, Nat.cast_mul, mul_le_mul_iff_left₀ second, whole] at below above
    rw [whole, value]
    exact ⟨fun le => below ((bounds n short count).1 le),
      fun le => above ((bounds n short count).2 le)⟩

theorem isSome_ofNanos? {nanos : Nat} :
    (Duration.ofNanos? nanos).isSome = true ↔ nanos < UInt64.size * nanosPerSecond := by
  rw [← Nat.not_le, ← Duration.ofNanos?_eq_none, Option.isSome_iff_ne_none]

theorem nanos_of_ofNanos? {nanos : Nat} {interval : Duration}
    (found : Duration.ofNanos? nanos = some interval) : interval.nanos = nanos := by
  unfold Duration.ofNanos? at found
  split at found
  · rw [← Option.some.inj found]
  · cases found

section Rate

variable {rate : Single} (accepted : isRate rate = true)

include accepted

theorem next_rate_le {unit : Int} {count : Nat} (large : 2 ^ 23 ≤ count)
    (above : (count : ℚ) * 2 ^ unit < rate.value) :
    ((count + 1 : Nat) : ℚ) * 2 ^ unit ≤ rate.value := by
  obtain ⟨mantissa, exponent, read, -⟩ := exists_of_isRate accepted
  have fits : mantissa < 2 ^ 24 := (Format.decode_eq_finite read).1.fits
  have value : rate.value = mantissa * 2 ^ exponent := by
    rw [Single.value, read, Reading.value]
    simp
  rw [value] at above ⊢
  exact next_le fits large above

/-- The steps of a rate are durations exactly above `2 ^ (-64)` frames per second. -/
theorem isSome_interval? :
    (interval? rate).isSome = true ↔ (2 : ℚ) ^ (-64 : Int) < rate.value := by
  obtain ⟨positive, nanos, found, bounds⟩ := exists_interval accepted
  rw [found, isSome_ofNanos?]
  constructor
  · intro short
    by_contra low
    have long : ((1 * 2 ^ 64 : Nat) : ℚ) ≤ 1 / rate.value := by
      rw [le_div_iff₀ positive]
      have := mul_le_mul_of_nonneg_left (not_lt.mp low) (by norm_num : (0 : ℚ) ≤ 2 ^ 64)
      norm_num at this ⊢
      linarith
    exact absurd short (Nat.not_lt.mpr ((bounds 1 (by decide) 64).1 long))
  · intro high
    have above : ((2 ^ 23 : Nat) : ℚ) * 2 ^ (-87 : Int) < rate.value := by
      norm_num at high ⊢
      exact high
    have next := next_rate_le accepted le_rfl above
    have short : 1 / rate.value ≤ (((2 ^ 53 - 1) * 2 ^ 11 : Nat) : ℚ) := by
      rw [div_le_iff₀ positive]
      have := mul_le_mul_of_nonneg_left next (by norm_num : (0 : ℚ) ≤ (2 ^ 53 - 1) * 2 ^ 11)
      norm_num at this ⊢
      linarith
    exact Nat.lt_of_le_of_lt ((bounds _ (by decide) 11).2 short) (by decide)

/-- From `2 ^ (-31)` frames per second on, a step is at most `2 ^ 31` seconds long. -/
theorem nanos_le {interval : Duration} (found : interval? rate = some interval)
    (high : (2 : ℚ) ^ (-31 : Int) ≤ rate.value) : interval.nanos ≤ 2 ^ 31 * nanosPerSecond := by
  obtain ⟨positive, nanos, same, bounds⟩ := exists_interval accepted
  rw [nanos_of_ofNanos? (same.symm.trans found), ← Nat.one_mul (2 ^ 31)]
  refine (bounds 1 (by decide) 31).2 ?_
  rw [div_le_iff₀ positive]
  have := mul_le_mul_of_nonneg_left high (by norm_num : (0 : ℚ) ≤ 2 ^ 31)
  norm_num at this ⊢
  linarith

theorem le_nanos {interval : Duration} (found : interval? rate = some interval)
    (low : rate.value < (2 : ℚ) ^ (-31 : Int)) :
    (2 ^ 24 + 1) * 2 ^ 7 * nanosPerSecond ≤ interval.nanos := by
  obtain ⟨positive, nanos, same, bounds⟩ := exists_interval accepted
  rw [nanos_of_ofNanos? (same.symm.trans found)]
  refine (bounds (2 ^ 24 + 1) (by decide) 7).1 ?_
  have under : rate.value ≤ ((2 ^ 24 - 1 : Nat) : ℚ) * 2 ^ (-55 : Int) := by
    by_contra above
    have next := next_rate_le accepted (by decide) (not_le.mp above)
    norm_num at next low
    linarith
  rw [le_div_iff₀ positive]
  have := mul_le_mul_of_nonneg_left under (by norm_num : (0 : ℚ) ≤ (2 ^ 24 + 1) * 2 ^ 7)
  norm_num at this ⊢
  linarith

end Rate

/-- The instants of the first frames of a rendering, if there is one for each of them. -/
def instants? (start : Nat) (rate : Single) (frames : Nat) : Option (List Nat) :=
  (interval? rate).bind fun interval => (List.range frames).mapM (instant? start interval)

/-- Instants at equal steps from a start on, none of them beyond what the clock can count. -/
structure Spaced (start step count : Nat) (instants : List Nat) : Prop where
  length : instants.length = count
  get : ∀ index (here : index < instants.length), instants[index] = start + step * index
  ordered : instants.Pairwise (· ≤ ·)
  counted : ∀ instant ∈ instants, instant < horizon

section Instants

variable {start : Nat} {interval : Duration}

theorem instant?_eq (index : Nat) : instant? start interval index =
    if start + interval.nanos * index < horizon then some (start + interval.nanos * index)
    else none := by
  have shorter : horizon ≤ UInt64.size * nanosPerSecond := by decide
  by_cases near : interval.nanos * index < UInt64.size * nanosPerSecond
  · simp [instant?, passed?, Duration.ofNanos?, later?, near]
  · have beyond : ¬start + interval.nanos * index < horizon := by omega
    simp [instant?, passed?, Duration.ofNanos?, near, beyond]

@[simp] theorem isSome_instant? {index : Nat} :
    (instant? start interval index).isSome = true ↔
      start + interval.nanos * index < horizon := by
  simp [instant?_eq]

theorem mapM_instant? (indices : List Nat) : indices.mapM (instant? start interval) =
    if ∀ index ∈ indices, start + interval.nanos * index < horizon
    then some (indices.map fun index => start + interval.nanos * index) else none := by
  induction indices with
  | nil => simp
  | cons index rest ih =>
    rw [List.mapM_cons, instant?_eq, ih]
    by_cases here : start + interval.nanos * index < horizon
    · simp only [here, if_true, List.forall_mem_cons, true_and]
      split <;> rfl
    · simp [here]

variable {rate : Single} (found : interval? rate = some interval)

include found

theorem isSome_instants? {frames : Nat} (some : 0 < frames) :
    (instants? start rate frames).isSome = true ↔
      start + interval.nanos * (frames - 1) < horizon := by
  simp only [instants?, found, Option.bind_some, mapM_instant?, List.mem_range,
    Option.isSome_ite]
  constructor
  · intro all
    exact all (frames - 1) (by omega)
  · intro last index among
    have before := Nat.mul_le_mul_left interval.nanos (Nat.le_sub_one_of_lt among)
    omega

theorem spaced_of_instants? {frames : Nat} {instants : List Nat}
    (all : instants? start rate frames = some instants) :
    Spaced start interval.nanos frames instants := by
  simp only [instants?, found, Option.bind_some, mapM_instant?, List.mem_range] at all
  split at all
  case isTrue counted =>
    obtain rfl := Option.some.inj all
    refine ⟨by simp, fun index here => by simp, ?_, by simpa using counted⟩
    refine List.Pairwise.map _ (fun index later before => ?_) List.pairwise_lt_range
    exact Nat.add_le_add_left (Nat.mul_le_mul_left _ (Nat.le_of_lt before)) start
  case isFalse => cases all

end Instants

/-- As many frames as can be asked for have their instants from `2 ^ (-31)` frames per second
on, unless the clock has been running for `2 ^ 32` seconds. -/
theorem isSome_all_instants? {rate : Single} (accepted : isRate rate = true) {start : Nat}
    (soon : start < 2 ^ 32 * nanosPerSecond) :
    (∀ frames : UInt32, (instants? start rate frames.toNat).isSome = true) ↔
      (2 : ℚ) ^ (-31 : Int) ≤ rate.value := by
  constructor
  · intro all
    by_contra low
    have most := all (UInt32.ofNat (2 ^ 32 - 1))
    obtain ⟨interval, found⟩ : ∃ interval, interval? rate = some interval := by
      cases found : interval? rate with
      | none => simp [instants?, found] at most
      | some interval => exact ⟨interval, rfl⟩
    have late := (isSome_instants? found (by decide)).mp most
    have long := Nat.mul_le_mul_right (2 ^ 32 - 2) (le_nanos accepted found (not_le.mp low))
    have far : horizon ≤ (2 ^ 24 + 1) * 2 ^ 7 * nanosPerSecond * (2 ^ 32 - 2) := by decide
    have last : (UInt32.ofNat (2 ^ 32 - 1)).toNat - 1 = 2 ^ 32 - 2 := by decide
    rw [last] at late
    omega
  · intro high frames
    have enough : (interval? rate).isSome = true :=
      (isSome_interval? accepted).mpr (lt_of_lt_of_le (by norm_num) high)
    obtain ⟨interval, found⟩ := Option.isSome_iff_exists.mp enough
    rcases Nat.eq_zero_or_pos frames.toNat with none | some
    · simp [instants?, found, none]
    · rw [isSome_instants? found some]
      have last : frames.toNat - 1 ≤ 2 ^ 32 - 2 := by
        have := frames.toNat_lt
        omega
      have near := Nat.mul_le_mul (nanos_le accepted found high) last
      have room : 2 ^ 31 * nanosPerSecond * (2 ^ 32 - 2) + 2 ^ 32 * nanosPerSecond = horizon := by
        decide
      omega

end Schedule

section Frames

open LiveFragment.Backend

variable {σ : Type} [Backend σ]

theorem startEngine_ne_unscheduled {backend : σ} {options : Engine.Options}
    {file source : String} : startEngine backend options file source ≠ .error .unscheduled := by
  unfold startEngine
  split
  · nofun
  · split <;> nofun

omit [Backend σ] in
theorem assignAll_ne_unscheduled {assignments : List Assignment} {engine : Engine σ} :
    assignAll engine assignments ≠ .error .unscheduled := by
  induction assignments generalizing engine with
  | nil => nofun
  | cons assignment rest ih =>
    unfold assignAll
    split
    · nofun
    · exact ih

theorem capture_ne_unscheduled {engine : Engine σ} {width height : UInt32} :
    capture engine width height ≠ .error .unscheduled := by
  unfold capture
  split
  · nofun
  · dsimp only
    split
    · nofun
    · split <;> nofun

/-- Frames are drawn at their instants, and only a frame without one is not scheduled. -/
theorem drawFrames_scheduled (start : Nat) (interval : Duration) (count : Nat) :
    ∀ (index : Nat) (engine : Engine σ),
      (∀ drawn, drawFrames start interval engine index count = .ok drawn →
        ∀ i < count, (Schedule.instant? start interval (index + i)).isSome = true) ∧
      (drawFrames start interval engine index count = .error .unscheduled →
        ∃ i < count, Schedule.instant? start interval (index + i) = none) := by
  induction count with
  | zero =>
    refine fun _ _ => ⟨fun _ _ i among => absurd among (Nat.not_lt_zero i), fun failed => ?_⟩
    cases failed
  | succ count ih =>
    intro index engine
    unfold drawFrames
    cases here : Schedule.instant? start interval index with
    | none =>
      refine ⟨fun drawn finished => ?_, fun _ => ⟨0, Nat.zero_lt_succ count, here⟩⟩
      cases finished
    | some now =>
      dsimp only
      split
      · obtain ⟨drawn, missed⟩ := ih (index + 1) (engine.render now).2.takeEvents.2
        constructor
        · intro last finished i among
          cases i with
          | zero => simp [here]
          | succ i =>
            have later := drawn last finished i (Nat.lt_of_succ_lt_succ among)
            rwa [Nat.add_right_comm] at later
        · intro failed
          obtain ⟨i, among, later⟩ := missed failed
          exact ⟨i + 1, Nat.succ_lt_succ among, by rwa [Nat.add_right_comm] at later⟩
      · constructor
        · intro last finished
          cases finished
        · intro failed
          cases failed

theorem exists_of_bind_eq_ok {α β : Type} {first : Except Failure α} {next : α → Except Failure β}
    {result : β} (both : first >>= next = .ok result) :
    ∃ middle, first = .ok middle ∧ next middle = .ok result := by
  cases first with
  | error failure => cases both
  | ok middle => exact ⟨middle, rfl, both⟩

theorem of_bind_eq_error {α β : Type} {first : Except Failure α} {next : α → Except Failure β}
    {failure : Failure} (failed : first >>= next = .error failure) :
    first = .error failure ∨ ∃ middle, first = .ok middle ∧ next middle = .error failure := by
  cases first with
  | error _ => exact .inl (by cases failed; rfl)
  | ok middle => exact .inr ⟨middle, rfl, failed⟩

/-- A rendering that ends with a picture has had an instant for every frame, and one that ends for
want of an instant has not. -/
theorem renderOn_scheduled {backend : σ} {options : Engine.Options} {start : Nat}
    {job : RenderJob} {source : String} :
    (∀ picture, renderOn backend options start job source = .ok picture →
      (Schedule.instants? start job.rate job.frames.toNat).isSome = true) ∧
    (renderOn backend options start job source = .error .unscheduled →
      Schedule.instants? start job.rate job.frames.toNat = none) := by
  unfold renderOn Schedule.instants?
  constructor
  · intro picture finished
    obtain ⟨engine, -, finished⟩ := exists_of_bind_eq_ok finished
    obtain ⟨engine, -, finished⟩ := exists_of_bind_eq_ok finished
    cases found : Schedule.interval? job.rate with
    | none => simp [found] at finished
    | some interval =>
      rw [found] at finished
      obtain ⟨last, drawn, -⟩ := exists_of_bind_eq_ok finished
      have all := (drawFrames_scheduled start interval job.frames.toNat 0 engine).1 last drawn
      simpa [Schedule.mapM_instant?] using all
  · intro failed
    rcases of_bind_eq_error failed with refused | ⟨engine, -, failed⟩
    · exact absurd refused startEngine_ne_unscheduled
    rcases of_bind_eq_error failed with refused | ⟨engine, -, failed⟩
    · exact absurd refused assignAll_ne_unscheduled
    cases found : Schedule.interval? job.rate with
    | none => rfl
    | some interval =>
      rw [found] at failed
      rcases of_bind_eq_error failed with missed | ⟨last, -, failed⟩
      · obtain ⟨i, among, beyond⟩ :=
          (drawFrames_scheduled start interval job.frames.toNat 0 engine).2 missed
        simp only [Schedule.instant?_eq, Nat.zero_add, ite_eq_right_iff, reduceCtorEq,
          imp_false] at beyond
        simpa [Schedule.mapM_instant?] using ⟨i, among, Nat.not_lt.mp beyond⟩
      · exact absurd failed capture_ne_unscheduled

end Frames

namespace RenderJob

section Accepted

variable {job : RenderJob} (accepted : job.fault? = none)

include accepted

/-- A job that is accepted has frames to draw, at a rate that is accepted. -/
theorem of_fault? : 0 < job.frames.toNat ∧ isRate job.rate = true := by
  unfold fault? at accepted
  split at accepted
  case isTrue => cases accepted
  case isFalse some =>
    split at accepted
    case isTrue => cases accepted
    case isFalse rate =>
      refine ⟨Nat.pos_of_ne_zero fun none => some ?_, by simpa using rate⟩
      exact UInt32.toNat_inj.mp none

/-- A job that is accepted has its schedule exactly if its rate is above `2 ^ (-64)` frames per
second and the last frame is not beyond what the clock can count; the instants are then equally
spaced. Unless the clock has counted `2 ^ 32` seconds before, it has one for every number of frames
that can be asked for exactly from `2 ^ (-31)` frames per second on. A rendering that ends with a
picture had its schedule, and one that ends for want of an instant had none. -/
theorem scheduled_iff (start : Nat) :
    ((Schedule.instants? start job.rate job.frames.toNat).isSome = true ↔
      ∃ interval, Schedule.interval? job.rate = some interval ∧
        start + interval.nanos * (job.frames.toNat - 1) < Schedule.horizon) ∧
    ((Schedule.interval? job.rate).isSome = true ↔ (2 : ℚ) ^ (-64 : Int) < job.rate.value) ∧
    (∀ interval instants, Schedule.interval? job.rate = some interval →
      Schedule.instants? start job.rate job.frames.toNat = some instants →
      Schedule.Spaced start interval.nanos job.frames.toNat instants) ∧
    (start < 2 ^ 32 * nanosPerSecond →
      ((∀ frames : UInt32, (Schedule.instants? start job.rate frames.toNat).isSome = true) ↔
        (2 : ℚ) ^ (-31 : Int) ≤ job.rate.value)) ∧
    ∀ {σ : Type} [Backend σ] (backend : σ) (options : Engine.Options) (source : String),
      (∀ picture, renderOn backend options start job source = .ok picture →
        (Schedule.instants? start job.rate job.frames.toNat).isSome = true) ∧
      (renderOn backend options start job source = .error .unscheduled →
        Schedule.instants? start job.rate job.frames.toNat = none) := by
  obtain ⟨some, rate⟩ := of_fault? accepted
  refine ⟨?_, Schedule.isSome_interval? rate, fun interval instants found all =>
    Schedule.spaced_of_instants? found all, Schedule.isSome_all_instants? rate,
    fun _ _ _ => renderOn_scheduled⟩
  constructor
  · intro all
    cases found : Schedule.interval? job.rate with
    | none => simp [Schedule.instants?, found] at all
    | some interval => exact ⟨interval, rfl, (Schedule.isSome_instants? found some).mp all⟩
  · rintro ⟨interval, found, last⟩
    exact (Schedule.isSome_instants? found some).mpr last

end Accepted

theorem scheduled_slow :
    let job : RenderJob := ⟨"slow.frag", 3, none, none, ⟨0x3e800000⟩, [], "slow.png"⟩
    job.fault? = none ∧ Schedule.instants? 500 job.rate 3 = some [500, 4000000500, 8000000500] ∧
      Schedule.Spaced 500 4000000000 3 [500, 4000000500, 8000000500] ∧
      (Schedule.instants? 500 job.rate (UInt32.ofNat (2 ^ 32 - 1)).toNat).isSome = true := by
  intro job
  have accepted : job.fault? = none := by decide +kernel
  have quarter : Schedule.interval? job.rate = some ⟨4000000000, by decide⟩ := by decide +kernel
  have instants : Schedule.instants? 500 job.rate 3 = some [500, 4000000500, 8000000500] := by
    decide +kernel
  have scheduled := scheduled_iff accepted 500
  refine ⟨accepted, instants, scheduled.2.2.1 _ _ quarter instants, ?_⟩
  refine (scheduled.2.2.2.1 (by decide)).mpr ?_ _
  have read : job.rate.reading = .finite false (2 ^ 23) (-25) := by decide +kernel
  rw [Single.value, read, Reading.value]
  norm_num

/-- One frame is asked for, of a rate that is accepted. -/
theorem scheduled_never :
    let job : RenderJob := ⟨"slow.frag", 1, none, none, ⟨0x0da24260⟩, [], "slow.png"⟩
    job.fault? = none ∧ ∀ start, Schedule.instants? start job.rate 1 = none := by
  intro job
  have rate : Schedule.interval? job.rate = none := by decide +kernel
  exact ⟨by decide +kernel, fun start => by rw [Schedule.instants?, rate, Option.bind_none]⟩

end RenderJob

end CommandLine

end LiveFragment
