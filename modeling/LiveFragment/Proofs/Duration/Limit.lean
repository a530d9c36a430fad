import LiveFragment.Duration.Text
import LiveFragment.Proofs.Number.Pattern

namespace LiveFragment

open LiveFragment.Number

/-- A chain of steps fails in its first step, or in the others after it. -/
theorem bind_eq_error {ε α β : Type} {first : Except ε α} {next : α → Except ε β} {fault : ε} :
    (first >>= next) = .error fault ↔
      first = .error fault ∨ ∃ value, first = .ok value ∧ next value = .error fault := by
  cases first <;> simp [bind, Except.bind]

namespace Number

/-- A finite number that is not negative and reaches a bound, compared as `mantissa * 2 ^ exponent`. -/
def Reading.AtLeast (bound : Nat) : Reading → Prop
  | .finite false mantissa exponent =>
    bound * 2 ^ (-exponent).toNat ≤ mantissa * 2 ^ exponent.toNat
  | _ => False

theorem divideToEven_one (numerator : Nat) : divideToEven numerator 1 = numerator := by
  simp [divideToEven, Nat.mod_one]

theorem divideToEven_le (numerator denominator : Nat) :
    divideToEven numerator denominator ≤ numerator / denominator + 1 := by
  unfold divideToEven
  dsimp only
  split
  · omega
  · split <;> omega

theorem Double.signBit_eq {x : Double} {negative : Bool} {mantissa : Nat} {exponent : Int}
    (finite : x.reading = .finite negative mantissa exponent) : x.signBit = negative :=
  (Format.decode_eq_finite finite).2.2.2.symm

theorem Reading.AtLeast.isFinite {x : Double} {bound : Nat} (large : x.reading.AtLeast bound) :
    x.isFinite = true ∧ x.signBit = false := by
  cases read : x.reading with
  | nan => simp [read, AtLeast] at large
  | infinite => simp [read, AtLeast] at large
  | finite negative mantissa exponent =>
    rw [read] at large
    cases negative with
    | true => exact absurd large id
    | false => exact ⟨by rw [Double.isFinite, read], Double.signBit_eq read⟩

end Number

namespace Duration

theorem ofNanos?_eq_none {nanos : Nat} :
    ofNanos? nanos = none ↔ UInt64.size * nanosPerSecond ≤ nanos := by
  unfold ofNanos?
  split
  · rename_i fits
    simp [Nat.not_le_of_lt fits]
  · rename_i large
    simp [Nat.le_of_not_lt large]

/-- A number with a fraction is far below the limit, so that rounding to nanoseconds never reaches
it; a whole number is not rounded. -/
theorem limit_le_nanos {mantissa : Nat} (bounded : mantissa < 2 ^ 53) (exponent : Int) :
    UInt64.size * nanosPerSecond ≤
        divideToEven (mantissa * Nat.pow 2 exponent.toNat * nanosPerSecond)
          (Nat.pow 2 (-exponent).toNat) ↔
      UInt64.size * 2 ^ (-exponent).toNat ≤ mantissa * 2 ^ exponent.toNat := by
  have size : UInt64.size = 2 ^ 64 := rfl
  have second : 0 < nanosPerSecond := by decide
  by_cases whole : 0 ≤ exponent
  · have power : (-exponent).toNat = 0 := by omega
    rw [power, Nat.pow_eq, Nat.pow_eq, Nat.pow_zero, divideToEven_one, Nat.mul_one]
    exact Nat.mul_le_mul_right_iff second
  · have power : exponent.toNat = 0 := by omega
    rw [power, Nat.pow_eq, Nat.pow_eq, Nat.pow_zero, Nat.mul_one]
    apply iff_of_false
    · have rounded := divideToEven_le (mantissa * nanosPerSecond) (2 ^ (-exponent).toNat)
      have cut := Nat.div_le_self (mantissa * nanosPerSecond) (2 ^ (-exponent).toNat)
      have most := Nat.mul_le_mul_right nanosPerSecond (Nat.le_of_lt bounded)
      have far : 2 ^ 53 * nanosPerSecond + 1 < UInt64.size * nanosPerSecond := by decide
      omega
    · have unit := Nat.mul_le_mul_left UInt64.size (Nat.two_pow_pos (-exponent).toNat)
      omega

/-- A finite number that is not negative has no duration exactly from the limit on. -/
theorem ofSeconds?_eq_none {seconds : Double} (finite : seconds.isFinite = true)
    (positive : seconds.signBit = false) :
    ofSeconds? seconds = none ↔ seconds.reading.AtLeast UInt64.size := by
  cases read : seconds.reading with
  | nan => simp [Double.isFinite, read] at finite
  | infinite negative => simp [Double.isFinite, read] at finite
  | finite negative mantissa exponent =>
    obtain rfl : negative = false := (Double.signBit_eq read).symm.trans positive
    have bounded : mantissa < 2 ^ 53 := (Format.decode_eq_finite read).1.fits
    simp only [ofSeconds?, read, Bool.false_eq_true, false_and, if_false, ofNanos?_eq_none,
      limit_le_nanos bounded]
    rfl

/-- A sum that is a full second of nanoseconds away from what durations can hold: its seconds are
the most there are, and its nanoseconds are one second. -/
def Brims (total : Duration) (amount : Amount) : Prop :=
  total.subsecondNanos + amount.nanosPart = nanosPerSecond ∧
    total.nanos + amount.secondsPart * nanosPerSecond + amount.nanosPart =
      UInt64.size * nanosPerSecond

theorem add_tooLong {total : Duration} {amount : Amount} :
    add total amount = .error .tooLong ↔ Brims total amount := by
  unfold add Brims
  dsimp only
  split
  · rename_i large
    simp only [Except.error.injEq, reduceCtorEq, false_iff, not_and]
    intro second
    rw [second] at large
    exact absurd large (by decide)
  · split
    · rename_i found
      simp only [reduceCtorEq, false_iff, not_and]
      intro _ full
      have none := ofNanos?_eq_none.mpr (Nat.le_of_eq full.symm)
      rw [found] at none
      cases none
    · split
      · rename_i full
        exact iff_of_true rfl full
      · rename_i other
        simp [other]

/-- The whole units of a span. -/
def Span.whole? (span : Span) : Option Amount := do
  let unit ← timeUnit? span.unit
  let count ← (Text.digits? span.digits).filter (· < UInt64.size)
  unit.whole.times? count

/-- The fraction of a unit in a span that has one. -/
def Span.more? (span : Span) : Option Amount := do
  let unit ← timeUnit? span.unit
  part? unit (← span.fraction)

/-- Adding up spans comes to an amount: all that stands before it in the text has been added. -/
inductive Comes : Duration → List (Option Span) → Duration → Amount → Prop
  | whole {total : Duration} {span : Span} {rest : List (Option Span)} {amount : Amount}
    (spelled : span.whole? = some amount) : Comes total (some span :: rest) total amount
  | more {total next : Duration} {span : Span} {rest : List (Option Span)} {amount more : Amount}
    (spelled : span.whole? = some amount) (added : add total amount = .ok next)
    (fraction : span.more? = some more) : Comes total (some span :: rest) next more
  | later {total next reached : Duration} {span : Span} {rest : List (Option Span)}
    {amount : Amount} (added : span.addTo total = .ok next)
    (comes : Comes next rest reached amount) : Comes total (some span :: rest) reached amount

theorem orMalformed_ne_tooLong {α : Type} {result : Option α} :
    orMalformed result ≠ .error .tooLong := by
  cases result <;> nofun

theorem orMalformed_eq_ok {α : Type} {result : Option α} {value : α} :
    orMalformed result = .ok value ↔ result = some value := by
  cases result <;> simp [orMalformed]

theorem addTo_tooLong {span : Span} {total : Duration} :
    span.addTo total = .error .tooLong ↔
      ∃ amount, span.whole? = some amount ∧
        (Brims total amount ∨ ∃ next more, add total amount = .ok next ∧
          span.more? = some more ∧ Brims next more) := by
  simp only [Span.addTo, bind_eq_error, orMalformed_ne_tooLong, orMalformed_eq_ok, false_or,
    add_tooLong, Span.whole?, Span.more?, Option.bind_eq_bind, Option.bind_eq_some_iff]
  constructor
  · rintro ⟨unit, named, count, counted, amount, times, brims | ⟨next, added, broken⟩⟩
    · exact ⟨amount, ⟨unit, named, count, counted, times⟩, .inl brims⟩
    · split at broken
      · cases broken
      · rename_i digits given
        simp only [bind_eq_error, orMalformed_ne_tooLong, orMalformed_eq_ok, false_or,
          add_tooLong] at broken
        obtain ⟨more, parted, brims⟩ := broken
        exact ⟨amount, ⟨unit, named, count, counted, times⟩,
          .inr ⟨next, more, added, ⟨unit, named, digits, given, parted⟩, brims⟩⟩
  · rintro ⟨amount, ⟨unit, named, count, counted, times⟩, brims | ⟨next, more, added, given, brims⟩⟩
    · exact ⟨unit, named, count, counted, amount, times, .inl brims⟩
    · obtain ⟨_, same, digits, given, parted⟩ := given
      cases named.symm.trans same
      refine ⟨unit, named, count, counted, amount, times, .inr ⟨next, added, ?_⟩⟩
      simp only [given, parted, bind_eq_error, orMalformed_eq_ok, add_tooLong]
      exact .inr ⟨more, rfl, brims⟩

theorem sum_tooLong {total : Duration} {spans : List (Option Span)} :
    sum total spans = .error .tooLong ↔
      ∃ reached amount, Comes total spans reached amount ∧ Brims reached amount := by
  constructor
  · intro broken
    induction spans generalizing total with
    | nil => cases broken
    | cons first rest ih =>
      cases first with
      | none => cases broken
      | some span =>
        rw [sum, bind_eq_error, addTo_tooLong] at broken
        rcases broken with ⟨amount, spelled, brims | ⟨next, more, added, fraction, brims⟩⟩ |
          ⟨next, added, broken⟩
        · exact ⟨total, amount, .whole spelled, brims⟩
        · exact ⟨next, more, .more spelled added fraction, brims⟩
        · obtain ⟨reached, amount, comes, brims⟩ := ih broken
          exact ⟨reached, amount, .later added comes, brims⟩
  · rintro ⟨reached, amount, comes, brims⟩
    induction comes with
    | whole spelled =>
      rw [sum, bind_eq_error, addTo_tooLong]
      exact .inl ⟨_, spelled, .inl brims⟩
    | more spelled added fraction =>
      rw [sum, bind_eq_error, addTo_tooLong]
      exact .inl ⟨_, spelled, .inr ⟨_, _, added, fraction, brims⟩⟩
    | later added _ ih =>
      rw [sum, bind_eq_error]
      exact .inr ⟨_, added, ih brims⟩

/-- The text of a duration breaks off at a sum over the limit. -/
theorem parse_tooLong {text : String} :
    parse text = .error .tooLong ↔
      text ≠ "0" ∧ ∃ reached amount, Comes zero (spans text.toList) reached amount ∧
        Brims reached amount := by
  rw [← sum_tooLong, parse]
  split
  · rename_i lone
    simp [lone]
  · rename_i several
    split
    · rename_i none
      simp [none, sum]
    · simp [several]

end Duration

end LiveFragment
