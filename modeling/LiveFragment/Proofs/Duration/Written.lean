import LiveFragment.Duration.Text
import LiveFragment.Proofs.Text.Reading

namespace LiveFragment.Duration

open LiveFragment.Text

namespace Amount

/-- An amount in nanoseconds. -/
def worth (amount : Amount) : Nat := amount.secondsPart * nanosPerSecond + amount.nanosPart

theorem worth_seconds (count : Nat) : (seconds count).worth = count * nanosPerSecond := by
  rw [worth, secondsPart, nanosPart, Nat.add_zero]

theorem worth_nanos (count : Nat) : (nanos count).worth = count := by
  rw [worth, secondsPart, nanosPart, Nat.zero_mul, Nat.zero_add]

theorem times?_eq {amount : Amount} {count : Nat} (seconds : count * amount.secondsPart < UInt64.size)
    (nanos : count * amount.nanosPart < UInt64.size) :
    ∃ several, amount.times? count = some several ∧ several.worth = count * amount.worth ∧
      several.nanosPart = count * amount.nanosPart := by
  cases amount with
  | seconds length =>
    simp only [secondsPart] at seconds
    refine ⟨.seconds (count * length), ?_, ?_, ?_⟩
    · simp only [times?, word?, if_pos seconds, Option.map_some]
    · rw [worth_seconds, worth_seconds, Nat.mul_assoc]
    · rw [nanosPart, nanosPart, Nat.mul_zero]
  | nanos length =>
    simp only [nanosPart] at nanos
    refine ⟨.nanos (count * length), ?_, ?_, ?_⟩
    · simp only [times?, word?, if_pos nanos, Option.map_some]
    · rw [worth_nanos, worth_nanos]
    · rw [nanosPart, nanosPart]

end Amount

theorem add_eq_ok (total : Duration) {amount : Amount} (small : amount.nanosPart < nanosPerSecond)
    (fits : total.nanos + amount.worth < UInt64.size * nanosPerSecond) :
    add total amount = .ok ⟨total.nanos + amount.worth, fits⟩ := by
  have below : total.subsecondNanos < nanosPerSecond := Nat.mod_lt _ (by decide)
  have room : 2 * nanosPerSecond < UInt64.size := by decide
  unfold Amount.worth at fits
  unfold add
  dsimp only
  rw [if_neg (by omega), ofNanos?, dif_pos (by omega)]
  simp only [Amount.worth, Nat.add_assoc]

/-- So many of a unit, under one of its names. -/
structure Part (count : Nat) (name : String) (unit : TimeUnit) : Prop where
  named : timeUnit? name.toList = some unit
  nonempty : name.toList ≠ []
  letters : ∀ c ∈ name.toList, isUnitLetter c = true
  few : count < UInt64.size
  seconds : count * unit.whole.secondsPart < UInt64.size
  nanos : count * unit.whole.nanosPart < nanosPerSecond

/-- The nanoseconds that the unit of a name has. -/
def nanosOf (name : String) : Nat := ((timeUnit? name.toList).map (·.whole.worth)).getD 0

/-- The words for a part. -/
def spell (part : Nat × String) : List Char := (toString part.1 ++ part.2).toList

/-- What is read of these words. -/
def spanOf (part : Nat × String) : Span := ⟨(toString part.1).toList, none, part.2.toList⟩

theorem Part.addTo {part : Nat × String} {unit : TimeUnit} (spelled : Part part.1 part.2 unit)
    (total : Duration)
    (fits : total.nanos + part.1 * nanosOf part.2 < UInt64.size * nanosPerSecond) :
    (spanOf part).addTo total = .ok ⟨total.nanos + part.1 * nanosOf part.2, fits⟩ := by
  have room : nanosPerSecond < UInt64.size := by decide
  obtain ⟨several, times, worth, nanos⟩ :=
    Amount.times?_eq spelled.seconds (Nat.lt_trans spelled.nanos room)
  have same : several.worth = part.1 * nanosOf part.2 := by
    rw [worth, nanosOf, spelled.named]
    rfl
  have added := add_eq_ok total (nanos ▸ spelled.nanos) (same ▸ fits)
  simp only [same] at added
  have count : (digits? (toString part.1).toList).filter (· < UInt64.size) = some part.1 := by
    rw [digits?_toString, Option.filter_some, if_pos (by simpa using spelled.few)]
  simp only [Span.addTo, spanOf, spelled.named, orMalformed, count, bind, Except.bind, times, added]

theorem isUnitLetter_iff {c : Char} : isUnitLetter c = true ↔
    (97 ≤ c.toNat ∧ c.toNat ≤ 122) ∨ (65 ≤ c.toNat ∧ c.toNat ≤ 90) ∨ c.toNat = 0xb5 := by
  have micro : c = 'µ' ↔ c.toNat = 0xb5 := by
    rw [← Char.toNat_inj]
    rfl
  simp [isUnitLetter, Char.le_def, UInt32.le_iff_toNat_le, or_assoc, micro]

theorem isDigitOrBlank_of_isUnitLetter {c : Char} (letter : isUnitLetter c = true) :
    isDigitOrBlank c = false := by
  rw [isUnitLetter_iff] at letter
  have digit : isDigit c = false := by
    rw [← Bool.not_eq_true, isDigit_iff]
    omega
  rw [isDigitOrBlank, digit, isBlank_eq_false (by omega) (by omega)]
  rfl

theorem spans_cons {text rest tail : List Char} {c : Char} {fraction : Option (List Char)}
    (start : trimStart text = c :: rest) (digit : isDigit c = true)
    (behind : fraction? (rest.dropWhile isDigitOrBlank) = some (fraction, tail))
    (ends : endsUnit (tail.dropWhile isUnitLetter) = true) :
    spans text =
      some ⟨c :: (rest.takeWhile isDigitOrBlank).filter isDigit, fraction,
        tail.takeWhile isUnitLetter⟩ :: spans (tail.dropWhile isUnitLetter) := by
  conv => lhs; unfold spans
  split
  · rename_i none
    rw [start] at none
    cases none
  · rename_i begun
    rw [start] at begun
    cases begun
    rw [digit]
    split
    · rename_i contra
      cases contra
    · split
      · rename_i broken
        rw [behind] at broken
        cases broken
      · rename_i read
        rw [behind] at read
        cases read
        rw [if_pos ends]

/-- The letters of a unit end where a blank stands, or with the text. -/
theorem unit_append {name rest : List Char} (letters : ∀ c ∈ name, isUnitLetter c = true)
    (ends : ∀ c ∈ rest.head?, c = ' ') :
    (name ++ rest).takeWhile isUnitLetter = name ∧ (name ++ rest).dropWhile isUnitLetter = rest ∧
      endsUnit rest = true := by
  rw [List.takeWhile_append_of_pos letters, List.dropWhile_append_of_pos letters]
  cases rest with
  | nil => simp [endsUnit]
  | cons c rest =>
    obtain rfl : c = ' ' := ends c rfl
    exact ⟨by rw [List.takeWhile_cons_of_neg (by decide), List.append_nil],
      List.dropWhile_cons_of_neg (by decide), rfl⟩

theorem number_append {others : List Char} {letter : Char}
    (digits : ∀ c ∈ others, isDigit c = true) (stop : isUnitLetter letter = true)
    (after : List Char) :
    (others ++ letter :: after).takeWhile isDigitOrBlank = others ∧
      fraction? ((others ++ letter :: after).dropWhile isDigitOrBlank) =
        some (none, letter :: after) := by
  have run : ∀ c ∈ others, isDigitOrBlank c = true := fun c member => by
    rw [isDigitOrBlank, digits c member, Bool.true_or]
  have other := isDigitOrBlank_of_isUnitLetter stop
  rw [List.takeWhile_append_of_pos run, List.dropWhile_append_of_pos run,
    List.takeWhile_cons_of_neg (by simp [other]), List.dropWhile_cons_of_neg (by simp [other]),
    List.append_nil]
  refine ⟨rfl, ?_⟩
  unfold fraction?
  split
  · rename_i same
    rw [(List.cons.inj same).1] at stop
    cases stop
  · rfl

/-- A number and its unit, up to the end or to a blank, are one span. -/
theorem spans_spell {part : Nat × String} (nonempty : part.2.toList ≠ [])
    (letters : ∀ c ∈ part.2.toList, isUnitLetter c = true) {rest : List Char}
    (ends : ∀ c ∈ rest.head?, c = ' ') :
    spans (spell part ++ rest) = some (spanOf part) :: spans rest := by
  obtain ⟨count, name⟩ := part
  obtain ⟨letter, more, named⟩ := List.exists_cons_of_ne_nil nonempty
  obtain ⟨digit, others, counted⟩ := List.exists_cons_of_ne_nil (toList_toString count ▸
    Nat.toDigits_ne_nil : (toString count).toList ≠ [])
  have digits : ∀ c ∈ (toString count).toList, isDigit c = true := fun _ => isDigit_of_mem_toString
  dsimp only at nonempty letters named
  rw [counted] at digits
  obtain ⟨first, later⟩ := List.forall_mem_cons.mp digits
  obtain ⟨unit, left, stops⟩ := unit_append letters ends
  have text : spell (count, name) ++ rest = digit :: (others ++ (name.toList ++ rest)) := by
    rw [spell, String.toList_append, counted, List.append_assoc, List.cons_append]
  have start : trimStart (digit :: (others ++ (name.toList ++ rest))) =
      digit :: (others ++ (name.toList ++ rest)) :=
    List.dropWhile_cons_of_neg (by simp [isBlank_of_isDigit first])
  have number := number_append later (letters letter (by simp [named])) (more ++ rest)
  rw [← List.cons_append, ← named] at number
  rw [text, spans_cons start first number.2 (by rw [left, stops]), number.1, unit, left, spanOf,
    counted, List.filter_eq_self.mpr later]

theorem spans_blank (text : List Char) : spans (' ' :: text) = spans text := by
  conv => lhs; unfold spans
  conv => rhs; unfold spans
  rfl

theorem spans_intercalate {parts : List (Nat × String)}
    (words : ∀ part ∈ parts, part.2.toList ≠ [] ∧ ∀ c ∈ part.2.toList, isUnitLetter c = true) :
    spans ([' '].intercalate (parts.map spell)) = parts.map fun part => some (spanOf part) := by
  induction parts with
  | nil =>
    rw [List.map_nil, List.intercalate_nil]
    unfold spans
    rfl
  | cons part parts ih =>
    obtain ⟨⟨nonempty, letters⟩, later⟩ := List.forall_mem_cons.mp words
    cases parts with
    | nil =>
      have read := spans_spell nonempty letters (show ∀ c ∈ [].head?, c = ' ' by simp)
      rw [List.append_nil] at read
      rw [List.map_singleton, List.intercalate_singleton, read]
      unfold spans
      rfl
    | cons next parts =>
      rw [List.map_cons, List.intercalate_cons_of_ne_nil (by simp), List.append_assoc,
        List.singleton_append, spans_spell nonempty letters (by simp), spans_blank, ih later]
      rfl

/-- The nanoseconds of parts together. -/
def nanosIn (parts : List (Nat × String)) : Nat :=
  (parts.map fun part => part.1 * nanosOf part.2).sum

theorem nanosIn_nil : nanosIn [] = 0 := rfl

theorem nanosIn_cons (count : Nat) (name : String) (parts : List (Nat × String)) :
    nanosIn ((count, name) :: parts) = count * nanosOf name + nanosIn parts := by
  simp only [nanosIn, List.map_cons, List.sum_cons]

theorem sum_parts {parts : List (Nat × String)}
    (spelled : ∀ part ∈ parts, ∃ unit, Part part.1 part.2 unit) (total : Duration)
    (fits : total.nanos + nanosIn parts < UInt64.size * nanosPerSecond) :
    sum total (parts.map fun part => some (spanOf part)) =
      .ok ⟨total.nanos + nanosIn parts, fits⟩ := by
  induction parts generalizing total with
  | nil => rfl
  | cons part parts ih =>
    obtain ⟨⟨unit, first⟩, later⟩ := List.forall_mem_cons.mp spelled
    have split := nanosIn_cons part.1 part.2 parts
    rw [split] at fits
    have added := first.addTo total (by omega)
    have rest := ih later ⟨total.nanos + part.1 * nanosOf part.2, by omega⟩
      (by dsimp only; omega)
    rw [List.map_cons, sum, added]
    simp only [split, ← Nat.add_assoc]
    exact rest

theorem timeUnit?_name : ∀ unit ∈ timeUnits, ∀ name ∈ unit.names,
    timeUnit? name.toList = some unit ∧ name.toList ≠ [] ∧ name.toList.all isUnitLetter = true := by
  decide +kernel

theorem timeUnit_pos : ∀ unit ∈ timeUnits, 0 < unit.whole.secondsPart ∨ 0 < unit.whole.nanosPart := by
  decide

theorem Part.of_name {unit : TimeUnit} (listed : unit ∈ timeUnits) {name : String}
    (called : name ∈ unit.names) {count : Nat}
    (seconds : count * unit.whole.secondsPart < UInt64.size)
    (nanos : count * unit.whole.nanosPart < nanosPerSecond) : Part count name unit := by
  obtain ⟨named, nonempty, letters⟩ := timeUnit?_name unit listed name called
  have few : count < UInt64.size := by
    have room : nanosPerSecond < UInt64.size := by decide
    rcases timeUnit_pos unit listed with some | some
    · exact Nat.lt_of_le_of_lt (Nat.le_mul_of_pos_right count some) seconds
    · exact Nat.lt_trans (Nat.lt_of_le_of_lt (Nat.le_mul_of_pos_right count some) nanos) room
  exact ⟨named, nonempty, List.all_eq_true.mp letters, few, seconds, nanos⟩

theorem wholeSeconds_lt (duration : Duration) : duration.wholeSeconds < UInt64.size :=
  Nat.div_lt_of_lt_mul (Nat.mul_comm .. ▸ duration.bounded)

/-- A duration is written in parts that are each below the limits of their units. -/
theorem part_of_mem_parts (duration : Duration) :
    ∀ part ∈ duration.parts, ∃ unit, Part part.1 part.2 unit := by
  have whole := duration.wholeSeconds_lt
  have below : duration.subsecondNanos < 1000000000 := Nat.mod_lt _ (by decide)
  have size : UInt64.size = 18446744073709551616 := rfl
  have second : nanosPerSecond = 1000000000 := rfl
  simp only [parts, List.forall_mem_cons]
  refine ⟨⟨timeUnits[9], .of_name (by decide) (by split <;> decide) ?_ ?_⟩,
    ⟨timeUnits[8], .of_name (by decide) (by split <;> decide) ?_ ?_⟩,
    ⟨timeUnits[6], .of_name (by decide) (by split <;> decide) ?_ ?_⟩,
    ⟨timeUnits[5], .of_name (by decide) (by decide) ?_ ?_⟩,
    ⟨timeUnits[4], .of_name (by decide) (by decide) ?_ ?_⟩,
    ⟨timeUnits[3], .of_name (by decide) (by decide) ?_ ?_⟩,
    ⟨timeUnits[2], .of_name (by decide) (by decide) ?_ ?_⟩,
    ⟨timeUnits[1], .of_name (by decide) (by decide) ?_ ?_⟩,
    ⟨timeUnits[0], .of_name (by decide) (by decide) ?_ ?_⟩, by simp⟩
  all_goals
    simp only [timeUnits, List.getElem_cons_succ, List.getElem_cons_zero, Amount.secondsPart,
      Amount.nanosPart]
    omega

theorem nanosIn_parts (duration : Duration) : nanosIn duration.parts = duration.nanos := by
  have plural (name : String) (same : nanosOf (name ++ "s") = nanosOf name) (count : Nat) :
      nanosOf (if 1 < count then name ++ "s" else name) = nanosOf name := by
    split
    · exact same
    · rfl
  have whole : duration.nanos = duration.wholeSeconds * nanosPerSecond + duration.subsecondNanos :=
    (Nat.div_add_mod' duration.nanos nanosPerSecond).symm
  have second : nanosPerSecond = 1000000000 := rfl
  rw [second] at whole
  have years : nanosOf "year" = 31557600000000000 := by decide +kernel
  have months : nanosOf "month" = 2630016000000000 := by decide +kernel
  have days : nanosOf "day" = 86400000000000 := by decide +kernel
  have hours : nanosOf "h" = 3600000000000 := by decide +kernel
  have minutes : nanosOf "m" = 60000000000 := by decide +kernel
  have seconds : nanosOf "s" = 1000000000 := by decide +kernel
  have millis : nanosOf "ms" = 1000000 := by decide +kernel
  have micros : nanosOf "us" = 1000 := by decide +kernel
  have nanos : nanosOf "ns" = 1 := by decide +kernel
  unfold parts
  simp only [nanosIn_cons, nanosIn_nil, plural "year" (by decide +kernel),
    plural "month" (by decide +kernel), plural "day" (by decide +kernel), years, months, days,
    hours, minutes, seconds, millis, micros, nanos]
  omega

theorem nanosIn_filter (parts : List (Nat × String)) :
    nanosIn (parts.filter fun part => part.1 ≠ 0) = nanosIn parts := by
  induction parts with
  | nil => rfl
  | cons part parts ih =>
    obtain ⟨count, name⟩ := part
    by_cases none : count = 0
    · rw [List.filter_cons_of_neg (by simp [none]), ih, nanosIn_cons, none, Nat.zero_mul,
        Nat.zero_add]
    · rw [List.filter_cons_of_pos (by simp [none]), nanosIn_cons, nanosIn_cons, ih]

theorem intercalate_spell_ne {part : Nat × String} {unit : TimeUnit} (first : Part part.1 part.2 unit)
    (parts : List (Nat × String)) : [' '].intercalate ((part :: parts).map spell) ≠ ['0'] := by
  intro same
  obtain ⟨rest, start⟩ : ∃ rest, [' '].intercalate ((part :: parts).map spell) =
      spell part ++ rest := by
    cases parts with
    | nil => exact ⟨[], by simp⟩
    | cons next parts =>
      exact ⟨_, by rw [List.map_cons, List.intercalate_cons_of_ne_nil (by simp), List.append_assoc]⟩
  have digits : 0 < (toString part.1).toList.length := by
    rw [toList_toString]
    exact Nat.length_toDigits_pos
  have letters := List.length_pos_iff.mpr first.nonempty
  have length : (spell part ++ rest).length = 1 := by
    rw [← start, same]
    rfl
  rw [spell, String.toList_append, List.length_append, List.length_append] at length
  omega

theorem parse_spell (part : Nat × String) (parts : List (Nat × String))
    (spelled : ∀ other ∈ part :: parts, ∃ unit, Part other.1 other.2 unit) {text : String}
    (words : text.toList = [' '].intercalate ((part :: parts).map spell)) {duration : Duration}
    (total : nanosIn (part :: parts) = duration.nanos) : parse text = .ok duration := by
  obtain ⟨⟨unit, first⟩, -⟩ := List.forall_mem_cons.mp spelled
  have several : text ≠ "0" := by
    rintro rfl
    exact intercalate_spell_ne first parts words.symm
  have read : spans text.toList = (part :: parts).map fun part => some (spanOf part) := by
    rw [words]
    refine spans_intercalate fun other member => ?_
    obtain ⟨unit, spelled⟩ := spelled other member
    exact ⟨spelled.nonempty, spelled.letters⟩
  have whole : zero.nanos + nanosIn (part :: parts) = duration.nanos := by
    rw [total]
    exact Nat.zero_add _
  have summed := sum_parts spelled zero (whole.symm ▸ duration.bounded)
  rw [parse, if_neg several, read, List.map_cons]
  rw [List.map_cons] at summed
  dsimp only
  rw [summed]
  simp only [whole]

/-- A duration reads back from its words. -/
theorem parse_write (duration : Duration) : parse duration.write = .ok duration := by
  by_cases zero : duration.nanos = 0
  · have second : Part 0 "s" timeUnits[3] :=
      .of_name (by decide) (by decide) (by decide) (by decide)
    have written : duration.write = "0s" := by
      rw [write, if_pos zero]
    rw [written]
    refine parse_spell (0, "s") [] ?_ (by decide) ?_
    · simpa using ⟨_, second⟩
    · rw [nanosIn_cons, nanosIn_nil, zero, Nat.zero_mul]
  · have words : duration.write.toList =
        [' '].intercalate ((duration.parts.filter fun part => part.1 ≠ 0).map spell) := by
      rw [write, if_neg zero, String.toList_intercalate, List.map_map]
      rfl
    have total : nanosIn (duration.parts.filter fun part => part.1 ≠ 0) = duration.nanos := by
      rw [nanosIn_filter, nanosIn_parts]
    have spelled : ∀ part ∈ duration.parts.filter fun part => part.1 ≠ 0,
        ∃ unit, Part part.1 part.2 unit := fun part member =>
      part_of_mem_parts duration part (List.mem_of_mem_filter member)
    cases present : duration.parts.filter fun part => part.1 ≠ 0 with
    | nil =>
      rw [present] at total
      exact absurd total.symm zero
    | cons part parts =>
      rw [present] at words total spelled
      exact parse_spell part parts spelled words total

end LiveFragment.Duration
