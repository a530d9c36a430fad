import LiveFragment.Json.Printer
import LiveFragment.Json.Token
import LiveFragment.Proofs.Number.Written

namespace LiveFragment

open LiveFragment.Number LiveFragment.Text

namespace Number

/-- The decimal as a report spells it. -/
def Decimal.reported (decimal : Decimal) : Decimal :=
  let leading := decimal.exponent + (Nat.toDigits 10 decimal.digits).length - 1
  if decimal.digits = 0 ∨ (-6 ≤ leading ∧ leading ≤ 12) then decimal.pointed else decimal

/-- The decimal that a report spells has the value of the decimal that is reported. -/
theorem Decimal.value_reported (decimal : Decimal) : decimal.reported.value = decimal.value := by
  unfold reported
  dsimp only
  split
  · exact value_pointed decimal
  · rfl

/-- The texts of numbers in reports, and what their digits spell. -/
inductive Reported : List Char → Decimal → Prop
  | pointed {text whole fraction : List Char} (pointed : Pointed text whole fraction) :
    Reported text (.ofPointed whole fraction)
  | scientific {d : Char} {more : List Char} (first : isDigit d = true)
    (all : ∀ c ∈ more, isDigit c = true) (exponent : Int) :
    Reported (d :: ((if more = [] then [] else '.' :: more) ++ (Style.exponentField exponent).toList))
      ⟨digitsValue (d :: more), exponent - more.length⟩

theorem Style.magnitude_report (decimal : Decimal) :
    Reported (report.magnitude decimal).toList decimal.reported := by
  obtain ⟨n, exponent⟩ := decimal
  rcases Nat.eq_zero_or_pos n with rfl | positive
  · have text : report.magnitude ⟨0, exponent⟩ = "0.0" := by
      simp [magnitude, report, placePoint, zeros]
    have zero : Decimal.reported ⟨0, exponent⟩ = .ofPointed ['0'] ['0'] := by
      simp [Decimal.reported, Decimal.pointed, Decimal.ofPointed, digitsValue, digitValue]
    rw [text, zero]
    exact .pointed ⟨rfl, numeral_toDigits 0, by simp, List.forall_mem_singleton.mpr rfl⟩
  · unfold Decimal.reported magnitude report
    dsimp only
    simp only [positive.ne', if_false, false_or, decide_eq_true_eq]
    split
    · rename_i within
      obtain ⟨whole, fraction, pointed, same⟩ := placePoint_pointed positive rfl
        (exponent + (Nat.toDigits 10 n).length - 1 + 1)
      rw [Int.sub_add_cancel, add_sub_cancel_right] at same
      rw [← same]
      exact .pointed pointed
    · have value := digitsValue_toDigits n
      have all := (numeral_toDigits n).all
      have some' := (numeral_toDigits n).nonempty
      generalize Nat.toDigits 10 n = digits at value all some'
      obtain ⟨d, more, rfl⟩ := List.exists_cons_of_ne_nil some'
      have spelled := Reported.scientific (all d List.mem_cons_self)
        (fun c member => all c (List.mem_cons_of_mem d member)) (exponent + (d :: more).length - 1)
      have places : exponent + ((d :: more).length : Int) - 1 - more.length = exponent := by
        rw [List.length_cons]
        omega
      rw [value, places] at spelled
      cases more with
      | nil => simpa using spelled
      | cons c more => simpa using spelled

end Number

namespace Json

/-- A text that ends a number written before it. -/
def EndsNumber (text : List Char) : Prop :=
  ∀ c ∈ text.head?, isDigit c = false ∧ c ≠ '.' ∧ c ≠ 'e' ∧ c ≠ 'E'

theorem takeWhile_digits {digits text : List Char} (all : ∀ c ∈ digits, isDigit c = true)
    (ends : ∀ c ∈ text.head?, isDigit c = false) :
    (digits ++ text).takeWhile isDigit = digits ∧ (digits ++ text).dropWhile isDigit = text := by
  have stop : text.takeWhile isDigit = [] ∧ text.dropWhile isDigit = text := by
    cases text with
    | nil => exact ⟨rfl, rfl⟩
    | cons c rest =>
      have other : isDigit c = false := ends c rfl
      exact ⟨List.takeWhile_cons_of_neg (by simp [other]),
        List.dropWhile_cons_of_neg (by simp [other])⟩
  rw [List.takeWhile_append_of_pos all, List.dropWhile_append_of_pos all, stop.1, stop.2,
    List.append_nil]
  exact ⟨rfl, rfl⟩

theorem fraction?_of_ends {text : List Char} (ends : EndsNumber text) :
    fraction? text = some ([], text) := by
  unfold fraction?
  split
  · exact absurd rfl (ends '.' rfl).2.1
  · rfl

theorem fraction?_point {fraction text : List Char} (some' : fraction ≠ [])
    (all : ∀ c ∈ fraction, isDigit c = true) (ends : ∀ c ∈ text.head?, isDigit c = false) :
    fraction? ('.' :: (fraction ++ text)) = some (fraction, text) := by
  obtain ⟨taken, left⟩ := takeWhile_digits all ends
  simp only [fraction?, taken, left, if_neg some']

theorem exponent?_of_ends {text : List Char} (ends : EndsNumber text) :
    exponent? text = some (none, text) := by
  cases text with
  | nil => rfl
  | cons c rest =>
    obtain ⟨-, -, small, large⟩ := ends c rfl
    rw [exponent?, if_neg (by simp [small, large])]

theorem exponent?_field (exponent : Int) {text : List Char}
    (ends : ∀ c ∈ text.head?, isDigit c = false) :
    exponent? ((Style.exponentField exponent).toList ++ text) = some (some exponent, text) := by
  have digits := numeral_toDigits exponent.natAbs
  have value := digitsValue_toDigits exponent.natAbs
  obtain ⟨taken, left⟩ := takeWhile_digits digits.all ends
  unfold Style.exponentField
  split
  · rename_i negative
    have same : ("e-" ++ toString exponent.natAbs).toList ++ text =
        'e' :: '-' :: (Nat.toDigits 10 exponent.natAbs ++ text) := by
      simp
    rw [same]
    simp only [exponent?, true_or, if_true, Literal.takeSign, taken, left, if_neg digits.nonempty,
      value]
    congr 3
    omega
  · rename_i positive
    have same : ("e+" ++ toString exponent.natAbs).toList ++ text =
        'e' :: '+' :: (Nat.toDigits 10 exponent.natAbs ++ text) := by
      simp
    rw [same]
    simp only [exponent?, true_or, if_true, Literal.takeSign, taken, left, if_neg digits.nonempty,
      value, Bool.false_eq_true, if_false]
    congr 3
    omega

/-- What is read of the digits, the fraction and the exponent of a number. -/
theorem number?_eq {whole fraction text behind tail : List Char} {exponent : Option Int}
    (numeral : Numeral whole) (ends : ∀ c ∈ text.head?, isDigit c = false)
    (point : fraction? text = some (fraction, behind))
    (field : exponent? behind = some (exponent, tail)) (negative : Bool) :
    number? (sign negative ++ (whole ++ text)) =
      some (numberOf negative whole fraction exponent, tail) := by
  obtain ⟨taken, left⟩ := takeWhile_digits numeral.all ends
  have short : ¬(whole = [] ∨ (whole.head? = some '0' ∧ 1 < whole.length)) := by
    rintro (none | ⟨zero, long⟩)
    · exact numeral.nonempty none
    · rw [numeral.leading zero] at long
      cases Nat.lt_irrefl 1 long
  have read : number? (sign negative ++ (whole ++ text)) =
      if whole = [] ∨ (whole.head? = some '0' ∧ 1 < whole.length) then none
      else (fraction? text).bind fun point => (exponent? point.2).bind fun field =>
        some (numberOf negative whole point.1 field.1, field.2) := by
    cases negative with
    | true =>
      simp only [number?, sign, if_true, List.singleton_append, taken, left]
      rfl
    | false =>
      obtain ⟨d, more, rfl⟩ := List.exists_cons_of_ne_nil numeral.nonempty
      have plain : d ≠ '-' := isDigit_ne (numeral.all d List.mem_cons_self) rfl
      rw [sign, if_neg (by decide), List.nil_append]
      unfold number?
      split
      rename_i same
      split at same
      · rename_i start
        exact absurd (List.cons.inj start).1 plain
      · cases same
        simp only [taken, left]
        rfl
  rw [read, if_neg short, point]
  simp [field]

/-- A number of a report is read as what it spells. -/
theorem number?_reported {text behind : List Char} {decimal : Decimal}
    (reported : Reported text decimal) (ends : EndsNumber behind) (negative : Bool) :
    number? (sign negative ++ (text ++ behind)) =
      some (.real (.decimal negative decimal), behind) := by
  have after : ∀ c ∈ behind.head?, isDigit c = false := fun c head => (ends c head).1
  cases reported with
  | @pointed text whole fraction pointed =>
    rw [pointed.eq, List.append_assoc, List.cons_append,
      number?_eq pointed.whole (by simp [isDigit])
        (fraction?_point pointed.nonempty pointed.all after) (exponent?_of_ends ends), numberOf,
      if_neg (by simp [pointed.nonempty]), Decimal.ofPointed]
    simp
  | @scientific d more first all exponent =>
    have numeral : Numeral [d] :=
      ⟨List.cons_ne_nil _ _, List.forall_mem_singleton.mpr first, fun zero => by simpa using zero⟩
    have field := exponent?_field exponent after
    have start : ∀ c ∈ ((Style.exponentField exponent).toList ++ behind).head?,
        isDigit c = false ∧ c ≠ '.' := by
      unfold Style.exponentField
      split <;> simp [isDigit]
    have mantissa : fraction? ((if more = [] then [] else '.' :: more) ++
        ((Style.exponentField exponent).toList ++ behind)) =
          some (more, (Style.exponentField exponent).toList ++ behind) := by
      split
      · rename_i none
        rw [none, List.nil_append]
        unfold fraction?
        split
        · rename_i same
          exact absurd rfl (start '.' (same ▸ rfl)).2
        · rfl
      · rename_i some
        exact fraction?_point some all fun c head => (start c head).1
    have read := number?_eq numeral ?_ mantissa field negative
    · rw [List.cons_append, List.append_assoc]
      rw [List.singleton_append] at read
      rw [read, numberOf, if_neg (by simp)]
      rfl
    · split
      · exact fun c head => (start c head).1
      · simp [isDigit]

/-- A whole number is read as it is, as long as it fits into a word of 64 bits. -/
def restatedInteger (value : Int) : Document :=
  if -0x8000000000000000 ≤ value ∧ value < 0x10000000000000000 then .integer value
  else .real (.decimal (decide (value < 0)) ⟨value.natAbs, 0⟩)

theorem number?_toString (value : Int) {behind : List Char} (ends : EndsNumber behind) :
    number? ((toString value).toList ++ behind) = some (restatedInteger value, behind) := by
  rw [toList_toString_int, List.append_assoc,
    number?_eq (numeral_toDigits _) (fun c head => (ends c head).1) (fraction?_of_ends ends)
      (exponent?_of_ends ends), numberOf, digitsValue_toDigits, restatedInteger]
  have size : (if decide (value < 0) then -(value.natAbs : Int) else value.natAbs) = value := by
    split <;> rename_i negative
    · have := of_decide_eq_true negative
      omega
    · have := of_decide_eq_false (Bool.not_eq_true _ ▸ negative)
      omega
  have fits : (if decide (value < 0) then 0 < value.natAbs ∧ value.natAbs ≤ 0x8000000000000000
      else value.natAbs < UInt64.size) ↔
        -0x8000000000000000 ≤ value ∧ value < 0x10000000000000000 := by
    rw [UInt64.size]
    split <;> rename_i negative
    · have := of_decide_eq_true negative
      omega
    · have := of_decide_eq_false (Bool.not_eq_true _ ▸ negative)
      omega
  simp only [true_and, fits, size, List.append_nil, List.length_nil, Nat.cast_zero, Int.sub_zero,
    Option.getD_none, digitsValue_toDigits]

end Json

end LiveFragment
