import LiveFragment.Proofs.Number.Written
import LiveFragment.Toml.Scalar

namespace LiveFragment.Toml

open LiveFragment.Number LiveFragment.Text

variable {digits behind : List Char} {c : Char}

/-- A run of digits ends at a character that is no digit and does not part digits. -/
theorem digitRun_append (all : ∀ d ∈ digits, isDigit d = true) (stops : isDigit c = false)
    (parts : c ≠ '_') (rest : List Char) :
    digitRun isDigit (digits ++ c :: rest) = (digits, c :: rest) := by
  induction digits with
  | nil =>
    rw [List.nil_append]
    unfold digitRun
    split <;> rename_i same
    · cases same
    · exact absurd (List.cons.inj same).1 parts
    · cases same
      simp [stops]
  | cons d digits ih =>
    obtain ⟨first, later⟩ := List.forall_mem_cons.mp all
    have plain : d ≠ '_' := isDigit_ne first rfl
    rw [List.cons_append]
    unfold digitRun
    split <;> rename_i same
    · cases same
    · exact absurd (List.cons.inj same).1 plain
    · obtain ⟨rfl, rfl⟩ := List.cons.inj same
      simp [first, ih later]

theorem run?_append (nonempty : digits ≠ []) (all : ∀ d ∈ digits, isDigit d = true)
    (stops : isDigit c = false) (parts : c ≠ '_') (rest : List Char) :
    run? isDigit (digits ++ c :: rest) = some (digits, c :: rest) := by
  obtain ⟨d, more, rfl⟩ := List.exists_cons_of_ne_nil nonempty
  have first : isDigit d = true := all d (by simp)
  have read := digitRun_append all stops parts rest
  rw [List.cons_append] at read ⊢
  rw [run?, if_pos first, read]

theorem wholePart?_append (numeral : Numeral digits) (stops : isDigit c = false) (parts : c ≠ '_')
    (rest : List Char) : wholePart? (digits ++ c :: rest) = some (digits, c :: rest) := by
  obtain ⟨d, more, rfl⟩ := List.exists_cons_of_ne_nil numeral.nonempty
  have read := run?_append numeral.nonempty numeral.all stops parts rest
  rw [List.cons_append] at read ⊢
  unfold wholePart?
  split
  · rename_i same
    obtain ⟨rfl, tail⟩ := List.cons.inj same
    obtain rfl : more = [] := (List.cons.inj (numeral.leading rfl)).2
    rw [← tail]
    rfl
  · exact read

theorem takeSign_numeral (numeral : Numeral digits) (negative : Bool) :
    Literal.takeSign (sign negative ++ (digits ++ behind)) = (negative, digits ++ behind) := by
  obtain ⟨d, more, rfl⟩ := List.exists_cons_of_ne_nil numeral.nonempty
  have first : isDigit d = true := numeral.all d (by simp)
  cases negative with
  | true => rfl
  | false =>
    rw [sign, if_neg (by decide), List.nil_append, List.cons_append]
    unfold Literal.takeSign
    split
    · rename_i same
      cases same
      cases first
    · rename_i same
      cases same
      cases first
    · rfl

theorem dropWhile_fixed? {count lower upper value : Nat} {text rest : List Char}
    (read : fixed? count lower upper text = some (value, rest)) :
    rest.dropWhile isDigit = text.dropWhile isDigit ∧
      ∀ d ∈ text.take count, isDigit d = true := by
  simp only [fixed?, Option.bind_eq_bind, Option.bind_eq_some_iff] at read
  obtain ⟨_, digits, within⟩ := read
  split at within
  · cases within
    rw [digits?] at digits
    split at digits
    · rename_i all
      have all := List.all_eq_true.mp all.2
      refine ⟨?_, all⟩
      conv => rhs; rw [← List.take_append_drop count text, List.dropWhile_append_of_pos all]
    · cases digits
  · cases within

theorem head?_of_expect? {text rest : List Char} (stops : isDigit c = false)
    (read : expect? c text = some rest) : (text.dropWhile isDigit).head? = some c := by
  cases text with
  | nil => cases read
  | cons d text =>
    rw [expect?] at read
    split at read
    · rename_i same
      simp [same, stops]
    · cases read

theorem date?_eq_none {text : List Char} (other : (text.dropWhile isDigit).head? ≠ some '-') :
    date? text = none := by
  rw [Option.eq_none_iff_forall_ne_some]
  intro rest read
  simp only [date?, Option.bind_eq_bind, Option.bind_eq_some_iff] at read
  obtain ⟨⟨year, behind⟩, read, after, dash, -⟩ := read
  exact other ((dropWhile_fixed? read).1 ▸ head?_of_expect? rfl dash)

theorem time?_eq_none {text : List Char} (other : (text.dropWhile isDigit).head? ≠ some ':') :
    time? text = none := by
  rw [Option.eq_none_iff_forall_ne_some]
  intro rest read
  simp only [time?, Option.bind_eq_bind, Option.bind_eq_some_iff] at read
  obtain ⟨⟨hour, behind⟩, read, after, colon, -⟩ := read
  exact other ((dropWhile_fixed? read).1 ▸ head?_of_expect? rfl colon)

theorem date?_dash (rest : List Char) : date? ('-' :: rest) = none := by
  rw [Option.eq_none_iff_forall_ne_some]
  intro after read
  simp only [date?, Option.bind_eq_bind, Option.bind_eq_some_iff] at read
  obtain ⟨⟨year, behind⟩, read, -⟩ := read
  have dash := (dropWhile_fixed? read).2 '-' (by simp)
  cases dash

/-- A number that is followed by neither a dash nor a colon is no moment. -/
theorem moment?_eq_none (all : ∀ d ∈ digits, isDigit d = true) (stops : isDigit c = false)
    (dash : c ≠ '-') (colon : c ≠ ':') (negative : Bool) (rest : List Char) :
    moment? (sign negative ++ (digits ++ c :: rest)) = none := by
  have follows : ((digits ++ c :: rest).dropWhile isDigit).head? = some c := by
    rw [List.dropWhile_append_of_pos all]
    simp [stops]
  cases negative with
  | true =>
    have colon : ((sign true ++ (digits ++ c :: rest)).dropWhile isDigit).head? ≠ some ':' := by
      simp [sign, show isDigit '-' = false from rfl]
    have date : date? (sign true ++ (digits ++ c :: rest)) = none := date?_dash _
    rw [moment?, date, time?_eq_none colon]
    rfl
  | false =>
    rw [sign, if_neg (by decide), List.nil_append, moment?, date?_eq_none (by simp [follows, dash]),
      time?_eq_none (by simp [follows, colon])]
    rfl

theorem scalar_eq (numeral : Numeral digits) (negative : Bool) :
    scalar (sign negative ++ (digits ++ behind)) =
      (moment? (sign negative ++ (digits ++ behind)) <|>
        real? (sign negative ++ (digits ++ behind)) <|>
        named? (sign negative ++ (digits ++ behind)) <|>
        integer? (sign negative ++ (digits ++ behind))) := by
  obtain ⟨first, more, start, other⟩ : ∃ first more,
      sign negative ++ (digits ++ behind) = first :: more ∧
        first ≠ 't' ∧ first ≠ 'f' ∧ first ≠ '"' ∧ first ≠ '\'' := by
    obtain ⟨d, more, rfl⟩ := List.exists_cons_of_ne_nil numeral.nonempty
    have digit : isDigit d = true := numeral.all d (by simp)
    cases negative with
    | true => exact ⟨'-', d :: more ++ behind, rfl, by decide⟩
    | false =>
      exact ⟨d, more ++ behind, rfl, isDigit_ne digit rfl, isDigit_ne digit rfl,
        isDigit_ne digit rfl, isDigit_ne digit rfl⟩
  obtain ⟨truth, falsehood, double, single⟩ := other
  rw [start]
  have unquoted : quoted? (first :: more) = none := by
    unfold quoted?
    split <;> rename_i same
    · cases same; exact absurd rfl double
    · cases same; exact absurd rfl double
    · cases same; exact absurd rfl single
    · cases same; exact absurd rfl single
    · rfl
  unfold scalar
  split
  · rename_i same
    cases same
    exact absurd rfl truth
  · rename_i same
    cases same
    exact absurd rfl falsehood
  · rw [unquoted]

theorem scalar_pointed {text whole fraction : List Char} (pointed : Pointed text whole fraction)
    (negative : Bool)
    (finite : (Literal.decimal negative (.ofPointed whole fraction)).toDouble.isFinite = true)
    (rest : List Char) :
    scalar (sign negative ++ (text ++ '\n' :: rest)) =
      some (.real (.decimal negative (.ofPointed whole fraction)), '\n' :: rest) := by
  obtain ⟨rfl, numeral, nonempty, all⟩ := pointed
  have read : real? (sign negative ++ (whole ++ '.' :: (fraction ++ '\n' :: rest))) =
      some (.real (.decimal negative (.ofPointed whole fraction)), '\n' :: rest) := by
    rw [real?, takeSign_numeral numeral]
    dsimp only
    rw [wholePart?_append numeral rfl (by decide)]
    have digits : fraction? ('.' :: (fraction ++ '\n' :: rest)) =
        some (fraction, '\n' :: rest) := run?_append nonempty all rfl (by decide) rest
    have exponent : exponent? ('\n' :: rest) = none := rfl
    simp only [Option.bind_eq_bind, Option.bind_some, digits, exponent, Int.zero_sub]
    rw [if_pos ⟨trivial, .inr finite⟩]
    rfl
  have whole' : whole ++ '.' :: fraction ++ '\n' :: rest =
      whole ++ '.' :: (fraction ++ '\n' :: rest) := by simp
  rw [whole', scalar_eq numeral, moment?_eq_none numeral.all rfl (by decide) (by decide), read]
  rfl

theorem real?_whole (numeral : Numeral digits) (negative : Bool) (rest : List Char) :
    real? (sign negative ++ (digits ++ '\n' :: rest)) = none := by
  rw [real?, takeSign_numeral numeral]
  dsimp only
  rw [wholePart?_append numeral rfl (by decide)]
  have fraction : fraction? ('\n' :: rest) = none := rfl
  have exponent : exponent? ('\n' :: rest) = none := rfl
  simp [fraction, exponent]

theorem named?_whole (numeral : Numeral digits) (negative : Bool) :
    named? (sign negative ++ (digits ++ behind)) = none := by
  rw [named?, takeSign_numeral numeral]
  obtain ⟨d, more, rfl⟩ := List.exists_cons_of_ne_nil numeral.nonempty
  have digit : isDigit d = true := numeral.all d (by simp)
  dsimp only
  split <;> rename_i same
  · obtain ⟨rfl, -⟩ := List.cons.inj same
    cases digit
  · obtain ⟨rfl, -⟩ := List.cons.inj same
    cases digit
  · rfl

theorem second_of_zero (numeral : Numeral digits) {negative : Bool} {second : Char}
    {rest after : List Char}
    (start : sign negative ++ (digits ++ '\n' :: rest) = '0' :: second :: after) :
    second = '\n' := by
  obtain ⟨d, more, rfl⟩ := List.exists_cons_of_ne_nil numeral.nonempty
  cases negative with
  | true => exact absurd (List.cons.inj start).1 (by decide)
  | false =>
    obtain ⟨rfl, tail⟩ := List.cons.inj start
    obtain rfl : more = [] := (List.cons.inj (numeral.leading rfl)).2
    exact (List.cons.inj tail).1.symm

theorem integer?_whole (numeral : Numeral digits) (negative : Bool) (rest : List Char) :
    integer? (sign negative ++ (digits ++ '\n' :: rest)) =
      (signed? (if negative then -(digitsValue digits : Int) else digitsValue digits)).map
        (·, '\n' :: rest) := by
  unfold integer?
  split <;> rename_i start
  · cases second_of_zero numeral start
  · cases second_of_zero numeral start
  · cases second_of_zero numeral start
  · rw [takeSign_numeral numeral]
    dsimp only
    rw [wholePart?_append numeral rfl (by decide)]
    simp only [Option.bind_eq_bind, Option.bind_some]
    cases signed? (if negative then -(digitsValue digits : Int) else digitsValue digits) <;> rfl

/-- A whole number that TOML has is read as itself. -/
theorem scalar_integer {value : Int} (low : -0x8000000000000000 ≤ value)
    (high : value < 0x8000000000000000) (rest : List Char) :
    scalar ((toString value).toList ++ '\n' :: rest) = some (.integer value, '\n' :: rest) := by
  have numeral := numeral_toDigits value.natAbs
  have read : signed? (if decide (value < 0) then -(digitsValue (Nat.toDigits 10 value.natAbs) : Int)
      else digitsValue (Nat.toDigits 10 value.natAbs)) = some (.integer value) := by
    have same : (if decide (value < 0) then -(digitsValue (Nat.toDigits 10 value.natAbs) : Int)
        else digitsValue (Nat.toDigits 10 value.natAbs)) = value := by
      rw [digitsValue_toDigits]
      split <;> rename_i negative <;> simp only [decide_eq_true_eq] at negative <;> omega
    rw [same, signed?, if_pos ⟨low, high⟩]
  rw [toList_toString_int, List.append_assoc, scalar_eq numeral,
    moment?_eq_none numeral.all rfl (by decide) (by decide), real?_whole numeral,
    named?_whole numeral, integer?_whole numeral, read]
  rfl

theorem scalar_boolean (value : Bool) (rest : List Char) :
    scalar ((if value then "true" else "false" : String).toList ++ '\n' :: rest) =
      some (.boolean value, '\n' :: rest) := by
  cases value <;> rfl

end LiveFragment.Toml
