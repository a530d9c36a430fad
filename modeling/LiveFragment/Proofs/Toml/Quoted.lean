import LiveFragment.Toml.Printer

namespace LiveFragment.Toml

open LiveFragment.Json

theorem scalar?_control : ∀ n < 128,
    scalar? ['0', '0', (hexDigit (n / 16)).toUpper, (hexDigit (n % 16)).toUpper] =
      some (Char.ofNat n) := by
  decide +kernel

/-- What stands behind a backslash for a character. It does not end the line. -/
structure Escapes (tail : List Char) (c : Char) : Prop where
  read : ∀ rest, escape? (tail ++ rest) = some (c, rest)
  inLine : ∀ rest, continued? (tail ++ rest) = none

theorem continued?_eq_none {letter : Char} (space : isSpace letter = false) (feed : letter ≠ '\n')
    (carriage : letter ≠ '\r') (rest : List Char) : continued? (letter :: rest) = none := by
  have line : newline? (letter :: rest) = none := by
    unfold newline?
    split <;> rename_i same
    · exact absurd (List.cons.inj same).1 feed
    · exact absurd (List.cons.inj same).1 carriage
    · rfl
  rw [continued?, List.dropWhile_cons_of_neg (by simp [space]), line]
  rfl

theorem escapeCharacter_cases {c : Char} (feed : c ≠ '\n') :
    (∃ tail, escapeCharacter c = '\\' :: tail ∧ Escapes tail c) ∨
      (escapeCharacter c = [c] ∧ c ≠ '\\' ∧ isPlain c = true) := by
  unfold escapeCharacter
  split
  · rename_i same
    subst same
    exact .inl ⟨_, rfl, fun _ => rfl, continued?_eq_none rfl (by decide) (by decide)⟩
  · rename_i slash
    split
    · rename_i same
      subst same
      exact .inl ⟨_, rfl, fun _ => rfl, continued?_eq_none rfl (by decide) (by decide)⟩
    · split
      · rename_i same
        subst same
        exact .inl ⟨_, rfl, fun _ => rfl, continued?_eq_none rfl (by decide) (by decide)⟩
      · split
        · rename_i same
          subst same
          exact .inl ⟨_, rfl, fun _ => rfl, continued?_eq_none rfl (by decide) (by decide)⟩
        · split
          · rename_i same
            subst same
            exact .inl ⟨_, rfl, fun _ => rfl, continued?_eq_none rfl (by decide) (by decide)⟩
          · split
            · rename_i control
              refine .inl ⟨_, rfl, fun rest => ?_, fun rest =>
                continued?_eq_none rfl (by decide) (by decide) _⟩
              have number := scalar?_control c.toNat (by omega)
              rw [Char.ofNat_toNat] at number
              simp [escape?, numbered?, number]
            · rename_i plain
              refine .inr ⟨rfl, slash, ?_⟩
              simp only [isPlain, Bool.or_eq_true, beq_iff_eq, Bool.and_eq_true, decide_eq_true_eq]
              omega

theorem basic?_escapeLine (c : Char) (text : List Char) :
    basic? (escapeLine c ++ text) =
      (basic? text).map fun (content, behind) => (c :: content, behind) := by
  have escaped {tail : List Char} (escapes : Escapes tail c) :
      basic? ('\\' :: (tail ++ text)) =
        (basic? text).map fun (content, behind) => (c :: content, behind) := by
    rw [basic?]
    split
    · rename_i none
      rw [escapes.read] at none
      cases none
    · rename_i some
      rw [escapes.read] at some
      cases some
      rfl
  unfold escapeLine
  split
  · rename_i same
    subst same
    exact escaped ⟨fun _ => rfl, continued?_eq_none rfl (by decide) (by decide)⟩
  · rename_i double
    split
    · rename_i same
      subst same
      exact escaped ⟨fun _ => rfl, continued?_eq_none rfl (by decide) (by decide)⟩
    · rename_i feed
      rcases escapeCharacter_cases feed with ⟨tail, written, escapes⟩ | ⟨written, slash, plain⟩
      · rw [written]
        exact escaped escapes
      · rw [written, List.singleton_append, basic?, if_pos plain]
        · exact double
        · exact slash

theorem basic?_flatMap (content rest : List Char) :
    basic? (content.flatMap escapeLine ++ '"' :: rest) = some (content, rest) := by
  induction content with
  | nil => simp [basic?]
  | cons c content ih =>
    rw [List.flatMap_cons, List.append_assoc, basic?_escapeLine, ih]
    rfl

theorem literal?_append {content : List Char} (plain : ∀ c ∈ content, isPlain c = true ∧ c ≠ '\'')
    (rest : List Char) : literal? (content ++ '\'' :: rest) = some (content, rest) := by
  induction content with
  | nil => simp [literal?]
  | cons c content ih =>
    obtain ⟨⟨first, other⟩, later⟩ := List.forall_mem_cons.mp plain
    rw [List.cons_append, literal?, if_neg other, if_pos first, ih later]
    rfl

/-- Three quotes close a text with few quotes at its start exactly when it has no more than those. -/
theorem closing?_append {quote : Char} (text : List Char) {rest : List Char}
    (few : (text.takeWhile (· == quote)).length ≤ 2) (ends : rest.head? ≠ some quote) :
    closing? quote (text ++ quote :: quote :: quote :: rest) =
      if text.all (· == quote) then some (text, rest) else none := by
  have behind : rest.takeWhile (· == quote) = [] := by
    cases rest with
    | nil => rfl
    | cons c rest => exact List.takeWhile_cons_of_neg (by simpa using ends)
  unfold closing?
  dsimp only
  by_cases all : text.all (· == quote) = true
  · have every : ∀ c ∈ text, (c == quote) = true := List.all_eq_true.mp all
    have same : text = List.replicate text.length quote :=
      List.eq_replicate_of_mem fun c member => by simpa using every c member
    have run : ((text ++ quote :: quote :: quote :: rest).takeWhile (· == quote)).length =
        text.length + 3 := by
      simp [List.takeWhile_append_of_pos every, behind]
    have short : text.length ≤ 2 := by
      rwa [← List.append_nil text, List.takeWhile_append_of_pos every, List.takeWhile_nil,
        List.append_nil] at few
    rw [run, if_pos (by omega), if_pos all, Nat.min_eq_left (by omega), Nat.add_sub_cancel, ← same]
    simp
  · have run : (text ++ quote :: quote :: quote :: rest).takeWhile (· == quote) =
        text.takeWhile (· == quote) := by
      rw [List.takeWhile_append, if_neg]
      intro length
      rw [← (List.takeWhile_prefix _).eq_of_length length] at all
      exact all List.all_takeWhile
    rw [run, if_neg (by omega), if_neg all]

theorem closing?_of_ne {quote c : Char} (other : c ≠ quote) (rest : List Char) :
    closing? quote (c :: rest) = none := by
  simp [closing?, other]

theorem basicLines?_escape {c : Char} {tail : List Char} (escapes : Escapes tail c)
    (text : List Char) :
    basicLines? ('\\' :: (tail ++ text)) =
      (basicLines? text).map fun (content, behind) => (c :: content, behind) := by
  rw [basicLines?, closing?_of_ne (by decide)]
  dsimp only
  split
  · rename_i joined
    rw [escapes.inLine] at joined
    cases joined
  · split
    · rename_i none
      rw [escapes.read] at none
      cases none
    · rename_i some
      rw [escapes.read] at some
      cases some
      rfl

theorem basicLines?_closed {text : List Char} {closed : List Char × List Char}
    (quotes : closing? '"' text = some closed) : basicLines? text = some closed := by
  rw [basicLines?.eq_def, quotes]

theorem basicLines?_newline (text : List Char) :
    basicLines? ('\n' :: text) =
      (basicLines? text).map fun (content, behind) => ('\n' :: content, behind) := by
  rw [basicLines?, closing?_of_ne (by decide)]

theorem basicLines?_plain {c : Char} {text : List Char} (plain : isPlain c = true) (slash : c ≠ '\\')
    (opened : closing? '"' (c :: text) = none) :
    basicLines? (c :: text) =
      (basicLines? text).map fun (content, behind) => (c :: content, behind) := by
  rw [basicLines?, opened]
  · dsimp only
    rw [if_pos plain]
  · exact slash
  · rintro rfl
    cases plain
  · rintro _ rfl
    cases plain

theorem takeWhile_escapeLines {quotes : Nat} (few : quotes ≤ 2) (content : List Char) :
    quotes + ((escapeLines quotes content).takeWhile (· == '"')).length ≤ 2 := by
  induction content generalizing quotes with
  | nil => simpa [escapeLines]
  | cons c content ih =>
    unfold escapeLines
    split
    · split
      · rename_i full
        simp [full]
      · have later := ih (show quotes + 1 ≤ 2 by omega)
        simp
        omega
    · rename_i double
      split
      · simpa
      · rename_i feed
        rcases escapeCharacter_cases feed with ⟨tail, written, -⟩ | ⟨written, -⟩
        · simpa [written]
        · simpa [written, double]

/-- A text that is written with nothing but quotes is just those. -/
theorem escapeLines_quotes {quotes : Nat} {content : List Char}
    (all : (escapeLines quotes content).all (· == '"') = true) :
    escapeLines quotes content = content := by
  induction content generalizing quotes with
  | nil => rfl
  | cons c content ih =>
    unfold escapeLines at all ⊢
    split at all
    · rename_i double
      split at all
      · simp at all
      · rename_i room
        rw [if_pos double, if_neg room]
        rw [List.all_cons, Bool.and_eq_true] at all
        rw [ih all.2, double]
    · rename_i double
      split at all
      · simp at all
      · rename_i feed
        rcases escapeCharacter_cases feed with ⟨tail, written, -⟩ | ⟨written, -⟩
        · simp [written] at all
        · simp [written, double] at all

theorem basicLines?_escapeLines {quotes : Nat} (few : quotes ≤ 2) (content : List Char)
    {rest : List Char} (ends : rest.head? ≠ some '"') :
    basicLines? (escapeLines quotes content ++ '"' :: '"' :: '"' :: rest) = some (content, rest) := by
  have run {quotes : Nat} (few : quotes ≤ 2) (content : List Char) :
      closing? '"' (escapeLines quotes content ++ '"' :: '"' :: '"' :: rest) =
        if (escapeLines quotes content).all (· == '"') then some (escapeLines quotes content, rest)
        else none := by
    have bound := takeWhile_escapeLines few content
    exact closing?_append _ (by omega) ends
  induction content generalizing quotes with
  | nil =>
    exact basicLines?_closed (run few [])
  | cons c content ih =>
    have closed := run few (c :: content)
    by_cases all : (escapeLines quotes (c :: content)).all (· == '"') = true
    · rw [if_pos all] at closed
      rw [basicLines?_closed closed, escapeLines_quotes all]
    · rw [if_neg all] at closed
      unfold escapeLines at closed ⊢
      split
      · rename_i double
        subst double
        split
        · rename_i full
          have quote : Escapes ['"'] '"' :=
            ⟨fun _ => rfl, continued?_eq_none rfl (by decide) (by decide)⟩
          have read := basicLines?_escape quote (escapeLines 0 content ++ '"' :: '"' :: '"' :: rest)
          rw [ih (by omega)] at read
          exact read
        · rename_i room
          rw [if_pos rfl, if_neg room, List.cons_append] at closed
          rw [List.cons_append, basicLines?_plain rfl (by decide) closed, ih (by omega)]
          rfl
      · rename_i double
        split
        · rename_i feed
          subst feed
          rw [List.cons_append, basicLines?_newline, ih (by omega)]
          rfl
        · rename_i feed
          rw [if_neg double, if_neg feed] at closed
          rcases escapeCharacter_cases feed with ⟨tail, written, escapes⟩ | ⟨written, slash, plain⟩
          · rw [written, List.cons_append, List.cons_append, List.append_assoc,
              basicLines?_escape escapes, ih (by omega)]
            rfl
          · rw [written, List.singleton_append, List.cons_append] at closed ⊢
            rw [basicLines?_plain plain slash closed, ih (by omega)]
            rfl

theorem takeWhile_le_longestRun (quote : Char) (current : Nat) (text : List Char) :
    current + (text.takeWhile (· == quote)).length ≤ longestRun quote current text := by
  induction text generalizing current with
  | nil => simp [longestRun]
  | cons c text ih =>
    unfold longestRun
    split
    · rename_i same
      have later := ih (current + 1)
      simp [same]
      omega
    · rename_i other
      simp only [beq_iff_eq, other, not_false_eq_true, List.takeWhile_cons_of_neg, List.length_nil]
      exact Nat.le_max_left ..

theorem literalLines?_closed {text : List Char} {closed : List Char × List Char}
    (quotes : closing? '\'' text = some closed) : literalLines? text = some closed := by
  rw [literalLines?.eq_def, quotes]

theorem literalLines?_append {current : Nat} {content rest : List Char}
    (few : longestRun '\'' current content ≤ 2)
    (plain : ∀ c ∈ content, isPlain c = true ∨ c = '\n') (ends : rest.head? ≠ some '\'') :
    literalLines? (content ++ '\'' :: '\'' :: '\'' :: rest) = some (content, rest) := by
  induction content generalizing current with
  | nil =>
    exact literalLines?_closed (closing?_append [] (by simp) ends)
  | cons c content ih =>
    obtain ⟨first, later⟩ := List.forall_mem_cons.mp plain
    have run := takeWhile_le_longestRun '\'' current (c :: content)
    have closed := closing?_append (c :: content) (by omega) ends
    by_cases all : (c :: content).all (· == '\'') = true
    · rw [if_pos all] at closed
      exact literalLines?_closed closed
    · rw [if_neg all] at closed
      have behind : literalLines? (content ++ '\'' :: '\'' :: '\'' :: rest) =
          some (content, rest) := by
        unfold longestRun at few
        split at few
        · exact ih few later
        · exact ih (show longestRun '\'' 0 content ≤ 2 by omega) later
      rw [List.cons_append] at closed ⊢
      by_cases feed : c = '\n'
      · subst feed
        rw [literalLines?, closed]
        dsimp only
        rw [behind]
        rfl
      · have first := first.resolve_right feed
        rw [literalLines?, closed]
        · dsimp only
          rw [if_pos first, behind]
          rfl
        · exact feed
        · rintro _ rfl
          cases first

theorem isPlain_of_not_isControl {c : Char} (clear : isControl c = false) :
    isPlain c = true ∨ c = '\n' := by
  simp only [isControl, Bool.or_eq_false_iff, Bool.and_eq_false_iff, decide_eq_false_iff_not,
    ne_eq, Decidable.not_not] at clear
  simp only [isPlain, Bool.or_eq_true, beq_iff_eq, Bool.and_eq_true, decide_eq_true_eq]
  obtain ⟨(high | tab) | feed, other⟩ := clear
  · exact .inl (.inr ⟨by omega, other⟩)
  · exact .inl (.inl tab)
  · exact .inr feed

theorem longestRun_pos {quote : Char} {text : List Char} (member : quote ∈ text) (current : Nat) :
    0 < longestRun quote current text := by
  induction text generalizing current with
  | nil => cases member
  | cons c text ih =>
    unfold longestRun
    split
    · rename_i same
      have run := takeWhile_le_longestRun quote (current + 1) text
      omega
    · rename_i other
      have later := ih ((List.mem_cons.mp member).resolve_left (Ne.symm other)) 0
      omega

theorem Form.of_cases (text : List Char) :
    Form.of text = .basic ∨ Form.of text = .basicLines ∨
      (Form.of text = .literal ∧ ∀ c ∈ text, isPlain c = true ∧ c ≠ '\'') ∨
      (Form.of text = .literalLines ∧ (∀ c ∈ text, isPlain c = true ∨ c = '\n') ∧
        longestRun '\'' 0 text ≤ 2) := by
  have clear {controls : Bool} (none : (!controls) = true) (same : text.any isControl = controls) :
      ∀ c ∈ text, isPlain c = true ∨ c = '\n' := by
    rw [← same, Bool.not_eq_true', List.any_eq_false] at none
    exact fun c member => isPlain_of_not_isControl (by simpa using none c member)
  unfold Form.of
  dsimp only
  split
  · exact .inl rfl
  · split
    · rename_i one
      simp only [Bool.and_eq_true, decide_eq_true_eq] at one
      obtain ⟨⟨controls, lines⟩, singles⟩ := one
      refine .inr (.inr (.inl ⟨rfl, fun c member => ⟨?_, ?_⟩⟩))
      · refine (clear controls rfl c member).resolve_right ?_
        rintro rfl
        simp [member] at lines
      · rintro rfl
        exact absurd singles (Nat.ne_of_gt (longestRun_pos member 0))
    · split
      · exact .inr (.inl rfl)
      · split
        · rename_i several
          simp only [Bool.and_eq_true, decide_eq_true_eq] at several
          exact .inr (.inr (.inr ⟨rfl, clear several.1 rfl, several.2⟩))
        · split
          · exact .inr (.inl rfl)
          · exact .inl rfl

/-- One line feed is taken off behind the opening quotes, and one was put there for each text that
has line feeds. -/
theorem afterOpening_eq {content written : List Char} {opening : String} (text : List Char)
    (opened : opening = if content.contains '\n' then "\n" else "")
    (first : '\n' ∉ content → ∃ c rest, written ++ text = c :: rest ∧ isPlain c = true) :
    afterOpening (opening.toList ++ (written ++ text)) = written ++ text := by
  subst opened
  split
  · rfl
  · rename_i none
    obtain ⟨c, rest, start, plain⟩ := first (by simpa using none)
    have line : newline? (c :: rest) = Option.none := by
      unfold newline?
      split <;> rename_i same
      · obtain ⟨rfl, -⟩ := List.cons.inj same
        cases plain
      · obtain ⟨rfl, -⟩ := List.cons.inj same
        cases plain
      · rfl
    rw [start]
    show (newline? (c :: rest)).getD (c :: rest) = c :: rest
    rw [line]
    rfl

theorem escapeLines_head {content : List Char} (clear : '\n' ∉ content) (text : List Char) :
    ∃ c rest, escapeLines 0 content ++ '"' :: text = c :: rest ∧ isPlain c = true := by
  cases content with
  | nil => exact ⟨'"', text, rfl, rfl⟩
  | cons c content =>
    rw [List.mem_cons, not_or] at clear
    unfold escapeLines
    split
    · exact ⟨'"', _, rfl, rfl⟩
    · rw [if_neg (Ne.symm clear.1)]
      rcases escapeCharacter_cases (Ne.symm clear.1) with ⟨tail, written, -⟩ | ⟨written, -, plain⟩
      · exact ⟨'\\', _, by rw [written]; rfl, rfl⟩
      · exact ⟨c, _, by rw [written]; rfl, plain⟩

/-- Two more quotes follow an opening quote only where a text over several lines starts. -/
theorem quoted?_basic {text : List Char} (other : ∀ rest, text ≠ '"' :: '"' :: rest) :
    quoted? ('"' :: text) = basic? text := by
  unfold quoted?
  split <;> rename_i same
  · exact absurd (List.cons.inj same).2 (other _)
  · rw [(List.cons.inj same).2]
  · cases same
  · cases same
  · rename_i single _
    exact absurd rfl (single text)

theorem quoted?_literal {text : List Char} (other : ∀ rest, text ≠ '\'' :: '\'' :: rest) :
    quoted? ('\'' :: text) = literal? text := by
  unfold quoted?
  split <;> rename_i same
  · cases same
  · cases same
  · exact absurd (List.cons.inj same).2 (other _)
  · rw [(List.cons.inj same).2]
  · exact absurd rfl (same text)

theorem escapeLine_head (c : Char) : ∃ first rest, escapeLine c = first :: rest ∧ first ≠ '"' := by
  unfold escapeLine
  split
  · exact ⟨'\\', _, rfl, by decide⟩
  · rename_i double
    split
    · exact ⟨'\\', _, rfl, by decide⟩
    · rename_i feed
      rcases escapeCharacter_cases feed with ⟨tail, written, -⟩ | ⟨written, -⟩
      · exact ⟨'\\', tail, written, by decide⟩
      · exact ⟨c, [], written, double⟩

theorem quoted?_escapeLine (content rest : List Char) :
    quoted? ('"' :: (content.flatMap escapeLine ++ '"' :: '\n' :: rest)) =
      some (content, '\n' :: rest) := by
  rw [quoted?_basic, basic?_flatMap]
  intro after same
  cases content with
  | nil => simp at same
  | cons c more =>
    obtain ⟨first, tail, written, other⟩ := escapeLine_head c
    rw [List.flatMap_cons, written] at same
    exact other (List.cons.inj same).1

theorem quoted?_plain {content : List Char} (plain : ∀ c ∈ content, isPlain c = true ∧ c ≠ '\'')
    (rest : List Char) :
    quoted? ('\'' :: (content ++ '\'' :: '\n' :: rest)) = some (content, '\n' :: rest) := by
  rw [quoted?_literal, literal?_append plain]
  intro after same
  cases content with
  | nil => simp at same
  | cons c more => exact (plain c (by simp)).2 (List.cons.inj same).1

theorem quoted?_escapeLines (content : List Char) {opening : String}
    (opened : opening = if content.contains '\n' then "\n" else "") (rest : List Char) :
    quoted? ('"' :: '"' :: '"' :: (opening.toList ++
        (escapeLines 0 content ++ '"' :: '"' :: '"' :: '\n' :: rest))) =
      some (content, '\n' :: rest) := by
  show basicLines? (afterOpening _) = _
  rw [afterOpening_eq _ opened fun clear => escapeLines_head clear _,
    basicLines?_escapeLines (by decide) _ (by simp)]

theorem quoted?_plainLines {content : List Char} {opening : String}
    (opened : opening = if content.contains '\n' then "\n" else "")
    (plain : ∀ c ∈ content, isPlain c = true ∨ c = '\n') (few : longestRun '\'' 0 content ≤ 2)
    (rest : List Char) :
    quoted? ('\'' :: '\'' :: '\'' :: (opening.toList ++
        (content ++ '\'' :: '\'' :: '\'' :: '\n' :: rest))) = some (content, '\n' :: rest) := by
  show literalLines? (afterOpening _) = _
  rw [afterOpening_eq _ opened, literalLines?_append few plain (by simp)]
  intro clear
  cases content with
  | nil => exact ⟨'\'', _, rfl, rfl⟩
  | cons c more =>
    rw [List.mem_cons, not_or] at clear
    exact ⟨c, _, rfl, (plain c (by simp)).resolve_right (Ne.symm clear.1)⟩

/-- A text that is written at the end of a line reads back, whatever is in it. -/
theorem quoted?_quoted (text : String) (rest : List Char) :
    quoted? ((quoted text).toList ++ '\n' :: rest) = some (text.toList, '\n' :: rest) := by
  unfold quoted
  dsimp only
  rcases Form.of_cases text.toList with form | form | ⟨form, plain⟩ | ⟨form, plain, few⟩ <;>
    rw [form]
  · simpa using quoted?_escapeLine text.toList rest
  · simpa using quoted?_escapeLines text.toList rfl rest
  · simpa using quoted?_plain plain rest
  · simpa using quoted?_plainLines rfl plain few rest

theorem head?_quoted (text : String) :
    (quoted text).toList.head? = some '"' ∨ (quoted text).toList.head? = some '\'' := by
  unfold quoted
  dsimp only
  split <;> simp

end LiveFragment.Toml
