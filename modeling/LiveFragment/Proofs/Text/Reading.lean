import Mathlib.Algebra.Ring.Nat
import Mathlib.Data.List.Basic
import Mathlib.Data.List.Induction
import Mathlib.Data.List.TakeDrop
import Mathlib.Data.List.TakeWhile
import LiveFragment.Text.Blank
import LiveFragment.Text.Lines
import LiveFragment.Text.Numeral
import LiveFragment.Text.Split

namespace LiveFragment.Text

theorem find?_of_distinct {α ν : Type} [BEq ν] [LawfulBEq ν] {name : α → ν} {things : List α}
    (distinct : (things.map name).Nodup) {thing : α} (member : thing ∈ things) :
    things.find? (name · == name thing) = some thing := by
  induction things with
  | nil => cases member
  | cons first rest ih =>
    obtain ⟨new, others⟩ := List.nodup_cons.mp distinct
    rcases List.mem_cons.mp member with rfl | later
    · rw [List.find?_cons_of_pos (by simp)]
    · have different : name first ≠ name thing := fun same =>
        new (List.mem_map.mpr ⟨thing, later, same.symm⟩)
      rw [List.find?_cons_of_neg (by simpa using different), ih others later]

theorem cutAt?_append {separates : Char → Bool} {part : List Char} {c : Char}
    (clear : ∀ d ∈ part, separates d = false) (at' : separates c = true) (rest : List Char) :
    cutAt? separates (part ++ c :: rest) = some (part, rest) := by
  induction part with
  | nil => simp [cutAt?, at']
  | cons d part ih =>
    have first : separates d = false := clear d (by simp)
    have later := ih fun e member => clear e (by simp [member])
    simp [cutAt?, first, later]

theorem cutAt?_eq_some {separates : Char → Bool} {text before after : List Char} :
    cutAt? separates text = some (before, after) ↔
      ∃ c, text = before ++ c :: after ∧ separates c = true ∧ ∀ d ∈ before, separates d = false := by
  constructor
  · intro cut
    induction text generalizing before with
    | nil => cases cut
    | cons first rest ih =>
      unfold cutAt? at cut
      split at cut
      · rename_i separator
        cases cut
        exact ⟨first, rfl, separator, by simp⟩
      · rename_i other
        obtain ⟨⟨front, back⟩, later, same⟩ := Option.map_eq_some_iff.mp cut
        cases same
        obtain ⟨c, rfl, separator, clear⟩ := ih later
        exact ⟨c, rfl, separator, List.forall_mem_cons.mpr ⟨by simpa using other, clear⟩⟩
  · rintro ⟨c, rfl, separator, clear⟩
    exact cutAt?_append clear separator after

theorem cutAt?_eq_none {separates : Char → Bool} {text : List Char}
    (clear : ∀ d ∈ text, separates d = false) : cutAt? separates text = none := by
  induction text with
  | nil => rfl
  | cons d text ih =>
    have first : separates d = false := clear d (by simp)
    have later := ih fun e member => clear e (by simp [member])
    simp [cutAt?, first, later]

theorem clear_of_cutAt? {separates : Char → Bool} {text before after : List Char}
    (cut : cutAt? separates text = some (before, after)) : ∀ d ∈ before, separates d = false := by
  obtain ⟨_, _, _, clear⟩ := cutAt?_eq_some.mp cut
  exact clear

theorem clear_of_cutAt?_eq_none {separates : Char → Bool} {text : List Char}
    (whole : cutAt? separates text = none) : ∀ d ∈ text, separates d = false := by
  induction text with
  | nil => simp
  | cons c rest ih =>
    unfold cutAt? at whole
    split at whole
    · cases whole
    · rename_i other
      exact List.forall_mem_cons.mpr
        ⟨by simpa using other, ih (Option.map_eq_none_iff.mp whole)⟩

theorem cutAtWord?_eq_some {word text front rest : List Char} (some' : word ≠ []) :
    cutAtWord? word text = some (front, rest) ↔
      text = front ++ (word ++ rest) ∧
        ∀ before after, text = before ++ (word ++ after) → front.length ≤ before.length := by
  induction text generalizing front with
  | nil =>
    have whole : cutAtWord? word [] = none := by
      rw [cutAtWord?, if_neg (by simpa using some')]
    rw [whole]
    constructor
    · rintro ⟨⟩
    · rintro ⟨split, _⟩
      exact absurd (List.append_eq_nil_iff.mp (List.append_eq_nil_iff.mp split.symm).2).1 some'
  | cons c text ih =>
    rw [cutAtWord?]
    cases here : word.isPrefixOf? (c :: text) with
    | some after =>
      have starts := List.isPrefixOf?_eq_some_iff_append_eq.mp here
      dsimp only
      constructor
      · rintro ⟨⟩
        exact ⟨starts.symm, fun _ _ _ => Nat.zero_le _⟩
      · rintro ⟨split, first⟩
        obtain rfl := List.eq_nil_of_length_eq_zero (Nat.le_zero.mp (first [] after starts.symm))
        rw [List.nil_append, ← starts] at split
        rw [List.append_cancel_left split]
    | none =>
      have later (before after : List Char) (split : c :: text = before ++ (word ++ after)) :
          ∃ others, before = c :: others ∧ text = others ++ (word ++ after) := by
        cases before with
        | nil =>
          rw [split, List.nil_append, List.isPrefixOf?_eq_some_iff_append_eq.mpr rfl] at here
          cases here
        | cons d others =>
          obtain ⟨rfl, within⟩ := List.cons.inj split
          exact ⟨others, rfl, within⟩
      dsimp only
      rw [Option.map_eq_some_iff]
      constructor
      · rintro ⟨⟨before, after⟩, cut, same⟩
        obtain ⟨rfl, rfl⟩ := Prod.mk.inj same
        obtain ⟨split, first⟩ := ih.mp cut
        refine ⟨by rw [split]; rfl, fun front back occurs => ?_⟩
        obtain ⟨others, rfl, within⟩ := later front back occurs
        exact Nat.succ_le_succ (first others back within)
      · rintro ⟨split, first⟩
        obtain ⟨others, rfl, within⟩ := later front rest split
        refine ⟨(others, rest), ih.mpr ⟨within, fun before after occurs => ?_⟩, rfl⟩
        exact Nat.le_of_succ_le_succ (first (c :: before) after (by rw [occurs]; rfl))

theorem cutAtLast?_eq_some {separates : Char → Bool} {text before after : List Char} :
    cutAtLast? separates text = some (before, after) ↔
      ∃ c, text = before ++ c :: after ∧ separates c = true ∧ ∀ d ∈ after, separates d = false := by
  rw [cutAtLast?, Option.map_eq_some_iff]
  constructor
  · rintro ⟨⟨behind, ahead⟩, cut, same⟩
    obtain ⟨rfl, rfl⟩ := Prod.mk.inj same
    obtain ⟨c, split, separator, clear⟩ := cutAt?_eq_some.mp cut
    refine ⟨c, ?_, separator, fun d member => clear d (List.mem_reverse.mp member)⟩
    rw [← List.reverse_reverse text, split, List.reverse_append, List.reverse_cons,
      List.append_assoc]
    rfl
  · rintro ⟨c, rfl, separator, clear⟩
    refine ⟨(after.reverse, before.reverse), ?_, by simp⟩
    refine cutAt?_eq_some.mpr ⟨c, by simp, separator, fun d member => ?_⟩
    exact clear d (List.mem_reverse.mp member)

theorem splitAll_ne_nil (separates : Char → Bool) (text : List Char) :
    splitAll separates text ≠ [] := by
  cases text with
  | nil => simp [splitAll]
  | cons c rest =>
    simp only [splitAll]
    split
    · simp
    · split <;> simp

theorem splitAll_append {separates : Char → Bool} {c : Char} (separator : separates c = true)
    (before after : List Char) :
    splitAll separates (before ++ c :: after) =
      splitAll separates before ++ splitAll separates after := by
  induction before with
  | nil => simp [splitAll, separator]
  | cons first rest ih =>
    simp only [List.cons_append, splitAll, ih]
    split
    · rfl
    · cases parts : splitAll separates rest with
      | nil => exact absurd parts (splitAll_ne_nil separates rest)
      | cons part others => rfl

theorem splitAll_of_clear {separates : Char → Bool} {part : List Char}
    (clear : ∀ c ∈ part, separates c = false) : splitAll separates part = [part] := by
  induction part with
  | nil => rfl
  | cons c rest ih =>
    obtain ⟨first, later⟩ := List.forall_mem_cons.mp clear
    simp [splitAll, first, ih later]

/-- The parts between separators are the parts that the separator joins. -/
theorem splitAll_eq_iff {c : Char} {text : List Char} {parts : List (List Char)} :
    splitAll (· == c) text = parts ↔
      parts ≠ [] ∧ (∀ part ∈ parts, c ∉ part) ∧ [c].intercalate parts = text := by
  constructor
  · rintro rfl
    refine ⟨splitAll_ne_nil _ text, ?_⟩
    induction text with
    | nil => simp [splitAll]
    | cons first rest ih =>
      obtain ⟨clear, joined⟩ := ih
      simp only [splitAll]
      split
      · rename_i separator
        obtain rfl : first = c := by simpa using separator
        refine ⟨List.forall_mem_cons.mpr ⟨by simp, clear⟩, ?_⟩
        rw [List.intercalate_cons_of_ne_nil (splitAll_ne_nil _ rest), joined]
        rfl
      · rename_i other
        have other : c ≠ first := fun same => other (by simp [same])
        cases more : splitAll (· == c) rest with
        | nil => exact absurd more (splitAll_ne_nil _ rest)
        | cons part others =>
          rw [more] at clear joined
          obtain ⟨one, further⟩ := List.forall_mem_cons.mp clear
          refine ⟨List.forall_mem_cons.mpr ⟨by simp [other, one], further⟩, ?_⟩
          rw [← joined]
          cases others with
          | nil => simp
          | cons => simp [List.intercalate_cons_of_ne_nil]
  · rintro ⟨some, clear, rfl⟩
    induction parts with
    | nil => exact absurd rfl some
    | cons part others ih =>
      obtain ⟨one, further⟩ := List.forall_mem_cons.mp clear
      have single : splitAll (· == c) part = [part] :=
        splitAll_of_clear fun d member => beq_eq_false_iff_ne.mpr fun same => one (same ▸ member)
      cases others with
      | nil => simpa using single
      | cons next rest =>
        rw [List.intercalate_cons_of_ne_nil (by simp), List.append_assoc, List.singleton_append,
          splitAll_append (by simp), single, ih (by simp) further]
        rfl

theorem infix_intercalate {separator part : List Char} {parts : List (List Char)}
    (member : part ∈ parts) : part <:+: separator.intercalate parts := by
  induction parts with
  | nil => cases member
  | cons first rest ih =>
    rcases eq_or_ne rest [] with rfl | more
    · simp [List.mem_singleton.mp member]
    · rw [List.intercalate_cons_of_ne_nil more, List.append_assoc]
      rcases List.mem_cons.mp member with rfl | later
      · exact (List.prefix_append ..).isInfix
      · exact (ih later).trans ((List.suffix_append ..).trans (List.suffix_append ..)).isInfix

theorem isDigit_iff {c : Char} : isDigit c = true ↔ 48 ≤ c.toNat ∧ c.toNat ≤ 57 := by
  simp [isDigit, Char.le_def, UInt32.le_iff_toNat_le]

theorem isDigit_ne {c other : Char} (digit : isDigit c = true) (distinct : isDigit other = false) :
    c ≠ other := by
  rintro rfl
  rw [digit] at distinct
  cases distinct

theorem isBlank_eq_false {c : Char} (high : 0x20 < c.toNat)
    (narrow : c.toNat < 0x80 ∨ c.toNat = 0xb5) : isBlank c = false := by
  unfold isBlank
  dsimp only
  simp only [Bool.or_eq_false_iff, Bool.and_eq_false_iff, decide_eq_false_iff_not,
    beq_eq_false_iff_ne]
  omega

theorem isBlank_of_isDigit {c : Char} (digit : isDigit c = true) : isBlank c = false := by
  rw [isDigit_iff] at digit
  exact isBlank_eq_false (by omega) (by omega)

/-- A word that is written out is looked through character by character. -/
theorem visible_of_all {word : List Char} (shown : word.all (!isBlank ·) = true) :
    ∀ c ∈ word, isBlank c = false := by
  simpa using shown

theorem trimStart_append {blanks : List Char} (blank : ∀ c ∈ blanks, isBlank c = true)
    (rest : List Char) : trimStart (blanks ++ rest) = trimStart rest :=
  List.dropWhile_append_of_pos blank

theorem trimStart_cons {c : Char} (visible : isBlank c = false) (rest : List Char) :
    trimStart (c :: rest) = c :: rest :=
  List.dropWhile_cons_of_neg (by rw [visible]; exact Bool.false_ne_true)

/-- White space before a visible character is taken off, and nothing behind it. -/
theorem trimStart_visible (text : List Char) {c : Char} (visible : isBlank c = false)
    (rest : List Char) : trimStart (text ++ c :: rest) = trimStart text ++ c :: rest := by
  have moved : trimStart (text ++ c :: rest) =
      if (trimStart text).isEmpty then trimStart (c :: rest) else trimStart text ++ c :: rest :=
    List.dropWhile_append
  rw [moved]
  split
  · rename_i empty
    rw [List.isEmpty_iff.mp empty, trimStart_cons visible]
    rfl
  · rfl

theorem trimEnd_concat (text : List Char) (c : Char) :
    trimEnd (text ++ [c]) = if isBlank c then trimEnd text else text ++ [c] := by
  rw [trimEnd, List.reverse_append, List.reverse_singleton, List.singleton_append,
    List.dropWhile_cons]
  split
  · rfl
  · rw [List.reverse_cons, List.reverse_reverse]

/-- Only what stands behind a visible character can be white space at the end. -/
theorem trimEnd_append {text : List Char} (visible : ∀ c ∈ text.getLast?, isBlank c = false)
    (rest : List Char) : trimEnd (text ++ rest) = text ++ trimEnd rest := by
  induction rest using List.reverseRecOn with
  | nil =>
    rw [List.append_nil]
    rcases List.eq_nil_or_concat text with rfl | ⟨before, last, rfl⟩
    · rfl
    · have shown : isBlank last = false := visible last (by simp)
      rw [List.concat_eq_append, trimEnd_concat, shown]
      simp [trimEnd]
  | append_singleton rest c ih =>
    rw [← List.append_assoc, trimEnd_concat, trimEnd_concat, ih]
    split
    · rfl
    · rw [List.append_assoc]

/-- White space only. -/
abbrev Blanks (text : List Char) : Prop := ∀ c ∈ text, isBlank c = true

/-- White space that is written out is looked through character by character. -/
theorem blanks_of_all {text : List Char} (blank : text.all isBlank = true) : Blanks text :=
  List.all_eq_true.mp blank

theorem trimEnd_blanks {text : List Char} (blank : Blanks text) : trimEnd text = [] := by
  rw [trimEnd, List.dropWhile_eq_nil_iff.mpr fun c member => blank c (List.mem_reverse.mp member)]
  rfl

theorem trimStart_blanks {text : List Char} (blank : Blanks text) : trimStart text = [] :=
  List.dropWhile_eq_nil_iff.mpr blank

/-- A text that starts and ends with visible characters is what remains when the white space around
it is taken off. -/
theorem trim_framed {front text back : List Char} (blankFront : Blanks front)
    (blankBack : Blanks back) (starts : ∀ c ∈ text.head?, isBlank c = false)
    (ends : ∀ c ∈ text.getLast?, isBlank c = false) : trim (front ++ (text ++ back)) = text := by
  rw [trim, trimStart_append blankFront]
  cases text with
  | nil =>
    rw [List.nil_append, trimStart_blanks blankBack]
    rfl
  | cons c rest =>
    rw [List.cons_append, trimStart_cons (starts c rfl), ← List.cons_append, trimEnd_append ends,
      trimEnd_blanks blankBack, List.append_nil]

theorem trimEnd_followed {back : List Char} (blank : Blanks back) (text : List Char) :
    trimEnd (text ++ back) = trimEnd text := by
  rw [trimEnd, List.reverse_append,
    List.dropWhile_append_of_pos fun c member => blank c (List.mem_reverse.mp member)]
  rfl

theorem trim_followed {back : List Char} (blank : Blanks back) (text : List Char) :
    trim (text ++ back) = trim text := by
  have moved : trimStart (text ++ back) =
      if (trimStart text).isEmpty then trimStart back else trimStart text ++ back :=
    List.dropWhile_append
  rw [trim, moved]
  split
  · rename_i empty
    rw [trim, List.isEmpty_iff.mp empty, trimStart_blanks blank]
  · rw [trimEnd_followed blank, trim]

theorem exists_trimStart (text : List Char) :
    ∃ front, Blanks front ∧ text = front ++ trimStart text :=
  ⟨text.takeWhile isBlank, fun _ member => List.mem_takeWhile_imp member,
    List.takeWhile_append_dropWhile.symm⟩

theorem exists_trimEnd (text : List Char) :
    ∃ back, Blanks back ∧ text = trimEnd text ++ back := by
  obtain ⟨back, blank, split⟩ := exists_trimStart text.reverse
  refine ⟨back.reverse, fun c member => blank c (List.mem_reverse.mp member), ?_⟩
  calc text
    _ = text.reverse.reverse := (List.reverse_reverse text).symm
    _ = (back ++ trimStart text.reverse).reverse := congrArg List.reverse split
    _ = trimEnd text ++ back.reverse := List.reverse_append

theorem trim_trimEnd (text : List Char) : trim (trimEnd text) = trim text := by
  obtain ⟨back, blank, split⟩ := exists_trimEnd text
  calc trim (trimEnd text)
    _ = trim (trimEnd text ++ back) := (trim_followed blank _).symm
    _ = trim text := by rw [← split]

/-- Trimming takes white space off both ends. -/
theorem exists_trim (text : List Char) :
    ∃ front back, Blanks front ∧ Blanks back ∧ text = front ++ (trim text ++ back) := by
  obtain ⟨front, blankFront, starts⟩ := exists_trimStart text
  obtain ⟨back, blankBack, ends⟩ := exists_trimEnd (trimStart text)
  exact ⟨front, back, blankFront, blankBack, by rw [trim, ← ends, ← starts]⟩

theorem infix_of_trim (text : List Char) : trim text <:+: text := by
  have ended : trimEnd (trimStart text) <+: trimStart text := by
    rw [trimEnd, ← List.reverse_suffix, List.reverse_reverse]
    exact List.dropWhile_suffix _
  exact ended.isInfix.trans (List.dropWhile_suffix _).isInfix

theorem suffix_of_nextWord? {text word rest : List Char} (next : nextWord? text = some (word, rest)) :
    rest <:+ text := by
  unfold nextWord? at next
  split at next
  · cases next
  · obtain ⟨-, rfl⟩ := Prod.mk.inj ((List.span_eq_takeWhile_dropWhile ..).symm.trans
      (Option.some.inj next))
    exact (List.dropWhile_suffix _).trans (List.dropWhile_suffix _)

/-- A piece without the character in the middle is a piece of one of the two sides. -/
theorem infix_of_clear {piece before after : List Char} {c : Char} (clear : c ∉ piece)
    (inside : piece <:+: before ++ c :: after) : piece <:+: before ∨ piece <:+: after := by
  have empty {part : List Char} (absent : c ∉ part) (front : part <+: c :: after) : part = [] := by
    cases part with
    | nil => rfl
    | cons first rest =>
      obtain ⟨rfl, -⟩ := List.cons_prefix_cons.mp front
      exact absurd List.mem_cons_self absent
  rcases List.infix_append_iff.mp inside with left | right | ⟨front, back, rfl, ends, starts⟩
  · exact .inl left
  · rcases List.infix_cons_iff.mp right with starts | further
    · exact .inl (empty clear starts ▸ List.nil_infix)
    · exact .inr further
  · rw [empty (fun member => clear (List.mem_append_right _ member)) starts, List.append_nil]
    exact .inl ends.isInfix

/-- A text that ends a word written before it: it starts with white space, or it is empty. -/
def EndsWord (text : List Char) : Prop := ∀ c ∈ text.head?, isBlank c = true

theorem EndsWord.trimEnd {text : List Char} (ends : EndsWord text) : EndsWord (trimEnd text) := by
  induction text using List.reverseRecOn with
  | nil => exact ends
  | append_singleton text c ih =>
    rw [trimEnd_concat]
    split
    · refine ih fun first head => ends first ?_
      rw [List.head?_append, Option.mem_def.mp head]
      rfl
    · exact ends

theorem trim_eq_self {text : List Char} (visible : ∀ c ∈ text, isBlank c = false) :
    trim text = text := by
  have start : trimStart text = text := by
    cases text with
    | nil => rfl
    | cons c rest => exact trimStart_cons (visible c List.mem_cons_self) rest
  have stop := trimEnd_append (fun c last => visible c (List.mem_of_getLast? last)) []
  rw [List.append_nil] at stop
  rw [trim, start, stop]
  exact List.append_nil text

theorem nextWord?_append {blanks word rest : List Char} (blank : ∀ c ∈ blanks, isBlank c = true)
    (some' : word ≠ []) (visible : ∀ c ∈ word, isBlank c = false) (ends : EndsWord rest) :
    nextWord? (blanks ++ (word ++ rest)) = some (word, rest) := by
  obtain ⟨first, others, rfl⟩ := List.exists_cons_of_ne_nil some'
  have shown : ∀ c ∈ first :: others, (!isBlank c) = true := by
    intro c member
    rw [visible c member]
    rfl
  have behind : rest.takeWhile (fun c => !isBlank c) = [] ∧
      rest.dropWhile (fun c => !isBlank c) = rest := by
    cases rest with
    | nil => exact ⟨rfl, rfl⟩
    | cons c rest =>
      have cut : isBlank c = true := ends c rfl
      simp [cut]
  rw [nextWord?, trimStart_append blank, List.cons_append,
    trimStart_cons (visible first List.mem_cons_self)]
  dsimp only
  rw [← List.cons_append, List.span_eq_takeWhile_dropWhile, List.takeWhile_append_of_pos shown,
    List.dropWhile_append_of_pos shown, behind.1, behind.2, List.append_nil]

/-- A text that neither ends a line nor starts such an end. -/
def OneLine (text : List Char) : Prop := '\n' ∉ text ∧ '\r' ∉ text

instance (text : List Char) : Decidable (OneLine text) :=
  inferInstanceAs (Decidable (_ ∧ _))

theorem OneLine.append {text more : List Char} (first : OneLine text) (second : OneLine more) :
    OneLine (text ++ more) := by
  simp only [OneLine, List.mem_append, not_or]
  exact ⟨⟨first.1, second.1⟩, first.2, second.2⟩

theorem lines_ne_nil {text : List Char} (some : text ≠ []) : lines text ≠ [] := by
  fun_cases lines text with
  | case1 => exact absurd rfl some
  | case2 | case3 | case4 | case5 => simp

theorem lines_append {line : List Char} (plain : OneLine line) (rest : List Char) :
    lines (line ++ '\n' :: rest) = line :: lines rest := by
  obtain ⟨feed, carriage⟩ := plain
  induction line with
  | nil => rw [List.nil_append, lines]
  | cons c line ih =>
    simp only [List.mem_cons, not_or] at feed carriage
    have later := ih feed.2 carriage.2
    rw [List.cons_append, lines, later]
    · exact Ne.symm feed.1
    · rintro _ rfl _
      exact carriage.1 rfl

/-- Ended lines are read back one by one. -/
theorem lines_flatMap {texts : List (List Char)} (plain : ∀ text ∈ texts, OneLine text)
    (rest : List Char) :
    lines ((texts.flatMap (· ++ ['\n'])) ++ rest) = texts ++ lines rest := by
  induction texts with
  | nil => rfl
  | cons text texts ih =>
    have later := ih fun other member => plain other (by simp [member])
    have first := lines_append (plain text (by simp)) (texts.flatMap (· ++ ['\n']) ++ rest)
    simp only [List.flatMap_cons, List.append_assoc, List.cons_append, List.nil_append, first,
      later]

theorem count_flatMap {texts : List (List Char)} (plain : ∀ text ∈ texts, OneLine text) :
    (texts.flatMap (· ++ ['\n'])).count '\n' = texts.length := by
  induction texts with
  | nil => rfl
  | cons text texts ih =>
    have later := ih fun other member => plain other (by simp [member])
    have none := List.count_eq_zero.mpr (plain text (by simp)).1
    simp only [List.flatMap_cons, List.count_append, none, later, List.count_singleton_self,
      List.length_cons]
    omega

theorem isDigit_eq (c : Char) : isDigit c = c.isDigit := by
  simp [isDigit, Char.isDigit, Char.le_def]

theorem toList_toString (n : Nat) : (toString n).toList = Nat.toDigits 10 n := by
  rw [Nat.toString_eq_repr, Nat.toList_repr]

theorem isDigit_of_mem_toDigits {n : Nat} {c : Char} (member : c ∈ Nat.toDigits 10 n) :
    isDigit c = true := by
  rw [isDigit_eq]
  exact Nat.isDigit_of_mem_toDigits (by decide) (by decide) member

theorem isDigit_of_mem_toString {n : Nat} {c : Char} (member : c ∈ (toString n).toList) :
    isDigit c = true := by
  rw [toList_toString] at member
  exact isDigit_of_mem_toDigits member

theorem digitsValue_eq (digits : List Char) : digitsValue digits = Nat.ofDigitChars 10 digits 0 :=
  Nat.ofDigitChars_eq_foldl.symm

theorem digitsValue_toDigits (n : Nat) : digitsValue (Nat.toDigits 10 n) = n := by
  rw [digitsValue_eq, Nat.ofDigitChars_ten_toDigits]

theorem digitsValue_append (digits more : List Char) :
    digitsValue (digits ++ more) = digitsValue digits * 10 ^ more.length + digitsValue more := by
  rw [digitsValue_eq, Nat.ofDigitChars_append, Nat.ofDigitChars_eq_ofDigitChars_zero,
    digitsValue_eq, digitsValue_eq, Nat.mul_comm]

theorem digitsValue_zeros (count : Nat) : digitsValue (List.replicate count '0') = 0 := by
  rw [digitsValue_eq, Nat.ofDigitChars_replicate_zero, Nat.mul_zero]

/-- The decimal digits of a number are read as the number. -/
theorem digits?_toString (n : Nat) : digits? (toString n).toList = some n := by
  have some : (toString n).toList ≠ [] := toList_toString n ▸ Nat.toDigits_ne_nil
  have all : (toString n).toList.all isDigit = true :=
    List.all_eq_true.mpr fun _ => isDigit_of_mem_toString
  rw [digits?, if_pos ⟨some, all⟩, toList_toString, digitsValue_toDigits]

/-- A number is read as a count when it is small enough for one. -/
theorem index?_toString {n : Nat} (small : n < UInt64.size) :
    index? (toString n).toList = some n := by
  have spelled := digits?_toString n
  have digits : ∀ c ∈ (toString n).toList, isDigit c = true := fun _ => isDigit_of_mem_toString
  have unsigned : ∀ rest, (toString n).toList ≠ '+' :: rest := by
    intro rest signed
    rw [signed] at digits
    exact absurd (digits '+' List.mem_cons_self) (by decide)
  rw [index?, naturalBelow?, spelled]
  · exact Option.filter_eq_some_iff.mpr ⟨rfl, decide_eq_true small⟩
  · exact unsigned

end LiveFragment.Text
