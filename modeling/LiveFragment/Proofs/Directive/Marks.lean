import Mathlib.Data.List.Induction
import LiveFragment.Directive.Line
import LiveFragment.Proofs.Directive.Brackets
import LiveFragment.Proofs.Text.Reading

namespace LiveFragment.Directive

open LiveFragment.Number LiveFragment.Text

/-- The characters that numbers are written with. -/
def isNumeralCharacter (c : Char) : Bool := isRunCharacter c && c != '"'

/-- A word that stands for a number. If it spells none, the number is zero. -/
structure IsNumeral (word : List Char) : Prop where
  some : word ≠ []
  characters : ∀ c ∈ word, isNumeralCharacter c = true

instance (word : List Char) : Decidable (IsNumeral word) :=
  decidable_of_iff (word ≠ [] ∧ word.all isNumeralCharacter = true)
    ⟨fun ⟨written, all⟩ => ⟨written, List.all_eq_true.mp all⟩,
      fun ⟨written, all⟩ => ⟨written, List.all_eq_true.mpr all⟩⟩

/-- The mark that a bracket is. -/
def bracket? (c : Char) : Option Mark :=
  if c = '[' then some .opening else if c = ']' then some .closing else none

/-- A mark, or a text in quotation marks. -/
inductive Token
  | mark (mark : Mark)
  | quotation (text : List Char)
deriving DecidableEq

/-- A text consists of tokens and any separators between them. A number ends where no number could
go on. -/
inductive Written : List Token → List Char → Prop
  | done : Written [] []
  | separator {tokens : List Token} {text : List Char} {c : Char} (separates : isSeparator c = true)
    (rest : Written tokens text) : Written tokens (c :: text)
  | bracket {tokens : List Token} {text : List Char} {c : Char} {mark : Mark}
    (spells : bracket? c = some mark) (rest : Written tokens text) :
    Written (.mark mark :: tokens) (c :: text)
  | run {tokens : List Token} {text word : List Char} (numeral : IsNumeral word)
    (ends : ∀ c ∈ text.head?, isNumeralCharacter c = false) (rest : Written tokens text) :
    Written (.mark (.run word) :: tokens) (word ++ text)
  | quotation {tokens : List Token} {text quoted : List Char} (plain : '"' ∉ quoted)
    (rest : Written tokens text) :
    Written (.quotation quoted :: tokens) ('"' :: (quoted ++ '"' :: text))

theorem isRunCharacter_of_numeral {c : Char} (numeral : isNumeralCharacter c = true) :
    isRunCharacter c = true :=
  (Bool.and_eq_true_iff.mp numeral).1

theorem not_blank_of_numeral {c : Char} (numeral : isNumeralCharacter c = true) :
    isBlank c = false := by
  have run := isRunCharacter_of_numeral numeral
  simp only [isRunCharacter, isSeparator, Bool.and_eq_true, Bool.not_eq_true',
    Bool.or_eq_false_iff] at run
  exact run.1.1.1

theorem bracket?_cases {c : Char} {mark : Mark} (spells : bracket? c = some mark) :
    c = '[' ∧ mark = .opening ∨ c = ']' ∧ mark = .closing := by
  unfold bracket? at spells
  split at spells
  · exact .inl ⟨by assumption, (Option.some.inj spells).symm⟩
  · split at spells
    · exact .inr ⟨by assumption, (Option.some.inj spells).symm⟩
    · cases spells

theorem not_blank_of_bracket {c : Char} {mark : Mark} (spells : bracket? c = some mark) :
    isBlank c = false := by
  rcases bracket?_cases spells with ⟨rfl, _⟩ | ⟨rfl, _⟩ <;> decide

theorem ne_quote_of_bracket {c : Char} {mark : Mark} (spells : bracket? c = some mark) :
    '"' ≠ c := by
  rcases bracket?_cases spells with ⟨rfl, _⟩ | ⟨rfl, _⟩ <;> decide

theorem ne_quote_of_separator {c : Char} (separates : isSeparator c = true) : '"' ≠ c := by
  rintro rfl
  exact absurd separates (by decide)

theorem IsNumeral.plain {word : List Char} (numeral : IsNumeral word) : '"' ∉ word := by
  intro member
  exact absurd (numeral.characters '"' member) (by decide)

namespace Written

variable {tokens : List Token} {text : List Char}

/-- Where the text behind a number loses its end, the number still ends there. -/
private theorem ends_dropLast {c : Char}
    (ends : ∀ d ∈ (text ++ [c]).head?, isNumeralCharacter d = false) :
    ∀ d ∈ text.head?, isNumeralCharacter d = false := by
  intro d head
  refine ends d ?_
  rw [List.head?_append, Option.mem_def.mp head]
  rfl

theorem of_concat {c : Char} (written : Written tokens (text ++ [c])) (blank : isBlank c = true) :
    Written tokens text := by
  generalize whole : text ++ [c] = all at written
  induction written generalizing text with
  | done => exact absurd whole (by simp)
  | separator separates rest ih =>
    cases text with
    | nil =>
      obtain ⟨rfl, rfl⟩ := List.cons.inj whole
      exact rest
    | cons first text =>
      obtain ⟨rfl, same⟩ := List.cons.inj whole
      exact .separator separates (ih same)
  | bracket spells rest ih =>
    cases text with
    | nil =>
      obtain ⟨rfl, _⟩ := List.cons.inj whole
      rw [not_blank_of_bracket spells] at blank
      cases blank
    | cons first text =>
      obtain ⟨rfl, same⟩ := List.cons.inj whole
      exact .bracket spells (ih same)
  | @run _ behind word numeral ends rest ih =>
    rcases List.eq_nil_or_concat behind with rfl | ⟨before, last, rfl⟩
    · have member : c ∈ word := by
        rw [← List.append_nil word, ← whole]
        simp
      rw [not_blank_of_numeral (numeral.characters c member)] at blank
      cases blank
    · rw [List.concat_eq_append] at *
      rw [← List.append_assoc] at whole
      obtain ⟨rfl, same⟩ := List.append_inj' whole rfl
      exact .run numeral (ends_dropLast ends) (ih (same ▸ rfl))
  | @quotation _ behind quoted plain rest ih =>
    rcases List.eq_nil_or_concat behind with rfl | ⟨before, last, rfl⟩
    · have last : text ++ [c] = ('"' :: quoted) ++ ['"'] := whole
      obtain ⟨_, same⟩ := List.append_inj' last rfl
      obtain rfl := List.singleton_inj.mp same
      exact absurd blank (by decide)
    · rw [List.concat_eq_append] at *
      have last : text ++ [c] = ('"' :: (quoted ++ '"' :: before)) ++ [last] := by
        rw [whole, List.cons_append, List.append_assoc, List.cons_append]
      obtain ⟨rfl, same⟩ := List.append_inj' last rfl
      exact .quotation plain (ih (same ▸ rfl))

theorem trimEnd (written : Written tokens text) : Written tokens (trimEnd text) := by
  induction text using List.reverseRecOn with
  | nil => exact written
  | append_singleton text c ih =>
    rw [trimEnd_concat]
    split
    · rename_i blank
      exact ih (written.of_concat blank)
    · exact written

theorem plain (written : Written tokens text) (bare : ∀ quoted, .quotation quoted ∉ tokens) :
    '"' ∉ text := by
  induction written with
  | done => simp
  | separator separates rest ih =>
    rw [List.mem_cons, not_or]
    exact ⟨ne_quote_of_separator separates, ih bare⟩
  | bracket spells rest ih =>
    rw [List.mem_cons, not_or]
    exact ⟨ne_quote_of_bracket spells,
      ih fun quoted member => bare quoted (List.mem_cons_of_mem _ member)⟩
  | run numeral ends rest ih =>
    rw [List.mem_append, not_or]
    exact ⟨numeral.plain, ih fun quoted member => bare quoted (List.mem_cons_of_mem _ member)⟩
  | quotation plain rest ih => exact absurd List.mem_cons_self (bare _)

/-- The first quotation can be taken out, with a space in its place. -/
theorem take_quotation {front back : List Token} {quoted : List Char}
    (written : Written (front ++ .quotation quoted :: back) text)
    (bare : ∀ other, .quotation other ∉ front) :
    ∃ before after, text = before ++ '"' :: (quoted ++ '"' :: after) ∧ '"' ∉ before ∧
      '"' ∉ quoted ∧ Written (front ++ back) (before ++ ' ' :: after) := by
  generalize all : front ++ .quotation quoted :: back = tokens at written
  induction written generalizing front with
  | done => exact absurd all (by simp)
  | @separator _ _ c separates rest ih =>
    obtain ⟨before, after, rfl, first, plain, taken⟩ := ih bare all
    refine ⟨c :: before, after, rfl, ?_, plain, .separator separates taken⟩
    rw [List.mem_cons, not_or]
    exact ⟨ne_quote_of_separator separates, first⟩
  | @bracket _ _ c _ spells rest ih =>
    cases front with
    | nil => cases all
    | cons token front =>
      obtain ⟨rfl, same⟩ := List.cons.inj all
      obtain ⟨before, after, rfl, first, plain, taken⟩ :=
        ih (fun other member => bare other (List.mem_cons_of_mem _ member)) same
      refine ⟨c :: before, after, rfl, ?_, plain, .bracket spells taken⟩
      rw [List.mem_cons, not_or]
      exact ⟨ne_quote_of_bracket spells, first⟩
  | @run _ _ word numeral ends rest ih =>
    cases front with
    | nil => cases all
    | cons token front =>
      obtain ⟨rfl, same⟩ := List.cons.inj all
      obtain ⟨before, after, rfl, first, plain, taken⟩ :=
        ih (fun other member => bare other (List.mem_cons_of_mem _ member)) same
      refine ⟨word ++ before, after, by rw [List.append_assoc], ?_, plain, ?_⟩
      · rw [List.mem_append, not_or]
        exact ⟨numeral.plain, first⟩
      · rw [List.append_assoc]
        refine .run numeral ?_ taken
        cases before with
        | nil =>
          rintro _ ⟨⟩
          decide
        | cons d before => exact ends
  | quotation plain rest ih =>
    cases front with
    | nil =>
      obtain ⟨same, rfl⟩ := List.cons.inj all
      obtain rfl := Token.quotation.inj same
      exact ⟨[], _, rfl, by simp, plain, .separator (by decide) rest⟩
    | cons token front =>
      obtain ⟨rfl, _⟩ := List.cons.inj all
      exact absurd List.mem_cons_self (bare _)

end Written

private theorem beq_quote {text : List Char} (plain : '"' ∉ text) :
    ∀ c ∈ text, (c == '"') = false := by
  intro c member
  rw [beq_eq_false_iff_ne]
  rintro rfl
  exact plain member

theorem takeDescription_plain {body : List Char} (plain : '"' ∉ body) :
    takeDescription body = (body, none) := by
  rw [takeDescription, cutAt?_eq_none (beq_quote plain)]

theorem takeDescription_quoted {before quoted after : List Char} (unopened : '"' ∉ before)
    (plain : '"' ∉ quoted) :
    takeDescription (before ++ '"' :: (quoted ++ '"' :: after)) =
      (before ++ ' ' :: after, some quoted) := by
  rw [takeDescription, cutAt?_append (beq_quote unopened) rfl]
  dsimp only
  rw [cutAt?_append (beq_quote plain) rfl]

/-- What is written without quotations is read as its marks. -/
theorem Written.marks_eq {all : List Mark} {text : List Char}
    (written : Written (all.map .mark) text) : marks text = all := by
  generalize spelled : all.map Token.mark = tokens at written
  induction written generalizing all with
  | done => rw [List.map_eq_nil_iff.mp spelled, marks]
  | @separator _ _ c separates rest ih =>
    have opening : c ≠ '[' := by
      rintro rfl
      exact absurd separates (by decide)
    have closing : c ≠ ']' := by
      rintro rfl
      exact absurd separates (by decide)
    rw [marks, if_neg opening, if_neg closing, if_pos separates]
    exact ih spelled
  | bracket spells rest ih =>
    obtain ⟨mark, others, rfl, same, behind⟩ := List.map_eq_cons_iff.mp spelled
    obtain rfl := Token.mark.inj same
    rw [← ih behind]
    rcases bracket?_cases spells with ⟨rfl, rfl⟩ | ⟨rfl, rfl⟩
    · rw [marks, if_pos rfl]
    · rw [marks, if_neg (by decide), if_pos rfl]
  | @run _ text word numeral ends rest ih =>
    obtain ⟨mark, others, rfl, same, behind⟩ := List.map_eq_cons_iff.mp spelled
    obtain rfl := Token.mark.inj same
    have bare : ∀ quoted, Token.quotation quoted ∉ others.map .mark := by simp
    have unquoted := (behind ▸ rest).plain bare
    have stops : startsRun text = false := by
      cases text with
      | nil => rfl
      | cons c text =>
        have stop : isNumeralCharacter c = false := ends c rfl
        have other : (c != '"') = true := by
          rw [bne_iff_ne]
          rintro rfl
          exact unquoted List.mem_cons_self
        rwa [isNumeralCharacter, other, Bool.and_true] at stop
    rw [marks_run numeral.some (fun c member =>
      isRunCharacter_of_numeral (numeral.characters c member)) stops, ih behind]
  | quotation plain rest ih =>
    obtain ⟨mark, others, _, same, _⟩ := List.map_eq_cons_iff.mp spelled
    cases same

/-- Wherever these marks stand, they are nested to these items. -/
def Nests (marks : List Mark) (items : List Item) : Prop :=
  ∀ rest before outer, nest (marks ++ rest) before outer = nest rest (items.reverse ++ before) outer

namespace Nests

theorem nil : Nests [] [] := fun _ _ _ => rfl

theorem run (word : List Char) : Nests [.run word] [.number (readNumber word)] :=
  fun _ _ _ => rfl

theorem append {marks more : List Mark} {items others : List Item} (first : Nests marks items)
    (second : Nests more others) : Nests (marks ++ more) (items ++ others) := by
  intro rest before outer
  rw [List.append_assoc, first, second, List.reverse_append, List.append_assoc]

theorem group {marks : List Mark} {items : List Item} (inner : Nests marks items) :
    Nests (.opening :: (marks ++ [.closing])) [.group items] := by
  intro rest before outer
  have closed := inner (.closing :: rest) [] (before :: outer)
  rw [List.append_nil] at closed
  rw [List.cons_append, List.append_assoc, List.singleton_append, nest, closed, nest,
    List.reverse_reverse]
  rfl

theorem flatMap {α : Type} (parts : List α) {marks : α → List Mark} {item : α → Item}
    (each : ∀ part ∈ parts, Nests (marks part) [item part]) :
    Nests (parts.flatMap marks) (parts.map item) := by
  induction parts with
  | nil => exact nil
  | cons part rest ih =>
    have others := ih fun other member => each other (List.mem_cons_of_mem _ member)
    exact (each part List.mem_cons_self).append others

theorem alone {marks : List Mark} {items : List Item} (nests : Nests marks items) :
    nest marks [] [] = some items := by
  have all := nests [] [] []
  rw [List.append_nil, List.append_nil] at all
  rw [all, nest, List.reverse_reverse]

theorem items? {marks : List Mark} {items : List Item} (nests : Nests marks items)
    {text : List Char} (written : Written (marks.map .mark) text) :
    items? text = some items := by
  rw [items?_eq_nest, written.marks_eq, nests.alone]

end Nests

end LiveFragment.Directive
