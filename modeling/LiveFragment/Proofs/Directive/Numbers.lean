import LiveFragment.Proofs.Directive.Brackets
import LiveFragment.Proofs.Directive.Declared
import LiveFragment.Proofs.Text.Reading

namespace LiveFragment

open LiveFragment.Number

namespace Parameter

def Element.All (P : Single → Prop) (element : Element) : Prop := ∀ x ∈ element.floats, P x

/-- An element whose numbers all have a property. -/
def Value.AllElement (P : Single → Prop) (value : Value) : Prop :=
  ∃ held, value = .element held ∧ held.All P

/-- A value whose numbers all have a property. An array holds elements and no arrays. -/
def Value.All (P : Single → Prop) : Value → Prop
  | .element held => held.All P
  | .array elements => ∀ value ∈ elements, value.AllElement P

theorem Value.All.mono {P Q : Single → Prop} {value : Value} (all : value.All P)
    (implies : ∀ x, P x → Q x) : value.All Q := by
  cases value with
  | element held => exact fun x member => implies x (all x member)
  | array elements =>
    intro value member
    obtain ⟨held, rfl, all⟩ := all value member
    exact ⟨held, rfl, fun x member => implies x (all x member)⟩

/-- A definition whose numbers all have a property: those of the initial value and of the range. -/
def Definition.All (P : Single → Prop) (definition : Definition) : Prop :=
  definition.initial.All P ∧ (∀ x, definition.min = some x → P x) ∧
    ∀ x, definition.max = some x → P x

theorem Definition.All.mono {P Q : Single → Prop} {definition : Definition}
    (all : definition.All P) (implies : ∀ x, P x → Q x) : definition.All Q :=
  ⟨all.1.mono implies, fun x low => implies x (all.2.1 x low),
    fun x high => implies x (all.2.2 x high)⟩

/-- What a double with a property is narrowed to. -/
def Narrowed (P : Double → Prop) (x : Single) : Prop := ∃ d, P d ∧ x = d.toSingle

variable {P : Double → Prop}

theorem Element.all_ofComponents (zero : P .zero) (shape : Shape) {components : List Double}
    (each : ∀ d ∈ components, P d) : (ofComponents shape components).All (Narrowed P) := by
  have component (index : Nat) :
      Narrowed P (components[index]?.getD Double.zero).toSingle := by
    refine ⟨_, ?_, rfl⟩
    cases found : components[index]? with
    | none => exact zero
    | some d => exact each d (List.mem_of_getElem? found)
  have spelled : ∃ count, (ofComponents shape components).floats =
      (List.range count).map fun index => (components[index]?.getD Double.zero).toSingle := by
    cases shape
    case int => exact ⟨0, rfl⟩
    case float => exact ⟨1, rfl⟩
    case vec2 => exact ⟨2, rfl⟩
    case vec4 => exact ⟨4, rfl⟩
    all_goals exact ⟨3, rfl⟩
  obtain ⟨count, same⟩ := spelled
  intro x member
  rw [same] at member
  obtain ⟨index, _, rfl⟩ := List.mem_map.mp member
  exact component index

theorem Value.all_ofComponents (zero : P .zero) (shape : Shape) {components : List Double}
    (each : ∀ d ∈ components, P d) : (ofComponents shape components).AllElement (Narrowed P) :=
  ⟨_, rfl, Element.all_ofComponents zero shape each⟩

end Parameter

namespace Directive

open LiveFragment.Text LiveFragment.Parameter

/-- The runs among the marks of a text are pieces of it without separators. -/
theorem infix_of_run {text : List Char} :
    (∀ word, .run word ∈ marks text → word <:+: text ∧ ∀ c ∈ word, isRunCharacter c = true) ∧
      (startsRun text = true → ∃ word rest, marks text = .run word :: rest ∧ word <+: text) := by
  induction text with
  | nil => exact ⟨fun word member => (nomatch member), fun running => (nomatch running)⟩
  | cons c text ih =>
    obtain ⟨pieces, start⟩ := ih
    have later (word : List Char) (member : .run word ∈ marks text) :
        word <:+: c :: text ∧ ∀ d ∈ word, isRunCharacter d = true :=
      ⟨(pieces word member).1.trans (List.suffix_cons c text).isInfix, (pieces word member).2⟩
    by_cases run : isRunCharacter c = true
    · obtain ⟨apart, opening, closing⟩ := isRunCharacter_iff.mp run
      rw [marks, if_neg opening, if_neg closing, if_neg (by simp [apart])]
      split
      · rename_i running
        obtain ⟨first, rest, same, front⟩ := start running
        have clean := pieces first (same ▸ List.mem_cons_self)
        rw [same, extendRun]
        have longer : c :: first <+: c :: text := List.cons_prefix_cons.mpr ⟨rfl, front⟩
        refine ⟨fun word member => ?_, fun _ => ⟨c :: first, rest, rfl, longer⟩⟩
        rcases List.mem_cons.mp member with here | behind
        · obtain rfl := Mark.run.inj here
          exact ⟨longer.isInfix, List.forall_mem_cons.mpr ⟨run, clean.2⟩⟩
        · exact later word (same ▸ List.mem_cons_of_mem _ behind)
      · have single : [c] <+: c :: text := List.cons_prefix_cons.mpr ⟨rfl, List.nil_prefix⟩
        refine ⟨fun word member => ?_, fun _ => ⟨[c], marks text, rfl, single⟩⟩
        rcases List.mem_cons.mp member with here | behind
        · obtain rfl := Mark.run.inj here
          exact ⟨single.isInfix, by simpa using run⟩
        · exact later word behind
    · -- a bracket or a separator is no part of a run
      refine ⟨fun word member => later word ?_, fun running => absurd running run⟩
      rw [marks] at member
      split at member
      · simpa using member
      · split at member
        · simpa using member
        · split at member
          · exact member
          · rename_i opening closing apart
            exact absurd (isRunCharacter_iff.mpr ⟨by simpa using apart, opening, closing⟩) run

/-- The space that a description leaves behind is all that is new where it was taken out. -/
theorem infix_of_takeDescription {body word : List Char} (apart : ' ' ∉ word)
    (piece : word <:+: (takeDescription body).1) : word <:+: body := by
  unfold takeDescription at piece
  split at piece
  · exact piece
  · rename_i before after cut
    obtain ⟨c, same, -⟩ := cutAt?_eq_some.mp cut
    have front : before <:+: body := same ▸ (List.prefix_append before (c :: after)).isInfix
    split at piece
    · exact piece.trans front
    · rename_i quoted behind closed
      obtain ⟨d, rest, -⟩ := cutAt?_eq_some.mp closed
      have back : behind <:+ body := by
        rw [same, rest]
        exact ((List.suffix_cons d behind).trans (List.suffix_append quoted _)).trans
          ((List.suffix_cons c _).trans (List.suffix_append before _))
      rcases infix_of_clear apart piece with left | right
      · exact left.trans front
      · exact right.trans back.isInfix

/-- An item whose numbers all have a property, however deep it is nested. -/
inductive Item.All (P : Double → Prop) : Item → Prop
  | number {value : Double} (holds : P value) : All P (.number value)
  | group {items : List Item} (all : ∀ item ∈ items, item.All P) : All P (.group items)

variable {P : Double → Prop}

/-- Nesting marks gives items of the numbers that the runs and the open groups hold. -/
theorem nest_all {marks : List Mark} {items result : List Item} {outer : List (List Item)}
    (nested : nest marks items outer = some result)
    (runs : ∀ word, .run word ∈ marks → P (readNumber word))
    (inner : ∀ item ∈ items, item.All P) (around : ∀ level ∈ outer, ∀ item ∈ level, item.All P) :
    ∀ item ∈ result, item.All P := by
  induction marks generalizing items outer with
  | nil =>
    cases outer with
    | nil =>
      obtain rfl := Option.some.inj nested
      exact fun item member => inner item (List.mem_reverse.mp member)
    | cons above outer => cases nested
  | cons mark rest ih =>
    have later (word : List Char) (member : .run word ∈ rest) : P (readNumber word) :=
      runs word (List.mem_cons_of_mem mark member)
    cases mark with
    | opening => exact ih nested later (by simp) (List.forall_mem_cons.mpr ⟨inner, around⟩)
    | closing =>
      cases outer with
      | nil => cases nested
      | cons above outer =>
        obtain ⟨open', further⟩ := List.forall_mem_cons.mp around
        have group : Item.All P (.group items.reverse) :=
          .group fun item member => inner item (List.mem_reverse.mp member)
        exact ih nested later (List.forall_mem_cons.mpr ⟨group, open'⟩) further
    | run word =>
      have number : Item.All P (.number (readNumber word)) :=
        .number (runs word List.mem_cons_self)
      exact ih nested later (List.forall_mem_cons.mpr ⟨number, inner⟩) around

theorem items?_all {text : List Char} {items : List Item} (read : items? text = some items)
    (runs : ∀ word, .run word ∈ marks text → P (readNumber word)) :
    ∀ item ∈ items, item.All P :=
  nest_all (items?_eq_nest text ▸ read) runs (by simp) (by simp)

theorem Item.numbers?_all {items : List Item} {numbers : List Double}
    (all : ∀ item ∈ items, item.All P) (flat : numbers? items = some numbers) :
    ∀ d ∈ numbers, P d := by
  induction items generalizing numbers with
  | nil =>
    obtain rfl := Option.some.inj flat
    simp
  | cons first rest ih =>
    simp only [numbers?, List.mapM_cons, bind, Option.bind_eq_some_iff] at flat
    obtain ⟨x, number, others, later, same⟩ := flat
    obtain rfl := Option.some.inj same
    obtain ⟨one, further⟩ := List.forall_mem_cons.mp all
    cases one with
    | number holds =>
      obtain rfl := Option.some.inj number
      exact List.forall_mem_cons.mpr ⟨holds, ih further later⟩
    | group => cases number

namespace Spelling

/-- The values spelled so far are of numbers with a property. -/
structure All (P : Double → Prop) (spelling : Spelling) : Prop where
  initial : ∀ value, spelling.initial = some value → value.AllElement (Narrowed P)
  elements : ∀ values, spelling.elements = some values →
    ∀ value ∈ values, value.AllElement (Narrowed P)
  range : ∀ low high, spelling.range = some (low, high) → Narrowed P low ∧ Narrowed P high

theorem all_none : Spelling.none.All P :=
  ⟨by simp [Spelling.none], by simp [Spelling.none], by simp [Spelling.none]⟩

theorem elementValues_all (zero : P .zero) (shape : Shape) {items : List Item}
    (all : ∀ item ∈ items, item.All P) :
    ∀ value ∈ elementValues shape items, value.AllElement (Narrowed P) := by
  intro value member
  obtain ⟨item, inside, rfl⟩ := List.mem_map.mp member
  cases all item inside with
  | number holds => exact Value.all_ofComponents zero shape (by simpa using holds)
  | @group inner further =>
    apply Value.all_ofComponents zero
    cases flat : Item.numbers? inner with
    | none => simp
    | some numbers => exact Item.numbers?_all further flat

theorem All.read {spelling : Spelling} (all : spelling.All P) (zero : P .zero) (shape : Shape)
    (isArray : Bool) {item : Item} (given : item.All P) :
    (spelling.read shape isArray item).All P := by
  have spelled {components : List Double} (each : ∀ d ∈ components, P d) :
      All P { spelling with initial := some (.ofComponents shape components) } := by
    refine ⟨?_, all.elements, all.range⟩
    rintro _ ⟨⟩
    exact Value.all_ofComponents zero shape each
  cases given with
  | @number value holds =>
    simp only [Spelling.read]
    split
    · exact spelled (by simpa using holds)
    · exact all
  | @group inner each =>
    simp only [Spelling.read]
    split
    · rename_i numbers flat
      have hold := Item.numbers?_all each flat
      split
      · exact spelled hold
      · split
        · refine ⟨all.initial, all.elements, ?_⟩
          rintro _ _ ⟨⟩
          exact ⟨⟨_, hold _ (by simp), rfl⟩, ⟨_, hold _ (by simp), rfl⟩⟩
        · exact all
    · split
      · refine ⟨all.initial, ?_, all.range⟩
        rintro _ ⟨⟩
        exact elementValues_all zero shape each
      · exact all

theorem All.foldl {spelling : Spelling} (all : spelling.All P) (zero : P .zero) (shape : Shape)
    (isArray : Bool) {items : List Item} (given : ∀ item ∈ items, item.All P) :
    (items.foldl (Spelling.read shape isArray) spelling).All P := by
  induction items generalizing spelling with
  | nil => exact all
  | cons item rest ih =>
    obtain ⟨one, further⟩ := List.forall_mem_cons.mp given
    exact ih (all.read zero shape isArray one) further

theorem All.value {spelling : Spelling} (all : spelling.All P) (zero : P .zero) (shape : Shape)
    (length : Option Nat) : (spelling.value shape length).All (Narrowed P) := by
  have filler : (spelling.initial.getD (.zero shape)).AllElement (Narrowed P) := by
    cases given : spelling.initial with
    | none => exact Value.all_ofComponents zero shape (by simp)
    | some value => exact all.initial value given
  cases length with
  | none =>
    obtain ⟨held, same, each⟩ := filler
    rw [Spelling.value, same]
    exact each
  | some length =>
    rw [Spelling.value]
    intro value member
    rcases List.mem_append.mp member with given | copy
    · have listed := List.mem_of_mem_take given
      cases found : spelling.elements with
      | none => simp [found] at listed
      | some values => exact all.elements values found value (by simpa [found] using listed)
    · exact (List.mem_replicate.mp copy).2 ▸ filler

end Spelling

theorem definition?_all {line : List Char} {definition : Definition}
    (declared : definition? line = some definition) (zero : P .zero)
    (pieces : ∀ word, word <:+: line → P (readNumber word)) : definition.All (Narrowed P) := by
  obtain ⟨body, _, _, rest, items, _, _, ⟨inside, tail, read⟩, _, _, spelling, same, initial, min,
    max⟩ := definition?_spelled declared
  have runs (word : List Char) (member : .run word ∈ marks rest) : P (readNumber word) := by
    obtain ⟨piece, clean⟩ := infix_of_run.1 word member
    have apart : ' ' ∉ word := fun blank => absurd (clean ' ' blank) (by decide)
    exact pieces word ((infix_of_takeDescription apart (piece.trans tail)).trans inside)
  have all : spelling.All P :=
    same ▸ Spelling.all_none.foldl zero _ _ (items?_all read runs)
  refine ⟨initial ▸ all.value zero _ _, ?_, ?_⟩
  · intro x bound
    obtain ⟨⟨low, high⟩, range, rfl⟩ := Option.map_eq_some_iff.mp (min ▸ bound)
    exact (all.range low high range).1
  · intro x bound
    obtain ⟨⟨low, high⟩, range, rfl⟩ := Option.map_eq_some_iff.mp (max ▸ bound)
    exact (all.range low high range).2

end Directive

end LiveFragment
