import LiveFragment.CommandLine.Report
import LiveFragment.Proofs.CommandLine.Assigned
import LiveFragment.Proofs.Parameter.Encoded

/-! Numbers that are too large for a parameter. Every number of a definition and of a value is narrowed
from a finite double that the source or an assignment spells. It is checked to be finite before it is
narrowed and not after, so a literal beyond the range of single precision becomes infinite, and a report
writes null for it. -/

namespace LiveFragment

open LiveFragment.Backend LiveFragment.Directive LiveFragment.Number LiveFragment.Parameter
  LiveFragment.Text

namespace Directive

/-- A number in a directive is zero or the literal of a finite double. -/
theorem readNumber_spelled (word : List Char) :
    readNumber word = .zero ∨
      ∃ literal, literal <:+: word ∧ finiteDouble? literal = some (readNumber word) := by
  have given {spelled : List Char} (piece : spelled <:+: word)
      (same : readNumber word = (finiteDouble? spelled).getD .zero) :
      readNumber word = .zero ∨
        ∃ literal, literal <:+: word ∧ finiteDouble? literal = some (readNumber word) := by
    cases found : finiteDouble? spelled with
    | none => exact .inl (by rw [same, found]; rfl)
    | some d => exact .inr ⟨spelled, piece, by rw [same, found]; rfl⟩
  have trimmed : trim word <:+: word := infix_of_trim ..
  have short : (trim word).dropLast <:+: word :=
    (List.dropLast_prefix _).isInfix.trans trimmed
  unfold readNumber at given ⊢
  dsimp only at given ⊢
  split at given
  · exact given short rfl
  · exact given short rfl
  · exact given trimmed rfl

end Directive

namespace CommandLine

/-- The components of an assignment are literals of finite doubles. -/
theorem Lists.spelled {right : List Char} {components : List Double}
    (lists : Lists right components) :
    ∀ d ∈ components, ∃ literal, literal <:+: right ∧ finiteDouble? literal = some d := by
  obtain ⟨parts, -, -, rfl, numbers⟩ := lists
  intro d member
  obtain ⟨part, listed, read⟩ : ∃ part ∈ parts, finiteDouble? (trim part) = some d := by
    obtain ⟨index, inside, rfl⟩ := List.getElem_of_mem member
    obtain ⟨sized, each⟩ := List.forall₂_iff_get.mp numbers
    exact ⟨_, List.getElem_mem _, each index (sized ▸ inside) inside⟩
  exact ⟨trim part, (infix_of_trim part).trans (infix_intercalate listed), read⟩

/-- A double that a source or an assignment spells: the literal of a finite number in a line of the
source or in an assignment, or the zero that stands for what is left out and for what is no number. -/
def Spelled (source : String) (texts : List String) (d : Double) : Prop :=
  d = .zero ∨ ∃ literal, finiteDouble? literal = some d ∧
    ((∃ line ∈ lines source.toList, literal <:+: line) ∨ ∃ text ∈ texts, literal <:+: text.toList)

theorem Spelled.finite {source : String} {texts : List String} {d : Double}
    (spelled : Spelled source texts d) : d.isFinite = true := by
  rcases spelled with rfl | ⟨literal, read, -⟩
  · decide
  · exact (Option.filter_eq_some_iff.mp read).2

end CommandLine

namespace Parameter

namespace Valuation

/-- Parameters start with the initial values of their definitions. -/
theorem initial_entries (definitions : List Definition) :
    Sorted (initial definitions).entries ∧ ∀ entry ∈ (initial definitions).entries,
      ∃ definition ∈ definitions, entry = (definition.name, definition.initial) := by
  induction definitions using List.reverseRecOn with
  | nil => exact ⟨.nil, List.forall_mem_nil _⟩
  | append_singleton front last ih =>
    obtain ⟨sorted, before⟩ := ih
    have same : (initial (front ++ [last])).entries =
        insertEntry last.name last.initial (initial front).entries := by
      simp [initial, insert]
    rw [same]
    refine ⟨sorted.insertEntry, fun entry member => ?_⟩
    rcases (mem_insertEntry sorted).mp member with rfl | ⟨old, -⟩
    · exact ⟨last, by simp, rfl⟩
    · obtain ⟨definition, declared, rfl⟩ := before entry old
      exact ⟨definition, List.mem_append_left _ declared, rfl⟩

end Valuation

namespace Store

/-- A store whose numbers all have a property, those of its definitions and those of its values. -/
structure All (P : Single → Prop) (store : Store) : Prop where
  definitions : ∀ definition ∈ store.definitions, definition.All P
  values : ∀ name value, store.values.find? name = some value → value.All P

variable {P : Single → Prop} {store next : Store} {definition : Definition} {index : Option Nat}
  {element : Element}

theorem all_ofDefinitions {definitions : List Definition}
    (all : ∀ definition ∈ definitions, definition.All P) : (ofDefinitions definitions).All P where
  definitions := all
  values name value found := by
    obtain ⟨definition, declared, same⟩ :=
      (Valuation.initial_entries definitions).2 _ (Valuation.mem_of_find? found)
    obtain ⟨-, rfl⟩ := Prod.mk.inj same
    exact (all definition declared).1

theorem All.assigns (all : store.All P) (assigns : store.Assigns definition index element next)
    (given : element.All P) : next.All P where
  definitions := assigns.definitions ▸ all.definitions
  values name value found := by
    by_cases named : name = definition.name
    · subst named
      cases length : definition.length with
      | none =>
        obtain rfl := Option.some.inj ((assigns.single length).symm.trans found)
        exact given
      | some count =>
        obtain ⟨elements, i, -, -, -, held, written⟩ := assigns.array count length
        obtain rfl := Option.some.inj (written.symm.trans found)
        intro value member
        rcases List.mem_or_eq_of_mem_set member with old | rfl
        · exact all.values _ _ held value old
        · exact ⟨element, rfl, given⟩
    · exact all.values name value (assigns.others name named ▸ found)

end Store

end Parameter

namespace CommandLine

namespace Assignment

/-- What becomes of a store when a text is given as an assignment. One that is not taken changes
nothing. -/
def take (store : Store) (text : String) : Store :=
  match ofText text with
  | .error _ => store
  | .ok assignment =>
    match assignment.apply store with
    | .error _ => store
    | .ok next => next

/-- Giving an assignment to an engine is giving it to its store. -/
theorem take_engine {σ : Type} [Backend σ] (engine : Engine σ) (text : String) :
    (assign engine text).2.store = take engine.store text := by
  unfold assign take
  cases ofText text with
  | error fault => rfl
  | ok assignment =>
    simp only [assignAll]
    cases assignment.apply engine.store <;> rfl

variable {P : Double → Prop} {store : Store}

/-- Numbers are stored as literals of the assignment are narrowed. -/
theorem take_all (coherent : store.Coherent) (all : store.All (Narrowed P)) (zero : P .zero)
    {text : String} (literals : ∀ literal d, literal <:+: text.toList →
      finiteDouble? literal = some d → P d) :
    (take store text).Coherent ∧ (take store text).definitions = store.definitions ∧
      (take store text).All (Narrowed P) := by
  unfold take
  cases read : ofText text with
  | error fault => exact ⟨coherent, rfl, all⟩
  | ok assignment =>
    dsimp only
    cases applied : assignment.apply store with
    | error fault => exact ⟨coherent, rfl, all⟩
    | ok next =>
      obtain ⟨definition, declared, -, -, -, written⟩ := (apply_eq_ok coherent).mp applied
      obtain ⟨kept, same⟩ := coherent.set written
      refine ⟨kept, same, all.assigns (coherent.assigns declared
        (Value.elementFits_ofComponents ..) written) (Element.all_ofComponents zero _ ?_)⟩
      have named : assignment = ⟨String.ofList assignment.name.toList, assignment.index,
          assignment.components⟩ := by rw [String.ofList_toList]
      rw [named] at read
      obtain ⟨left, right, split, -, -, lists⟩ := ofText_spelled read
      intro d member
      obtain ⟨literal, piece, spelled⟩ := lists.spelled d member
      refine literals literal d (piece.trans ?_) spelled
      exact split ▸ ((List.suffix_cons '=' right).trans (List.suffix_append left _)).isInfix

theorem run_all (coherent : store.Coherent) (all : store.All (Narrowed P)) (zero : P .zero)
    {texts : List String} (literals : ∀ text ∈ texts, ∀ literal d, literal <:+: text.toList →
      finiteDouble? literal = some d → P d) :
    (texts.foldl take store).definitions = store.definitions ∧
      (texts.foldl take store).All (Narrowed P) := by
  induction texts generalizing store with
  | nil => exact ⟨rfl, all⟩
  | cons text rest ih =>
    obtain ⟨first, later⟩ := List.forall_mem_cons.mp literals
    obtain ⟨kept, same, further⟩ := take_all coherent all zero first
    obtain ⟨definitions, stored⟩ := ih kept further later
    exact ⟨definitions.trans same, stored⟩

end Assignment

end CommandLine

namespace Document

/-- A document with a number in it that is written as null. -/
inductive Nulls : Document → Prop
  | number {literal : Literal} (written : Json.leafText (.real literal) = "null") :
    Nulls (.real literal)
  | item {items : List Document} {item : Document} (listed : item ∈ items) (nulls : item.Nulls) :
    Nulls (.list items)
  | field {fields : List (String × Document)} {field : String × Document} (listed : field ∈ fields)
      (nulls : field.2.Nulls) :
    Nulls (.table fields)

theorem not_nulls_text {content : String} : ¬(Document.text content).Nulls := nofun

theorem not_nulls_integer {value : Int} : ¬(Document.integer value).Nulls := nofun

theorem not_nulls_null : ¬Document.null.Nulls := nofun

theorem nulls_list {items : List Document} : (list items).Nulls ↔ ∃ item ∈ items, item.Nulls := by
  constructor
  · rintro (_ | ⟨listed, nulls⟩)
    exact ⟨_, listed, nulls⟩
  · rintro ⟨item, listed, nulls⟩
    exact .item listed nulls

theorem nulls_table {fields : List (String × Document)} :
    (table fields).Nulls ↔ ∃ field ∈ fields, field.2.Nulls := by
  constructor
  · rintro (_ | _ | ⟨listed, nulls⟩)
    exact ⟨_, listed, nulls⟩
  · rintro ⟨field, listed, nulls⟩
    exact .field listed nulls

theorem nulls_ofSingle {x : Single} : (ofSingle x).Nulls ↔ ¬x.isFinite = true := by
  rw [Bool.not_eq_true, ← Json.leafText_ofSingle]
  have number : ∃ literal, ofSingle x = .real literal := by
    unfold ofSingle
    cases x.reading <;> exact ⟨_, rfl⟩
  obtain ⟨literal, same⟩ := number
  rw [same]
  exact ⟨fun | .number written => written, .number⟩

end Document

namespace Parameter

open Document

def Value.asElement? : Value → Option Element
  | .element held => some held
  | .array _ => none

theorem Value.asElement?_eq_some {value : Value} {held : Element} :
    value.asElement? = some held ↔ value = .element held := by
  cases value <;> simp [asElement?]

theorem Element.nulls_content {element : Element} :
    ¬element.content.Nulls ↔ element.All (·.isFinite = true) := by
  cases element with
  | int value => simp [content, All, floats, not_nulls_integer]
  | float x => simp [content, All, floats, nulls_ofSingle]
  | vec2 | vec3 | vec4 => simp [content, All, floats, nulls_list, nulls_ofSingle]

/-- A value is written without nulls where its numbers are finite. -/
theorem Value.nulls_toDocument {P : Single → Prop} {value : Value} (all : value.All P) :
    ¬value.toDocument.Nulls ↔ value.All (·.isFinite = true) := by
  have single (held : Element) : ¬(Value.element held).toDocument.Nulls ↔
      held.All (·.isFinite = true) := by
    rw [← Element.nulls_content]
    simp [toDocument_eq, content, nulls_table, not_nulls_text]
  have each : ∀ elements : List Value, (∀ value ∈ elements, value.AllElement P) →
      ((∀ document ∈ toDocuments elements, ¬document.Nulls) ↔
        ∀ value ∈ elements, value.AllElement (·.isFinite = true)) := by
    intro elements all
    induction elements with
    | nil => simp [toDocuments]
    | cons value elements ih =>
      obtain ⟨⟨held, rfl, -⟩, rest⟩ := List.forall_mem_cons.mp all
      simp [toDocuments, single, ih rest, AllElement]
  cases value with
  | element held => exact single held
  | array elements =>
    rw [All, ← each elements all]
    simp [toDocument_eq, content, nulls_table, nulls_list, not_nulls_text]

theorem Definition.nulls_toDocument {P : Single → Prop} {definition : Definition}
    (all : definition.All P) :
    ¬definition.toDocument.Nulls ↔ definition.All (·.isFinite = true) := by
  have bound (x? : Option Single) : ¬((x?.map Document.ofSingle).getD .null).Nulls ↔
      ∀ x, x? = some x → x.isFinite = true := by
    cases x? with
    | none => simp [not_nulls_null]
    | some x => simp [nulls_ofSingle]
  have count : ¬((definition.length.map fun n => Document.integer n).getD .null).Nulls := by
    cases definition.length with
    | none => exact not_nulls_null
    | some n => exact not_nulls_integer
  rw [All, ← Value.nulls_toDocument all.1, ← bound definition.min, ← bound definition.max,
    toDocument, nulls_table]
  simp only [List.mem_cons, List.not_mem_nil, or_false, exists_eq_or_imp, exists_eq_left,
    not_nulls_text, count, false_or, or_false, not_or]

end Parameter

namespace CommandLine

open Document

theorem not_nulls_texture {directive : TextureDirective} : ¬directive.toDocument.Nulls := by
  obtain ⟨channel, source⟩ := directive
  cases source <;> simp [TextureDirective.toDocument, TextureSource.toDocument, nulls_table,
    not_nulls_text, not_nulls_integer]

/-- A report about a program is written without nulls where the numbers that it declares are
finite. -/
theorem nulls_declarations {P : Single → Prop} {source : String}
    (all : ∀ definition ∈ (Directives.ofSource source).params, definition.All P) :
    ¬(Report.declarations source).Nulls ↔
      ∀ definition ∈ (Directives.ofSource source).params, definition.All (·.isFinite = true) := by
  constructor
  · intro whole definition declared
    refine (Definition.nulls_toDocument (all definition declared)).mp fun nulls => whole ?_
    exact .field List.mem_cons_self (.item (List.mem_map_of_mem declared) nulls)
  · intro finite nulls
    obtain ⟨field, listed, nulls⟩ := nulls_table.mp nulls
    simp only [List.mem_cons, List.not_mem_nil, or_false] at listed
    rcases listed with rfl | rfl | rfl
    · obtain ⟨item, member, nulls⟩ := nulls_list.mp nulls
      obtain ⟨definition, declared, rfl⟩ := List.mem_map.mp member
      exact (Definition.nulls_toDocument (all definition declared)).mpr
        (finite definition declared) nulls
    · obtain ⟨item, member, nulls⟩ := nulls_table.mp nulls
      obtain ⟨entry, given, rfl⟩ := List.mem_map.mp member
      obtain ⟨definition, declared, rfl⟩ := (Valuation.initial_entries _).2 entry given
      exact (Value.nulls_toDocument (all definition declared).1).mpr
        (finite definition declared).1 nulls
    · obtain ⟨item, member, nulls⟩ := nulls_list.mp nulls
      obtain ⟨directive, -, rfl⟩ := List.mem_map.mp member
      exact not_nulls_texture nulls

theorem definitions_narrowed (source : String) (texts : List String) :
    ∀ definition ∈ (Directives.ofSource source).params,
      definition.All (Narrowed (Spelled source texts)) := by
  intro definition member
  obtain ⟨line, listed, read⟩ := Directives.declared_ofSource source definition member
  refine definition?_all read (.inl rfl) fun word piece => ?_
  rcases readNumber_spelled word with none | ⟨literal, inside, spelled⟩
  · exact .inl none
  · exact .inr ⟨literal, spelled, .inl ⟨line, listed, inside.trans piece⟩⟩

/-- Whatever a program declares and whatever assignments are then given to it, taken or not, every
number of its parameters is narrowed from a finite double that one of the texts spells. It is finite
exactly where that double is below the bound of single precision, and a report about the program is
written without nulls exactly where all numbers that it declares are finite. -/
theorem parameters_narrowed (source : String) (texts : List String) :
    let start := Store.ofDefinitions (Directives.ofSource source).params
    let store := texts.foldl Assignment.take start
    store.definitions = (Directives.ofSource source).params ∧
      store.All (Narrowed (Spelled source texts)) ∧
      (∀ d, Spelled source texts d →
        d.isFinite = true ∧ (d.toSingle.isFinite = true ↔ d.Below (2 ^ 128 - 2 ^ 103))) ∧
      (¬(Report.declarations source).Nulls ↔
        ∀ definition ∈ (Directives.ofSource source).params, definition.All (·.isFinite = true)) := by
  intro start store
  have formed := Directives.formed_ofSource source
  have coherent : start.Coherent := Store.coherent_ofDefinitions formed.distinct formed.shaped
  have declared := definitions_narrowed source texts
  obtain ⟨same, stored⟩ := Assignment.run_all coherent (Store.all_ofDefinitions declared) (.inl rfl)
    fun text given literal d inside spelled => .inr ⟨literal, spelled, .inr ⟨text, given, inside⟩⟩
  exact ⟨same, stored,
    fun d spelled => ⟨spelled.finite, Double.isFinite_toSingle spelled.finite⟩,
    nulls_declarations declared⟩

/-- An assignment that spells a number between the two ranges. -/
theorem parameters_narrowed_large :
    let d := Double.ofDecimal false ⟨1, 39⟩
    Spelled "// @param x float\n" ["x=1e39"] d ∧ d.isFinite = true ∧
      ¬d.Below (2 ^ 128 - 2 ^ 103) := by
  intro d
  have spelled : Spelled "// @param x float\n" ["x=1e39"] d :=
    .inr ⟨"1e39".toList, by decide +kernel, .inr ⟨"x=1e39", List.mem_cons_self, ['x', '='], [], rfl⟩⟩
  obtain ⟨-, -, narrowed, -⟩ := parameters_narrowed "// @param x float\n" ["x=1e39"]
  obtain ⟨finite, bound⟩ := narrowed d spelled
  have infinite : d.toSingle.isFinite = false := by decide +kernel
  exact ⟨spelled, finite, bound.not.mp (by simp [infinite])⟩

/-- Literals of finite doubles become infinite: as the default and as an end of the range of a parameter,
where the report writes null, and as a value that is assigned. -/
theorem large_literals_overflow :
    let declared := "// @param x float 1e39 [0, 1e300]\n"
    let assigned := ["x=1e39"].foldl Assignment.take
      (Store.ofDefinitions (Directives.ofSource "// @param x float\n").params)
    (∃ definition ∈ (Directives.ofSource declared).params,
      definition.initial = .element (.float ⟨0x7f800000⟩) ∧ definition.max = some ⟨0x7f800000⟩) ∧
      (Report.declarations declared).Nulls ∧
      assigned.values.find? "x" = some (.element (.float ⟨0x7f800000⟩)) ∧
      (Single.mk 0x7f800000).isFinite = false := by
  intro declared assigned
  have infinite : (Single.mk 0x7f800000).isFinite = false := by decide
  have params : ((Directives.ofSource declared).params.map fun definition =>
      (definition.initial.asElement?, definition.max)) =
        [(some (.float ⟨0x7f800000⟩), some ⟨0x7f800000⟩)] := by decide +kernel
  have stored : (assigned.values.find? "x").map Value.asElement? =
      some (some (.float ⟨0x7f800000⟩)) := by
    decide +kernel
  obtain ⟨definition, same, found⟩ := List.map_eq_singleton_iff.mp params
  obtain ⟨initial, max⟩ := Prod.mk.inj found
  obtain ⟨value, held, same'⟩ := Option.map_eq_some_iff.mp stored
  have member : definition ∈ (Directives.ofSource declared).params := same ▸ List.mem_singleton_self _
  refine ⟨⟨definition, member, Value.asElement?_eq_some.mp initial, max⟩, ?_, ?_, infinite⟩
  · by_contra whole
    have finite := (nulls_declarations (definitions_narrowed declared [])).mp whole definition member
    cases (finite.2.2 _ max).symm.trans infinite
  · rw [held, Value.asElement?_eq_some.mp same']

end CommandLine

end LiveFragment
