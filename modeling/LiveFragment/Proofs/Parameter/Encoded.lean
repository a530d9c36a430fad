import LiveFragment.Parameter.Encoding
import LiveFragment.Proofs.Directive.Numbers
import LiveFragment.Proofs.Json.Written
import LiveFragment.Proofs.Number.Twice

namespace LiveFragment

open LiveFragment.Number

namespace Json

/-- The texts of a document: on one line, or spread over lines as the part of another document. -/
inductive Encodes (document : Document) : String → Prop
  | compact : Encodes document (compact document)
  | pretty (level : Nat) : Encodes document (pretty level document)

/-- What a text holds that holds one document and nothing else. -/
def decode? {α : Type} (ofDocument? : Document → Option α) (text : String) : Option α :=
  match read text with
  | (document, true) => ofDocument? document
  | (_, false) => none

theorem Encodes.decode? {document : Document} {text : String} (encodes : Encodes document text)
    {α : Type} (ofDocument? : Document → Option α) :
    Json.decode? ofDocument? text = ofDocument? (restated document) := by
  have holds : read text = (restated document, true) := by
    cases encodes with
    | compact => exact read_compact document
    | pretty level => exact read_pretty document level
  rw [Json.decode?, holds]

mutual

theorem isReadable_restated : ∀ document, (restated document).isReadable = true
  | .list items => areReadable_restated items
  | .table fields => fieldsReadable_restated fields
  | .null | .garbled | .moment | .unreadable | .boolean _ | .text _ => rfl
  | .integer value => by
    simp only [restated, restatedLeaf, restatedInteger]
    split <;> rfl
  | .real literal => by cases literal <;> rfl

theorem areReadable_restated : ∀ items, Document.areReadable (restatedItems items) = true
  | [] => rfl
  | item :: rest => by
    rw [restatedItems, Document.areReadable, isReadable_restated item, areReadable_restated rest]
    rfl

theorem fieldsReadable_restated : ∀ fields, Document.fieldsReadable (restatedFields fields) = true
  | [] => rfl
  | (key, item) :: rest => by
    rw [restatedFields, Document.fieldsReadable, isReadable_restated item,
      fieldsReadable_restated rest]
    rfl

end

theorem restated_integer {value : Int} (low : -0x8000000000000000 ≤ value)
    (high : value < 0x10000000000000000) : restated (.integer value) = .integer value := by
  rw [restated, restatedLeaf, restatedInteger, if_pos ⟨low, high⟩]
  all_goals nofun

end Json

namespace Document

open Json

/-- What becomes of a finite number that is written and read. -/
def Origin.keep (origin : Origin) (x : Single) : Single :=
  if origin = .json then x else x.viaDouble

/-- A finite number is read as itself in JSON, and by way of double precision elsewhere. -/
theorem single?_restated (origin : Origin) {x : Single} (finite : x.isFinite = true) :
    single? origin (restated (.ofSingle x)) = some (origin.keep x) ∧
      (restated (.ofSingle x)).isHoldable = true := by
  cases read : x.reading with
  | nan => simp [Single.isFinite, read] at finite
  | infinite => simp [Single.isFinite, read] at finite
  | finite negative mantissa exponent =>
    obtain ⟨literal, spelled, valued⟩ : ∃ decimal : Decimal,
        restated (.ofSingle x) = .real (.decimal negative decimal) ∧ decimal.value =
          (if mantissa = 0 then ⟨0, 0⟩ else Format.single.shortest mantissa exponent : Decimal).value :=
      ⟨_, by rw [ofSingle, read]; rfl, Decimal.value_reported _⟩
    obtain ⟨held, narrowed⟩ := Single.toSingle_ofDecimal read valued
    have exact : Literal.toSingle (.decimal negative literal) = x :=
      Single.ofDecimal_written read valued
    rw [spelled]
    refine ⟨?_, held⟩
    unfold Origin.keep
    cases origin with
    | json => simp [single?, exact, finite]
    | held | toml => simp [single?, Literal.toDouble, narrowed]

theorem wordOf?_restated {n : Nat} (small : n < 2 ^ 64) :
    wordOf? 64 (restated (.integer n)) = some n := by
  have within : integerWithin? 0 ((2 ^ 64 - 1 : Nat) : Int) (.integer n) = some (n : Int) :=
    if_pos (by omega)
  rw [restated_integer (by omega) (by omega)]
  exact congrArg (Option.map Int.toNat) within

theorem optional?_some {α : Type} {read : Document → Option α} {document : Document} {content : α}
    (found : read document = some content) (null : read .null = none) :
    optional? read (some document) = some (some content) := by
  cases document with
  | null =>
    rw [null] at found
    cases found
  | _ => simp [optional?, found]

end Document

namespace Parameter

open Document Json

namespace Element

def map (f : Single → Single) : Element → Element
  | .int value => .int value
  | .float x => .float (f x)
  | .vec2 x y => .vec2 (f x) (f y)
  | .vec3 x y z => .vec3 (f x) (f y) (f z)
  | .vec4 x y z w => .vec4 (f x) (f y) (f z) (f w)

theorem map_eq_iff {f : Single → Single} {element : Element} :
    element.map f = element ↔ element.All fun x => f x = x := by
  cases element <;> simp [map, All, floats]

theorem singles?_restated (origin : Origin) {xs : List Single} (finite : ∀ x ∈ xs, x.isFinite = true) :
    singles? origin (restated (.list (xs.map .ofSingle))) = some (xs.map origin.keep) ∧
      (restated (.list (xs.map .ofSingle))).isHoldable = true := by
  have items : ∀ xs : List Single, (∀ x ∈ xs, x.isFinite = true) →
      (restatedItems (xs.map .ofSingle)).mapM (single? origin) = some (xs.map origin.keep) ∧
        areHoldable (restatedItems (xs.map .ofSingle)) = true := by
    intro xs finite
    induction xs with
    | nil => exact ⟨rfl, rfl⟩
    | cons x xs ih =>
      obtain ⟨first, rest⟩ := List.forall_mem_cons.mp finite
      obtain ⟨read, holdable⟩ := single?_restated origin first
      obtain ⟨reads, holdables⟩ := ih rest
      simp [restatedItems, areHoldable, read, reads, holdable, holdables]
  exact items xs finite

variable {element : Element}

theorem ofContent?_restated (origin : Origin) (finite : element.All (·.isFinite = true)) :
    ofContent? origin element.typeName (restated element.content) =
        some (element.map origin.keep) ∧
      (restated element.content).isHoldable = true := by
  cases element with
  | int value =>
    have low := value.le_toInt
    have high := value.toInt_lt
    have within : integerWithin? (-0x80000000) 0x7fffffff (.integer value.toInt) =
        some value.toInt := if_pos (by omega)
    rw [content, restated_integer (by omega) (by omega)]
    exact ⟨by simp [ofContent?, typeName, within, map], rfl⟩
  | float x =>
    obtain ⟨read, holdable⟩ := single?_restated origin (finite x List.mem_cons_self)
    exact ⟨by simp [ofContent?, typeName, content, read, map], holdable⟩
  | vec2 | vec3 | vec4 =>
    obtain ⟨read, holdable⟩ := singles?_restated origin finite
    refine ⟨?_, holdable⟩
    simp only [ofContent?, typeName, content, read]
    rfl

end Element

namespace Value

mutual

def map (f : Single → Single) : Value → Value
  | .element held => .element (held.map f)
  | .array elements => .array (mapEach f elements)

def mapEach (f : Single → Single) : List Value → List Value
  | [] => []
  | value :: rest => value.map f :: mapEach f rest

end

/-- The type that a value is written with. -/
def typeName : Value → String
  | .element held => held.typeName
  | .array _ => "array"

/-- What is written for a value beside its type. -/
def content : Value → Document
  | .element held => held.content
  | .array elements => .list (toDocuments elements)

/-- A value with its type behind its content. -/
def backward (value : Value) : Document :=
  .table [("value", value.content), ("type", .text value.typeName)]

theorem toDocument_eq (value : Value) :
    value.toDocument = .table [("type", .text value.typeName), ("value", value.content)] := by
  cases value <;> rfl

variable {origin later : Origin} {levels : Nat} {document : Document} {value : Value}

theorem parts?_toDocument (origin : Origin) (value : Value) :
    parts? origin (restated value.toDocument) =
      some (value.typeName, restated value.content, origin) := by
  have readable := isReadable_restated value.content
  rw [toDocument_eq]
  simp [restated, restatedFields, restatedLeaf, parts?, fieldsReadable, isReadable, readable,
    fieldOnce?, word?]

/-- A content in front of its type is held back until the type is read. -/
theorem parts?_backward (holdable : (restated value.content).isHoldable = true) :
    parts? origin (restated value.backward) =
      some (value.typeName, restated value.content, .held) := by
  have readable := isReadable_restated value.content
  simp [backward, restated, restatedFields, restatedLeaf, parts?, fieldsReadable, isReadable,
    readable, holdable, fieldOnce?, word?]

theorem withinLevels?_element {held : Element} (finite : held.All (·.isFinite = true))
    (parts : parts? origin document = some (held.typeName, restated held.content, later)) :
    withinLevels? (levels + 2) origin document = some (.element (held.map later.keep)) := by
  obtain ⟨read, -⟩ := Element.ofContent?_restated later finite
  rw [withinLevels?, parts]
  cases held <;> simp only [Element.typeName] at read ⊢ <;> simp [read]

theorem withinLevels?_array {items : List Document} {elements : List Value}
    (parts : parts? origin document = some ("array", .list items, later))
    (read : items.mapM (withinLevels? levels later) = some elements) :
    withinLevels? (levels + 2) origin document = some (.array elements) := by
  rw [withinLevels?, parts]
  simp [read]

theorem elements_restated (origin : Origin) (levels : Nat) {elements : List Value}
    (finite : ∀ value ∈ elements, value.AllElement (·.isFinite = true)) :
    (restatedItems (toDocuments elements)).mapM (withinLevels? (levels + 2) origin) =
        some (mapEach origin.keep elements) ∧
      areHoldable (restatedItems (toDocuments elements)) = true := by
  induction elements with
  | nil => exact ⟨rfl, rfl⟩
  | cons value elements ih =>
    obtain ⟨⟨held, rfl, first⟩, rest⟩ := List.forall_mem_cons.mp finite
    obtain ⟨reads, holdables⟩ := ih rest
    have read : withinLevels? (levels + 2) origin (restated (Value.element held).toDocument) = _ :=
      withinLevels?_element first (parts?_toDocument origin (.element held))
    obtain ⟨-, holdable⟩ := Element.ofContent?_restated origin first
    have table : (restated (Value.element held).toDocument).isHoldable = true := by
      simp [toDocument_eq, content, restated, restatedFields, restatedLeaf, isHoldable,
        fieldsHoldable, holdable]
    simp [toDocuments, restatedItems, areHoldable, read, reads, table, holdables, mapEach, map]

theorem isHoldable_content (finite : value.All (·.isFinite = true)) :
    (restated value.content).isHoldable = true := by
  cases value with
  | element held => exact (Element.ofContent?_restated .json finite).2
  | array elements => exact (elements_restated .json 0 finite).2

theorem withinLevels?_of_parts (finite : value.All (·.isFinite = true))
    (parts : parts? origin document = some (value.typeName, restated value.content, later)) :
    withinLevels? (levels + 4) origin document = some (value.map later.keep) := by
  cases value with
  | element held => exact withinLevels?_element finite parts
  | array elements => exact withinLevels?_array parts (elements_restated later levels finite).1

/-- A map that leaves the numbers of a value as they are leaves the value as it is. -/
theorem map_eq_iff {f : Single → Single} {P : Single → Prop} (all : value.All P) :
    value.map f = value ↔ value.All fun x => f x = x := by
  have each : ∀ elements : List Value, (∀ value ∈ elements, value.AllElement P) →
      (mapEach f elements = elements ↔
        ∀ value ∈ elements, value.AllElement fun x => f x = x) := by
    intro elements all
    induction elements with
    | nil => simp [mapEach]
    | cons value elements ih =>
      obtain ⟨⟨held, rfl, -⟩, rest⟩ := List.forall_mem_cons.mp all
      simp [mapEach, map, ih rest, AllElement, Element.map_eq_iff]
  cases value with
  | element held => simp [map, All, Element.map_eq_iff]
  | array elements => simp [map, All, each elements all]

/-- A value comes back from its document as its numbers do. -/
theorem ofDocument?_restated (origin : Origin) (finite : value.All (·.isFinite = true)) :
    ofDocument? origin (restated value.toDocument) = some (value.map origin.keep) :=
  withinLevels?_of_parts finite (parts?_toDocument origin value)

/-- A value whose type stands behind its content comes back with its numbers read in double
precision. -/
theorem ofDocument?_backward (finite : value.All (·.isFinite = true)) :
    ofDocument? .json (restated value.backward) = some (value.map Single.viaDouble) :=
  withinLevels?_of_parts finite (parts?_backward (isHoldable_content finite))

end Value

theorem Shape.ofKeyword?_keyword (shape : Shape) : ofKeyword? shape.keyword = some shape := by
  cases shape <;> rfl

def Definition.map (f : Single → Single) (definition : Definition) : Definition :=
  { definition with
    initial := definition.initial.map f
    min := definition.min.map f
    max := definition.max.map f }

/-- A map that leaves the numbers of a definition as they are leaves the definition as it is. -/
theorem Definition.map_eq_iff {f : Single → Single} {P : Single → Prop} {definition : Definition}
    (all : definition.All P) : definition.map f = definition ↔ definition.All fun x => f x = x := by
  obtain ⟨name, shape, length, initial, min, max, description⟩ := definition
  have bound (x? : Option Single) : x?.map f = x? ↔ ∀ x, x? = some x → f x = x := by
    cases x? <;> simp
  simp [map, All, Value.map_eq_iff all.1, bound]

/-- A definition comes back from its document as its numbers do. -/
theorem Definition.ofDocument?_restated (origin : Origin) {definition : Definition}
    (finite : definition.All (·.isFinite = true))
    (sized : ∀ n, definition.length = some n → n < 2 ^ 64) :
    ofDocument? origin (restated definition.toDocument) = some (definition.map origin.keep) := by
  obtain ⟨name, shape, length, initial, min, max, description⟩ := definition
  obtain ⟨all, low, high⟩ := finite
  have bound (x? : Option Single) (finite : ∀ x, x? = some x → x.isFinite = true) :
      optional? (single? origin) (some (restated ((x?.map Document.ofSingle).getD .null))) =
        some (x?.map origin.keep) := by
    cases x? with
    | none => rfl
    | some x => exact optional?_some (single?_restated origin (finite x rfl)).1 rfl
  obtain ⟨count, least, most, written, counted, lower, upper⟩ : ∃ count least most : Document,
      restated (toDocument ⟨name, shape, length, initial, min, max, description⟩) = .table [
        ("name", .text name), ("base_type", .text shape.keyword), ("array_size", count),
        ("default", restated initial.toDocument), ("min", least), ("max", most),
        ("description", .text description)] ∧
      optional? (wordOf? 64) (some count) = some length ∧
      optional? (single? origin) (some least) = some (min.map origin.keep) ∧
      optional? (single? origin) (some most) = some (max.map origin.keep) := by
    refine ⟨_, _, _, rfl, ?_, bound min low, bound max high⟩
    cases length with
    | none => rfl
    | some n => exact optional?_some (wordOf?_restated (sized n rfl)) rfl
  have value : Value.ofDocument? origin (restated initial.toDocument) =
      some (initial.map origin.keep) := Value.ofDocument?_restated origin all
  rw [written]
  simp [ofDocument?, fieldOnce?, string?, word?, Shape.ofKeyword?_keyword, counted, value, lower,
    upper, map]

end Parameter

end LiveFragment
