import LiveFragment.Proofs.Directive.Declared
import LiveFragment.Proofs.Text.Reading

namespace LiveFragment.Parameter

open LiveFragment.Directive LiveFragment.Number

/-- What a shape makes of a scalar or a vector that is given for it. An integer becomes a number
where the shape is a float; anything else is of the shape already. -/
inductive Value.Converts (shape : Shape) : Value → Value → Prop
  | fits {held : Element} (fits : held.fits shape = true) :
    Converts shape (.element held) (.element held)
  | integer (n : Int32) (float : shape = .float) :
    Converts shape (.element (.int n)) (.element (.float (.ofInt n.toInt)))

namespace Definition

/-- Whether a value can be given for a parameter: for an array without an index as many elements as
the array has, and otherwise a single element. -/
def Suits (definition : Definition) (index : Option Nat) (given : Value) : Prop :=
  match definition.length, index with
  | some length, none => ∃ elements, given = .array elements ∧ elements.length = length ∧
      ∀ element ∈ elements, ∃ held, element.Converts definition.shape held
  | _, _ => ∃ held, given.Converts definition.shape held

/-- What becomes of the value of a parameter when another one is given for it, with or without the
index of an element. -/
inductive Replaces (definition : Definition) : Option Nat → Value → Value → Value → Prop
  | element {length index : Nat} {given held : Value} {elements : List Value}
      (isArray : definition.length = some length) (inside : index < length)
      (converts : given.Converts definition.shape held) :
    Replaces definition (some index) given (.array elements) (.array (elements.set index held))
  | whole {length : Nat} {before : Value} {given held : List Value}
      (isArray : definition.length = some length) (sized : given.length = length)
      (converts : List.Forall₂ (Value.Converts definition.shape) given held) :
    Replaces definition none (.array given) before (.array held)
  | single {index : Option Nat} {given before held : Value}
      (isSingle : definition.length = none) (first : ∀ i, index = some i → i = 0)
      (converts : given.Converts definition.shape held) :
    Replaces definition index given before held

end Definition

namespace Valuation

variable {name : String} {value : Value} {valuation : Valuation}

theorem find?_iff (sorted : Sorted valuation.entries) :
    valuation.find? name = some value ↔ (name, value) ∈ valuation.entries :=
  ⟨mem_of_find?, find?_of_mem sorted⟩

/-- What is put in is found, and what else is there is found as before. -/
theorem find?_insert (sorted : Sorted valuation.entries) (other : String) :
    (valuation.insert name value).find? other =
      if other = name then some value else valuation.find? other := by
  have kept : Sorted (valuation.insert name value).entries := sorted.insertEntry
  apply Option.ext
  intro held
  rw [find?_iff kept, insert, mem_insertEntry sorted]
  split
  · rename_i same
    simp [same, eq_comm]
  · rename_i different
    simp [different, find?_iff sorted]

end Valuation

namespace Value

variable {shape : Shape}

theorem coerceElement?_iff {given held : Value} :
    given.coerceElement? shape = some held ↔ given.Converts shape held := by
  constructor
  · intro coerced
    cases given with
    | array elements => cases coerced
    | element element =>
      obtain ⟨converted, same, rfl⟩ := Option.map_eq_some_iff.mp coerced
      unfold Element.coerce? at same
      split at same
      · obtain rfl := Option.some.inj same
        exact .integer _ rfl
      · obtain ⟨fits, same⟩ := Option.ite_none_right_eq_some.mp same
        obtain rfl := Option.some.inj same
        exact .fits fits
  · intro converts
    cases converts with
    | integer n float => rw [float]; rfl
    | @fits element fits =>
      refine Option.map_eq_some_iff.mpr ⟨element, ?_, rfl⟩
      unfold Element.coerce?
      split
      · cases fits
      · exact if_pos fits

theorem coerceElement?_eq_none {given : Value} :
    given.coerceElement? shape = none ↔ ¬∃ held, given.Converts shape held := by
  simp only [← coerceElement?_iff, Option.eq_none_iff_forall_ne_some, not_exists, ne_eq]

end Value

namespace Store

theorem coerceAll?_iff {shape : Shape} {given held : List Value} :
    coerceAll? shape given = some held ↔ List.Forall₂ (Value.Converts shape) given held := by
  induction given generalizing held with
  | nil => simp [coerceAll?, eq_comm]
  | cons first rest ih =>
    simp only [coerceAll?, List.mapM_cons, bind, pure, Option.bind_eq_some_iff,
      List.forall₂_cons_left_iff, Value.coerceElement?_iff] at ih ⊢
    simp only [ih, Option.some.injEq, exists_and_left, eq_comm]

theorem coerceAll?_eq_none {shape : Shape} {given : List Value} :
    coerceAll? shape given = none ↔
      ¬∀ element ∈ given, ∃ held, element.Converts shape held := by
  induction given with
  | nil => simp [coerceAll?]
  | cons first rest ih =>
    simp only [coerceAll?, List.mapM_cons, bind, pure, List.forall_mem_cons, not_and_or] at ih ⊢
    rw [← ih, ← Value.coerceElement?_eq_none]
    cases first.coerceElement? shape with
    | none => simp
    | some held => cases rest.mapM fun element => element.coerceElement? shape <;> simp

variable {store : Store} {definition : Definition} {index : Option Nat} {given : Value}

theorem filter_count_eq_none :
    index.filter (definition.count ≤ ·) = none ↔ ∀ i, index = some i → i < definition.count := by
  cases index with
  | none => simp
  | some i => simp [Option.filter]

/-- There is no replacement for a value that does not suit the parameter. -/
theorem replacement?_eq_none :
    store.replacement? definition index given = none ↔ ¬definition.Suits index given := by
  unfold replacement? Definition.Suits
  split
  · rename_i isArray
    rw [Option.map_eq_none_iff, Value.coerceElement?_eq_none, isArray]
  · rename_i length isArray
    rw [isArray]
    cases given with
    | element held => simp
    | array elements =>
      simp only [Value.array.injEq, exists_eq_left', not_and]
      split
      · rename_i sized
        rw [Option.map_eq_none_iff, coerceAll?_eq_none]
        exact ⟨fun unfit _ => unfit, fun unfit => unfit sized⟩
      · rename_i sized
        exact iff_of_true rfl fun same => absurd same sized
  · rename_i single
    rw [Value.coerceElement?_eq_none, single]

namespace Coherent

/-- The array that a coherent store has is the one whose elements are replaced. -/
theorem elements_eq (coherent : store.Coherent) (declared : definition ∈ store.definitions)
    {length : Nat} (isArray : definition.length = some length) :
    store.values.find? definition.name = some (.array (store.elements definition)) := by
  obtain ⟨value, found, fits⟩ := coherent.find? declared
  rw [isArray] at fits
  cases value with
  | element held => cases fits
  | array held => simp [elements, found, Value.asArray?]

theorem replacement?_replaces (coherent : store.Coherent)
    (declared : definition ∈ store.definitions) {before after : Value}
    (found : store.values.find? definition.name = some before)
    (inside : ∀ i, index = some i → i < definition.count)
    (replaced : store.replacement? definition index given = some after) :
    definition.Replaces index given before after := by
  unfold replacement? at replaced
  split at replaced
  · rename_i length i isArray
    obtain ⟨held, coerced, rfl⟩ := Option.map_eq_some_iff.mp replaced
    rw [coherent.elements_eq declared isArray] at found
    obtain rfl := Option.some.inj found
    have inside := inside i rfl
    rw [Definition.count, isArray] at inside
    exact .element isArray inside (Value.coerceElement?_iff.mp coerced)
  · rename_i length isArray
    split at replaced
    · cases replaced
    · obtain ⟨sized, converted⟩ := Option.ite_none_right_eq_some.mp replaced
      obtain ⟨held, all, rfl⟩ := Option.map_eq_some_iff.mp converted
      exact .whole isArray sized (coerceAll?_iff.mp all)
  · rename_i single
    refine .single single ?_ (Value.coerceElement?_iff.mp replaced)
    intro i given
    have inside := inside i given
    rw [Definition.count, single] at inside
    exact Nat.lt_one_iff.mp inside

end Coherent

/-- A write as a host asks for it. -/
structure Write where
  name : String
  index : Option Nat
  value : Value

def write (store : Store) (write : Write) : Except WriteError Store :=
  store.set write.name write.index write.value

/-- The store after a write, whether it was taken or refused. -/
def after (store : Store) (write : Write) : Store :=
  match store.write write with
  | .ok next => next
  | .error _ => store

/-- The store after some writes. -/
def run (store : Store) (writes : List Write) : Store := writes.foldl after store

/-- What a store and the one before it have in common but for one parameter, and what became of
that. -/
structure Written (store : Store) (write : Write) (next : Store) : Prop where
  definitions : next.definitions = store.definitions
  others : ∀ other, other ≠ write.name → next.values.find? other = store.values.find? other
  named : ∃ definition ∈ store.definitions, definition.name = write.name ∧
    ∃ before after, store.values.find? write.name = some before ∧
      next.values.find? write.name = some after ∧
      definition.Replaces write.index write.value before after

/-- Why a store refuses a write. -/
inductive Refuses (store : Store) (write : Write) : WriteError → Prop
  | unknown (undeclared : ∀ definition ∈ store.definitions, definition.name ≠ write.name) :
    Refuses store write (.unknown write.name)
  | indexOutOfRange {definition : Definition} {index : Nat}
      (declared : definition ∈ store.definitions) (named : definition.name = write.name)
      (given : write.index = some index) (beyond : definition.count ≤ index) :
    Refuses store write (.indexOutOfRange write.name index definition.count)
  | shapeMismatch {definition : Definition} (declared : definition ∈ store.definitions)
      (named : definition.name = write.name)
      (inside : ∀ index, write.index = some index → index < definition.count)
      (unfit : ¬definition.Suits write.index write.value) :
    Refuses store write (.shapeMismatch write.name definition.shapeText)

namespace Coherent

variable {write : Write}

theorem definition?_eq_some (coherent : store.Coherent) {name : String} :
    store.definition? name = some definition ↔
      definition ∈ store.definitions ∧ definition.name = name := by
  constructor
  · intro found
    exact ⟨List.mem_of_find?_eq_some found, by simpa using List.find?_some found⟩
  · rintro ⟨declared, rfl⟩
    exact Text.find?_of_distinct coherent.distinct declared

/-- A write that is taken replaces one value. -/
theorem written (coherent : store.Coherent) {next : Store}
    (taken : store.write write = .ok next) : store.Written write next := by
  unfold Store.write Store.set at taken
  split at taken
  · cases taken
  · rename_i definition found
    obtain ⟨declared, named⟩ := coherent.definition?_eq_some.mp found
    obtain ⟨before, held, -⟩ := coherent.find? declared
    split at taken
    · cases taken
    · rename_i inside
      split at taken
      · cases taken
      · rename_i after replaced
        obtain rfl := Except.ok.inj taken
        have changes := coherent.replacement?_replaces declared held
          (filter_count_eq_none.mp inside) replaced
        rw [named] at held
        refine ⟨rfl, ?_, definition, declared, named, before, after, held, ?_, changes⟩
        · intro other different
          exact (Valuation.find?_insert coherent.sorted other).trans (if_neg different)
        · exact (Valuation.find?_insert coherent.sorted write.name).trans (if_pos rfl)

/-- A write is refused for one of three reasons, and for each of them it is refused. -/
theorem refused_iff (coherent : store.Coherent) {error : WriteError} :
    store.write write = .error error ↔ store.Refuses write error := by
  constructor
  · intro refused
    unfold Store.write Store.set at refused
    split at refused
    · rename_i missing
      obtain rfl := Except.error.inj refused
      refine .unknown fun definition declared named => ?_
      rw [coherent.definition?_eq_some.mpr ⟨declared, named⟩] at missing
      cases missing
    · rename_i definition found
      obtain ⟨declared, named⟩ := coherent.definition?_eq_some.mp found
      split at refused
      · rename_i index beyond
        obtain rfl := Except.error.inj refused
        obtain ⟨given, beyond⟩ := Option.filter_eq_some_iff.mp beyond
        exact .indexOutOfRange declared named given (of_decide_eq_true beyond)
      · rename_i inside
        split at refused
        · rename_i unfit
          obtain rfl := Except.error.inj refused
          exact .shapeMismatch declared named (filter_count_eq_none.mp inside)
            (replacement?_eq_none.mp unfit)
        · cases refused
  · intro reason
    unfold Store.write Store.set
    cases reason with
    | unknown undeclared =>
      have missing : store.definition? write.name = none :=
        Option.eq_none_iff_forall_ne_some.mpr fun definition found =>
          have declared := coherent.definition?_eq_some.mp found
          undeclared definition declared.1 declared.2
      rw [missing]
    | @indexOutOfRange definition index declared named given beyond =>
      have stopped : write.index.filter (definition.count ≤ ·) = some index :=
        Option.filter_eq_some_iff.mpr ⟨given, decide_eq_true beyond⟩
      rw [coherent.definition?_eq_some.mpr ⟨declared, named⟩]
      simp only [stopped]
    | @shapeMismatch definition declared named inside unfit =>
      rw [coherent.definition?_eq_some.mpr ⟨declared, named⟩]
      simp only [filter_count_eq_none.mpr inside, replacement?_eq_none.mpr unfit]

theorem after (coherent : store.Coherent) (write : Write) :
    (store.after write).Coherent ∧ (store.after write).definitions = store.definitions := by
  unfold Store.after
  split
  · rename_i taken
    exact coherent.set taken
  · exact ⟨coherent, rfl⟩

/-- Whatever is written, there is one value of its shape for each definition. -/
theorem run (coherent : store.Coherent) (writes : List Write) :
    (store.run writes).Coherent ∧ (store.run writes).definitions = store.definitions := by
  induction writes generalizing store with
  | nil => exact ⟨coherent, rfl⟩
  | cons write rest ih =>
    obtain ⟨next, same⟩ := coherent.after write
    obtain ⟨later, kept⟩ := ih next
    exact ⟨later, kept.trans same⟩

end Coherent

/-- Whatever was written to the parameters of a program, each has one value of its shape; a write
that is refused changes nothing, one that is taken replaces the value it names; and a write is
refused exactly where it names no parameter, an index beyond the elements or a value that does not
suit the parameter. -/
theorem run_typed (source : String) (writes : List Write) :
    let store := (ofDefinitions (Directives.ofSource source).params).run writes
    store.definitions = (Directives.ofSource source).params ∧
      (store.values.entries.map (·.1)).Perm (store.definitions.map (·.name)) ∧
      (∀ definition ∈ store.definitions, ∃ value,
        store.values.find? definition.name = some value ∧
          value.fits definition.shape definition.length = true) ∧
      ∀ write,
        (∀ next, store.write write = .ok next → store.after write = next ∧
          store.Written write next) ∧
        ∀ error, (store.write write = .error error ↔ store.Refuses write error) ∧
          (store.write write = .error error → store.after write = store) := by
  have formed := Directives.formed_ofSource source
  obtain ⟨coherent, same⟩ := (coherent_ofDefinitions formed.distinct formed.shaped).run writes
  refine ⟨same, coherent.perm, fun definition declared => coherent.find? declared, ?_⟩
  intro write
  refine ⟨fun next taken => ⟨?_, coherent.written taken⟩,
    fun error => ⟨coherent.refused_iff, fun refused => ?_⟩⟩
  · simp only [Store.after, taken]
  · simp only [Store.after, refused]

end Store

end LiveFragment.Parameter
