import Mathlib.Data.List.Perm.Basic
import Mathlib.Data.List.Nodup
import Mathlib.Data.List.Induction
import LiveFragment.Parameter.Store

namespace LiveFragment.Parameter

open LiveFragment.Number

namespace Valuation

/-- Entries stand in the order of their names, one for each name. -/
def Sorted (entries : List (String × Value)) : Prop := entries.Pairwise fun a b => a.1 < b.1

theorem Sorted.names {entries : List (String × Value)} (sorted : Sorted entries) :
    (entries.map (·.1)).Nodup :=
  List.pairwise_map.mpr (sorted.imp String.ne_of_lt)

variable {name : String} {value : Value}

theorem mem_insertEntry {entries : List (String × Value)} (sorted : Sorted entries)
    {entry : String × Value} :
    entry ∈ insertEntry name value entries ↔
      entry = (name, value) ∨ entry ∈ entries ∧ entry.1 ≠ name := by
  induction entries with
  | nil => simp [insertEntry]
  | cons head rest ih =>
    obtain ⟨other, held⟩ := head
    obtain ⟨first, tail⟩ := List.pairwise_cons.mp sorted
    simp only [insertEntry]
    split
    · rename_i same
      subst same
      have apart : entry ∈ rest → entry.1 ≠ name := fun member =>
        (String.ne_of_lt (first entry member)).symm
      rw [List.mem_cons, List.mem_cons]
      constructor
      · rintro (rfl | member)
        · exact .inl rfl
        · exact .inr ⟨.inr member, apart member⟩
      · rintro (rfl | ⟨rfl | member, different⟩)
        · exact .inl rfl
        · exact absurd rfl different
        · exact .inr member
    · rename_i different
      split
      · rename_i before
        -- All entries come after the new one, so none of them has its name.
        have apart : ∀ old ∈ (other, held) :: rest, old.1 ≠ name := by
          intro old member
          rcases List.mem_cons.mp member with rfl | later
          · exact Ne.symm different
          · exact (String.ne_of_lt (String.lt_trans before (first old later))).symm
        rw [List.mem_cons]
        constructor
        · rintro (rfl | member)
          · exact .inl rfl
          · exact .inr ⟨member, apart entry member⟩
        · rintro (rfl | ⟨member, _⟩)
          · exact .inl rfl
          · exact .inr member
      · rw [List.mem_cons, ih tail, List.mem_cons]
        constructor
        · rintro (rfl | rfl | ⟨member, apart⟩)
          · exact .inr ⟨.inl rfl, Ne.symm different⟩
          · exact .inl rfl
          · exact .inr ⟨.inr member, apart⟩
        · rintro (rfl | ⟨rfl | member, apart⟩)
          · exact .inr (.inl rfl)
          · exact .inl rfl
          · exact .inr (.inr ⟨member, apart⟩)

theorem Sorted.insertEntry {entries : List (String × Value)} (sorted : Sorted entries) :
    Sorted (Valuation.insertEntry name value entries) := by
  induction entries with
  | nil => exact List.pairwise_singleton _ _
  | cons head rest ih =>
    obtain ⟨other, held⟩ := head
    obtain ⟨first, tail⟩ := List.pairwise_cons.mp sorted
    simp only [Valuation.insertEntry]
    split
    · rename_i same
      subst same
      exact List.pairwise_cons.mpr ⟨first, tail⟩
    · rename_i different
      split
      · rename_i before
        refine List.pairwise_cons.mpr ⟨?_, sorted⟩
        intro entry member
        rcases List.mem_cons.mp member with rfl | later
        · exact before
        · exact String.lt_trans before (first entry later)
      · rename_i after
        refine List.pairwise_cons.mpr ⟨?_, ih tail⟩
        intro entry member
        rcases (mem_insertEntry tail).mp member with rfl | ⟨old, _⟩
        · exact Std.lt_of_le_of_ne (String.not_lt.mp after) (Ne.symm different)
        · exact first entry old

theorem mem_names_insertEntry {entries : List (String × Value)} (sorted : Sorted entries)
    {wanted : String} :
    wanted ∈ (insertEntry name value entries).map (·.1) ↔
      wanted = name ∨ wanted ∈ entries.map (·.1) := by
  simp only [List.mem_map, mem_insertEntry sorted]
  constructor
  · rintro ⟨entry, rfl | ⟨member, _⟩, rfl⟩
    · exact .inl rfl
    · exact .inr ⟨entry, member, rfl⟩
  · intro present
    by_cases same : wanted = name
    · exact ⟨(name, value), .inl rfl, same.symm⟩
    · obtain ⟨entry, member, rfl⟩ := present.resolve_left same
      exact ⟨entry, .inr ⟨member, same⟩, rfl⟩

theorem mem_of_find? {valuation : Valuation} (found : valuation.find? name = some value) :
    (name, value) ∈ valuation.entries := by
  obtain ⟨front, back, split, _⟩ := List.lookup_eq_some_iff.mp found
  simp [split]

theorem find?_of_mem {valuation : Valuation} (sorted : Sorted valuation.entries)
    (member : (name, value) ∈ valuation.entries) : valuation.find? name = some value := by
  obtain ⟨front, back, split⟩ := List.append_of_mem member
  refine List.lookup_eq_some_iff.mpr ⟨front, back, split, ?_⟩
  intro entry earlier
  rw [split] at sorted
  have before := (List.pairwise_append.mp sorted).2.2 entry earlier (name, value) (by simp)
  simpa using (String.ne_of_lt before).symm

end Valuation

theorem Element.fits_ofComponents (shape : Shape) (components : List Double) :
    (Element.ofComponents shape components).fits shape = true := by
  cases shape <;> rfl

namespace Value

theorem elementFits_ofComponents (shape : Shape) (components : List Double) :
    (ofComponents shape components).elementFits shape = true :=
  Element.fits_ofComponents shape components

theorem coerceElement?_fits {value element : Value} {shape : Shape}
    (coerced : value.coerceElement? shape = some element) : element.elementFits shape = true := by
  cases value with
  | array elements => cases coerced
  | element given =>
    obtain ⟨held, converted, rfl⟩ := Option.map_eq_some_iff.mp coerced
    unfold Element.coerce? at converted
    split at converted
    · obtain rfl := Option.some.inj converted
      rfl
    · obtain ⟨fits, same⟩ := Option.ite_none_right_eq_some.mp converted
      exact Option.some.inj same ▸ fits

theorem fits_array {elements : List Value} {shape : Shape} {length : Nat} :
    (array elements).fits shape (some length) = true ↔
      elements.length = length ∧ ∀ element ∈ elements, element.elementFits shape = true := by
  simp [fits]

/-- A value that is no array fits where one of its elements does. -/
theorem fits_of_elementFits {value : Value} {shape : Shape}
    (fits : value.elementFits shape = true) : value.fits shape none = true := by
  cases value with
  | element held => exact fits
  | array elements => cases fits

end Value

namespace Store

/-- Names are declared once, every definition has one value, and there are no other values. -/
structure Coherent (store : Store) : Prop where
  distinct : (store.definitions.map (·.name)).Nodup
  sorted : Valuation.Sorted store.values.entries
  names : ∀ name, name ∈ store.values.entries.map (·.1) ↔ name ∈ store.definitions.map (·.name)
  shaped : ∀ definition ∈ store.definitions, ∀ value,
    (definition.name, value) ∈ store.values.entries →
      value.fits definition.shape definition.length = true

theorem coerceAll?_fits {shape : Shape} {elements coerced : List Value}
    (all : coerceAll? shape elements = some coerced) :
    coerced.length = elements.length ∧ ∀ element ∈ coerced, element.elementFits shape = true := by
  induction elements generalizing coerced with
  | nil =>
    obtain rfl := Option.some.inj all
    simp
  | cons first rest ih =>
    simp only [coerceAll?, List.mapM_cons, bind, Option.bind_eq_some_iff] at all
    obtain ⟨head, converted, tail, others, same⟩ := all
    obtain rfl := Option.some.inj same
    obtain ⟨kept, fits⟩ := ih others
    refine ⟨by simp [kept], ?_⟩
    intro element member
    rcases List.mem_cons.mp member with rfl | later
    · exact Value.coerceElement?_fits converted
    · exact fits element later

theorem coherent_empty : empty.Coherent where
  distinct := by simp [empty]
  sorted := List.Pairwise.nil
  names := by simp [empty, Valuation.empty]
  shaped := by simp [empty]

namespace Coherent

variable {store : Store}

theorem perm (coherent : store.Coherent) :
    (store.values.entries.map (·.1)).Perm (store.definitions.map (·.name)) :=
  (List.perm_ext_iff_of_nodup coherent.sorted.names coherent.distinct).mpr coherent.names

theorem find? (coherent : store.Coherent) {definition : Definition}
    (declared : definition ∈ store.definitions) :
    ∃ value, store.values.find? definition.name = some value ∧
      value.fits definition.shape definition.length = true := by
  have named := (coherent.names definition.name).mpr (List.mem_map.mpr ⟨definition, declared, rfl⟩)
  obtain ⟨⟨name, value⟩, member, rfl⟩ := List.mem_map.mp named
  exact ⟨value, Valuation.find?_of_mem coherent.sorted member,
    coherent.shaped definition declared value member⟩

theorem declare (coherent : store.Coherent) {definition : Definition}
    (new : definition.name ∉ store.definitions.map (·.name))
    (fits : definition.initial.fits definition.shape definition.length = true) :
    Coherent ⟨store.definitions ++ [definition],
      store.values.insert definition.name definition.initial⟩ where
  distinct := by
    rw [List.map_append, List.nodup_append]
    refine ⟨coherent.distinct, by simp, ?_⟩
    rintro name old _ single rfl
    obtain rfl := List.mem_singleton.mp single
    exact new old
  sorted := coherent.sorted.insertEntry
  names name := by
    rw [Valuation.insert, Valuation.mem_names_insertEntry coherent.sorted, coherent.names,
      List.map_append, List.mem_append, List.map_singleton, List.mem_singleton, or_comm]
  shaped other declared value given := by
    rcases (Valuation.mem_insertEntry coherent.sorted).mp given with same | ⟨old, apart⟩
    · obtain ⟨named, rfl⟩ := Prod.mk.inj same
      rcases List.mem_append.mp declared with before | last
      · exact absurd (List.mem_map.mpr ⟨other, before, named⟩) new
      · exact List.mem_singleton.mp last ▸ fits
    · rcases List.mem_append.mp declared with before | last
      · exact coherent.shaped other before value old
      · exact absurd (congrArg Definition.name (List.mem_singleton.mp last)) apart

/-- A value of the right shape is written over the one of a definition. -/
theorem write (coherent : store.Coherent) {definition : Definition}
    (declared : definition ∈ store.definitions) {value : Value}
    (fits : value.fits definition.shape definition.length = true) :
    Coherent { store with values := store.values.insert definition.name value } where
  distinct := coherent.distinct
  sorted := coherent.sorted.insertEntry
  names name := by
    rw [Valuation.insert, Valuation.mem_names_insertEntry coherent.sorted, coherent.names]
    constructor
    · rintro (rfl | old)
      · exact List.mem_map.mpr ⟨definition, declared, rfl⟩
      · exact old
    · exact .inr
  shaped other member held given := by
    rcases (Valuation.mem_insertEntry coherent.sorted).mp given with same | ⟨old, _⟩
    · obtain ⟨named, rfl⟩ := Prod.mk.inj same
      obtain rfl := List.inj_on_of_nodup_map coherent.distinct member declared named
      exact fits
    · exact coherent.shaped other member held old

/-- The elements of an array, as many as its definition says and of its shape. -/
theorem elements_fit (coherent : store.Coherent) {definition : Definition}
    (declared : definition ∈ store.definitions) {length : Nat}
    (isArray : definition.length = some length) :
    (Value.array (store.elements definition)).fits definition.shape (some length) = true := by
  have zeros : (Value.array (List.replicate definition.count (.zero definition.shape))).fits
      definition.shape (some length) = true := by
    rw [Value.fits_array, List.length_replicate, Definition.count, isArray]
    refine ⟨rfl, ?_⟩
    intro element member
    exact (List.mem_replicate.mp member).2 ▸ Element.fits_ofComponents definition.shape []
  unfold elements
  cases found : store.values.find? definition.name with
  | none => exact zeros
  | some value =>
    cases value with
    | element held => exact zeros
    | array elements =>
      have fits := coherent.shaped definition declared _ (Valuation.mem_of_find? found)
      rwa [isArray] at fits

theorem replacement?_fits (coherent : store.Coherent) {definition : Definition}
    (declared : definition ∈ store.definitions) {index : Option Nat} {value next : Value}
    (replaced : store.replacement? definition index value = some next) :
    next.fits definition.shape definition.length = true := by
  unfold replacement? at replaced
  split at replaced
  · rename_i length index isArray
    obtain ⟨element, coerced, rfl⟩ := Option.map_eq_some_iff.mp replaced
    obtain ⟨sized, fits⟩ := Value.fits_array.mp (coherent.elements_fit declared isArray)
    rw [isArray, Value.fits_array, List.length_set]
    refine ⟨sized, ?_⟩
    intro other member
    rcases List.mem_or_eq_of_mem_set member with old | rfl
    · exact fits other old
    · exact Value.coerceElement?_fits coerced
  · rename_i length isArray
    split at replaced
    · cases replaced
    · rename_i elements
      obtain ⟨sized, converted⟩ := Option.ite_none_right_eq_some.mp replaced
      obtain ⟨coerced, all, rfl⟩ := Option.map_eq_some_iff.mp converted
      obtain ⟨kept, fits⟩ := coerceAll?_fits all
      rw [isArray, Value.fits_array]
      exact ⟨kept.trans sized, fits⟩
  · rename_i single
    rw [single]
    exact Value.fits_of_elementFits (Value.coerceElement?_fits replaced)

theorem set (coherent : store.Coherent) {name : String} {index : Option Nat} {value : Value}
    {next : Store} (written : store.set name index value = .ok next) :
    next.Coherent ∧ next.definitions = store.definitions := by
  unfold Store.set at written
  split at written
  · cases written
  · rename_i definition found
    have declared : definition ∈ store.definitions := List.mem_of_find?_eq_some found
    have named : definition.name = name := by simpa using List.find?_some found
    split at written
    · cases written
    · split at written
      · cases written
      · rename_i replacement replaced
        obtain rfl := Except.ok.inj written
        exact ⟨named ▸ coherent.write declared (coherent.replacement?_fits declared replaced), rfl⟩

end Coherent

/-- A program starts with the initial values of its definitions. -/
theorem coherent_ofDefinitions {definitions : List Definition}
    (distinct : (definitions.map (·.name)).Nodup)
    (shaped : ∀ definition ∈ definitions,
      definition.initial.fits definition.shape definition.length = true) :
    (ofDefinitions definitions).Coherent := by
  induction definitions using List.reverseRecOn with
  | nil => exact coherent_empty
  | append_singleton front last ih =>
    rw [List.map_append, List.nodup_append] at distinct
    have before := ih distinct.1 fun definition member => shaped definition (by simp [member])
    have new : last.name ∉ front.map (·.name) := fun old =>
      distinct.2.2 _ old _ (by simp) rfl
    have declared := before.declare new (shaped last (by simp))
    simpa [ofDefinitions, Valuation.initial] using declared

/-- What a value has to fit. -/
private def outline (definitions : List Definition) : List (String × Shape × Option Nat) :=
  definitions.map fun definition => (definition.name, definition.shape, definition.length)

private theorem outline_eq_of_agreeAll {left right : List Definition}
    (agree : Definition.agreeAll left right = true) : outline left = outline right := by
  induction left generalizing right with
  | nil =>
    cases right with
    | nil => rfl
    | cons => cases agree
  | cons a as ih =>
    cases right with
    | nil => cases agree
    | cons b bs =>
      simp only [Definition.agreeAll, Definition.agrees, Bool.and_eq_true, beq_iff_eq] at agree
      obtain ⟨⟨⟨⟨⟨⟨⟨name, shape⟩, length⟩, _⟩, _⟩, _⟩, _⟩, rest⟩ := agree
      have same := ih rest
      simp only [outline] at same ⊢
      rw [List.map_cons, List.map_cons, name, shape, length, same]

/-- The values of a store that agrees are as good as the initial ones. -/
theorem Coherent.carryOver {store previous : Store} (coherent : store.Coherent)
    (before : previous.Coherent) : (store.carryOver previous).Coherent := by
  unfold Store.carryOver
  split
  · rename_i agree
    have outlines := outline_eq_of_agreeAll agree
    have named : previous.definitions.map (·.name) = store.definitions.map (·.name) := by
      have names := congrArg (List.map Prod.fst) outlines
      simp only [outline, List.map_map] at names
      exact names
    constructor
    case distinct => exact coherent.distinct
    case sorted => exact before.sorted
    case names => exact named ▸ before.names
    case shaped =>
      intro definition declared value given
      have present : (definition.name, definition.shape, definition.length) ∈
          outline previous.definitions :=
        outlines ▸ List.mem_map.mpr ⟨definition, declared, rfl⟩
      obtain ⟨old, member, same⟩ := List.mem_map.mp present
      simp only [Prod.mk.injEq] at same
      obtain ⟨name, shape, length⟩ := same
      have fits := before.shaped old member value (name ▸ given)
      rwa [shape, length] at fits
  · exact coherent

theorem carryOver_definitions (store previous : Store) :
    (store.carryOver previous).definitions = store.definitions := by
  unfold carryOver
  split <;> rfl

end Store

end LiveFragment.Parameter
