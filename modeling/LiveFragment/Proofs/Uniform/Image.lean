import Mathlib.Algebra.Ring.Nat
import LiveFragment.Program.Compile
import LiveFragment.Proofs.Parameter.Store
import LiveFragment.Proofs.Text.Reading
import LiveFragment.Proofs.Uniform.Std140
import LiveFragment.Proofs.Uniform.Writes

namespace LiveFragment

open LiveFragment.Parameter LiveFragment.Program

namespace Parameter

namespace Value

def element? : Value → Option Element
  | .element held => some held
  | .array _ => none

/-- The elements of a value: the value itself, or those of an array. -/
def parts : Value → List Element
  | .element held => [held]
  | .array elements => elements.filterMap element?

theorem elements_eq_map {shape : Shape} {elements : List Value}
    (fit : ∀ element ∈ elements, element.elementFits shape = true) :
    elements = (elements.filterMap element?).map .element := by
  induction elements with
  | nil => rfl
  | cons first rest ih =>
    have later := ih fun other member => fit other (by simp [member])
    cases first with
    | element held =>
      rw [List.filterMap_cons_some (by rfl), List.map_cons, ← later]
    | array elements => cases fit (.array elements) (by simp)

/-- A value that fits has as many parts as its definition has elements, each of the same shape. -/
theorem parts_fit {value : Value} {definition : Definition}
    (fits : value.fits definition.shape definition.length = true) :
    value.parts.length = definition.count ∧
      ∀ element ∈ value.parts, element.fits definition.shape = true := by
  unfold Definition.count
  cases sized : definition.length with
  | none =>
    rw [sized] at fits
    cases value with
    | element held => exact ⟨rfl, fun element member => List.mem_singleton.mp member ▸ fits⟩
    | array elements => cases fits
  | some length =>
    rw [sized] at fits
    cases value with
    | element held => cases fits
    | array elements =>
      obtain ⟨long, fit⟩ := fits_array.mp fits
      have same := elements_eq_map fit
      constructor
      · rw [parts, ← List.length_map (f := Value.element), ← same]
        exact long
      · intro element member
        have held : Value.element element ∈ elements := by
          rw [same]
          exact List.mem_map_of_mem member
        exact fit _ held

end Value

end Parameter

namespace Uniform

theorem length_elementBytes {element : Element} {shape : Shape} (fits : element.fits shape = true) :
    (elementBytes element).length = byteSize shape := by
  cases element <;> cases shape <;> first | rfl | cases fits

theorem MemberType.size_ofShape (shape : Shape) : (ofShape shape).size = byteSize shape := by
  cases shape <;> rfl

theorem byteSize_le (shape : Shape) : byteSize shape ≤ arrayStride := by
  cases shape <;> decide

/-- The extents of the elements of a member. -/
def Extent.ofMember (definition : Definition) (offsets : List Nat) : List Extent :=
  offsets.map fun offset => ⟨offset, byteSize definition.shape⟩

/-- The extents of all elements of a block, in their order. -/
def extents (definitions : List Definition) (layout : List (List Nat)) : List Extent :=
  (definitions.zip layout).flatMap fun (definition, offsets) =>
    Extent.ofMember definition offsets

/-- The elements of a member lie behind each other between its start and its end. -/
theorem extents_ofMember (definition : Definition) (start : Nat) :
    let member := Member.ofDefinition definition
    let extents := Extent.ofMember definition (member.offsets start)
    extents.length = definition.count ∧ (extents.Pairwise fun a b => a.stop ≤ b.start) ∧
      ∀ extent ∈ extents, start ≤ extent.start ∧ extent.stop ≤ start + member.size := by
  obtain ⟨name, shape, length, initial, min, max, description⟩ := definition
  have small : byteSize shape ≤ 16 := byteSize_le shape
  cases length with
  | none =>
    refine ⟨rfl, List.pairwise_singleton _ _, ?_⟩
    intro extent member
    obtain rfl := List.mem_singleton.mp member
    refine ⟨Nat.le_refl _, ?_⟩
    rw [Member.size, Member.ofDefinition, MemberType.size_ofShape]
    exact Nat.le_refl _
  | some length =>
    simp only [Extent.ofMember, Member.offsets, Member.ofDefinition, Member.size, List.map_map,
      List.length_map, List.length_range, List.pairwise_map, List.mem_map, List.mem_range,
      Definition.count, Option.getD_some, Function.comp_apply, Extent.stop]
    refine ⟨trivial, ?_, ?_⟩
    · refine List.pairwise_lt_range.imp ?_
      intro a b before
      omega
    · rintro _ ⟨index, below, rfl⟩
      dsimp only
      omega

/-- Members lie behind each other, too. -/
theorem Placed.extents {position stop : Nat} {definitions : List Definition}
    {offsets : List (List Nat)}
    (placed : Placed position (definitions.map .ofDefinition) offsets stop) :
    definitions.length = offsets.length ∧
      ((extents definitions offsets).Pairwise fun a b => a.stop ≤ b.start) ∧
      (∀ extent ∈ Uniform.extents definitions offsets,
        position ≤ extent.start ∧ extent.stop ≤ stop) ∧
      ∀ definition places, (definition, places) ∈ definitions.zip offsets →
        places.length = definition.count := by
  induction definitions generalizing position offsets with
  | nil =>
    cases placed
    simp [Uniform.extents]
  | cons definition rest ih =>
    cases placed with
    | @cons _ start _ _ _ others aligned behind =>
      obtain ⟨counted, ordered, within⟩ := extents_ofMember definition start
      obtain ⟨lengths, later, beyond, counts⟩ := ih behind
      have start_le := aligned.1.2
      have stop_le := behind.position_le_stop
      refine ⟨by simp [lengths], ?_, ?_, ?_⟩
      · rw [Uniform.extents, List.zip_cons_cons, List.flatMap_cons]
        refine List.pairwise_append.mpr ⟨ordered, later, ?_⟩
        intro first member second follows
        exact Nat.le_trans (within first member).2 (beyond second follows).1
      · rw [Uniform.extents, List.zip_cons_cons, List.flatMap_cons]
        intro extent member
        rcases List.mem_append.mp member with here | there
        · have := within extent here
          omega
        · have := beyond extent there
          omega
      · rw [List.zip_cons_cons]
        intro other places member
        rcases List.mem_cons.mp member with same | later
        · obtain ⟨rfl, rfl⟩ := Prod.mk.inj same
          rw [← counted, Extent.ofMember, List.length_map]
        · exact counts other places later

/-- The cells that the elements of a value are written to. -/
def cells (offsets : List Nat) (value : Value) : List Cell :=
  List.zipWith Cell.mk offsets value.parts

theorem extents_cells {definition : Definition} {offsets : List Nat} {value : Value}
    (counted : offsets.length = definition.count)
    (fits : value.fits definition.shape definition.length = true) :
    (cells offsets value).map Cell.extent = Extent.ofMember definition offsets := by
  obtain ⟨long, fit⟩ := Value.parts_fit fits
  apply List.ext_getElem?
  intro index
  simp only [cells, Extent.ofMember, List.map_zipWith, List.getElem?_zipWith, List.getElem?_map]
  rcases Nat.lt_or_ge index offsets.length with below | beyond
  · have inside : index < value.parts.length := by omega
    have element := fit value.parts[index] (List.getElem_mem inside)
    rw [List.getElem?_eq_getElem below, List.getElem?_eq_getElem inside]
    simp only [Option.map_some, Cell.extent, length_elementBytes element]
  · rw [List.getElem?_eq_none beyond]
    rfl

end Uniform

namespace Program.Binding

open LiveFragment.Uniform

theorem writeValue_eq {definition : Definition} {offsets : List Nat} {value : Value}
    (counted : offsets.length = definition.count)
    (fits : value.fits definition.shape definition.length = true) (block : Block) :
    writeValue block offsets value = block.writeCells (cells offsets value) := by
  unfold Definition.count at counted
  cases sized : definition.length with
  | none =>
    rw [sized] at fits counted
    obtain ⟨offset, rfl⟩ := List.length_eq_one_iff.mp counted
    cases value with
    | element held => rfl
    | array elements => cases fits
  | some length =>
    rw [sized] at fits
    cases value with
    | element held => cases fits
    | array elements =>
      have same := Value.elements_eq_map (Value.fits_array.mp fits).2
      have spelled : (Value.array elements).parts = elements.filterMap Value.element? := rfl
      rw [cells, spelled, Block.writeCells, List.zipWith_foldl_eq_zip_foldl, writeValue]
      generalize elements.filterMap Value.element? = parts at same
      rw [same, List.zip_map_right, List.foldl_map]
      rfl

/-- The cells that an entry is written to, which are none for a name without a slot. -/
def entryCells (binding : Binding) (entry : String × Value) : List Cell :=
  match binding.slot? entry.1 with
  | none => []
  | some slot => cells slot.offsets entry.2

theorem writeValues_eq {binding : Binding} {values : Valuation}
    (fit : ∀ entry ∈ values.entries, ∀ slot, binding.slot? entry.1 = some slot →
      ∃ definition : Definition, slot.offsets.length = definition.count ∧
        entry.2.fits definition.shape definition.length = true) (block : Block) :
    binding.writeValues values block =
      block.writeCells (values.entries.flatMap binding.entryCells) := by
  unfold writeValues
  generalize values.entries = entries at fit
  induction entries generalizing block with
  | nil => rfl
  | cons entry rest ih =>
    obtain ⟨name, value⟩ := entry
    have one : (match binding.slot? name with
        | none => block
        | some slot => writeValue block slot.offsets value) =
        block.writeCells (binding.entryCells (name, value)) := by
      unfold entryCells
      cases found : binding.slot? name with
      | none => rfl
      | some slot =>
        obtain ⟨definition, counted, fits⟩ := fit (name, value) (by simp) slot found
        exact writeValue_eq counted fits block
    have others := ih (block.writeCells (binding.entryCells (name, value))) fun other member =>
      fit other (by simp [member])
    rw [List.flatMap_cons, Block.writeCells_append, ← others, ← one]
    rfl

end Program.Binding

namespace Uniform

/-- The slots of members with their places. -/
def slotsOf (definitions : List Definition) (layout : Layout) : List Slot :=
  (definitions.zip layout.offsets).map fun (definition, offsets) =>
    ⟨definition.name, definition.shape, offsets⟩

/-- A block of the right size that is zero wherever there is no element. -/
structure Clean (definitions : List Definition) (layout : Layout) (block : Block) : Prop where
  size : block.bytes.size = layout.size
  blank : ∀ position < layout.size,
    (∀ extent ∈ extents definitions layout.offsets, ¬ extent.Covers position) →
      block.bytes[position]? = some 0

/-- A block shows values: every element of every definition is read at its place as the element that
the value has now, and everything else is zero. The elements lie inside the block and behind each
other, and each of them was written once. -/
structure Image (definitions : List Definition) (layout : Layout) (values : Valuation)
    (block : Block) : Prop extends Clean definitions layout block where
  shows : ∀ (i : Nat) (definition : Definition), definitions[i]? = some definition →
    ∃ offsets value, layout.offsets[i]? = some offsets ∧
      values.find? definition.name = some value ∧
      value.fits definition.shape definition.length = true ∧
      offsets.length = definition.count ∧ value.parts.length = definition.count ∧
      ∀ (index offset : Nat) (element : Element), offsets[index]? = some offset →
        value.parts[index]? = some element →
          element.fits definition.shape = true ∧ block.Holds offset element
  inside : ∀ extent ∈ extents definitions layout.offsets, extent.stop ≤ block.bytes.size
  apart : (extents definitions layout.offsets).Pairwise fun a b => a.stop ≤ b.start
  writes : block.writes = (definitions.map (·.count)).sum

theorem clean_zeros (definitions : List Definition) (layout : Layout) :
    Clean definitions layout (.zeros layout.size) := by
  constructor
  case size => exact Array.size_replicate
  case blank =>
    intro position below _
    simp [Block.zeros, Bytes.fill, below]

/-- The value that a name has now. -/
def currentValue (values : Valuation) (name : String) : Value := (values.find? name).getD default

/-- The cells of all elements, in the order of the declarations. -/
def declaredCells (definitions : List Definition) (layout : Layout) (values : Valuation) :
    List Cell :=
  (definitions.zip layout.offsets).flatMap fun (definition, offsets) =>
    cells offsets (currentValue values definition.name)

/-- What is asked of each definition can be asked of it together with its places. -/
theorem map_eq_zip {α : Type} {definitions : List Definition} {offsets : List (List Nat)}
    (lengths : definitions.length = offsets.length) (f : Definition → α) :
    definitions.map f = (definitions.zip offsets).map fun place => f place.1 := by
  have first : (definitions.zip offsets).map Prod.fst = definitions :=
    List.map_fst_zip (Nat.le_of_eq lengths)
  calc definitions.map f
      = ((definitions.zip offsets).map Prod.fst).map f := by rw [first]
    _ = (definitions.zip offsets).map fun place => f place.1 := List.map_map

/-- The order of the names and the order of the declarations give the same cells. -/
theorem cells_perm {store : Store} (coherent : store.Coherent) {layout : Layout}
    (lengths : store.definitions.length = layout.offsets.length) {binding : Binding}
    (slots : binding.slots = slotsOf store.definitions layout) :
    (store.values.entries.flatMap binding.entryCells).Perm
      (declaredCells store.definitions layout store.values) := by
  let entryOf (name : String) : String × Value := (name, currentValue store.values name)
  have spelled : (store.values.entries.map (·.1)).map entryOf = store.values.entries := by
    rw [List.map_map]
    refine (List.map_congr_left ?_).trans (List.map_id _)
    rintro ⟨name, value⟩ member
    simp only [Function.comp_apply, entryOf, currentValue,
      Valuation.find?_of_mem coherent.sorted member, Option.getD_some, id]
  have names : store.definitions.map (·.name) =
      (store.definitions.zip layout.offsets).map (·.1.name) :=
    map_eq_zip lengths Definition.name
  have distinct : (binding.slots.map (·.name)).Nodup := by
    rw [slots, slotsOf, List.map_map]
    exact names ▸ coherent.distinct
  have ordered := (coherent.perm.map entryOf).flatMap_right binding.entryCells
  rw [spelled, names, List.map_map, List.flatMap_map] at ordered
  have same : (store.definitions.zip layout.offsets).flatMap
        (fun place => binding.entryCells (entryOf place.1.name)) =
      declaredCells store.definitions layout store.values := by
    unfold declaredCells
    refine List.flatMap_congr ?_
    rintro ⟨definition, offsets⟩ member
    have held : (⟨definition.name, definition.shape, offsets⟩ : Slot) ∈ binding.slots := by
      rw [slots]
      exact List.mem_map.mpr ⟨(definition, offsets), member, rfl⟩
    have found : binding.slot? definition.name =
        some ⟨definition.name, definition.shape, offsets⟩ :=
      Text.find?_of_distinct distinct held
    simp only [Binding.entryCells, entryOf, found]
  exact same ▸ ordered

theorem declaredCells_extents {store : Store} (coherent : store.Coherent) {layout : Layout}
    (counts : ∀ definition places, (definition, places) ∈ store.definitions.zip layout.offsets →
      places.length = definition.count) :
    (declaredCells store.definitions layout store.values).map Cell.extent =
      extents store.definitions layout.offsets := by
  unfold declaredCells extents
  rw [List.map_flatMap]
  refine List.flatMap_congr ?_
  rintro ⟨definition, offsets⟩ member
  obtain ⟨value, found, fits⟩ := coherent.find? (List.of_mem_zip member).1
  simp only [currentValue, found, Option.getD_some]
  exact extents_cells (counts definition offsets member) fits

theorem length_extents {definitions : List Definition} {offsets : List (List Nat)}
    (lengths : definitions.length = offsets.length)
    (counts : ∀ definition places, (definition, places) ∈ definitions.zip offsets →
      places.length = definition.count) :
    (extents definitions offsets).length = (definitions.map (·.count)).sum := by
  rw [extents, List.length_flatMap, map_eq_zip lengths]
  congr 1
  refine List.map_congr_left ?_
  rintro ⟨definition, places⟩ member
  simp only [Extent.ofMember, List.length_map, counts _ _ member]

theorem writeValues_spelled {store : Store} (coherent : store.Coherent) {layout : Layout}
    (counts : ∀ definition places, (definition, places) ∈ store.definitions.zip layout.offsets →
      places.length = definition.count) {binding : Binding}
    (slots : binding.slots = slotsOf store.definitions layout) (block : Block) :
    binding.writeValues store.values block =
      block.writeCells (store.values.entries.flatMap binding.entryCells) := by
  refine Binding.writeValues_eq ?_ block
  rintro ⟨name, value⟩ given slot found
  have held : slot ∈ slotsOf store.definitions layout := slots ▸ List.mem_of_find?_eq_some found
  have named : slot.name = name := by simpa using List.find?_some found
  obtain ⟨⟨definition, offsets⟩, member, rfl⟩ := List.mem_map.mp held
  dsimp only at named
  refine ⟨definition, counts definition offsets member, ?_⟩
  exact coherent.shaped definition (List.of_mem_zip member).1 value (named ▸ given)

/-- Writing the values of a store into a clean block makes the block their image. -/
theorem image_writeValues {store : Store} (coherent : store.Coherent) {layout : Layout}
    (rules : Std140 (store.definitions.map .ofDefinition) layout) {binding : Binding}
    (slots : binding.slots = slotsOf store.definitions layout) {block : Block}
    (clean : Clean store.definitions layout block) (fresh : block.writes = 0) :
    Image store.definitions layout store.values (binding.writeValues store.values block) := by
  obtain ⟨stop, placed, ends⟩ := rules
  obtain ⟨lengths, ordered, within, counts⟩ := placed.extents
  have perm := cells_perm coherent lengths slots
  have spread := declaredCells_extents coherent counts
  have bounded : ∀ extent ∈ extents store.definitions layout.offsets,
      extent.stop ≤ block.bytes.size := by
    intro extent member
    rw [clean.size]
    exact Nat.le_trans (within extent member).2 ends.1.2
  have extent_mem : ∀ cell ∈ store.values.entries.flatMap binding.entryCells,
      cell.extent ∈ extents store.definitions layout.offsets := by
    intro cell member
    rw [← spread]
    exact List.mem_map_of_mem (perm.mem_iff.mp member)
  have inside : ∀ cell ∈ store.values.entries.flatMap binding.entryCells,
      cell.extent.stop ≤ block.bytes.size :=
    fun cell member => bounded _ (extent_mem cell member)
  have apart : (store.values.entries.flatMap binding.entryCells).Pairwise fun a b =>
      a.extent.Apart b.extent := by
    refine (perm.pairwise_iff fun apart => Extent.Apart.symm apart).mpr ?_
    rw [← spread, List.pairwise_map] at ordered
    exact ordered.imp .inl
  have written := Block.written_writeCells inside apart
  rw [writeValues_spelled coherent counts slots]
  constructor
  case toClean =>
    refine ⟨written.size.trans clean.size, ?_⟩
    intro position below free
    rw [written.kept position fun cell member => free _ (extent_mem cell member)]
    exact clean.blank position below free
  case shows =>
    intro i definition declared
    obtain ⟨below, same⟩ := List.getElem?_eq_some_iff.mp declared
    have placed : layout.offsets[i]? = some layout.offsets[i] := List.getElem?_eq_getElem _
    have zipped : (definition, layout.offsets[i]) ∈ store.definitions.zip layout.offsets :=
      List.mem_iff_getElem?.mpr ⟨i, List.getElem?_zip_eq_some.mpr ⟨declared, placed⟩⟩
    obtain ⟨value, found, fits⟩ := coherent.find? (List.mem_of_getElem? declared)
    obtain ⟨long, fit⟩ := Value.parts_fit fits
    refine ⟨_, value, placed, found, fits, counts _ _ zipped, long, ?_⟩
    intro index offset element located part
    have cell : ⟨offset, element⟩ ∈ declaredCells store.definitions layout store.values := by
      refine List.mem_flatMap.mpr ⟨_, zipped, ?_⟩
      simp only [currentValue, found, Option.getD_some]
      refine List.mem_iff_getElem?.mpr ⟨index, ?_⟩
      simp only [cells, List.getElem?_zipWith, located, part]
    exact ⟨fit element (List.mem_of_getElem? part), written.holds inside (perm.mem_iff.mpr cell)⟩
  case inside =>
    intro extent member
    rw [written.size]
    exact bounded extent member
  case apart => exact ordered
  case writes =>
    rw [written.writes, fresh, perm.length_eq, ← List.length_map (f := Cell.extent), spread,
      length_extents lengths counts, Nat.zero_add]

end Uniform

end LiveFragment
