import LiveFragment.Directive.Source
import LiveFragment.Proofs.Parameter.Store
import LiveFragment.Proofs.Text.Reading

namespace LiveFragment

open LiveFragment.Number LiveFragment.Parameter

namespace Directive

namespace Spelling

/-- The values spelled so far have the shape that was declared. -/
structure Shaped (shape : Shape) (spelling : Spelling) : Prop where
  initial : ∀ value, spelling.initial = some value → value.elementFits shape = true
  elements : ∀ values, spelling.elements = some values →
    ∀ value ∈ values, value.elementFits shape = true

theorem shaped_none (shape : Shape) : Spelling.none.Shaped shape :=
  ⟨by simp [Spelling.none], by simp [Spelling.none]⟩

theorem elementValues_fit (shape : Shape) (items : List Item) :
    ∀ value ∈ elementValues shape items, value.elementFits shape = true := by
  intro value member
  obtain ⟨item, _, rfl⟩ := List.mem_map.mp member
  cases item with
  | number value => exact Value.elementFits_ofComponents ..
  | group inner => exact Value.elementFits_ofComponents ..

theorem Shaped.read {shape : Shape} {spelling : Spelling} (shaped : spelling.Shaped shape)
    (isArray : Bool) (item : Item) : (spelling.read shape isArray item).Shaped shape := by
  have spelled (components : List Double) :
      Shaped shape { spelling with initial := some (.ofComponents shape components) } := by
    refine ⟨?_, shaped.elements⟩
    rintro _ ⟨⟩
    exact Value.elementFits_ofComponents ..
  cases item with
  | number value =>
    simp only [Spelling.read]
    split
    · exact spelled [value]
    · exact shaped
  | group inner =>
    simp only [Spelling.read]
    split
    · split
      · exact spelled _
      · split
        · exact ⟨shaped.initial, shaped.elements⟩
        · exact shaped
    · split
      · refine ⟨shaped.initial, ?_⟩
        rintro _ ⟨⟩
        exact elementValues_fit shape inner
      · exact shaped

theorem Shaped.foldl {shape : Shape} {spelling : Spelling} (shaped : spelling.Shaped shape)
    (isArray : Bool) (items : List Item) :
    (items.foldl (Spelling.read shape isArray) spelling).Shaped shape := by
  induction items generalizing spelling with
  | nil => exact shaped
  | cons item rest ih => exact ih (shaped.read isArray item)

/-- An array takes as many of its elements as were listed and fills up with copies. -/
theorem Shaped.value_fits {shape : Shape} {spelling : Spelling} (shaped : spelling.Shaped shape)
    (length : Option Nat) : (spelling.value shape length).fits shape length = true := by
  have filler : (spelling.initial.getD (.zero shape)).elementFits shape = true := by
    cases given : spelling.initial with
    | none => exact Element.fits_ofComponents shape []
    | some value => exact shaped.initial value given
  have listed : ∀ value ∈ spelling.elements.getD [], value.elementFits shape = true := by
    cases given : spelling.elements with
    | none => simp
    | some values => exact shaped.elements values given
  cases length with
  | none => exact Value.fits_of_elementFits filler
  | some length =>
    rw [Spelling.value, Value.fits_array]
    constructor
    · rw [List.length_append, List.length_replicate]
      have bound := List.length_take_le length (spelling.elements.getD [])
      omega
    · intro value member
      rcases List.mem_append.mp member with given | copy
      · exact listed value (List.mem_of_mem_take given)
      · exact (List.mem_replicate.mp copy).2 ▸ filler

end Spelling

theorem infix_of_body? {keyword line body : List Char} (given : body? keyword line = some body) :
    body <:+: line := by
  unfold body? at given
  obtain ⟨comment, start, given⟩ := Option.bind_eq_some_iff.mp given
  obtain ⟨rest, word, given⟩ := Option.bind_eq_some_iff.mp given
  have behind : rest <:+ line :=
    (((List.isPrefixOf?_eq_some_iff_append_eq.mp word) ▸ List.suffix_append keyword rest).trans
      (List.dropWhile_suffix _)).trans
    (((List.isPrefixOf?_eq_some_iff_append_eq.mp start) ▸ List.suffix_append slashes comment).trans
      (List.dropWhile_suffix _))
  split at given
  · obtain rfl := Option.some.inj given
    exact List.nil_infix
  · obtain ⟨-, same⟩ := Option.ite_none_right_eq_some.mp given
    obtain rfl := Option.some.inj same
    exact (Text.infix_of_trim _).trans behind.isInfix

/-- What a line spells when it declares a definition, and how the definition follows from it. -/
theorem definition?_spelled {line : List Char} {definition : Definition}
    (declared : definition? line = some definition) :
    ∃ body name word rest items, isIdentifier name = true ∧
      shape? word = some (definition.shape, definition.length) ∧
      (body <:+: line ∧ rest <:+: (takeDescription body).1 ∧ items? rest = some items) ∧
      definition.name = String.ofList name ∧
      definition.description = String.ofList ((takeDescription body).2.getD []) ∧
      ∃ spelling, spelling =
          items.foldl (Spelling.read definition.shape definition.length.isSome) .none ∧
        definition.initial = spelling.value definition.shape definition.length ∧
        definition.min = spelling.range.map (·.1) ∧ definition.max = spelling.range.map (·.2) := by
  unfold definition? at declared
  obtain ⟨body, given, declared⟩ := Option.bind_eq_some_iff.mp declared
  obtain ⟨⟨name, rest⟩, first, declared⟩ := Option.bind_eq_some_iff.mp declared
  dsimp only at declared
  split at declared
  · cases declared
  · rename_i identifier
    obtain ⟨⟨word, rest⟩, second, declared⟩ := Option.bind_eq_some_iff.mp declared
    obtain ⟨⟨shape, length⟩, typed, declared⟩ := Option.bind_eq_some_iff.mp declared
    obtain ⟨items, read, declared⟩ := Option.bind_eq_some_iff.mp declared
    obtain rfl := Option.some.inj declared
    have piece := (Text.suffix_of_nextWord? second).trans (Text.suffix_of_nextWord? first)
    exact ⟨body, name, word, rest, items, by simpa using identifier, typed,
      ⟨infix_of_body? given, piece.isInfix, read⟩, rfl, rfl, _, rfl, rfl, rfl, rfl⟩

/-- The initial value of a definition has the shape of the definition. -/
theorem definition?_fits {line : List Char} {definition : Definition}
    (declared : definition? line = some definition) :
    definition.initial.fits definition.shape definition.length = true := by
  obtain ⟨_, _, _, _, items, _, _, _, _, _, spelling, rfl, initial, _, _⟩ :=
    definition?_spelled declared
  rw [initial]
  exact ((Spelling.shaped_none _).foldl _ items).value_fits _

theorem texture?_spelled {line : List Char} {directive : TextureDirective}
    (declared : texture? line = some directive) :
    ∃ slot word rest, channel? slot = some directive.channel ∧
      source? word rest = some directive.source := by
  unfold texture? at declared
  simp only [bind, Option.bind_eq_some_iff] at declared
  obtain ⟨body, _, ⟨slot, rest⟩, _, channel, named, ⟨word, rest⟩, _, source, given, same⟩ := declared
  obtain rfl := Option.some.inj same
  exact ⟨slot, word, _, named, given⟩

theorem texture?_channel {line : List Char} {directive : TextureDirective}
    (declared : texture? line = some directive) : directive.channel < channelCount := by
  obtain ⟨slot, _, _, named, _⟩ := texture?_spelled declared
  simpa using (Option.filter_eq_some_iff.mp named).2

namespace Directives

/-- What holds before the first line, and of each line after the ones before it, holds of a text. -/
theorem ofSource_induction {P : Directives → Prop} (source : String) (start : P ⟨[], []⟩)
    (next : ∀ (found : Directives) (line : List Char) (directive : Definition ⊕ TextureDirective),
      line ∈ Text.lines source.toList → lineDirective line = some directive → P found →
        P (found.add directive)) :
    P (ofSource source) := by
  have folded (lines : List (Definition ⊕ TextureDirective))
      (declared : ∀ directive ∈ lines, ∃ line ∈ Text.lines source.toList,
        lineDirective line = some directive)
      (found : Directives) (before : P found) : P (lines.foldl add found) := by
    induction lines generalizing found with
    | nil => exact before
    | cons directive rest ih =>
      obtain ⟨line, listed, read⟩ := declared directive (by simp)
      exact ih (fun other member => declared other (by simp [member])) _
        (next found line directive listed read before)
  refine folded _ ?_ _ start
  intro directive member
  obtain ⟨line, listed, read⟩ := List.mem_filterMap.mp member
  exact ⟨line, listed, read⟩

theorem declared_ofSource (source : String) :
    ∀ definition ∈ (ofSource source).params, ∃ line ∈ Text.lines source.toList,
      definition? line = some definition := by
  refine ofSource_induction (P := fun found => ∀ definition ∈ found.params,
    ∃ line ∈ Text.lines source.toList, definition? line = some definition) source (by simp) ?_
  intro found line directive listed declared before
  unfold lineDirective at declared
  split at declared
  · obtain ⟨definition, read, rfl⟩ := Option.map_eq_some_iff.mp declared
    simp only [Directives.add]
    split
    · exact before
    · exact List.forall_mem_append.mpr
        ⟨before, List.forall_mem_singleton.mpr ⟨line, listed, read⟩⟩
  · obtain ⟨texture, read, rfl⟩ := Option.map_eq_some_iff.mp declared
    exact before
  · cases declared

/-- What holds of every definition that a line declares holds of all definitions of a text. -/
theorem forall_params_ofSource {P : Definition → Prop}
    (each : ∀ (line : List Char) (definition : Definition),
      definition? line = some definition → P definition)
    (source : String) : ∀ definition ∈ (ofSource source).params, P definition := by
  intro definition member
  obtain ⟨line, -, read⟩ := declared_ofSource source definition member
  exact each line definition read

/-- What holds of every texture directive that a line declares holds of all those of a text. -/
theorem forall_textures_ofSource {P : TextureDirective → Prop}
    (each : ∀ (line : List Char) (directive : TextureDirective),
      texture? line = some directive → P directive)
    (source : String) : ∀ directive ∈ (ofSource source).textures, P directive := by
  refine ofSource_induction (P := fun found => ∀ directive ∈ found.textures, P directive) source
    (by simp) ?_
  intro found line directive _ declared before
  unfold lineDirective at declared
  split at declared
  · obtain ⟨definition, read, rfl⟩ := Option.map_eq_some_iff.mp declared
    simp only [Directives.add]
    split <;> exact before
  · obtain ⟨texture, read, rfl⟩ := Option.map_eq_some_iff.mp declared
    intro other member
    simp only [Directives.add, List.mem_append, List.mem_cons, List.mem_filter] at member
    rcases member with ⟨old, _⟩ | rfl | ⟨old, _⟩
    · exact before other old
    · exact each line other read
    · exact before other old
  · cases declared

theorem distinct_ofSource (source : String) : ((ofSource source).params.map (·.name)).Nodup := by
  apply ofSource_induction (P := fun found => (found.params.map (·.name)).Nodup) source .nil
  intro found line directive _ _ distinct
  cases directive with
  | inr directive => exact distinct
  | inl definition =>
    simp only [add]
    split
    · exact distinct
    · rename_i new
      have unused : definition.name ∉ found.params.map (·.name) := by
        intro member
        obtain ⟨other, present, same⟩ := List.mem_map.mp member
        exact new (List.any_eq_true.mpr ⟨other, present, by simpa using same⟩)
      rw [List.map_append, List.map_singleton, List.nodup_append]
      refine ⟨distinct, by simp, ?_⟩
      intro name member other single same
      rw [List.mem_singleton] at single
      exact unused (single ▸ same ▸ member)

/-- What holds of the directives of a text. -/
structure Formed (directives : Directives) : Prop where
  distinct : (directives.params.map (·.name)).Nodup
  shaped : ∀ definition ∈ directives.params,
    definition.initial.fits definition.shape definition.length = true
  channels : ∀ directive ∈ directives.textures, directive.channel < channelCount

theorem formed_ofSource (source : String) : (ofSource source).Formed where
  distinct := distinct_ofSource source
  shaped := forall_params_ofSource (fun _ _ => definition?_fits) source
  channels := forall_textures_ofSource (fun _ _ => texture?_channel) source

/-- Texture directives come in the order of their channels, one for each. -/
theorem ordered_ofSource (source : String) :
    (ofSource source).textures.Pairwise (·.channel < ·.channel) := by
  apply ofSource_induction
    (P := fun found => found.textures.Pairwise (·.channel < ·.channel)) source .nil
  intro found line directive _ _ ordered
  cases directive with
  | inl definition =>
    simp only [add]
    split <;> exact ordered
  | inr directive =>
    simp only [add, List.pairwise_append, List.pairwise_cons, List.mem_cons, List.mem_filter,
      decide_eq_true_eq]
    refine ⟨ordered.filter _, ⟨fun _ above => above.2, ordered.filter _⟩, ?_⟩
    rintro first ⟨_, below⟩ second (rfl | ⟨_, above⟩)
    · exact below
    · exact Nat.lt_trans below above

end Directives

end Directive

end LiveFragment
