import LiveFragment.Proofs.Directive.Numeric
import LiveFragment.Proofs.Text.Reading

namespace LiveFragment

open LiveFragment.Number LiveFragment.Text LiveFragment.Parameter

namespace Directive

/-- A name as programs write it: an ASCII letter or an underscore, then letters, digits and
underscores. -/
def IsName (text : List Char) : Prop :=
  ∃ first rest, text = first :: rest ∧ (first.isAlpha = true ∨ first = '_') ∧
    ∀ c ∈ rest, c.isAlphanum = true ∨ c = '_'

theorem isLetter_eq (c : Char) : isLetter c = c.isAlpha := by
  have upper : c.isUpper = ('A' ≤ c && c ≤ 'Z') := Bool.decide_and ..
  have lower : c.isLower = ('a' ≤ c && c ≤ 'z') := rfl
  have either : c.isAlpha = (c.isUpper || c.isLower) := rfl
  rw [either, upper, lower, isLetter, Bool.or_comm]

theorem isIdentifier_iff {text : List Char} : isIdentifier text = true ↔ IsName text := by
  cases text with
  | nil => simp [isIdentifier, IsName]
  | cons first rest =>
    have continues (c : Char) : (isLetter c || ('0' ≤ c && c ≤ '9') || c == '_') = true ↔
        c.isAlphanum = true ∨ c = '_' := by
      simp [Char.isAlphanum, isLetter_eq, Char.isDigit, Char.le_def]
    have starts : (isLetter first || first == '_') = true ↔ first.isAlpha = true ∨ first = '_' := by
      simp [isLetter_eq]
    rw [isIdentifier, Bool.and_eq_true, List.all_eq_true, starts]
    simp only [continues, IsName, List.cons.injEq]
    constructor
    · rintro ⟨letter, all⟩
      exact ⟨first, rest, ⟨rfl, rfl⟩, letter, all⟩
    · rintro ⟨_, _, ⟨rfl, rfl⟩, letter, all⟩
      exact ⟨letter, all⟩

theorem takeDescription_clear (body : List Char) : '"' ∉ (takeDescription body).2.getD [] := by
  have clear {text : List Char} (none : ∀ c ∈ text, (c == '"') = false) : '"' ∉ text := by
    intro member
    simpa using none _ member
  unfold takeDescription
  split
  · simp
  · split
    · rename_i whole
      exact clear (clear_of_cutAt?_eq_none whole)
    · rename_i cut
      exact clear (clear_of_cutAt? cut)

/-- An array has at least one element, and no more than the limit. -/
theorem shape?_length {word : List Char} {shape : Shape} {length : Nat}
    (typed : shape? word = some (shape, some length)) : 1 ≤ length ∧ length ≤ maxArrayLength := by
  unfold shape? at typed
  split at typed
  · obtain ⟨_, _, same⟩ := Option.map_eq_some_iff.mp typed
    cases same
  · obtain ⟨digits, _, typed⟩ := Option.bind_eq_some_iff.mp typed
    obtain ⟨count, _, typed⟩ := Option.bind_eq_some_iff.mp typed
    split at typed
    · cases typed
    · rename_i within
      obtain ⟨_, _, same⟩ := Option.map_eq_some_iff.mp typed
      cases same
      omega

/-- A source names a block size that is on the list, or a file by a name that is not empty. -/
theorem source?_cases {word rest : List Char} {source : TextureSource}
    (given : source? word rest = some source) :
    (∃ pattern, source = .builtin pattern) ∨ (∃ name, source = .file name ∧ name ≠ "") ∨
      ∃ size, source = .microphone size ∧ size ∈ analysisSizes := by
  unfold source? at given
  split at given
  · obtain ⟨name, named, rfl⟩ := Option.map_eq_some_iff.mp given
    have some := (Option.filter_eq_some_iff.mp named).2
    exact .inr (.inl ⟨_, rfl, by simpa using some⟩)
  · split at given
    · obtain ⟨size, sized, rfl⟩ := Option.map_eq_some_iff.mp given
      obtain ⟨_, _, sized⟩ := Option.bind_eq_some_iff.mp sized
      obtain ⟨_, sized⟩ := Option.ite_none_left_eq_some.mp sized
      exact .inr (.inr ⟨size, rfl, by simpa using (Option.filter_eq_some_iff.mp sized).2⟩)
    · split at given
      · cases given
      · obtain ⟨pattern, _, rfl⟩ := Option.map_eq_some_iff.mp given
        exact .inl ⟨pattern, rfl⟩

end Directive

open LiveFragment.Directive

/-- A definition that everything after the reading of a text can deal with. -/
structure Parameter.Definition.WellFormed (definition : Definition) : Prop where
  name : IsName definition.name.toList
  length : ∀ length, definition.length = some length → 1 ≤ length ∧ length ≤ maxArrayLength
  fits : definition.initial.fits definition.shape definition.length = true
  elements : ∀ length, definition.length = some length →
    ∃ elements, definition.initial = .array elements ∧ elements.length = length ∧
      ∀ element ∈ elements, element.elementFits definition.shape = true
  bounds : definition.min.isSome = definition.max.isSome
  numeric : definition.Numeric
  description : '"' ∉ definition.description.toList

structure Directive.TextureDirective.WellFormed (directive : TextureDirective) : Prop where
  channel : directive.channel < channelCount
  size : ∀ size, directive.source = .microphone size → size ∈ analysisSizes
  name : ∀ name, directive.source = .file name → name ≠ ""

namespace Directive

theorem definition?_wellFormed {line : List Char} {definition : Definition}
    (declared : definition? line = some definition) : definition.WellFormed := by
  obtain ⟨body, name, word, _, _, identifier, typed, _, named, described, spelling, _, _, min, max⟩ :=
    definition?_spelled declared
  have fits := definition?_fits declared
  constructor
  case name =>
    rw [named, String.toList_ofList]
    exact isIdentifier_iff.mp identifier
  case length =>
    intro length isArray
    exact shape?_length (isArray ▸ typed)
  case fits => exact fits
  case elements =>
    intro length isArray
    rw [isArray] at fits
    cases held : definition.initial with
    | element single =>
      rw [held] at fits
      cases fits
    | array elements =>
      rw [held, Value.fits_array] at fits
      exact ⟨elements, rfl, fits⟩
  case bounds => rw [min, max, Option.isSome_map, Option.isSome_map]
  case numeric => exact definition?_numeric declared
  case description =>
    rw [described, String.toList_ofList]
    exact takeDescription_clear body

theorem texture?_wellFormed {line : List Char} {directive : TextureDirective}
    (declared : texture? line = some directive) : directive.WellFormed := by
  obtain ⟨_, _, _, _, given⟩ := texture?_spelled declared
  refine ⟨texture?_channel declared, ?_, ?_⟩
  · intro size source
    rw [source] at given
    rcases source?_cases given with ⟨_, other⟩ | ⟨_, other, _⟩ | ⟨listed, same, member⟩
    · cases other
    · cases other
    · cases same
      exact member
  · intro name source
    rw [source] at given
    rcases source?_cases given with ⟨_, other⟩ | ⟨named, same, some⟩ | ⟨_, other, _⟩
    · cases other
    · cases same
      exact some
    · cases other

/-- The initial values of the parameters: one entry for each, of its shape. -/
structure Directives.Valued (directives : Directives) (values : Valuation) : Prop where
  names : (values.entries.map (·.1)).Perm (directives.params.map (·.name))
  shaped : ∀ definition ∈ directives.params, ∃ value,
    values.find? definition.name = some value ∧
      value.fits definition.shape definition.length = true

structure Directives.WellFormed (directives : Directives) : Prop where
  distinct : (directives.params.map (·.name)).Nodup
  params : ∀ definition ∈ directives.params, definition.WellFormed
  ordered : directives.textures.Pairwise (·.channel < ·.channel)
  textures : ∀ directive ∈ directives.textures, directive.WellFormed
  initial : directives.Valued (.initial directives.params)

namespace Directives

theorem valued_ofSource (source : String) :
    (ofSource source).Valued (.initial (ofSource source).params) := by
  have formed := formed_ofSource source
  have coherent := Store.coherent_ofDefinitions formed.distinct formed.shaped
  exact ⟨coherent.perm, fun definition declared => coherent.find? declared⟩

/-- The directives of a text are well formed, whatever the text is. -/
theorem wellFormed_ofSource (source : String) : (ofSource source).WellFormed where
  distinct := distinct_ofSource source
  params := forall_params_ofSource (fun _ _ => definition?_wellFormed) source
  ordered := ordered_ofSource source
  textures := forall_textures_ofSource (fun _ _ => texture?_wellFormed) source
  initial := valued_ofSource source

end Directives

end Directive

end LiveFragment
