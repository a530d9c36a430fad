import LiveFragment.CommandLine.Rendering
import LiveFragment.Proofs.Directive.WellFormed
import LiveFragment.Proofs.Engine.Image
import LiveFragment.Proofs.Number.Narrowed
import LiveFragment.Proofs.Parameter.Writes

namespace LiveFragment

open LiveFragment.Backend LiveFragment.Directive LiveFragment.Number LiveFragment.Parameter
  LiveFragment.Text

namespace CommandLine

/-- The left of an assignment: a name, alone or with the index of an element behind it in
brackets. White space may stand around the name and around the index. -/
inductive Target (left name : List Char) : Option Nat → Prop
  | whole (trimmed : trim left = name) : Target left name none
  | element {before digits : List Char} {index : Nat}
      (trimmed : trim left = before ++ '[' :: (digits ++ [']'])) (first : '[' ∉ before)
      (named : trim before = name) (read : index? (trim digits) = some index) :
    Target left name (some index)

/-- The right of an assignment: numbers between commas, each a literal of a finite number. -/
def Lists (right : List Char) (components : List Double) : Prop :=
  ∃ parts, parts ≠ [] ∧ (∀ part ∈ parts, ',' ∉ part) ∧ right = [','].intercalate parts ∧
    List.Forall₂ (fun part x => finiteDouble? (trim part) = some x) parts components

/-- A text as an assignment, cut at its first equals sign. -/
def Spells (text name : List Char) (index : Option Nat) (components : List Double) : Prop :=
  ∃ left right, text = left ++ '=' :: right ∧ '=' ∉ left ∧ Target left name index ∧
    Lists right components

namespace Assignment

theorem beforeBracket?_eq_some {text digits : List Char} :
    beforeBracket? text = some digits ↔ text = digits ++ [']'] := by
  unfold beforeBracket?
  constructor
  · intro given
    obtain ⟨last, same⟩ := Option.ite_none_right_eq_some.mp given
    rw [← Option.some.inj same]
    exact (List.dropLast_append_getLast? _ last).symm
  · rintro rfl
    simp

theorem target_spelled {left name : List Char} {index : Option Nat}
    (read : target left = .ok (name, index)) : Target left name index := by
  simp only [target] at read
  split at read
  · cases read
    exact .whole rfl
  · rename_i before rest cut
    obtain ⟨c, split, bracket, clear⟩ := cutAt?_eq_some.mp cut
    obtain rfl : c = '[' := by simpa using bracket
    have first : '[' ∉ before := fun member => by simpa using clear _ member
    split at read
    · cases read
    · rename_i digits ended
      obtain rfl := beforeBracket?_eq_some.mp ended
      split at read
      · cases read
      · rename_i number spelled
        cases read
        exact .element split first rfl spelled

theorem target_eq_ok {left name : List Char} {index : Option Nat} (plain : '[' ∉ name) :
    target left = .ok (name, index) ↔ Target left name index := by
  refine ⟨target_spelled, fun given => ?_⟩
  simp only [target]
  cases given with
  | whole trimmed =>
    have whole : cutAt? (· == '[') name = none :=
      cutAt?_eq_none fun c member => beq_eq_false_iff_ne.mpr fun same => plain (same ▸ member)
    rw [trimmed, whole]
  | @element before digits index trimmed first named read =>
    have cut : cutAt? (· == '[') (trim left) = some (before, digits ++ [']']) :=
      cutAt?_eq_some.mpr ⟨'[', trimmed, by simp, fun c member =>
        beq_eq_false_iff_ne.mpr fun same => first (same ▸ member)⟩
    simp only [cut, beforeBracket?_eq_some.mpr rfl, read, named]

theorem component_eq_ok {text : List Char} {x : Double} :
    component text = .ok x ↔ finiteDouble? (trim text) = some x := by
  unfold component
  cases finiteDouble? (trim text) with
  | none => simp
  | some y => simp

theorem mapM_component {parts : List (List Char)} {components : List Double} :
    parts.mapM component = .ok components ↔
      List.Forall₂ (fun part x => finiteDouble? (trim part) = some x) parts components := by
  simp only [← component_eq_ok]
  induction parts generalizing components with
  | nil => simp [pure, Except.pure, eq_comm]
  | cons part rest ih =>
    rw [List.mapM_cons, List.forall₂_cons_left_iff]
    simp only [← ih]
    cases component part with
    | error fault => simp [bind, Except.bind]
    | ok x =>
      cases rest.mapM component with
      | error fault => simp [bind, Except.bind]
      | ok others => simp [bind, Except.bind, pure, Except.pure, eq_comm]

theorem ofText_spelled {text : String} {name : List Char} {index : Option Nat}
    {components : List Double}
    (read : ofText text = .ok ⟨String.ofList name, index, components⟩) :
    Spells text.toList name index components := by
  unfold ofText at read
  split at read
  · cases read
  · rename_i left right cut
    obtain ⟨c, split, separator, clear⟩ := cutAt?_eq_some.mp cut
    obtain rfl : c = '=' := by simpa using separator
    have first : '=' ∉ left := fun member => by simpa using clear _ member
    cases aimed : target left with
    | error fault => simp [aimed, bind, Except.bind] at read
    | ok given =>
      obtain ⟨word, number⟩ := given
      simp only [aimed, bind, Except.bind] at read
      split at read
      · cases read
      · cases listed : (splitAll (· == ',') right).mapM component with
        | error fault => simp [listed] at read
        | ok numbers =>
          simp only [listed, pure, Except.pure, Except.ok.injEq, mk.injEq] at read
          obtain ⟨named, rfl, rfl⟩ := read
          obtain rfl : word = name := String.ofList_injective named
          obtain ⟨some', clear, joined⟩ := splitAll_eq_iff.mp (Eq.refl (splitAll (· == ',') right))
          exact ⟨left, right, split, first, target_spelled aimed,
            splitAll (· == ',') right, some', clear, joined.symm, mapM_component.mp listed⟩

/-- A text is read as an assignment to a name exactly where it spells one. -/
theorem ofText_eq_ok {text : String} {name : List Char} {index : Option Nat}
    {components : List Double} (plain : '[' ∉ name) (some : name ≠ []) :
    ofText text = .ok ⟨String.ofList name, index, components⟩ ↔
      Spells text.toList name index components := by
  refine ⟨ofText_spelled, ?_⟩
  rintro ⟨left, right, split, first, aimed, parts, some', clear, rfl, numbers⟩
  have cut : cutAt? (· == '=') text.toList = Option.some (left, [','].intercalate parts) :=
    cutAt?_eq_some.mpr ⟨'=', split, by simp, fun c member =>
      beq_eq_false_iff_ne.mpr fun same => first (same ▸ member)⟩
  have pieces : splitAll (· == ',') ([','].intercalate parts) = parts :=
    splitAll_eq_iff.mpr ⟨some', clear, rfl⟩
  unfold ofText
  simp only [cut, (target_eq_ok plain).mpr aimed, pieces]
  simp [bind, Except.bind, some, mapM_component.mpr numbers, pure, Except.pure]

end Assignment

/-- The components of an assignment as a shape keeps them. -/
inductive Narrows : Shape → List Double → Element → Prop
  | int {x : Double} {n : Int32} (cut : x.Truncates n) : Narrows .int [x] (.int n)
  | float (x : Double) : Narrows .float [x] (.float x.toSingle)
  | vec2 (x y : Double) : Narrows .vec2 [x, y] (.vec2 x.toSingle y.toSingle)
  | vec3 (x y z : Double) : Narrows .vec3 [x, y, z] (.vec3 x.toSingle y.toSingle z.toSingle)
  | color (x y z : Double) : Narrows .color [x, y, z] (.vec3 x.toSingle y.toSingle z.toSingle)
  | vec4 (x y z w : Double) :
    Narrows .vec4 [x, y, z, w] (.vec4 x.toSingle y.toSingle z.toSingle w.toSingle)

theorem narrows_ofComponents {shape : Shape} {components : List Double}
    (counted : components.length = shape.components)
    (finite : ∀ x ∈ components, x.isFinite = true) :
    Narrows shape components (.ofComponents shape components) := by
  cases shape with
  | int =>
    obtain ⟨x, rfl⟩ := List.length_eq_one_iff.mp counted
    exact .int (Double.truncates_toInt32 (finite x List.mem_cons_self))
  | float =>
    obtain ⟨x, rfl⟩ := List.length_eq_one_iff.mp counted
    exact .float x
  | vec2 =>
    obtain ⟨x, y, rfl⟩ := List.length_eq_two.mp counted
    exact .vec2 x y
  | vec3 =>
    obtain ⟨x, y, z, rfl⟩ := List.length_eq_three.mp counted
    exact .vec3 x y z
  | color =>
    obtain ⟨x, y, z, rfl⟩ := List.length_eq_three.mp counted
    exact .color x y z
  | vec4 =>
    obtain ⟨x, rest, rfl⟩ := List.exists_cons_of_length_eq_add_one counted
    obtain ⟨y, z, w, rfl⟩ := List.length_eq_three.mp (Nat.succ.inj counted)
    exact .vec4 x y z w

theorem Lists.finite {right : List Char} {components : List Double}
    (lists : Lists right components) : ∀ x ∈ components, x.isFinite = true := by
  obtain ⟨parts, -, -, -, numbers⟩ := lists
  induction numbers with
  | nil => exact List.forall_mem_nil _
  | cons read _ ih => exact List.forall_mem_cons.mpr ⟨(Option.filter_eq_some_iff.mp read).2, ih⟩

end CommandLine

namespace Parameter

/-- Whether an index leads to a single value: to an element of an array, or, left out or zero, to the
value of anything else. -/
def Definition.Addresses (definition : Definition) (index : Option Nat) : Prop :=
  match definition.length with
  | some length => ∃ i < length, index = some i
  | none => ∀ i, index = some i → i = 0

/-- An index leads to a single value unless it is out of range, or left out for an array. -/
theorem Definition.addresses_iff {definition : Definition} {index : Option Nat} :
    definition.Addresses index ↔
      (∀ i, index = some i → i < definition.count) ∧ ¬(definition.isArray = true ∧ index = none) := by
  unfold Addresses count isArray
  cases definition.length with
  | none => simp
  | some length => cases index <;> simp

theorem Value.Converts.eq_of_fits {shape : Shape} {element : Element} {held : Value}
    (converts : (Value.element element).Converts shape held) (fits : element.fits shape = true) :
    held = .element element := by
  cases converts with
  | fits => rfl
  | integer n float =>
    rw [float] at fits
    cases fits

namespace Store

/-- A store in which one scalar or vector is new: all of a parameter that is not an array, or the
element of an array that an index leads to. -/
structure Assigns (store : Store) (definition : Definition) (index : Option Nat) (element : Element)
    (next : Store) : Prop where
  definitions : next.definitions = store.definitions
  others : ∀ other, other ≠ definition.name → next.values.find? other = store.values.find? other
  single : definition.length = none → next.values.find? definition.name = some (.element element)
  array : ∀ length, definition.length = some length → ∃ elements i,
    index = some i ∧ i < length ∧ elements.length = length ∧
      store.values.find? definition.name = some (.array elements) ∧
      next.values.find? definition.name = some (.array (elements.set i (.element element)))

variable {store : Store} {definition : Definition} {index : Option Nat} {element : Element}

namespace Coherent

theorem eq_of_name (coherent : store.Coherent) {other : Definition}
    (listed : other ∈ store.definitions) (declared : definition ∈ store.definitions)
    (named : other.name = definition.name) : other = definition :=
  Option.some.inj ((coherent.definition?_eq_some.mpr ⟨listed, named⟩).symm.trans
    (coherent.definition?_eq_some.mpr ⟨declared, rfl⟩))

/-- An element that fits is taken where an index leads to a single value. -/
theorem write_element (coherent : store.Coherent) (declared : definition ∈ store.definitions)
    (addresses : definition.Addresses index) (fits : element.fits definition.shape = true) :
    ∃ next, store.write ⟨definition.name, index, .element element⟩ = .ok next := by
  obtain ⟨inside, aimed⟩ := Definition.addresses_iff.mp addresses
  have suits : definition.Suits index (.element element) := by
    unfold Definition.Suits
    split
    · rename_i isArray
      exact absurd ⟨by rw [Definition.isArray, isArray]; rfl, rfl⟩ aimed
    · exact ⟨_, .fits fits⟩
  cases result : store.write ⟨definition.name, index, .element element⟩ with
  | ok next => exact ⟨next, rfl⟩
  | error fault =>
    -- none of the reasons for a refusal is given
    exfalso
    cases coherent.refused_iff.mp result with
    | unknown undeclared => exact undeclared definition declared rfl
    | indexOutOfRange listed named given beyond =>
      obtain rfl := coherent.eq_of_name listed declared named
      exact Nat.not_lt.mpr beyond (inside _ given)
    | shapeMismatch listed named _ unfit =>
      obtain rfl := coherent.eq_of_name listed declared named
      exact unfit suits

/-- An element that fits and is taken is the only thing that is new. -/
theorem assigns (coherent : store.Coherent) (declared : definition ∈ store.definitions)
    (fits : element.fits definition.shape = true) {next : Store}
    (taken : store.write ⟨definition.name, index, .element element⟩ = .ok next) :
    store.Assigns definition index element next := by
  have written := coherent.written taken
  obtain ⟨other, listed, named, before, after, found, changed, replaces⟩ := written.named
  obtain rfl := coherent.eq_of_name listed declared named
  obtain ⟨value, holds, shaped⟩ := coherent.find? declared
  obtain rfl := Option.some.inj (holds.symm.trans found)
  refine ⟨written.definitions, written.others, fun isSingle => ?_, fun length isArray => ?_⟩
  · cases replaces with
    | element isArray => cases isSingle.symm.trans isArray
    | single _ _ converts => rw [changed, converts.eq_of_fits fits]
  · cases replaces with
    | single isSingle => cases isSingle.symm.trans isArray
    | @element count i _ held elements declared inside converts =>
      obtain rfl := Option.some.inj (declared.symm.trans isArray)
      obtain rfl := converts.eq_of_fits fits
      rw [isArray] at shaped
      have sized : elements.length = count := by
        simp only [Value.fits, Bool.and_eq_true, beq_iff_eq] at shaped
        exact shaped.1
      exact ⟨elements, i, rfl, inside, sized, found, changed⟩

end Coherent

end Store

end Parameter

namespace CommandLine

theorem plain_of_isName {name : List Char} (isName : IsName name) : '[' ∉ name ∧ name ≠ [] := by
  obtain ⟨first, rest, rfl, start, continues⟩ := isName
  refine ⟨fun member => ?_, List.cons_ne_nil _ _⟩
  rcases List.mem_cons.mp member with rfl | member
  · exact absurd start (by decide)
  · exact absurd (continues _ member) (by decide)

namespace Assignment

variable {store next : Store} {assignment : Assignment}

/-- An assignment is taken where it gives the components of a declared parameter to a single value
of it. What is written then is an element. -/
theorem apply_eq_ok (coherent : store.Coherent) :
    assignment.apply store = .ok next ↔
      ∃ definition ∈ store.definitions, definition.name = assignment.name ∧
        definition.Addresses assignment.index ∧
        assignment.components.length = definition.shape.components ∧
        store.write ⟨definition.name, assignment.index,
          .ofComponents definition.shape assignment.components⟩ = .ok next := by
  unfold apply Store.write
  constructor
  · intro taken
    split at taken
    · cases taken
    · rename_i definition found
      obtain ⟨declared, named⟩ := coherent.definition?_eq_some.mp found
      split at taken
      · cases taken
      · rename_i some
        split at taken
        · cases taken
        · rename_i counted
          split at taken
          · cases taken
          · rename_i written set
            obtain rfl := Except.ok.inj taken
            rw [← named] at set
            refine ⟨definition, declared, named, ?_, not_not.mp counted, set⟩
            refine Definition.addresses_iff.mpr ⟨fun i given => ?_, some⟩
            by_contra beyond
            have refused : store.write ⟨definition.name, assignment.index,
                .ofComponents definition.shape assignment.components⟩ = .error _ :=
              coherent.refused_iff.mpr (.indexOutOfRange declared rfl given (Nat.not_lt.mp beyond))
            cases refused.symm.trans set
  · rintro ⟨definition, declared, named, addresses, counted, set⟩
    have found := coherent.definition?_eq_some.mpr ⟨declared, named⟩
    obtain ⟨-, aimed⟩ := Definition.addresses_iff.mp addresses
    rw [named] at set
    simp only [found, if_neg aimed, counted, ne_eq, not_true_eq_false, if_false, set]

end Assignment

variable {σ : Type} [Backend σ]

/-- What becomes of a text that is given as an assignment, with the messages if it is not taken, and
the engine then. -/
def assign (engine : Engine σ) (text : String) : Except (List String) Unit × Engine σ :=
  match Assignment.ofText text with
  | .error fault => (.error [fault.text], engine)
  | .ok assignment =>
    match assignAll engine [assignment] with
    | .error failure => (.error failure.messages, engine)
    | .ok next => (.ok (), next)

omit [Backend σ] in
theorem assign_eq_ok {engine next : Engine σ} {text : String} :
    assign engine text = (.ok (), next) ↔
      ∃ assignment store, Assignment.ofText text = .ok assignment ∧
        assignment.apply engine.store = .ok store ∧ next = { engine with store } := by
  unfold assign
  cases Assignment.ofText text with
  | error fault => simp
  | ok assignment =>
    simp only [assignAll, Except.ok.injEq]
    cases applied : assignment.apply engine.store with
    | error fault => simp [applied]
    | ok store =>
      constructor
      · intro taken
        exact ⟨assignment, store, rfl, applied, (Prod.mk.inj taken).2.symm⟩
      · rintro ⟨_, _, rfl, again, rfl⟩
        obtain rfl := Except.ok.inj (applied.symm.trans again)
        rfl

omit [Backend σ] in
/-- A text that is not taken leaves everything as it was. -/
theorem assign_refused {engine : Engine σ} {text : String}
    (refused : (assign engine text).1 ≠ .ok ()) :
    (assign engine text).2 = engine := by
  unfold assign at refused ⊢
  split
  · rfl
  · rename_i read
    simp only [read] at refused
    split
    · rfl
    · rename_i applied
      simp only [applied, ne_eq, not_true_eq_false] at refused

omit [Backend σ] in
/-- A text that spells a parameter, an index that leads to a value of it and its components is taken. -/
theorem assign_of_spells {engine : Engine σ} (coherent : engine.store.Coherent) {text : String}
    {definition : Definition} (declared : definition ∈ engine.store.definitions)
    (name : IsName definition.name.toList) {index : Option Nat} {components : List Double}
    (spelled : Spells text.toList definition.name.toList index components)
    (addresses : definition.Addresses index)
    (counted : components.length = definition.shape.components) :
    ∃ element store, Narrows definition.shape components element ∧
      engine.store.Assigns definition index element store ∧
      assign engine text = (.ok (), { engine with store }) := by
  obtain ⟨plain, some⟩ := plain_of_isName name
  have read := (Assignment.ofText_eq_ok plain some).mpr spelled
  rw [String.ofList_toList] at read
  have fits : (Element.ofComponents definition.shape components).fits definition.shape = true :=
    Value.elementFits_ofComponents ..
  obtain ⟨store, written⟩ := coherent.write_element declared addresses fits
  obtain ⟨_, _, _, _, _, lists⟩ := spelled
  exact ⟨_, store, narrows_ofComponents counted lists.finite, coherent.assigns declared fits written,
    assign_eq_ok.mpr ⟨_, store, read, (Assignment.apply_eq_ok coherent).mpr
      ⟨definition, declared, rfl, addresses, counted, written⟩, rfl⟩⟩

/-- An assignment is taken exactly where its text spells the name of a parameter, an index that leads
to a single value of it, and as many finite numbers as this value has components. The numbers, as
the parameter keeps them, are then the only thing that is new; and a text that is not taken leaves
everything as it was. -/
theorem assign_spelled {engine : Engine σ} (reached : engine.Reached) {source : String}
    (accepted : engine.lastGoodSource = some source) (text : String) :
    ((assign engine text).1 = .ok () ↔
      ∃ definition ∈ (Directives.ofSource source).params, ∃ index components,
        Spells text.toList definition.name.toList index components ∧
          definition.Addresses index ∧ components.length = definition.shape.components) ∧
    (∀ definition ∈ (Directives.ofSource source).params, ∀ index components,
      Spells text.toList definition.name.toList index components → definition.Addresses index →
        components.length = definition.shape.components →
          ∃ element store, Narrows definition.shape components element ∧
            engine.store.Assigns definition index element store ∧
            assign engine text = (.ok (), { engine with store })) ∧
    ((assign engine text).1 ≠ .ok () → (assign engine text).2 = engine) := by
  have coherent := reached.prepared.store
  have same := reached.prepared.declared source accepted
  have wellFormed := Directives.wellFormed_ofSource source
  have taken (definition) (declared : definition ∈ (Directives.ofSource source).params) :=
    @assign_of_spells σ engine coherent text definition (same ▸ declared)
      (wellFormed.params definition declared).name
  refine ⟨⟨fun accepted => ?_, ?_⟩, fun definition declared index components =>
    taken definition declared, assign_refused⟩
  · obtain ⟨assignment, store, read, applied, -⟩ := assign_eq_ok.mp (Prod.ext accepted rfl)
    obtain ⟨definition, declared, named, addresses, counted, -⟩ :=
      (Assignment.apply_eq_ok coherent).mp applied
    rw [same] at declared
    obtain ⟨plain, some⟩ := plain_of_isName (wellFormed.params definition declared).name
    refine ⟨definition, declared, assignment.index, assignment.components, ?_, addresses, counted⟩
    rw [← Assignment.ofText_eq_ok plain some, String.ofList_toList, named]
    exact read
  · rintro ⟨definition, declared, index, components, spelled, addresses, counted⟩
    obtain ⟨element, store, -, -, outcome⟩ := taken definition declared spelled addresses counted
    rw [outcome]

/-- A program with an array. -/
def tapsSource : String := Session.drawingText "// @param taps float[2]\n"

/-- The second element of the array is given a value. -/
theorem assign_spelled_taps :
    ∃ start, Engine.new (Headless.new (fun _ => none) 1 1) Media.Devices.none Session.lossOptions =
        (.ok start, start.rack.backend) ∧
      let engine := (Session.run ⟨start, none⟩ [.compile tapsSource]).engine
      engine.lastGoodSource = some tapsSource ∧
        (assign engine " taps [+1]= 0.5 ").1 = .ok () ∧
        ∃ definition ∈ (Directives.ofSource tapsSource).params, ∃ index components,
          Spells " taps [+1]= 0.5 ".toList definition.name.toList index components ∧
            definition.Addresses index ∧ components.length = definition.shape.components := by
  obtain ⟨start, made, _⟩ := Engine.new_coherent (fun _ => none) 1 1 Session.lossOptions
  have fresh : (Session.mk start none).engine.Reached := .new made
  have reached := fresh.run [.compile tapsSource]
  have seen := Engine.observed_of_new made (fun engine =>
      let engine := (Session.run ⟨engine, none⟩ [.compile tapsSource]).engine
      (engine.lastGoodSource, (assign engine " taps [+1]= 0.5 ").1.isOk))
    (some tapsSource, true) (by decide +kernel)
  simp only [Prod.mk.injEq] at seen
  obtain ⟨accepted, taken⟩ := seen
  have taken : (assign (Session.run ⟨start, none⟩ [.compile tapsSource]).engine
      " taps [+1]= 0.5 ").1 = .ok () := by
    revert taken
    cases (assign _ _).1 <;> simp [Except.isOk, Except.toBool]
  exact ⟨start, made, accepted, taken, (assign_spelled reached accepted _).1.mp taken⟩

end CommandLine

end LiveFragment
