import LiveFragment.Proofs.Directive.Numbers
import LiveFragment.Proofs.Number.Finite

namespace LiveFragment

open LiveFragment.Number

namespace Parameter

def Element.Numeric (element : Element) : Prop := ∀ x ∈ element.floats, x.isNaN = false

/-- An element of numbers. -/
def Value.NumericElement (value : Value) : Prop := ∃ held, value = .element held ∧ held.Numeric

/-- A value of numbers. An array holds elements and no arrays. -/
def Value.Numeric : Value → Prop
  | .element held => held.Numeric
  | .array elements => ∀ value ∈ elements, value.NumericElement

def Definition.Numeric (definition : Definition) : Prop :=
  definition.initial.Numeric ∧ (∀ x, definition.min = some x → x.isNaN = false) ∧
    ∀ x, definition.max = some x → x.isNaN = false

theorem Element.sameNumbers_self {element : Element} (numeric : element.Numeric) :
    element.sameNumbers element = true := by
  have same : ∀ x ∈ element.floats, x.sameNumber x = true :=
    fun x member => Single.sameNumber_self (numeric x member)
  cases element <;> simp_all [floats, sameNumbers]

theorem Value.sameNumbers_self {value : Value} (numeric : value.Numeric) :
    value.sameNumbers value = true := by
  cases value with
  | element held =>
    rw [sameNumbers]
    exact Element.sameNumbers_self numeric
  | array elements =>
    rw [sameNumbers]
    rw [Numeric] at numeric
    induction elements with
    | nil => rfl
    | cons first rest ih =>
      obtain ⟨held, rfl, number⟩ := numeric first (by simp)
      rw [sameNumbersList, sameNumbers, Element.sameNumbers_self number,
        ih fun value member => numeric value (by simp [member])]
      rfl

theorem Definition.agrees_self {definition : Definition} (numeric : definition.Numeric) :
    definition.agrees definition = true := by
  obtain ⟨name, shape, length, initial, min, max, description⟩ := definition
  obtain ⟨held, low, high⟩ := numeric
  have same := Value.sameNumbers_self held
  simp only [agrees, beq_self_eq_true, Bool.true_and, Bool.and_true, Bool.and_eq_true]
  refine ⟨⟨same, ?_⟩, ?_⟩
  · cases min with
    | none => rfl
    | some x => exact Single.sameNumber_self (low x rfl)
  · cases max with
    | none => rfl
    | some x => exact Single.sameNumber_self (high x rfl)

theorem Definition.agreeAll_self {definitions : List Definition}
    (numeric : ∀ definition ∈ definitions, definition.Numeric) :
    agreeAll definitions definitions = true := by
  induction definitions with
  | nil => rfl
  | cons first rest ih =>
    rw [agreeAll, agrees_self (numeric first (by simp)),
      ih fun definition member => numeric definition (by simp [member])]
    rfl

theorem Element.numeric_of_all {element : Element}
    (all : element.All (Narrowed fun d => d.isNaN = false)) : element.Numeric := by
  intro x member
  obtain ⟨d, number, rfl⟩ := all x member
  exact Double.isNaN_toSingle number

theorem Definition.numeric_of_all {definition : Definition}
    (all : definition.All (Narrowed fun d => d.isNaN = false)) : definition.Numeric := by
  obtain ⟨initial, min, max⟩ := all
  have number (x : Single) (narrowed : Narrowed (fun d => d.isNaN = false) x) : x.isNaN = false := by
    obtain ⟨d, number, rfl⟩ := narrowed
    exact Double.isNaN_toSingle number
  refine ⟨?_, fun x bound => number x (min x bound), fun x bound => number x (max x bound)⟩
  cases held : definition.initial with
  | element element =>
    rw [held] at initial
    exact Element.numeric_of_all initial
  | array elements =>
    rw [held] at initial
    intro value member
    obtain ⟨element, rfl, all⟩ := initial value member
    exact ⟨element, rfl, Element.numeric_of_all all⟩

end Parameter

namespace Directive

open LiveFragment.Parameter

theorem readNumber_isNaN (word : List Char) : (readNumber word).isNaN = false := by
  unfold readNumber
  dsimp only
  cases found : finiteDouble? _ with
  | none => decide
  | some x => exact finiteDouble?_isNaN found

/-- A definition that is read from a line holds numbers only. -/
theorem definition?_numeric {line : List Char} {definition : Definition}
    (declared : definition? line = some definition) : definition.Numeric :=
  Definition.numeric_of_all
    (definition?_all declared (by decide) fun word _ => readNumber_isNaN word)

/-- All definitions of a text hold numbers only, whatever the text is. -/
theorem Directives.numeric_ofSource (source : String) :
    ∀ definition ∈ (ofSource source).params, definition.Numeric :=
  forall_params_ofSource (fun _ _ => definition?_numeric) source

end Directive

end LiveFragment
