import LiveFragment.Directive.Encoding
import LiveFragment.Proofs.Parameter.Encoded

namespace LiveFragment.Directive

open LiveFragment.Document LiveFragment.Json LiveFragment.Number LiveFragment.Parameter

theorem TextureSource.ofDocument?_microphone (size : Document) :
    ofDocument? (.table [("kind", .text "microphone"), ("fft_size", size)]) =
      (wordOf? 64 size).map .microphone := by
  simp [ofDocument?, fieldOnce?, string?]

theorem TextureSource.ofDocument?_restated {source : TextureSource}
    (sized : ∀ size, source = .microphone size → size < 2 ^ 64) :
    ofDocument? (restated source.toDocument) = some source := by
  cases source with
  | builtin pattern =>
    simp [toDocument, restated_table, restated_text, restatedFields, ofDocument?,
      fieldOnce?, string?, word?, Pattern.ofName?_name]
  | file name =>
    simp [toDocument, restated_table, restated_text, restatedFields, ofDocument?,
      fieldOnce?, string?]
  | microphone size =>
    rw [toDocument, restated_table, restatedFields_cons, restatedFields_cons, restatedFields,
      restated_text, ofDocument?_microphone, wordOf?_restated (sized size rfl), Option.map_some]

theorem TextureDirective.ofDocument?_table (channel source : Document) :
    ofDocument? (.table [("channel", channel), ("source", source)]) =
      (wordOf? 64 channel).bind fun channel =>
        (TextureSource.ofDocument? source).map fun source => ⟨channel, source⟩ := by
  simp [ofDocument?, fieldOnce?, Option.map_eq_bind]

theorem TextureDirective.ofDocument?_restated {directive : TextureDirective}
    (channel : directive.channel < 2 ^ 64)
    (sized : ∀ size, directive.source = .microphone size → size < 2 ^ 64) :
    ofDocument? (restated directive.toDocument) = some directive := by
  rw [toDocument, restated_table, restatedFields_cons, restatedFields_cons, restatedFields,
    ofDocument?_table, wordOf?_restated channel, TextureSource.ofDocument?_restated sized]
  rfl

/-- A number that is not of the one magnitude that rounding twice moves. -/
def Settled (x : Single) : Prop := x.bits.toNat % Format.single.signBit ≠ Single.unstable

instance : DecidablePred Settled := fun _ => inferInstanceAs (Decidable (_ ≠ _))

/-- What is written with the shortest digits and read by way of double precision. A value or a
definition with finite numbers comes back with every number of the one magnitude that rounding twice
moves replaced by the next one, so exactly as it was just when it has none. A directive of a texture
has no numbers but its sizes, and comes back. -/
theorem encodings_read_back :
    (∀ (value : Value) (shape : Shape) (length : Option Nat) (text : String),
      value.fits shape length = true → value.All (·.isFinite = true) →
        Encodes value.toDocument text →
          decode? (Value.ofDocument? .held) text = some (value.map Single.viaDouble) ∧
            (decode? (Value.ofDocument? .held) text = some value ↔ value.All Settled)) ∧
    (∀ (definition : Definition) (shape : Shape) (length : Option Nat) (text : String),
      definition.initial.fits shape length = true → definition.All (·.isFinite = true) →
        (∀ n, definition.length = some n → n < 2 ^ 64) →
          Encodes definition.toDocument text →
            decode? (Definition.ofDocument? .held) text =
                some (definition.map Single.viaDouble) ∧
              (decode? (Definition.ofDocument? .held) text = some definition ↔
                definition.All Settled)) ∧
    ∀ (directive : TextureDirective) (text : String),
      directive.channel < 2 ^ 64 →
        (∀ size, directive.source = .microphone size → size < 2 ^ 64) →
          Encodes directive.toDocument text →
            decode? TextureDirective.ofDocument? text = some directive := by
  refine ⟨?_, ?_, ?_⟩
  · intro value _ _ text _ finite encodes
    have read : decode? (Value.ofDocument? .held) text = some (value.map Single.viaDouble) :=
      (encodes.decode? _).trans (Value.ofDocument?_restated .held finite)
    refine ⟨read, ?_⟩
    rw [read, Option.some_inj, Value.map_eq_iff finite]
    exact ⟨fun all => all.mono fun _ => Single.viaDouble_eq_iff.mp,
      fun all => all.mono fun _ => Single.viaDouble_eq_iff.mpr⟩
  · intro definition _ _ text _ finite sized encodes
    have read : decode? (Definition.ofDocument? .held) text =
        some (definition.map Single.viaDouble) :=
      (encodes.decode? _).trans (Definition.ofDocument?_restated .held finite sized)
    refine ⟨read, ?_⟩
    rw [read, Option.some_inj, Definition.map_eq_iff finite]
    exact ⟨fun all => all.mono fun _ => Single.viaDouble_eq_iff.mp,
      fun all => all.mono fun _ => Single.viaDouble_eq_iff.mpr⟩
  · intro directive text channel sized encodes
    rw [encodes.decode?, TextureDirective.ofDocument?_restated channel sized]

/-- An array of one number, a slider, and the noise texture of the first channel. -/
theorem encodings_read_back_once :
    decode? (Value.ofDocument? .held)
          (Json.compact (Value.array [.element (.float .one)]).toDocument) =
        some (.array [.element (.float .one)]) ∧
      decode? (Definition.ofDocument? .held) (Json.pretty 0 (Definition.toDocument
          ⟨"speed", .float, none, .element (.float .one), some .zero, some .one, ""⟩)) =
        some ⟨"speed", .float, none, .element (.float .one), some .zero, some .one, ""⟩ ∧
      decode? TextureDirective.ofDocument?
          (Json.compact (TextureDirective.toDocument ⟨0, .builtin .noise⟩)) =
        some ⟨0, .builtin .noise⟩ := by
  obtain ⟨values, definitions, directives⟩ := encodings_read_back
  have zero : Single.zero.isFinite = true := by decide
  have one : Single.one.isFinite = true := by decide
  have finite : (Element.float .one).All (·.isFinite = true) := List.forall_mem_singleton.mpr one
  have settled : (Element.float .one).All Settled := List.forall_mem_singleton.mpr (by decide)
  refine ⟨?_, ?_, ?_⟩
  · obtain ⟨-, same⟩ := values (.array [.element (.float .one)]) .float (some 1) _ rfl
      (List.forall_mem_singleton.mpr ⟨_, rfl, finite⟩) .compact
    exact same.mpr (List.forall_mem_singleton.mpr ⟨_, rfl, settled⟩)
  · obtain ⟨-, same⟩ := definitions
      ⟨"speed", .float, none, .element (.float .one), some .zero, some .one, ""⟩ .float none _ rfl
      ⟨finite, fun x same => Option.some.inj same ▸ zero, fun x same => Option.some.inj same ▸ one⟩
      nofun (.pretty 0)
    exact same.mpr ⟨settled, fun x same => Option.some.inj same ▸ (by decide),
      fun x same => Option.some.inj same ▸ (by decide)⟩
  · exact directives _ _ (by decide) nofun .compact

/-- The number of the magnitude that rounding twice moves comes back as the next one. -/
theorem encoding_unsettled :
    let value : Value := .element (.float ⟨0x15ae43fd⟩)
    value.fits .float none = true ∧ value.All (·.isFinite = true) ∧
      Json.compact value.toDocument = "\x7b\"type\":\"float\",\"value\":7.038531e-26\x7d" ∧
      decode? (Value.ofDocument? .held) (Json.compact value.toDocument) =
        some (.element (.float ⟨0x15ae43fe⟩)) := by
  intro value
  have finite : value.All (·.isFinite = true) := List.forall_mem_singleton.mpr (by decide)
  refine ⟨rfl, finite, by decide +kernel, ?_⟩
  exact (Encodes.compact.decode? _).trans (Value.ofDocument?_restated .held finite)

/-- What is written is read back exactly where numbers are rounded once; and a value whose type
stands behind its content as if they were rounded twice. -/
theorem encodings_read_straight :
    (∀ (value : Value) (text : String), value.All (·.isFinite = true) →
      Encodes value.toDocument text → Value.ofJson? text = some value) ∧
    (∀ (definition : Definition) (text : String), definition.All (·.isFinite = true) →
      (∀ n, definition.length = some n → n < 2 ^ 64) → Encodes definition.toDocument text →
        decode? (Definition.ofDocument? .json) text = some definition) ∧
    ∀ (value : Value) (text : String), value.All (·.isFinite = true) →
      Encodes value.backward text → Value.ofJson? text = some (value.map Single.viaDouble) := by
  refine ⟨fun value text finite encodes => ?_, fun definition text finite sized encodes => ?_,
    fun value text finite encodes => ?_⟩
  · have read : Value.ofJson? text = some (value.map Origin.json.keep) :=
      (encodes.decode? _).trans (Value.ofDocument?_restated .json finite)
    rw [read, Option.some_inj, Value.map_eq_iff finite]
    exact finite.mono fun _ _ => rfl
  · have read : decode? (Definition.ofDocument? .json) text =
        some (definition.map Origin.json.keep) :=
      (encodes.decode? _).trans (Definition.ofDocument?_restated .json finite sized)
    rw [read, Option.some_inj, Definition.map_eq_iff finite]
    exact finite.mono fun _ _ => rfl
  · exact (encodes.decode? _).trans (Value.ofDocument?_backward finite)

end LiveFragment.Directive
