import LiveFragment.Channel.Rack
import LiveFragment.Proofs.Backend.Books

/-! Who owns the live textures of a backend: the placeholder belongs to all channels, every other
texture to exactly one, and it shows what that channel last uploaded. The statements here are about
the records, the owners and the uploads as functions, so that each way of changing them is one
lemma. -/

namespace LiveFragment.Channel

open LiveFragment.Backend

/-- What the placeholder shows. -/
def placeholderContent : TextureDesc × Bytes := (.rgba 1 1, opaqueBlack)

structure Ownership (records : TextureHandle → Option TextureRecord) (placeholder : TextureHandle)
    (texture : Fin 4 → Option TextureHandle) (uploaded : Fin 4 → Option (TextureDesc × Bytes)) :
    Prop where
  placeholder_black : (records placeholder).map TextureRecord.content = some placeholderContent
  owned : ∀ index handle, texture index = some handle → handle ≠ placeholder ∧
    ∃ record, records handle = some record ∧ uploaded index = some record.content
  distinct : ∀ first second handle, texture first = some handle → texture second = some handle →
    first = second
  live : ∀ handle record, records handle = some record →
    handle = placeholder ∨ ∃ index, texture index = some handle

namespace Ownership

variable {records : TextureHandle → Option TextureRecord} {placeholder : TextureHandle}
  {texture : Fin 4 → Option TextureHandle} {uploaded : Fin 4 → Option (TextureDesc × Bytes)}

/-- A placeholder alone, before any channel owns a texture. -/
theorem initial (uploaded : Fin 4 → Option (TextureDesc × Bytes)) (handle : TextureHandle)
    (record : TextureRecord) (black : record.content = placeholderContent) :
    Ownership (Function.update (fun _ => none) handle (some record)) handle (fun _ => none)
      uploaded where
  placeholder_black := by simp [black]
  owned := by simp
  distinct := by simp
  live := by
    intro other found alive
    by_cases same : other = handle
    · exact .inl same
    · simp [Function.update_of_ne same] at alive

theorem placeholder_alive (ownership : Ownership records placeholder texture uploaded) :
    ∃ record, records placeholder = some record ∧ record.content = placeholderContent :=
  Option.map_eq_some_iff.mp ownership.placeholder_black

theorem not_owned_of_fresh (ownership : Ownership records placeholder texture uploaded)
    {handle : TextureHandle} (fresh : records handle = none) (index : Fin 4) :
    texture index ≠ some handle := by
  intro owner
  obtain ⟨_, record, alive, _⟩ := ownership.owned index handle owner
  rw [fresh] at alive
  cases alive

theorem allocate (ownership : Ownership records placeholder texture uploaded) {index : Fin 4}
    {handle : TextureHandle} (record : TextureRecord) (vacant : texture index = none)
    (fresh : records handle = none) :
    Ownership (Function.update records handle (some record)) placeholder
      (Function.update texture index (some handle))
      (Function.update uploaded index (some record.content)) := by
  have unowned := ownership.not_owned_of_fresh fresh
  have apart : placeholder ≠ handle := by
    rintro rfl
    obtain ⟨_, alive, _⟩ := ownership.placeholder_alive
    rw [fresh] at alive
    cases alive
  constructor
  case placeholder_black => rw [Function.update_of_ne apart]; exact ownership.placeholder_black
  case owned =>
    intro other owner held
    by_cases same : other = index
    · subst same
      rw [Function.update_self] at held
      obtain rfl := Option.some.inj held
      exact ⟨apart.symm, record, by simp, by simp⟩
    · rw [Function.update_of_ne same] at held
      have different : owner ≠ handle := fun equal => unowned other (equal ▸ held)
      rw [Function.update_of_ne different, Function.update_of_ne same]
      exact ownership.owned other owner held
  case distinct =>
    intro first second owner left right
    by_cases firstSame : first = index <;> by_cases secondSame : second = index
    · rw [firstSame, secondSame]
    · subst firstSame
      rw [Function.update_self] at left
      rw [Function.update_of_ne secondSame, ← left] at right
      exact absurd right (unowned second)
    · subst secondSame
      rw [Function.update_self] at right
      rw [Function.update_of_ne firstSame, ← right] at left
      exact absurd left (unowned first)
    · rw [Function.update_of_ne firstSame] at left
      rw [Function.update_of_ne secondSame] at right
      exact ownership.distinct first second owner left right
  case live =>
    intro other found alive
    by_cases same : other = handle
    · exact .inr ⟨index, by rw [Function.update_self, same]⟩
    · rw [Function.update_of_ne same] at alive
      rcases ownership.live other found alive with shared | ⟨owner, held⟩
      · exact .inl shared
      · refine .inr ⟨owner, ?_⟩
        have kept : owner ≠ index := by
          rintro rfl
          rw [vacant] at held
          cases held
        rw [Function.update_of_ne kept]
        exact held

theorem release (ownership : Ownership records placeholder texture uploaded) {index : Fin 4}
    {handle : TextureHandle} (held : texture index = some handle)
    (upload : Option (TextureDesc × Bytes)) :
    Ownership (Function.update records handle none) placeholder
      (Function.update texture index none) (Function.update uploaded index upload) := by
  have apart : placeholder ≠ handle := (ownership.owned index handle held).1.symm
  constructor
  case placeholder_black => rw [Function.update_of_ne apart]; exact ownership.placeholder_black
  case owned =>
    intro other owner owns
    by_cases same : other = index
    · rw [same, Function.update_self] at owns
      cases owns
    · rw [Function.update_of_ne same] at owns
      have different : owner ≠ handle := by
        rintro rfl
        exact same (ownership.distinct other index owner owns held)
      rw [Function.update_of_ne different, Function.update_of_ne same]
      exact ownership.owned other owner owns
  case distinct =>
    intro first second owner left right
    by_cases firstSame : first = index
    · rw [firstSame, Function.update_self] at left
      cases left
    · by_cases secondSame : second = index
      · rw [secondSame, Function.update_self] at right
        cases right
      · rw [Function.update_of_ne firstSame] at left
        rw [Function.update_of_ne secondSame] at right
        exact ownership.distinct first second owner left right
  case live =>
    intro other found alive
    by_cases same : other = handle
    · rw [same, Function.update_self] at alive
      cases alive
    · rw [Function.update_of_ne same] at alive
      rcases ownership.live other found alive with shared | ⟨owner, owns⟩
      · exact .inl shared
      · refine .inr ⟨owner, ?_⟩
        have kept : owner ≠ index := by
          rintro rfl
          exact same (Option.some.inj (owns.symm.trans held))
        rw [Function.update_of_ne kept]
        exact owns

/-- What was uploaded to a channel without a texture does not matter. -/
theorem forget (ownership : Ownership records placeholder texture uploaded) {index : Fin 4}
    (vacant : texture index = none) (upload : Option (TextureDesc × Bytes)) :
    Ownership records placeholder texture (Function.update uploaded index upload) where
  placeholder_black := ownership.placeholder_black
  owned := by
    intro other handle held
    have different : other ≠ index := by
      rintro rfl
      rw [vacant] at held
      cases held
    rw [Function.update_of_ne different]
    exact ownership.owned other handle held
  distinct := ownership.distinct
  live := ownership.live

theorem replace (ownership : Ownership records placeholder texture uploaded) {index : Fin 4}
    {handle : TextureHandle} (record : TextureRecord) (held : texture index = some handle) :
    Ownership (Function.update records handle (some record)) placeholder texture
      (Function.update uploaded index (some record.content)) := by
  have apart : placeholder ≠ handle := (ownership.owned index handle held).1.symm
  constructor
  case placeholder_black => rw [Function.update_of_ne apart]; exact ownership.placeholder_black
  case owned =>
    intro other owner owns
    by_cases same : other = index
    · subst same
      obtain rfl := Option.some.inj (held.symm.trans owns)
      exact ⟨apart.symm, record, by simp, by simp⟩
    · have different : owner ≠ handle := by
        rintro rfl
        exact same (ownership.distinct other index owner owns held)
      rw [Function.update_of_ne different, Function.update_of_ne same]
      exact ownership.owned other owner owns
  case distinct => exact ownership.distinct
  case live =>
    intro other found alive
    by_cases same : other = handle
    · exact .inr ⟨index, by rw [same]; exact held⟩
    · rw [Function.update_of_ne same] at alive
      exact ownership.live other found alive

/-- A channel gets a new texture and then gives the one before it back. -/
theorem exchange (ownership : Ownership records placeholder texture uploaded) {index : Fin 4}
    {old handle : TextureHandle} (record : TextureRecord) (held : texture index = some old)
    (fresh : records handle = none) :
    Ownership (Function.update (Function.update records handle (some record)) old none) placeholder
      (Function.update texture index (some handle))
      (Function.update uploaded index (some record.content)) := by
  have different : old ≠ handle := by
    rintro rfl
    exact ownership.not_owned_of_fresh fresh index held
  -- Giving back first and taking then leads to the same records.
  have vacant : Function.update texture index none index = none := Function.update_self ..
  have unused : Function.update records old none handle = none := by
    rw [Function.update_of_ne different.symm]
    exact fresh
  have released := (ownership.release held none).allocate record vacant unused
  rw [Function.update_idem, Function.update_idem, Function.update_comm different] at released
  exact released

theorem sampled_alive (ownership : Ownership records placeholder texture uploaded) (index : Fin 4) :
    (records ((texture index).getD placeholder)).isSome := by
  cases held : texture index with
  | none =>
    obtain ⟨record, alive, _⟩ := ownership.placeholder_alive
    simp [alive]
  | some handle =>
    obtain ⟨_, record, alive, _⟩ := ownership.owned index handle held
    simp [alive]

end Ownership

end LiveFragment.Channel
