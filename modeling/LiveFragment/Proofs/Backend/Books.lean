import Mathlib.Logic.Function.Basic
import LiveFragment.Backend.Headless
import LiveFragment.Backend.Scheduled

namespace LiveFragment

namespace Backend

/-- A backend whose texture calls are told by the records it keeps. Of a valid backend the handle of
a new texture is none that is alive. -/
class Books (σ : Type) [Backend σ] where
  record? : σ → TextureHandle → Option TextureRecord
  Valid : σ → Prop
  /-- A willing backend refuses no texture whose pixels fit. -/
  Willing : σ → Prop
  create_ok {backend next : σ} {desc : TextureDesc} {pixels : Bytes} {handle : TextureHandle} :
    Valid backend → Backend.createTexture backend desc pixels = (.ok handle, next) →
      Valid next ∧ desc.checkPixels pixels = .ok () ∧ record? backend handle = none ∧
        record? next = Function.update (record? backend) handle (some ⟨desc, pixels, 0⟩)
  create_error {backend next : σ} {desc : TextureDesc} {pixels : Bytes} {error : BackendError} :
    Valid backend → Backend.createTexture backend desc pixels = (.error error, next) →
      Valid next ∧ record? next = record? backend
  create_willing {backend : σ} {desc : TextureDesc} {pixels : Bytes} :
    Willing backend → desc.checkPixels pixels = .ok () →
      ∃ handle next, Backend.createTexture backend desc pixels = (.ok handle, next) ∧ Willing next
  update_ok {backend next : σ} {handle : TextureHandle} {desc : TextureDesc} {pixels : Bytes} :
    Valid backend → Backend.updateTexture backend handle desc pixels = (.ok (), next) →
      Valid next ∧ desc.checkPixels pixels = .ok () ∧
        ∃ record, record? backend handle = some record ∧ record.desc = desc ∧
          record? next = Function.update (record? backend) handle
            (some ⟨desc, pixels, record.updates + 1⟩)
  update_error {backend next : σ} {handle : TextureHandle} {desc : TextureDesc} {pixels : Bytes}
      {error : BackendError} :
    Valid backend → Backend.updateTexture backend handle desc pixels = (.error error, next) →
      Valid next ∧ record? next = record? backend
  release {backend : σ} (handle : TextureHandle) :
    Valid backend → Valid (Backend.releaseTexture backend handle) ∧
      record? (Backend.releaseTexture backend handle) =
        Function.update (record? backend) handle none
  /-- Calls that do not name a texture leave all records alone. -/
  compileProgram {backend : σ} (text : String) :
    Valid backend → Valid (Backend.compileProgram backend text).2 ∧
      record? (Backend.compileProgram backend text).2 = record? backend
  releaseProgram {backend : σ} (handle : ProgramHandle) :
    Valid backend → Valid (Backend.releaseProgram backend handle) ∧
      record? (Backend.releaseProgram backend handle) = record? backend
  draw {backend : σ} (call : DrawCall) :
    Valid backend → Valid (Backend.draw backend call).2 ∧
      record? (Backend.draw backend call).2 = record? backend
  resize {backend : σ} (width height : UInt32) :
    Valid backend → Valid (Backend.resize backend width height).2 ∧
      record? (Backend.resize backend width height).2 = record? backend
  readPixels {backend : σ} (order : ScanlineOrder) :
    Valid backend → Valid (Backend.readPixels backend order).2 ∧
      record? (Backend.readPixels backend order).2 = record? backend
  restore_ok {backend next : σ} :
    Valid backend → Backend.restore backend = (.ok (), next) →
      Valid next ∧ record? next = fun _ => none
  restore_error {backend next : σ} {error : BackendError} :
    Valid backend → Backend.restore backend = (.error error, next) →
      Valid next ∧ record? next = record? backend

/-- A property of a backend that every texture call keeps, granted or refused. -/
structure TextureClosed {σ : Type} [Backend σ] (P : σ → Prop) : Prop where
  create : ∀ backend desc pixels, P backend → P (Backend.createTexture backend desc pixels).2
  update : ∀ backend handle desc pixels, P backend →
    P (Backend.updateTexture backend handle desc pixels).2
  release : ∀ backend handle, P backend → P (Backend.releaseTexture backend handle)

/-- What a texture shows. -/
def TextureRecord.content (record : TextureRecord) : TextureDesc × Bytes :=
  (record.desc, record.pixels)

section Lookup

variable {κ ρ : Type} [DecidableEq κ]

theorem lookup_cons (entry : κ × ρ) (rest : List (κ × ρ)) (wanted : κ) :
    (entry :: rest).lookup wanted =
      if wanted = entry.1 then some entry.2 else rest.lookup wanted := by
  obtain ⟨handle, record⟩ := entry
  by_cases same : wanted = handle
  · simp [same]
  · simp [List.lookup_cons, same, beq_eq_false_iff_ne.mpr same]

theorem lookup_filter (entries : List (κ × ρ)) (handle wanted : κ) :
    (entries.filter (·.1 ≠ handle)).lookup wanted =
      if wanted = handle then none else entries.lookup wanted := by
  induction entries with
  | nil => simp
  | cons entry rest ih =>
    by_cases dropped : entry.1 = handle
    · rw [List.filter_cons_of_neg (by simpa using dropped), ih, lookup_cons, dropped]
      split <;> rfl
    · rw [List.filter_cons_of_pos (by simpa using dropped), lookup_cons, lookup_cons, ih]
      by_cases same : wanted = entry.1
      · simp [same, dropped]
      · simp [same]

theorem lookup_replace (entries : List (κ × ρ)) (handle wanted : κ) (record : ρ) :
    (entries.map fun entry => if entry.1 = handle then (handle, record) else entry).lookup wanted =
      if wanted = handle then (entries.lookup handle).map fun _ => record
      else entries.lookup wanted := by
  induction entries with
  | nil => simp
  | cons entry rest ih =>
    simp only [List.map_cons, lookup_cons, ih]
    by_cases own : entry.1 = handle
    · by_cases same : wanted = handle
      · simp [own, same]
      · simp [own, same]
    · by_cases same : wanted = handle
      · simp [own, same, Ne.symm own]
      · simp [own, same]

end Lookup

namespace Headless

/-- The handles of the live textures. -/
def live (backend : Headless) : List TextureHandle := backend.textures.map (·.1)

/-- Ids are given out in order, so the ones in use are not above the last one. -/
structure Valid (backend : Headless) : Prop where
  distinct : backend.live.Nodup
  textures : ∀ handle ∈ backend.live, handle.id ≤ backend.lastId
  programs : ∀ handle ∈ backend.programs, handle.id ≤ backend.lastId

theorem valid_new (judge : String → Option String) (width height : UInt32) :
    (new judge width height).Valid :=
  ⟨by simp [new, live], by simp [new, live], by simp [new]⟩

theorem mem_live_iff {backend : Headless} {handle : TextureHandle} :
    handle ∈ backend.live ↔ (backend.texture? handle).isSome := by
  rw [live, texture?, List.lookup_isSome_iff, List.mem_map]
  constructor <;> rintro ⟨entry, member, same⟩
  · exact ⟨entry, member, by simp [same]⟩
  · exact ⟨entry, member, (beq_iff_eq.mp same).symm⟩

theorem Valid.next_not_mem {backend : Headless} (valid : backend.Valid) :
    (⟨backend.lastId + 1⟩ : TextureHandle) ∉ backend.live := by
  intro member
  exact Nat.not_succ_le_self _ (valid.textures _ member)

theorem create_ok {backend next : Headless} {desc : TextureDesc} {pixels : Bytes}
    {handle : TextureHandle} (valid : backend.Valid)
    (created : backend.createTexture desc pixels = (.ok handle, next)) :
    next.Valid ∧ desc.checkPixels pixels = .ok () ∧ backend.texture? handle = none ∧
      next.texture? = Function.update backend.texture? handle (some ⟨desc, pixels, 0⟩) := by
  unfold createTexture at created
  split at created
  · simp at created
  · split at created
    · simp at created
    · rename_i fits
      simp only [Prod.mk.injEq, Except.ok.injEq] at created
      obtain ⟨rfl, rfl⟩ := created
      have fresh := valid.next_not_mem
      refine ⟨⟨List.nodup_cons.mpr ⟨fresh, valid.distinct⟩, ?_, ?_⟩, fits,
        Option.not_isSome_iff_eq_none.mp (mem_live_iff.not.mp fresh), ?_⟩
      · intro handle member
        rcases List.mem_cons.mp member with rfl | old
        · exact Nat.le_refl _
        · exact Nat.le_succ_of_le (valid.textures handle old)
      · intro handle member
        exact Nat.le_succ_of_le (valid.programs handle member)
      · funext wanted
        rw [Function.update_apply, texture?, lookup_cons]
        rfl

theorem create_error {backend next : Headless} {desc : TextureDesc} {pixels : Bytes}
    {error : BackendError} (refused : backend.createTexture desc pixels = (.error error, next)) :
    next = backend := by
  unfold createTexture at refused
  split at refused
  · exact (Prod.mk.inj refused).2.symm
  · split at refused
    · exact (Prod.mk.inj refused).2.symm
    · simp at refused

/-- A backend that is not lost takes all pixels that fit their description. -/
theorem create_willing {backend : Headless} {desc : TextureDesc} {pixels : Bytes}
    (alive : backend.lost = false) (fits : desc.checkPixels pixels = .ok ()) :
    ∃ handle next, backend.createTexture desc pixels = (.ok handle, next) ∧ next.lost = false := by
  simp only [createTexture, alive, fits, Bool.false_eq_true, ↓reduceIte]
  exact ⟨_, _, rfl, rfl⟩

theorem live_setTexture (backend : Headless) (handle : TextureHandle) (record : TextureRecord) :
    (backend.setTexture handle record).live = backend.live := by
  simp only [live, setTexture, List.map_map]
  apply List.map_congr_left
  intro entry _
  simp only [Function.comp_apply]
  split
  · rename_i own
    exact own.symm
  · rfl

theorem update_ok {backend next : Headless} {handle : TextureHandle} {desc : TextureDesc}
    {pixels : Bytes} (valid : backend.Valid)
    (updated : backend.updateTexture handle desc pixels = (.ok (), next)) :
    next.Valid ∧ desc.checkPixels pixels = .ok () ∧
      ∃ record, backend.texture? handle = some record ∧ record.desc = desc ∧
        next.texture? = Function.update backend.texture? handle
          (some ⟨desc, pixels, record.updates + 1⟩) := by
  unfold updateTexture at updated
  split at updated
  · simp at updated
  · split at updated
    · simp at updated
    · rename_i fits
      split at updated
      · simp at updated
      · rename_i record found
        split at updated
        · simp at updated
        · rename_i same
          have next_eq := (Prod.mk.inj updated).2
          subst next_eq
          have kept := live_setTexture backend handle ⟨desc, pixels, record.updates + 1⟩
          refine ⟨⟨kept ▸ valid.distinct, kept ▸ valid.textures, valid.programs⟩, fits, record,
            found, by simpa using same, ?_⟩
          · funext wanted
            rw [Function.update_apply, texture?, setTexture, lookup_replace]
            rw [texture?] at found
            rw [found]
            rfl

theorem update_error {backend next : Headless} {handle : TextureHandle} {desc : TextureDesc}
    {pixels : Bytes} {error : BackendError}
    (refused : backend.updateTexture handle desc pixels = (.error error, next)) :
    next = backend := by
  unfold updateTexture at refused
  split at refused
  · exact (Prod.mk.inj refused).2.symm
  · split at refused
    · exact (Prod.mk.inj refused).2.symm
    · split at refused
      · exact (Prod.mk.inj refused).2.symm
      · split at refused
        · exact (Prod.mk.inj refused).2.symm
        · simp at refused

theorem release_texture {backend : Headless} (valid : backend.Valid) (handle : TextureHandle) :
    (backend.releaseTexture handle).Valid ∧
      (backend.releaseTexture handle).texture? =
        Function.update backend.texture? handle none := by
  have kept : (backend.releaseTexture handle).live.Sublist backend.live :=
    List.filter_sublist.map _
  refine ⟨⟨kept.nodup valid.distinct, ?_, valid.programs⟩, ?_⟩
  · intro other member
    exact valid.textures other (kept.subset member)
  · funext wanted
    rw [Function.update_apply]
    exact lookup_filter backend.textures handle wanted

theorem compileProgram_valid {backend : Headless} (valid : backend.Valid) (text : String) :
    (backend.compileProgram text).2.Valid ∧
      (backend.compileProgram text).2.texture? = backend.texture? := by
  unfold compileProgram
  split
  · exact ⟨valid, rfl⟩
  · split
    · exact ⟨valid, rfl⟩
    · refine ⟨⟨valid.distinct, ?_, ?_⟩, rfl⟩
      · intro handle member
        exact Nat.le_succ_of_le (valid.textures handle member)
      · intro handle member
        rcases List.mem_cons.mp member with rfl | old
        · simp
        · exact Nat.le_succ_of_le (valid.programs handle old)

theorem releaseProgram_valid {backend : Headless} (valid : backend.Valid)
    (handle : ProgramHandle) :
    (backend.releaseProgram handle).Valid ∧
      (backend.releaseProgram handle).texture? = backend.texture? :=
  ⟨⟨valid.distinct, valid.textures,
    fun other member => valid.programs other (List.mem_filter.mp member).1⟩, rfl⟩

theorem draw_valid {backend : Headless} (valid : backend.Valid) (call : DrawCall) :
    (backend.draw call).2.Valid ∧ (backend.draw call).2.texture? = backend.texture? := by
  unfold draw
  split
  · exact ⟨valid, rfl⟩
  · split
    · exact ⟨valid, rfl⟩
    · split
      · exact ⟨valid, rfl⟩
      · exact ⟨⟨valid.distinct, valid.textures, valid.programs⟩, rfl⟩

theorem readPixels_valid {backend : Headless} (valid : backend.Valid) (order : ScanlineOrder) :
    (backend.readPixels order).2.Valid ∧
      (backend.readPixels order).2.texture? = backend.texture? := by
  unfold readPixels
  split <;> exact ⟨valid, rfl⟩

theorem restore_ok {backend next : Headless} (restored : backend.restore = (.ok (), next)) :
    next.Valid ∧ next.texture? = fun _ => none := by
  have next_eq := (Prod.mk.inj restored).2
  subst next_eq
  exact ⟨⟨by simp [live], by simp [live], by simp⟩, rfl⟩

end Headless

instance : Books Headless where
  record? := Headless.texture?
  Valid := Headless.Valid
  Willing backend := backend.lost = false
  create_ok := Headless.create_ok
  create_error valid refused := by
    have same := Headless.create_error refused
    subst same
    exact ⟨valid, rfl⟩
  create_willing := Headless.create_willing
  update_ok := Headless.update_ok
  update_error valid refused := by
    have same := Headless.update_error refused
    subst same
    exact ⟨valid, rfl⟩
  release handle valid := Headless.release_texture valid handle
  compileProgram text valid := Headless.compileProgram_valid valid text
  releaseProgram handle valid := Headless.releaseProgram_valid valid handle
  draw call valid := Headless.draw_valid valid call
  resize _ _ valid := ⟨⟨valid.distinct, valid.textures, valid.programs⟩, rfl⟩
  readPixels order valid := Headless.readPixels_valid valid order
  restore_ok _ restored := Headless.restore_ok restored
  restore_error _ refused := by simp [Backend.restore, Headless.restore] at refused

namespace Scheduled

variable {σ : Type} {α : Type}

/-- A call that an outage may stop either does not reach the backend within or is its call. -/
theorem attempt_cases {backend next : Scheduled σ} {call : Call}
    {run : σ → Except BackendError α × σ} {result : Except BackendError α}
    (attempted : backend.attempt call run = (result, next)) :
    ((∃ error, result = .error error) ∧ next.inner = backend.inner) ∨
      run backend.inner = (result, next.inner) := by
  unfold attempt at attempted
  split at attempted
  · obtain ⟨rfl, rfl⟩ := Prod.mk.inj attempted
    exact .inl ⟨⟨_, rfl⟩, rfl⟩
  · obtain ⟨rfl, rfl⟩ := Prod.mk.inj attempted
    exact .inr rfl

theorem attempt_ok {backend next : Scheduled σ} {call : Call}
    {run : σ → Except BackendError α × σ} {value : α}
    (attempted : backend.attempt call run = (.ok value, next)) :
    run backend.inner = (.ok value, next.inner) := by
  rcases attempt_cases attempted with ⟨⟨error, impossible⟩, _⟩ | reached
  · cases impossible
  · exact reached

theorem attempt_eq_of_steady {backend : Scheduled σ} (steady : backend.outages = [])
    (call : Call) (run : σ → Except BackendError α × σ) :
    backend.attempt call run =
      ((run backend.inner).1, { backend with inner := (run backend.inner).2 }) := by
  simp [attempt, steady, pass]

theorem createTexture_eq [Backend σ] (backend : Scheduled σ) (desc : TextureDesc)
    (pixels : Bytes) :
    (backend.attempt .create fun inner => Backend.createTexture inner desc pixels) =
      Backend.createTexture backend desc pixels := rfl

/-- What holds of the backend within before and after its call holds after an attempt of it. -/
theorem attempt_inner {backend : Scheduled σ} {P : σ → Prop} {call : Call}
    {run : σ → Except BackendError α × σ} (before : P backend.inner)
    (after : P (run backend.inner).2) : P (backend.attempt call run).2.inner := by
  cases attempted : backend.attempt call run with
  | mk result next =>
    rcases attempt_cases attempted with ⟨_, same⟩ | reached
    · exact same ▸ before
    · rw [reached] at after
      exact after

theorem attempt_keeps [Backend σ] [Books σ] {backend : Scheduled σ} {call : Call}
    {run : σ → Except BackendError α × σ} (valid : Books.Valid backend.inner)
    (kept : Books.Valid (run backend.inner).2 ∧
      Books.record? (run backend.inner).2 = Books.record? backend.inner) :
    Books.Valid (backend.attempt call run).2.inner ∧
      Books.record? (backend.attempt call run).2.inner = Books.record? backend.inner :=
  attempt_inner
    (P := fun inner => Books.Valid inner ∧ Books.record? inner = Books.record? backend.inner)
    ⟨valid, rfl⟩ kept

end Scheduled

instance {σ : Type} [Backend σ] [Books σ] : Books (Scheduled σ) where
  record? backend := Books.record? backend.inner
  Valid backend := Books.Valid backend.inner
  Willing backend := backend.outages = [] ∧ Books.Willing backend.inner
  create_ok valid created := Books.create_ok valid (Scheduled.attempt_ok created)
  create_error valid refused := by
    rcases Scheduled.attempt_cases refused with ⟨_, same⟩ | reached
    · rw [same]
      exact ⟨valid, rfl⟩
    · exact Books.create_error valid reached
  create_willing {backend} _ _ willing fits := by
    obtain ⟨handle, next, created, still⟩ := Books.create_willing willing.2 fits
    refine ⟨handle, { backend with inner := next }, ?_, willing.1, still⟩
    rw [← Scheduled.createTexture_eq, Scheduled.attempt_eq_of_steady willing.1, created]
  update_ok valid updated := Books.update_ok valid (Scheduled.attempt_ok updated)
  update_error valid refused := by
    rcases Scheduled.attempt_cases refused with ⟨_, same⟩ | reached
    · rw [same]
      exact ⟨valid, rfl⟩
    · exact Books.update_error valid reached
  release handle valid := Books.release handle valid
  compileProgram text valid := by
    simp only [Backend.compileProgram, Scheduled.compileProgram]
    split
    · exact ⟨valid, rfl⟩
    · exact Books.compileProgram text valid
  releaseProgram handle valid := Books.releaseProgram handle valid
  draw call valid := Scheduled.attempt_keeps valid (Books.draw call valid)
  resize width height valid := Scheduled.attempt_keeps valid (Books.resize width height valid)
  readPixels order valid := Scheduled.attempt_keeps valid (Books.readPixels order valid)
  restore_ok valid restored := Books.restore_ok valid (Scheduled.attempt_ok restored)
  restore_error valid refused := by
    rcases Scheduled.attempt_cases refused with ⟨_, same⟩ | reached
    · rw [same]
      exact ⟨valid, rfl⟩
    · exact Books.restore_error valid reached

end Backend

end LiveFragment
