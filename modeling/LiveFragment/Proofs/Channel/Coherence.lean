import LiveFragment.Proofs.Channel.Owned
import LiveFragment.Proofs.Picture.Whole

namespace LiveFragment

open LiveFragment.Number LiveFragment.Backend LiveFragment.Media

/-- The queued frames of the cameras are sound. -/
def Media.Devices.Sound (devices : Devices) : Prop :=
  ∀ entry ∈ devices.frames, ∀ frame ∈ entry.2, frame.Sound

namespace Media.Devices

variable {devices : Devices}

theorem Sound.of_frames {next : Devices} (sound : devices.Sound)
    (same : next.frames = devices.frames) : next.Sound := by
  unfold Sound
  rw [same]
  exact sound

theorem acquire_frames (devices : Devices) (wanted : Wanted) :
    (devices.acquire wanted).2.frames = devices.frames := by
  simp only [acquire]
  split <;> rfl

theorem cancel_frames (devices : Devices) (id : Nat) :
    (devices.cancel id).frames = devices.frames := by
  simp only [cancel]
  split <;> rfl

theorem complete_frames (devices : Devices) (id : Nat) (error : Option AcquireError) :
    (devices.complete id error).2.frames = devices.frames := by
  unfold complete
  split <;> rfl

theorem abandon_frames (devices : Devices) (id : Nat) :
    (devices.abandon id).2.frames = devices.frames := by
  unfold abandon
  split <;> rfl

theorem Sound.lookup (sound : devices.Sound) {id : Nat} {frames : List Frame}
    (found : devices.frames.lookup id = some frames) : ∀ frame ∈ frames, frame.Sound := by
  obtain ⟨front, back, split, _⟩ := List.lookup_eq_some_iff.mp found
  exact sound (id, frames) (by simp [split])

theorem Sound.refile (sound : devices.Sound) (id : Nat) {frames : List Frame}
    (queued : ∀ frame ∈ frames, frame.Sound) :
    Sound { devices with frames := Media.refile id frames devices.frames } := by
  intro entry member
  rcases List.mem_cons.mp member with rfl | old
  · exact queued
  · exact sound entry (List.mem_filter.mp old).1

theorem Sound.pushFrame (sound : devices.Sound) (id : Nat) {frame : Frame} (new : frame.Sound) :
    (devices.pushFrame id frame).Sound := by
  apply sound.refile id
  intro queued member
  rcases List.mem_append.mp member with old | last
  · cases found : devices.frames.lookup id with
    | none => simp [found] at old
    | some frames => exact sound.lookup found queued (by simpa [found] using old)
  · exact List.mem_singleton.mp last ▸ new

theorem Sound.takeFrame (sound : devices.Sound) (id : Nat) :
    (∀ frame, (devices.takeFrame id).1 = some frame → frame.Sound) ∧
      (devices.takeFrame id).2.Sound := by
  unfold Devices.takeFrame
  split
  · rename_i first rest found
    have queued := sound.lookup found
    refine ⟨?_, sound.refile id fun frame member => queued frame (by simp [member])⟩
    intro frame given
    exact Option.some.inj given ▸ queued first (by simp)
  · exact ⟨by simp, sound⟩

end Media.Devices

namespace Channel

/-- The frames that a source may still show. -/
def Source.frames : Source → List Frame
  | .video playback => playback.frames.map (·.1)
  | .stream _ (some frame) => [frame]
  | _ => []

/-- The frames that arrived before their stream did. -/
def Pending.frames : Pending → List Frame
  | .stream _ (some frame) => [frame]
  | _ => []

/-- A resource that arrives brings the frames that arrived before it. -/
theorem Pending.source_frames (pending : Pending) (id : Nat) :
    (pending.source id).frames = pending.frames := by
  cases pending with
  | stream _ latest => cases latest <;> rfl
  | _ => rfl

/-- What the parts of a slot tell about each other. -/
structure Slot.Coherent (fresh : Bool) (slot : Slot) : Prop where
  retained : slot.texture = none ↔ slot.uploaded = none
  checked : ∀ desc pixels, slot.uploaded = some (desc, pixels) → desc.checkPixels pixels = .ok ()
  bare : slot.source.kind = .empty → slot.texture = none
  waiting : slot.pending ≠ none → slot.source.kind = .empty
  dark : slot.texture = none → slot.resolution = .empty
  sized : ∀ desc pixels, slot.uploaded = some (desc, pixels) →
    slot.resolution = if fresh then .empty else .ofSize desc.width desc.height
  initial : fresh = true → slot.source.kind = .stream ∧ slot.uploaded = some placeholderContent
  sound : ∀ frame ∈ slot.source.frames, frame.Sound
  arriving : ∀ pending, slot.pending = some pending → ∀ frame ∈ pending.frames, frame.Sound

namespace Slot

theorem coherent_empty : Slot.empty.Coherent false where
  retained := by simp [empty]
  checked := by simp [empty]
  bare := by simp [empty]
  waiting := by simp [empty]
  dark := by simp [empty]
  sized := by simp [empty]
  initial := by simp
  sound := by simp [empty, Source.frames]
  arriving := by simp [empty]

namespace Coherent

variable {fresh : Bool} {slot : Slot}

theorem settled (coherent : slot.Coherent fresh) (busy : slot.source.kind ≠ .empty) :
    slot.pending = none := by
  by_contra waiting
  exact busy (coherent.waiting waiting)

theorem not_fresh (coherent : slot.Coherent fresh) (other : slot.source.kind ≠ .stream) :
    fresh = false := by
  by_contra isFresh
  exact other (coherent.initial (by simpa using isFresh)).1

theorem shows (coherent : slot.Coherent fresh) (texture : TextureHandle) {desc : TextureDesc}
    {pixels : Bytes} (fits : desc.checkPixels pixels = .ok ()) (idle : slot.pending = none)
    {source : Source} (busy : source.kind ≠ .empty) (sound : ∀ frame ∈ source.frames, frame.Sound) :
    Slot.Coherent false { slot.shows texture desc pixels with source } where
  retained := by simp [Slot.shows]
  checked _ _ uploaded := by
    obtain ⟨rfl, rfl⟩ := Prod.mk.inj (Option.some.inj uploaded)
    exact fits
  bare empty := absurd empty busy
  waiting waiting := absurd idle waiting
  dark missing := by simp [Slot.shows] at missing
  sized _ _ uploaded := by
    obtain ⟨rfl, rfl⟩ := Prod.mk.inj (Option.some.inj uploaded)
    rfl
  initial := by simp
  sound := sound
  arriving := coherent.arriving

theorem shows_first (coherent : slot.Coherent fresh) (texture : TextureHandle)
    (fits : (TextureDesc.rgba 1 1).checkPixels opaqueBlack = .ok ()) (idle : slot.pending = none)
    {source : Source} (stream : source.kind = .stream)
    (sound : ∀ frame ∈ source.frames, frame.Sound) :
    Slot.Coherent true
      { slot.shows texture (.rgba 1 1) opaqueBlack with source, resolution := .empty } where
  retained := by simp [Slot.shows]
  checked _ _ uploaded := by
    obtain ⟨rfl, rfl⟩ := Prod.mk.inj (Option.some.inj uploaded)
    exact fits
  bare empty := by rw [stream] at empty; cases empty
  waiting waiting := absurd idle waiting
  dark missing := by simp [Slot.shows] at missing
  sized _ _ _ := rfl
  initial _ := ⟨stream, rfl⟩
  sound := sound
  arriving := coherent.arriving

theorem withSource (coherent : slot.Coherent fresh) {source : Source}
    (same : source.kind = slot.source.kind) (sound : ∀ frame ∈ source.frames, frame.Sound) :
    Slot.Coherent fresh { slot with source } where
  retained := coherent.retained
  checked := coherent.checked
  bare empty := coherent.bare (same ▸ empty)
  waiting waiting := same.trans (coherent.waiting waiting)
  dark := coherent.dark
  sized := coherent.sized
  initial isFresh := ⟨same.trans (coherent.initial isFresh).1, (coherent.initial isFresh).2⟩
  sound := sound
  arriving := coherent.arriving

/-- A source that needs no texture yet comes to a slot that has none. -/
theorem starts (coherent : slot.Coherent fresh) (vacant : slot.source.kind = .empty)
    (idle : slot.pending = none) {source : Source}
    (sound : ∀ frame ∈ source.frames, frame.Sound) :
    Slot.Coherent false { slot with source } where
  retained := coherent.retained
  checked := coherent.checked
  bare _ := coherent.bare vacant
  waiting waiting := absurd idle waiting
  dark := coherent.dark
  sized desc pixels uploaded := by
    have bare := coherent.retained.mp (coherent.bare vacant)
    rw [bare] at uploaded
    cases uploaded
  initial := by simp
  sound := sound
  arriving := coherent.arriving

theorem withPending (coherent : slot.Coherent fresh) (vacant : slot.source.kind = .empty)
    {pending : Option Pending}
    (arriving : ∀ request, pending = some request → ∀ frame ∈ request.frames, frame.Sound) :
    Slot.Coherent fresh { slot with pending } where
  retained := coherent.retained
  checked := coherent.checked
  bare := coherent.bare
  waiting _ := vacant
  dark := coherent.dark
  sized := coherent.sized
  initial := coherent.initial
  sound := coherent.sound
  arriving := arriving

theorem withRequest (coherent : slot.Coherent fresh) (request : Option Request) :
    Slot.Coherent fresh { slot with request } :=
  { coherent with }

theorem pushed (coherent : slot.Coherent fresh) {id : Nat} {frame : Frame} {next : Slot}
    (change : Pushed id frame slot next) (framed : frame.Sound) : next.Coherent fresh := by
  cases change with
  | shown held =>
    exact coherent.withSource (by rw [held]; rfl) (by simpa [Source.frames] using framed)
  | waiting held =>
    apply coherent.withPending (coherent.waiting (by simp [held]))
    rintro _ ⟨⟩
    simpa [Pending.frames] using framed
  | other => exact coherent

theorem withTexture (coherent : slot.Coherent fresh) {texture : Option TextureHandle}
    (same : texture = none ↔ slot.texture = none) : Slot.Coherent fresh { slot with texture } where
  retained := same.trans coherent.retained
  checked := coherent.checked
  bare empty := same.mpr (coherent.bare empty)
  waiting := coherent.waiting
  dark missing := coherent.dark (same.mp missing)
  sized := coherent.sized
  initial := coherent.initial
  sound := coherent.sound
  arriving := coherent.arriving

end Coherent

end Slot

namespace Rack

variable {σ : Type} [Backend σ] [Books σ]

/-- A rack, its slots and its backend tell the same about the textures. -/
structure Coherent (fresh : Fin 4 → Bool) (rack : Rack σ) : Prop where
  valid : Books.Valid rack.backend
  ownership : Ownership (Books.record? rack.backend) rack.placeholder
    (fun index => (rack.slot index).texture) (fun index => (rack.slot index).uploaded)
  slots : ∀ index : Fin 4, (rack.slot index).Coherent (fresh index)
  queued : rack.devices.Sound
  intact : rack.broken = false

/-- Whether a refresh shows a new frame: the source has one, and the backend takes it. -/
def showsFrame (rack : Rack σ) (index : Fin 4) (now : Nat) : Bool :=
  match (takeFrame rack.devices now (rack.slot index).source).1 with
  | none => false
  | some frame =>
    frame.isWellFormed && ((rack.slot index).uploadFrame rack.backend frame).1.isOk

/-- Which streams are fresh once a channel has been given something else. -/
def renewed (fresh : Fin 4 → Bool) (rack : Rack σ) (index : Fin 4) : Fin 4 → Bool :=
  Function.update fresh index ((rack.slot index).source.kind = .stream)

/-- What an upload does to the textures; a refused one does nothing. -/
def Uploads (fresh : Fin 4 → Bool) (rack : Rack σ) (index : Fin 4) (desc : TextureDesc)
    (pixels : Bytes) : Except BackendError Unit × Slot × σ → Prop
  | (.error _, slot, backend) =>
    slot = rack.slot index ∧ Rack.Coherent fresh { rack with backend }
  | (.ok (), slot, backend) =>
    desc.checkPixels pixels = .ok () ∧ Books.Valid backend ∧
      ∃ handle, slot = (rack.slot index).shows handle desc pixels ∧
        Ownership (Books.record? backend) rack.placeholder
          (Function.update (fun other => (rack.slot other).texture) index (some handle))
          (Function.update (fun other => (rack.slot other).uploaded) index (some (desc, pixels)))

namespace Coherent

variable {fresh : Fin 4 → Bool} {rack : Rack σ}

theorem withDevices (coherent : rack.Coherent fresh) {devices : Devices}
    (queued : devices.Sound) : Rack.Coherent fresh { rack with devices } :=
  { coherent with queued }

theorem withGenerators (coherent : rack.Coherent fresh) (generators : Nat) :
    Rack.Coherent fresh { rack with generators } :=
  { coherent with }

theorem withBackend (coherent : rack.Coherent fresh) {backend : σ} (valid : Books.Valid backend)
    (same : Books.record? backend = Books.record? rack.backend) :
    Rack.Coherent fresh { rack with backend } where
  valid := valid
  ownership := same ▸ coherent.ownership
  slots := coherent.slots
  queued := coherent.queued
  intact := coherent.intact

theorem report (coherent : rack.Coherent fresh) (index : Fin 4) (kind : Kind)
    (outcome : Except AcquireError Unit) : (rack.report index kind outcome).Coherent fresh :=
  { coherent with }

/-- A slot is replaced together with the backend that knows its texture. -/
theorem place (coherent : rack.Coherent fresh) {index : Fin 4} {slot : Slot} {backend : σ}
    {here : Bool} (valid : Books.Valid backend)
    (ownership : Ownership (Books.record? backend) rack.placeholder
      (Function.update (fun other => (rack.slot other).texture) index slot.texture)
      (Function.update (fun other => (rack.slot other).uploaded) index slot.uploaded))
    (sound : slot.Coherent here) :
    Rack.Coherent (Function.update fresh index here)
      { rack.setSlot index slot with backend } where
  valid := valid
  ownership := (Owned.place valid ownership).ownership
  slots := by
    intro other
    have slots := slot_setSlot rack index other slot
    by_cases same : other = index
    · subst same
      simp only [slots, Function.update_self, if_true]
      exact sound
    · simp only [slots, Function.update_of_ne same, if_neg same]
      exact coherent.slots other
  queued := coherent.queued
  intact := coherent.intact

theorem setSlot (coherent : rack.Coherent fresh) {index : Fin 4} {slot : Slot} {here : Bool}
    (sound : slot.Coherent here) (texture : slot.texture = (rack.slot index).texture)
    (uploaded : slot.uploaded = (rack.slot index).uploaded) :
    (rack.setSlot index slot).Coherent (Function.update fresh index here) := by
  apply coherent.place coherent.valid _ sound
  rw [texture, uploaded, Function.update_eq_self, Function.update_eq_self]
  exact coherent.ownership

theorem setSlot_same (coherent : rack.Coherent fresh) {index : Fin 4} {slot : Slot}
    (sound : slot.Coherent (fresh index)) (texture : slot.texture = (rack.slot index).texture)
    (uploaded : slot.uploaded = (rack.slot index).uploaded) :
    (rack.setSlot index slot).Coherent fresh := by
  have replaced := coherent.setSlot sound texture uploaded
  rwa [Function.update_eq_self] at replaced

theorem not_fresh (coherent : rack.Coherent fresh) {index : Fin 4}
    (other : (rack.slot index).source.kind ≠ .stream) : fresh index = false :=
  (coherent.slots index).not_fresh other

theorem renewed {here : Bool} {index : Fin 4}
    (coherent : rack.Coherent (Function.update fresh index here))
    (agrees : here = false → (rack.slot index).source.kind ≠ .stream) :
    rack.Coherent (rack.renewed fresh index) := by
  unfold Rack.renewed
  cases here with
  | false =>
    rw [decide_eq_false (agrees rfl)]
    exact coherent
  | true =>
    have stream := ((coherent.slots index).initial (Function.update_self ..)).1
    rw [decide_eq_true stream]
    exact coherent

theorem owned (coherent : rack.Coherent fresh) : rack.Owned :=
  ⟨coherent.valid, coherent.ownership⟩

theorem upload (coherent : rack.Coherent fresh) (index : Fin 4) (desc : TextureDesc)
    (pixels : Bytes) :
    Uploads fresh rack index desc pixels ((rack.slot index).upload rack.backend desc pixels) := by
  have granted := coherent.owned.upload index desc pixels
  cases uploaded : (rack.slot index).upload rack.backend desc pixels with
  | mk result rest =>
    obtain ⟨slot, backend⟩ := rest
    rw [uploaded] at granted
    cases result with
    | error error =>
      obtain ⟨same, valid, records⟩ := granted
      exact ⟨same, coherent.withBackend valid records⟩
    | ok accepted => exact granted

end Coherent

/-- What showing a source leaves; a refusal leaves the slot as it was. -/
def Shows (fresh : Fin 4 → Bool) (rack : Rack σ) (index : Fin 4) (source : Source)
    (desc : TextureDesc) (pixels : Bytes) : Except BackendError Unit × Rack σ → Prop
  | (.error _, after) => after.Coherent fresh ∧ after.slot index = rack.slot index
  | (.ok (), after) =>
    after.Coherent (Function.update fresh index false) ∧ desc.checkPixels pixels = .ok () ∧
      ∃ handle, after.slot index = { (rack.slot index).shows handle desc pixels with source }

namespace Coherent

variable {fresh : Fin 4 → Bool} {rack : Rack σ}

theorem showing (coherent : rack.Coherent fresh) {index : Fin 4}
    (idle : (rack.slot index).pending = none) {source : Source} (busy : source.kind ≠ .empty)
    (sound : ∀ frame ∈ source.frames, frame.Sound) (desc : TextureDesc) (pixels : Bytes) :
    Shows fresh rack index source desc pixels (rack.showing index source desc pixels) := by
  have uploads := coherent.upload index desc pixels
  simp only [Rack.showing, onSlot]
  cases uploaded : (rack.slot index).upload rack.backend desc pixels with
  | mk result rest =>
    obtain ⟨slot, backend⟩ := rest
    rw [uploaded] at uploads
    cases result with
    | error error =>
      obtain ⟨rfl, after⟩ := uploads
      rw [setSlot_self]
      exact ⟨after, rfl⟩
    | ok accepted =>
      obtain ⟨fits, valid, handle, rfl, owned⟩ := uploads
      refine ⟨?_, fits, handle, ?_⟩
      · rw [setSource, slot_withBackend, slot_setSlot_self, setSlot_again]
        exact coherent.place valid owned
          ((coherent.slots index).shows handle fits idle busy sound)
      · rw [setSource, slot_setSlot_self, slot_withBackend, slot_setSlot_self]

theorem renewed_same (coherent : rack.Coherent fresh) {index : Fin 4}
    (other : (rack.slot index).source.kind ≠ .stream) :
    rack.Coherent (rack.renewed fresh index) := by
  have same : Function.update fresh index false = fresh :=
    Function.update_eq_self_iff.mpr (coherent.not_fresh other).symm
  exact Coherent.renewed (same.symm ▸ coherent) fun _ => other

theorem showing_renewed (coherent : rack.Coherent fresh) {index : Fin 4}
    (vacant : (rack.slot index).source.kind = .empty) (idle : (rack.slot index).pending = none)
    {source : Source} (busy : source.kind ≠ .empty) (other : source.kind ≠ .stream)
    (sound : ∀ frame ∈ source.frames, frame.Sound) (desc : TextureDesc) (pixels : Bytes) :
    (rack.showing index source desc pixels).2.Coherent
      ((rack.showing index source desc pixels).2.renewed fresh index) := by
  have shows := coherent.showing idle busy sound desc pixels
  cases shown : rack.showing index source desc pixels with
  | mk result after =>
    rw [shown] at shows
    cases result with
    | error error =>
      obtain ⟨kept, same⟩ := shows
      exact kept.renewed_same (by rw [same, vacant]; decide)
    | ok accepted =>
      obtain ⟨kept, _, handle, slot⟩ := shows
      exact kept.renewed fun _ => by rw [slot]; exact other

theorem setSource_renewed (coherent : rack.Coherent fresh) {index : Fin 4}
    (vacant : (rack.slot index).source.kind = .empty) (idle : (rack.slot index).pending = none)
    {source : Source} (other : source.kind ≠ .stream)
    (sound : ∀ frame ∈ source.frames, frame.Sound) :
    (rack.setSource index source).Coherent
      ((rack.setSource index source).renewed fresh index) := by
  have started := (coherent.slots index).starts vacant idle sound
  have placed : (rack.setSource index source).Coherent (Function.update fresh index false) :=
    coherent.setSlot started rfl rfl
  exact placed.renewed fun _ => by rw [setSource, slot_setSlot_self]; exact other

theorem install (coherent : rack.Coherent fresh) {index : Fin 4}
    (vacant : (rack.slot index).source.kind = .empty) (idle : (rack.slot index).pending = none)
    (pending : Pending) (id : Nat) (sound : ∀ frame ∈ pending.frames, frame.Sound) :
    (rack.install index (pending.source id)).2.Coherent
      ((rack.install index (pending.source id)).2.renewed fresh index) := by
  have framed : ∀ frame ∈ (pending.source id).frames, frame.Sound := by
    rw [pending.source_frames]
    exact sound
  have busy : (pending.source id).kind ≠ .empty := by
    cases pending <;> simp [Pending.source, Source.kind]
  cases pending with
  | camera _ =>
    exact coherent.setSource_renewed vacant idle (by simp [Pending.source, Source.kind]) framed
  | microphone _ size =>
    exact coherent.showing_renewed vacant idle busy (by simp [Pending.source, Source.kind]) framed
      _ _
  | stream _ latest =>
    simp only [Pending.source, Rack.install] at busy framed ⊢
    have shows := coherent.showing idle busy framed (.rgba 1 1) opaqueBlack
    cases shown : rack.showing index (.stream id latest) (.rgba 1 1) opaqueBlack with
    | mk result after =>
      rw [shown] at shows
      cases result with
      | error error =>
        obtain ⟨kept, same⟩ := shows
        exact kept.renewed_same (by rw [same, vacant]; decide)
      | ok accepted =>
        obtain ⟨kept, fits, handle, slot⟩ := shows
        have first := (coherent.slots index).shows_first handle fits idle rfl framed
        have restarted :
            Slot.Coherent true { after.slot index with resolution := .empty } := by
          rw [slot]
          exact first
        have placed := kept.setSlot restarted rfl rfl
        rw [Function.update_idem] at placed
        exact placed.renewed (by simp)

end Coherent

namespace Coherent

variable {fresh : Fin 4 → Bool} {rack : Rack σ}

theorem teardown (coherent : rack.Coherent fresh) (index : Fin 4) :
    (rack.teardown index).Coherent (Function.update fresh index false) := by
  have slot := coherent.slots index
  have stopped : ((rack.slot index).source.stop rack.devices).Sound := by
    apply coherent.queued.of_frames
    cases (rack.slot index).source <;> rfl
  have queued : (rack.teardown index).devices.Sound := by
    simp only [Rack.teardown]
    split
    · exact stopped.of_frames (Devices.cancel_frames ..)
    · exact stopped
  simp only [Rack.teardown] at queued ⊢
  cases held : (rack.slot index).texture with
  | none =>
    have placed := coherent.setSlot Slot.coherent_empty held.symm (slot.retained.mp held).symm
    exact placed.withDevices queued
  | some texture =>
    obtain ⟨valid, released⟩ := Books.release texture coherent.valid
    have owned := coherent.ownership.release held none
    rw [← released] at owned
    exact (coherent.place valid owned Slot.coherent_empty).withDevices queued

theorem teardown_renewed {here : Bool} {index : Fin 4}
    (coherent : rack.Coherent (Function.update fresh index here)) :
    (rack.teardown index).Coherent ((rack.teardown index).renewed fresh index) := by
  have down := coherent.teardown index
  rw [Function.update_idem] at down
  apply down.renewed
  intro _
  rw [teardown_slot]
  decide

/-- What showing a picture leaves, whether the backend takes it or not. -/
def ShowsImage (fresh : Fin 4 → Bool) (index : Fin 4) : Except BackendError Unit × Rack σ → Prop
  | (.error _, after) => after.Coherent (after.renewed fresh index)
  | (.ok (), after) =>
    (after.setSource index .image).Coherent ((after.setSource index .image).renewed fresh index)

theorem showImage (coherent : rack.Coherent fresh) {index : Fin 4}
    (vacant : (rack.slot index).source.kind = .empty) (idle : (rack.slot index).pending = none)
    {frame : Frame} (whole : frame.isWhole = true) :
    ShowsImage fresh index (rack.showFrame index frame) := by
  have busy : Source.image.kind ≠ .empty := by decide
  have other : Source.image.kind ≠ .stream := by decide
  have none : ∀ frame ∈ Source.image.frames, frame.Sound := by simp [Source.frames]
  have shown := coherent.showing_renewed vacant idle busy other none
    (.rgba frame.width frame.height)
    (flipRows frame.pixels frame.width.toNat frame.height.toNat)
  simp only [Rack.showing, onSlot] at shown
  simp only [showFrame, whole, if_true, onSlot, Slot.uploadFrame]
  cases uploaded : (rack.slot index).upload rack.backend (.rgba frame.width frame.height)
      (flipRows frame.pixels frame.width.toNat frame.height.toNat) with
  | mk result rest =>
    rw [uploaded] at shown
    cases result with
    | error error => exact shown
    | ok accepted => exact shown

theorem openLive (coherent : rack.Coherent fresh) {index : Fin 4}
    (vacant : (rack.slot index).source.kind = .empty) (idle : (rack.slot index).pending = none)
    (wanted : Wanted) (pending : Nat → Pending) (bare : ∀ id, (pending id).frames = []) :
    (rack.openLive index wanted pending).2.Coherent
      ((rack.openLive index wanted pending).2.renewed fresh index) := by
  have queued : (rack.devices.acquire wanted).2.Sound :=
    coherent.queued.of_frames (Devices.acquire_frames ..)
  have other : (rack.slot index).source.kind ≠ .stream := by rw [vacant]; decide
  unfold Rack.openLive
  split
  · rename_i devices acquired
    rw [acquired] at queued
    exact (coherent.withDevices queued).renewed_same other
  · rename_i id devices acquired
    rw [acquired] at queued
    exact (coherent.withDevices queued).install vacant idle _ _ (by simp [bare])
  · rename_i id devices acquired
    rw [acquired] at queued
    have waits : Slot.Coherent (fresh index) { rack.slot index with pending := pending id } :=
      (coherent.slots index).withPending vacant (by rintro _ ⟨⟩; simp [bare])
    have placed := (coherent.withDevices queued).setSlot_same waits rfl rfl
    exact placed.renewed_same (by rw [slot_setSlot_self]; exact other)

theorem acquire (coherent : rack.Coherent fresh) {index : Fin 4}
    (vacant : (rack.slot index).source.kind = .empty) (idle : (rack.slot index).pending = none)
    {request : Request} (fits : request.Fits) :
    (rack.acquire index request).2.Coherent
      ((rack.acquire index request).2.renewed fresh index) := by
  have same : rack.Coherent (rack.renewed fresh index) :=
    coherent.renewed_same (by rw [vacant]; decide)
  unfold Rack.acquire
  split
  · exact same
  · split
    · exact same
    · rename_i frame loaded
      have shows := coherent.showImage vacant idle (loadImage_whole loaded)
      split <;> rename_i shown <;> rw [shown] at shows <;> exact shows
  · split
    · exact same
    · rename_i playback loaded
      apply coherent.setSource_renewed vacant idle (by simp [Source.kind])
      intro frame member
      obtain ⟨entry, present, rfl⟩ := List.mem_map.mp member
      exact fun _ => loadVideo_whole loaded entry present
  · rename_i frame resolved
    split
    · exact same
    · rename_i formed
      have whole := Frame.sound_of_fits (fits.of_resolved resolved) (by simpa using formed)
      have shows := coherent.showImage vacant idle whole
      split <;> rename_i shown <;> rw [shown] at shows <;> exact shows
  · exact coherent.openLive vacant idle _ _ fun _ => rfl
  · split
    · exact coherent.openLive vacant idle _ _ fun _ => rfl
    · exact same
  · exact coherent.openLive vacant idle _ _ fun _ => rfl
  · rename_i pattern _
    have counted := coherent.withGenerators (rack.generators + 1)
    generalize Noise.picture (rack.random index) pattern rack.options.noiseSize = frame
    exact counted.showing_renewed vacant idle (by simp [Source.kind]) (by simp [Source.kind])
      (by simp [Source.frames]) (.rgba frame.width frame.height) frame.pixels
  · exact same

theorem bind (coherent : rack.Coherent fresh) {number : Nat} {index : Fin 4}
    (named : checkIndex number = .ok index) {request : Request} (fits : request.Fits) :
    (rack.bind number request).2.Coherent
      ((rack.bind number request).2.renewed fresh index) := by
  have empty : (rack.teardown index).slot index = Slot.empty := teardown_slot rack index
  have vacant : ((rack.teardown index).slot index).source.kind = .empty := by rw [empty]; rfl
  have idle : ((rack.teardown index).slot index).pending = none := by rw [empty]; rfl
  have acquired := (coherent.teardown index).acquire vacant idle fits
  simp only [Rack.renewed, Function.update_idem] at acquired
  simp only [Rack.bind, named]
  split
  · rename_i after accepted
    rw [accepted] at acquired
    have granted := acquired.setSlot_same
      ((acquired.slots index).withRequest (some request)) rfl rfl
    have same : (after.setSlot index { after.slot index with request := some request }).renewed
        fresh index = after.renewed fresh index := by
      simp only [Rack.renewed, slot_setSlot_self]
    rw [← Rack.renewed, ← same] at granted
    dsimp only
    split
    · exact granted.report ..
    · exact granted
  · rename_i error after refused
    rw [refused] at acquired
    exact acquired.teardown_renewed.report ..

theorem unbind (coherent : rack.Coherent fresh) {number : Nat} {index : Fin 4}
    (named : checkIndex number = .ok index) :
    (rack.unbind number).2.Coherent ((rack.unbind number).2.renewed fresh index) := by
  simp only [Rack.unbind, named]
  apply Coherent.teardown_renewed
  rw [Function.update_eq_self]
  exact coherent

theorem pollPending (coherent : rack.Coherent fresh) {index : Fin 4}
    (waiting : (rack.slot index).pending ≠ none) :
    (rack.pollPending index).Coherent ((rack.pollPending index).renewed fresh index) := by
  have vacant := (coherent.slots index).waiting waiting
  unfold Rack.pollPending
  split
  · contradiction
  · rename_i pending held
    have arriving := (coherent.slots index).arriving pending held
    have queued : (rack.devices.poll pending.id).2.Sound := coherent.queued
    split
    · rename_i devices polled
      rw [polled] at queued
      exact (coherent.withDevices queued).renewed_same (by rw [vacant]; decide)
    · rename_i outcome devices polled
      rw [polled] at queued
      have settled : Slot.Coherent (fresh index) { rack.slot index with pending := none } :=
        (coherent.slots index).withPending vacant (by simp)
      have ready : (Rack.setPending { rack with devices } index none).Coherent fresh :=
        (coherent.withDevices queued).setSlot_same settled rfl rfl
      have slot : (Rack.setPending { rack with devices } index none).slot index =
          { rack.slot index with pending := none } := slot_setSlot_self ..
      dsimp only
      split
      · apply Coherent.report
        apply Coherent.teardown_renewed
        rw [Function.update_eq_self]
        exact ready
      · rename_i resource
        have installed :=
          ready.install (by rw [slot]; exact vacant) (by rw [slot]) pending resource arriving
        split
        · rename_i after accepted
          rw [accepted] at installed
          exact installed.report ..
        · rename_i error after refused
          rw [refused] at installed
          exact installed.teardown_renewed.report ..

/-- An upload for the source that a channel has. Once it is taken, no stream there is fresh. -/
theorem reupload (coherent : rack.Coherent fresh) {index : Fin 4}
    (busy : (rack.slot index).source.kind ≠ .empty) (desc : TextureDesc) (pixels : Bytes) :
    (rack.onSlot index fun slot backend => slot.upload backend desc pixels).2.Coherent
      (if ((rack.slot index).upload rack.backend desc pixels).1.isOk then
        Function.update fresh index false else fresh) := by
  have slot := coherent.slots index
  have uploads := coherent.upload index desc pixels
  simp only [onSlot]
  cases uploaded : (rack.slot index).upload rack.backend desc pixels with
  | mk result rest =>
    obtain ⟨slot, backend⟩ := rest
    rw [uploaded] at uploads
    cases result with
    | error error =>
      obtain ⟨rfl, after⟩ := uploads
      rw [setSlot_self]
      exact after
    | ok accepted =>
      obtain ⟨fits, valid, handle, rfl, owned⟩ := uploads
      exact coherent.place valid owned (slot.shows handle fits (slot.settled busy) busy slot.sound)

/-- What a source gives out is sound, and so is what it keeps. An empty one gives out nothing. -/
theorem takeFrame_sound {devices : Devices} {source : Source} (now : Nat)
    (queued : devices.Sound) (sound : ∀ frame ∈ source.frames, frame.Sound) :
    (takeFrame devices now source).2.1.kind = source.kind ∧
      (∀ frame ∈ (takeFrame devices now source).2.1.frames, frame.Sound) ∧
      (takeFrame devices now source).2.2.Sound ∧
      ∀ frame, (takeFrame devices now source).1 = some frame →
        source.kind ≠ .empty ∧ frame.Sound := by
  cases source with
  | video playback =>
    simp only [takeFrame, Playback.poll]
    split
    · exact ⟨rfl, sound, queued, by simp⟩
    · refine ⟨rfl, sound, queued, ?_⟩
      intro frame shown
      obtain ⟨entry, present, rfl⟩ := Option.map_eq_some_iff.mp shown
      refine ⟨by simp [Source.kind], sound entry.1 ?_⟩
      exact List.mem_map_of_mem (List.mem_of_getElem? present)
  | camera id =>
    obtain ⟨given, kept⟩ := queued.takeFrame id
    refine ⟨rfl, by simp [takeFrame, Source.frames], kept, ?_⟩
    exact fun frame taken => ⟨by simp [Source.kind], given frame taken⟩
  | stream id latest =>
    refine ⟨rfl, by simp [takeFrame, Source.frames], queued, ?_⟩
    rintro frame rfl
    exact ⟨by simp [Source.kind], sound frame (by simp [Source.frames])⟩
  | _ => exact ⟨rfl, sound, queued, by simp [takeFrame]⟩

theorem refreshMicrophone (coherent : rack.Coherent fresh) {index : Fin 4} {id : Nat}
    {analyser : Analyser Single} (held : (rack.slot index).source = .microphone id analyser)
    (now : Nat) : (rack.refreshSlot index now).Coherent fresh := by
  have same : Function.update fresh index false = fresh :=
    Function.update_eq_self_iff.mpr
      (coherent.not_fresh (by rw [held]; simp [Source.kind])).symm
  simp only [Rack.refreshSlot]
  rw [held]
  dsimp only
  generalize analyser.process _ (rack.devices.drain id).1 = heard
  have listens : Slot.Coherent (fresh index)
      { rack.slot index with source := .microphone id heard } :=
    (coherent.slots index).withSource (by rw [held]; rfl) (by simp [Source.frames])
  have queued : (rack.devices.drain id).2.Sound := coherent.queued
  have ready := (coherent.withDevices queued).setSlot_same listens rfl rfl
  have busy : ((Rack.setSource { rack with devices := (rack.devices.drain id).2 } index
      (.microphone id heard)).slot index).source.kind ≠ .empty := by
    rw [setSource, slot_setSlot_self]
    simp [Source.kind]
  have shown := ready.reupload busy heard.desc heard.buffer
  rw [same, ite_self] at shown
  exact shown

omit [Books σ] in
theorem refreshSlot_eq {index : Fin 4} (other : (rack.slot index).source.kind ≠ .microphone)
    (now : Nat) :
    rack.refreshSlot index now =
      match takeFrame rack.devices now (rack.slot index).source with
      | (none, source, devices) => Rack.setSource { rack with devices } index source
      | (some frame, source, devices) =>
        let next := Rack.setSource { rack with devices } index source
        if frame.isWellFormed then (next.showFrame index frame).2 else next := by
  unfold Rack.refreshSlot
  split
  · rename_i id analyser held
    rw [held] at other
    exact absurd rfl other
  · cases takeFrame rack.devices now (rack.slot index).source with
    | mk frame rest => cases frame <;> rfl

omit [Books σ] in
theorem upload_withSource (slot : Slot) (source : Source) (backend : σ) (desc : TextureDesc)
    (pixels : Bytes) :
    { slot with source }.upload backend desc pixels =
      ((slot.upload backend desc pixels).1,
        { (slot.upload backend desc pixels).2.1 with source },
        (slot.upload backend desc pixels).2.2) := by
  have allocated :
      { slot with source }.allocate backend desc pixels =
        ((slot.allocate backend desc pixels).1,
          { (slot.allocate backend desc pixels).2.1 with source },
          (slot.allocate backend desc pixels).2.2) := by
    unfold Slot.allocate
    split <;> rfl
  obtain ⟨before, pending, request, texture, uploaded, resolution⟩ := slot
  cases texture with
  | none => exact allocated
  | some texture =>
    simp only [Slot.upload]
    split
    · split <;> rfl
    · exact allocated

theorem refreshSlot (coherent : rack.Coherent fresh) (index : Fin 4) (now : Nat) :
    (rack.refreshSlot index now).Coherent
      (if rack.showsFrame index now then Function.update fresh index false else fresh) := by
  by_cases other : (rack.slot index).source.kind = .microphone
  · cases held : (rack.slot index).source with
    | microphone id analyser =>
      have silent : rack.showsFrame index now = false := by
        simp only [showsFrame]
        rw [held]
        rfl
      rw [silent]
      exact coherent.refreshMicrophone held now
    | _ =>
      rw [held] at other
      cases other
  · obtain ⟨kind, sound, queued, given⟩ :=
      takeFrame_sound now coherent.queued (coherent.slots index).sound
    rw [refreshSlot_eq other]
    cases taken : takeFrame rack.devices now (rack.slot index).source with
    | mk frame rest =>
      obtain ⟨source, devices⟩ := rest
      rw [taken] at kind sound queued given
      have goesOn := (coherent.slots index).withSource kind sound
      have ready : (Rack.setSource { rack with devices } index source).Coherent fresh :=
        (coherent.withDevices queued).setSlot_same goesOn rfl rfl
      have slot : (Rack.setSource { rack with devices } index source).slot index =
          { rack.slot index with source } := slot_setSlot_self ..
      cases frame with
      | none =>
        have silent : rack.showsFrame index now = false := by simp only [showsFrame, taken]
        rw [silent]
        exact ready
      | some frame =>
        have shows : rack.showsFrame index now = (frame.isWellFormed &&
            ((rack.slot index).uploadFrame rack.backend frame).1.isOk) := by
          simp only [showsFrame, taken]
        rw [shows]
        cases formed : frame.isWellFormed with
        | false => simpa [formed] using ready
        | true =>
          obtain ⟨busy, framed⟩ := given frame rfl
          have shown := ready.reupload (by rw [slot]; exact kind ▸ busy)
            (.rgba frame.width frame.height)
            (flipRows frame.pixels frame.width.toNat frame.height.toNat)
          rw [slot, upload_withSource] at shown
          simp only [formed, if_true, Bool.true_and, showFrame, framed formed]
          exact shown

theorem mapSlots (coherent : rack.Coherent fresh) {change : Slot → Slot}
    (texture : ∀ slot, (change slot).texture = slot.texture)
    (uploaded : ∀ slot, (change slot).uploaded = slot.uploaded)
    (sound : ∀ fresh slot, Slot.Coherent fresh slot → (change slot).Coherent fresh) :
    Rack.Coherent fresh { rack with slots := rack.slots.map change } where
  valid := coherent.valid
  ownership := by
    simpa only [slot_mapSlots, texture, uploaded] using coherent.ownership
  slots index := by
    simpa only [slot_mapSlots] using sound _ _ (coherent.slots index)
  queued := coherent.queued
  intact := coherent.intact

/-- A pushed frame is kept by the channels that wait for the stream or show it. -/
theorem pushStream (coherent : rack.Coherent fresh) (id : Nat) {frame : Frame}
    (framed : frame.Sound) : (rack.pushStream id frame).2.Coherent fresh := by
  obtain ⟨change, pushed, after⟩ := pushStream_eq rack id frame
  rw [after]
  exact coherent.mapSlots (fun slot => (pushed slot).texture) (fun slot => (pushed slot).uploaded)
    fun fresh slot sound => sound.pushed (pushed slot) framed

theorem host (coherent : rack.Coherent fresh) {step : HostStep} (fits : step.Fits) :
    (rack.host step).Coherent fresh := by
  cases step with
  | plan openings => exact coherent.withDevices coherent.queued
  | complete id error =>
    exact coherent.withDevices (coherent.queued.of_frames (Devices.complete_frames ..))
  | abandon id =>
    exact coherent.withDevices (coherent.queued.of_frames (Devices.abandon_frames ..))
  | pushFrame id frame =>
    exact coherent.withDevices (coherent.queued.pushFrame id (Frame.sound_of_fits fits))
  | pushSamples id samples => exact coherent.withDevices coherent.queued
  | pushStream id frame => exact coherent.pushStream id (Frame.sound_of_fits fits)

end Coherent

theorem rebuildSlots_willing {rack : Rack σ} (willing : Books.Willing rack.backend)
    (checked : ∀ (index : Fin 4) desc pixels, (rack.slot index).uploaded = some (desc, pixels) →
      desc.checkPixels pixels = .ok ()) (remaining : List (Fin 4)) :
    ∃ after, rack.rebuildSlots remaining = (.ok (), after) ∧ Books.Willing after.backend := by
  induction remaining generalizing rack with
  | nil => exact ⟨rack, rfl, willing⟩
  | cons index rest ih =>
    have still (texture : Option TextureHandle) (other : Fin 4) (desc : TextureDesc)
        (pixels : Bytes)
        (uploaded : ((rack.setSlot index { rack.slot index with texture }).slot other).uploaded =
          some (desc, pixels)) : desc.checkPixels pixels = .ok () := by
      rw [slot_setSlot] at uploaded
      split at uploaded
      · exact checked index desc pixels uploaded
      · exact checked other desc pixels uploaded
    simp only [rebuildSlots]
    split
    · exact ih willing (still none)
    · rename_i desc pixels uploaded
      obtain ⟨handle, backend, created, further⟩ :=
        Books.create_willing willing (checked index desc pixels uploaded)
      simp only [created]
      exact ih further (still (some handle))

theorem fits_opaqueBlack : (TextureDesc.rgba 1 1).checkPixels opaqueBlack = .ok () := rfl

theorem rebuild_willing {rack : Rack σ} (willing : Books.Willing rack.backend)
    (checked : ∀ (index : Fin 4) desc pixels, (rack.slot index).uploaded = some (desc, pixels) →
      desc.checkPixels pixels = .ok ()) :
    ∃ after, rack.rebuild = (.ok (), after) ∧ Books.Willing after.backend := by
  obtain ⟨placeholder, backend, created, still⟩ := Books.create_willing willing fits_opaqueBlack
  simp only [rebuild, created]
  exact @rebuildSlots_willing σ _ _ { rack with backend, placeholder } still checked _

/-- On a backend that has just been restored, all textures are made again. -/
theorem Coherent.rebuild {fresh : Fin 4 → Bool} {rack : Rack σ}
    (coherent : rack.Coherent fresh) {restored : σ} (valid : Books.Valid restored)
    (willing : Books.Willing restored) (cleared : Books.record? restored = fun _ => none) :
    ∃ after, Rack.rebuild { rack with backend := restored } = (.ok (), after) ∧
      after.Coherent fresh ∧ Books.Willing after.backend := by
  obtain ⟨after, done, still⟩ :=
    @rebuild_willing σ _ _ { rack with backend := restored } willing
      fun index => (coherent.slots index).checked
  obtain ⟨owned, remade⟩ := rebuild_ok valid cleared done
  refine ⟨after, done, ?_, still⟩
  constructor
  case valid => exact owned.valid
  case ownership => exact owned.ownership
  case slots =>
    intro index
    rw [remade.slots index]
    apply (coherent.slots index).withTexture
    exact (remade.again index (List.mem_finRange index)).trans (coherent.slots index).retained.symm
  case queued => exact remade.devices ▸ coherent.queued
  case intact => exact remade.broken.trans coherent.intact

theorem new_coherent {backend : σ} {devices : Devices} (options : RackOptions)
    (valid : Books.Valid backend) (willing : Books.Willing backend)
    (cleared : Books.record? backend = fun _ => none) (queued : devices.Sound) :
    ∃ rack, new backend devices options = (.ok rack, rack.backend) ∧
      rack.Coherent (fun _ => false) ∧ Books.Willing rack.backend := by
  obtain ⟨placeholder, next, created, still⟩ := Books.create_willing willing fits_opaqueBlack
  obtain ⟨validNext, _, _, records⟩ := Books.create_ok valid created
  refine ⟨⟨next, devices, .replicate 4 .empty, placeholder, options, [], false, 0⟩, ?_, ?_, still⟩
  · simp only [new, created]
  · constructor
    case valid => exact validNext
    case ownership =>
      rw [records, cleared]
      simp only [Fin.getElem_fin, Vector.getElem_replicate]
      exact Ownership.initial _ placeholder ⟨.rgba 1 1, opaqueBlack, 0⟩ rfl
    case slots =>
      intro index
      simp only [Fin.getElem_fin, Vector.getElem_replicate]
      exact Slot.coherent_empty
    case queued => exact queued
    case intact => rfl

end Rack

end Channel

end LiveFragment
