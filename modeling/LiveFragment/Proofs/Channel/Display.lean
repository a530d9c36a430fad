import LiveFragment.Proofs.Backend.Alive
import LiveFragment.Proofs.Backend.ReadBack
import LiveFragment.Proofs.Channel.Chronicle
import LiveFragment.Proofs.Channel.Textures

namespace LiveFragment

open LiveFragment.Backend LiveFragment.Media LiveFragment.Uniform

namespace Media.Frame

/-- The rows of a whole picture, reversed, are as many bytes as before. -/
theorem checkPixels_content {frame : Frame} (formed : frame.isWellFormed = true)
    (whole : frame.isWhole = true) : frame.desc.checkPixels frame.content.2 = .ok () := by
  rcases frame.isWellFormed_iff_exact.mp formed with ⟨⟨width, height, size⟩, fits⟩ | wraps
  · have rows := size_of_whole formed whole
    have flipped : frame.content.2.size = frame.pixels.size := (size_flipRows rows).trans rows.symm
    exact TextureDesc.checkPixels_eq_ok_iff.mpr
      (.inl ⟨⟨width, height, flipped.trans size⟩, flipped ▸ fits⟩)
  · exact absurd wraps ((isWhole_iff formed).mp whole)

end Media.Frame

namespace Channel

structure Display where
  texture : TextureHandle
  record : TextureRecord
  resolution : Resolution
deriving DecidableEq, Repr, Inhabited

namespace Display

/-- What a stream begins with. -/
def initial (texture : TextureHandle) : Display :=
  ⟨texture, ⟨.rgba 1 1, opaqueBlack, 0⟩, .empty⟩

/-- A frame is shown with its rows reversed: in place when it has the shape of the texture, in the
next texture otherwise. -/
def shows (display : Display) (next : TextureHandle) (frame : Frame) : Display :=
  let pixels := flipRows frame.pixels frame.width.toNat frame.height.toNat
  let resolution := Resolution.ofSize frame.width frame.height
  if display.record.desc = .rgba frame.width frame.height then
    ⟨display.texture, ⟨.rgba frame.width frame.height, pixels, display.record.updates + 1⟩,
      resolution⟩
  else ⟨next, ⟨.rgba frame.width frame.height, pixels, 0⟩, resolution⟩

/-- A malformed frame makes no difference, and neither does none. -/
def takes (display : Display) (next : TextureHandle) (frame : Option Frame) : Display :=
  (frame.filter (·.isWellFormed)).elim display (display.shows next)

end Display

/-- What a channel displays, when it has a texture. -/
def Rack.display? (rack : Rack Headless) (index : Fin 4) : Option Display :=
  (rack.slot index).texture.bind fun texture =>
    (rack.backend.texture? texture).map fun record => ⟨texture, record, (rack.slot index).resolution⟩

namespace Slot

section Uploads

variable {σ : Type} [Backend σ] {slot : Slot} {backend next : σ} {handle : TextureHandle}
  {desc : TextureDesc} {pixels : Bytes}

theorem upload_first (bare : slot.texture = none)
    (created : Backend.createTexture backend desc pixels = (.ok handle, next)) :
    slot.upload backend desc pixels = (.ok (), slot.shows handle desc pixels, next) := by
  simp only [upload, allocate, bare, created]

theorem upload_refused (bare : slot.texture = none) {error : BackendError}
    (refused : Backend.createTexture backend desc pixels = (.error error, next)) :
    slot.upload backend desc pixels = (.error error, slot, next) := by
  simp only [upload, allocate, bare, refused]

theorem upload_kept (texture : slot.texture = some handle)
    (shape : slot.uploaded.map (·.1) = some desc)
    (updated : Backend.updateTexture backend handle desc pixels = (.ok (), next)) :
    slot.upload backend desc pixels = (.ok (), slot.shows handle desc pixels, next) := by
  simp only [upload, texture, if_pos shape, updated]

theorem upload_renewed {old : TextureHandle} (texture : slot.texture = some old)
    (shape : slot.uploaded.map (·.1) ≠ some desc)
    (created : Backend.createTexture backend desc pixels = (.ok handle, next)) :
    slot.upload backend desc pixels =
      (.ok (), slot.shows handle desc pixels, Backend.releaseTexture next old) := by
  simp only [upload, texture, if_neg shape, allocate, created]

end Uploads

/-- An upload to a texture that is there, on a device that is there, gives what is displayed next. -/
theorem uploadFrame_present {slot : Slot} {backend : Headless} (valid : backend.Valid)
    (present : backend.lost = false) {display : Display}
    (texture : slot.texture = some display.texture)
    (found : backend.texture? display.texture = some display.record)
    (uploaded : slot.uploaded = some display.record.content) {frame : Frame}
    (formed : frame.isWellFormed = true) (whole : frame.isWhole = true) :
    let shown := display.shows backend.nextTexture frame
    ∃ next, slot.uploadFrame backend frame =
        (.ok (), slot.shows shown.texture frame.content.1 frame.content.2, next) ∧
      next.texture? shown.texture = some shown.record ∧
      (shown.texture ≠ display.texture → next.Spent display.texture) := by
  have fits := Frame.checkPixels_content formed whole
  have last : slot.uploaded.map (·.1) = some display.record.desc := by rw [uploaded]; rfl
  intro shown
  by_cases shape : display.record.desc = frame.desc
  · have same : shown = ⟨display.texture,
        ⟨frame.desc, frame.content.2, display.record.updates + 1⟩,
        .ofSize frame.width frame.height⟩ := if_pos shape
    obtain ⟨next, updated⟩ := Headless.update_present present fits found shape
    obtain ⟨_, _, record, held, _, records⟩ := Headless.update_ok valid updated
    obtain rfl := Option.some.inj (held.symm.trans found)
    rw [same]
    refine ⟨next, upload_kept texture (last.trans (congrArg some shape)) updated, ?_,
      fun other => absurd rfl other⟩
    rw [records, Function.update_self]
  · have other : shown = ⟨backend.nextTexture, ⟨frame.desc, frame.content.2, 0⟩,
        .ofSize frame.width frame.height⟩ := if_neg shape
    obtain ⟨next, created⟩ := Headless.create_present present fits
    obtain ⟨validNext, _, unused, records⟩ := Headless.create_ok valid created
    have apart : backend.nextTexture ≠ display.texture := by
      intro same
      rw [same, found] at unused
      cases unused
    have replaced : slot.uploaded.map (·.1) ≠ some frame.desc :=
      fun same => shape (Option.some.inj (last.symm.trans same))
    obtain ⟨_, released⟩ := Headless.release_texture validNext display.texture
    rw [other]
    refine ⟨next.releaseTexture display.texture, upload_renewed texture replaced created, ?_,
      fun _ => ⟨?_, ?_⟩⟩
    · rw [released, Function.update_of_ne apart, records, Function.update_self]
    · have later := (Headless.create_later backend frame.desc frame.content.2).issued
      rw [created] at later
      exact Nat.le_trans (valid.issued found) later
    · rw [released, Function.update_self]

end Slot

namespace Rack

variable {rack : Rack Headless} {index : Fin 4} {display : Display}

theorem display?_eq_some : rack.display? index = some display ↔
    (rack.slot index).texture = some display.texture ∧
      rack.backend.texture? display.texture = some display.record ∧
        (rack.slot index).resolution = display.resolution := by
  unfold display?
  cases (rack.slot index).texture with
  | none => simp
  | some texture =>
    rw [Option.bind_some]
    constructor
    · intro shown
      obtain ⟨record, found, rfl⟩ := Option.map_eq_some_iff.mp shown
      exact ⟨rfl, found, rfl⟩
    · rintro ⟨same, found, resolution⟩
      obtain rfl := Option.some.inj same
      rw [found, resolution, Option.map_some]

/-- A channel displays the same as long as it has the same texture and that holds the same. -/
theorem display?_congr {after : Rack Headless}
    (texture : (after.slot index).texture = (rack.slot index).texture)
    (resolution : (after.slot index).resolution = (rack.slot index).resolution)
    (record : ∀ handle, (rack.slot index).texture = some handle →
      after.backend.texture? handle = rack.backend.texture? handle) :
    after.display? index = rack.display? index := by
  unfold display?
  rw [texture, resolution]
  cases held : (rack.slot index).texture with
  | none => rfl
  | some handle => rw [Option.bind_some, Option.bind_some, record handle held]

/-- What is displayed is what was uploaded last. -/
theorem Coherent.displayed {fresh : Fin 4 → Bool} (coherent : rack.Coherent fresh)
    (shown : rack.display? index = some display) :
    (rack.slot index).uploaded = some display.record.content := by
  obtain ⟨texture, found, _⟩ := display?_eq_some.mp shown
  obtain ⟨_, record, alive, uploaded⟩ := coherent.ownership.owned index _ texture
  obtain rfl := Option.some.inj (found.symm.trans alive)
  exact uploaded

theorem Coherent.display?_of_texture {fresh : Fin 4 → Bool} (coherent : rack.Coherent fresh)
    (texture : (rack.slot index).texture ≠ none) : ∃ display, rack.display? index = some display := by
  obtain ⟨handle, held⟩ := Option.ne_none_iff_exists'.mp texture
  obtain ⟨_, record, alive, _⟩ := coherent.ownership.owned index handle held
  exact ⟨⟨handle, record, (rack.slot index).resolution⟩, display?_eq_some.mpr ⟨held, alive, rfl⟩⟩

/-- A stream hands out its newest frame and keeps none. The frame is uploaded if it is well formed,
and no other call reaches the backend. -/
theorem refreshSlot_stream {σ : Type} [Backend σ] {rack : Rack σ} {id : Nat}
    {latest : Option Frame} (source : (rack.slot index).source = .stream id latest)
    (sound : ∀ frame, latest = some frame → frame.Sound) (now : Nat) :
    rack.refreshSlot index now =
      (latest.filter (·.isWellFormed)).elim (rack.setSource index (.stream id none)) fun frame =>
        ((rack.setSource index (.stream id none)).onSlot index fun slot backend =>
          slot.uploadFrame backend frame).2 := by
  simp only [refreshSlot, source, takeFrame]
  cases latest with
  | none => rfl
  | some frame =>
    cases formed : frame.isWellFormed with
    | false => simp [Option.filter, formed, setSource]
    | true => simp [Option.filter, formed, showFrame, sound frame rfl formed, setSource]

theorem refreshSlot_display {fresh : Fin 4 → Bool} (coherent : rack.Coherent fresh)
    (present : rack.backend.lost = false) {id : Nat} {latest : Option Frame}
    (source : (rack.slot index).source = .stream id latest)
    (shown : rack.display? index = some display) (now : Nat) :
    let after := rack.refreshSlot index now
    let next := display.takes rack.backend.nextTexture latest
    (after.slot index).source = .stream id none ∧ after.display? index = some next ∧
      (next.texture ≠ display.texture → after.backend.Spent display.texture) ∧
      after.backend = (latest.filter (·.isWellFormed)).elim rack.backend fun frame =>
        ((rack.slot index).uploadFrame rack.backend frame).2.2 := by
  obtain ⟨texture, found, resolution⟩ := display?_eq_some.mp shown
  have sound (frame : Frame) (pushed : latest = some frame) : frame.Sound :=
    (coherent.slots index).sound frame (by rw [source, pushed]; exact List.mem_singleton_self _)
  have slot : (rack.setSource index (.stream id none)).slot index =
      { rack.slot index with source := .stream id none } := slot_setSlot_self ..
  rw [refreshSlot_stream source sound]
  unfold Display.takes
  cases given : latest.filter (·.isWellFormed) with
  | none =>
    refine ⟨congrArg Slot.source slot, display?_eq_some.mpr ?_, fun other => absurd rfl other, rfl⟩
    exact slot ▸ ⟨texture, found, resolution⟩
  | some frame =>
    obtain ⟨pushed, formed⟩ := Option.filter_eq_some_iff.mp given
    obtain ⟨next, uploaded, holds, spent⟩ :=
      Slot.uploadFrame_present coherent.valid present texture found (coherent.displayed shown)
        formed (sound frame pushed formed)
    let filled : Slot := { (rack.slot index).shows
      (display.shows rack.backend.nextTexture frame).texture frame.content.1 frame.content.2
        with source := .stream id none }
    have placed : { rack.slot index with source := .stream id none }.uploadFrame
        rack.backend frame = (.ok (), filled, next) := by
      unfold Slot.uploadFrame at uploaded ⊢
      rw [Coherent.upload_withSource, uploaded]
    have after : ((rack.setSource index (.stream id none)).onSlot index fun slot backend =>
        slot.uploadFrame backend frame).2 = { rack.setSlot index filled with backend := next } := by
      simp only [onSlot, slot]
      rw [show (rack.setSource index (.stream id none)).backend = rack.backend from rfl, placed]
      exact setSlot_again rack next index _ filled
    have here : Rack.slot { rack.setSlot index filled with backend := next } index = filled :=
      slot_setSlot_self ..
    rw [Option.elim_some, Option.elim_some, Option.elim_some, after, uploaded]
    refine ⟨congrArg Slot.source here, display?_eq_some.mpr ?_, spent, rfl⟩
    rw [here]
    refine ⟨rfl, holds, ?_⟩
    unfold Display.shows
    split <;> rfl

/-- A stream comes to a channel without a texture, on a device that is there. -/
theorem install_display (present : rack.backend.lost = false)
    (valid : rack.backend.Valid) (bare : (rack.slot index).texture = none) (id : Nat)
    (latest : Option Frame) :
    ∃ after, rack.install index (.stream id latest) = (.ok (), after) ∧
      (after.slot index).source = .stream id latest ∧
      after.display? index = some (.initial rack.backend.nextTexture) := by
  obtain ⟨next, created⟩ := Headless.create_present present fits_opaqueBlack
  obtain ⟨_, _, _, records⟩ := Headless.create_ok valid created
  have uploaded := Slot.upload_first (σ := Headless) bare created
  have shown : rack.showing index (.stream id latest) (.rgba 1 1) opaqueBlack =
      (.ok (), { rack.setSlot index { (rack.slot index).shows rack.backend.nextTexture (.rgba 1 1)
        opaqueBlack with source := .stream id latest } with backend := next }) := by
    simp only [showing, onSlot, uploaded, setSource]
    rw [slot_withBackend, slot_setSlot_self, setSlot_again]
  refine ⟨_, by rw [install, shown], ?_, display?_eq_some.mpr ?_⟩
  · rw [slot_setSlot_self, slot_withBackend, slot_setSlot_self]
  · rw [slot_setSlot_self, slot_withBackend, slot_setSlot_self]
    refine ⟨rfl, ?_, rfl⟩
    exact (congrFun records _).trans (Function.update_self ..)

theorem install_lost (lost : rack.backend.lost = true) (bare : (rack.slot index).texture = none)
    (id : Nat) (latest : Option Frame) :
    ∃ after, rack.install index (.stream id latest) = (.error .deviceLost, after) := by
  have refused : Backend.createTexture rack.backend (.rgba 1 1) opaqueBlack =
      (.error .deviceLost, rack.backend) := by
    simp only [Backend.createTexture, Headless.createTexture, lost, if_true]
  simp only [install, showing, onSlot, Slot.upload_refused bare refused]
  exact ⟨_, rfl⟩

end Rack

end Channel

end LiveFragment
