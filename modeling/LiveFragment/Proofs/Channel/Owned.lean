import LiveFragment.Proofs.Channel.Ownership
import LiveFragment.Proofs.Channel.Run

namespace LiveFragment.Channel

open LiveFragment.Number LiveFragment.Backend LiveFragment.Media

namespace Rack

variable {σ : Type} [Backend σ] [Books σ]

/-- The backend of a rack has the textures of the channels and the placeholder, and no others. -/
structure Owned (rack : Rack σ) : Prop where
  valid : Books.Valid rack.backend
  ownership : Ownership (Books.record? rack.backend) rack.placeholder
    (fun index => (rack.slot index).texture) (fun index => (rack.slot index).uploaded)

/-- What an upload does to the textures; a refused one does nothing. -/
def Granted (rack : Rack σ) (index : Fin 4) (desc : TextureDesc) (pixels : Bytes) :
    Except BackendError Unit × Slot × σ → Prop
  | (.error _, slot, backend) =>
    slot = rack.slot index ∧ Books.Valid backend ∧
      Books.record? backend = Books.record? rack.backend
  | (.ok (), slot, backend) =>
    desc.checkPixels pixels = .ok () ∧ Books.Valid backend ∧
      ∃ handle, slot = (rack.slot index).shows handle desc pixels ∧
        Ownership (Books.record? backend) rack.placeholder
          (Function.update (fun other => (rack.slot other).texture) index (some handle))
          (Function.update (fun other => (rack.slot other).uploaded) index (some (desc, pixels)))

namespace Owned

variable {rack : Rack σ}

theorem allocate (owned : rack.Owned) (index : Fin 4) (desc : TextureDesc) (pixels : Bytes) :
    Granted rack index desc pixels ((rack.slot index).allocate rack.backend desc pixels) := by
  unfold Slot.allocate
  cases created : Backend.createTexture rack.backend desc pixels with
  | mk result next =>
    cases result with
    | error error => exact ⟨rfl, Books.create_error owned.valid created⟩
    | ok handle =>
      obtain ⟨valid, fits, unused, records⟩ := Books.create_ok owned.valid created
      cases held : (rack.slot index).texture with
      | none =>
        have after := owned.ownership.allocate ⟨desc, pixels, 0⟩ held unused
        rw [← records] at after
        exact ⟨fits, valid, handle, rfl, after⟩
      | some old =>
        obtain ⟨validAfter, released⟩ := Books.release old valid
        have after := owned.ownership.exchange ⟨desc, pixels, 0⟩ held unused
        rw [← records, ← released] at after
        exact ⟨fits, validAfter, handle, rfl, after⟩

theorem upload (owned : rack.Owned) (index : Fin 4) (desc : TextureDesc) (pixels : Bytes) :
    Granted rack index desc pixels ((rack.slot index).upload rack.backend desc pixels) := by
  unfold Slot.upload
  split
  · exact owned.allocate index desc pixels
  · rename_i texture held
    split
    · cases updated : Backend.updateTexture rack.backend texture desc pixels with
      | mk result next =>
        cases result with
        | error error => exact ⟨rfl, Books.update_error owned.valid updated⟩
        | ok accepted =>
          obtain ⟨valid, fits, record, _, _, records⟩ := Books.update_ok owned.valid updated
          have after := owned.ownership.replace ⟨desc, pixels, record.updates + 1⟩ held
          rw [← records] at after
          refine ⟨fits, valid, texture, rfl, ?_⟩
          rw [← held, Function.update_eq_self]
          exact after
    · exact owned.allocate index desc pixels

/-- A slot is replaced together with the backend that knows its texture. -/
theorem place {index : Fin 4} {slot : Slot} {backend : σ} (valid : Books.Valid backend)
    (ownership : Ownership (Books.record? backend) rack.placeholder
      (Function.update (fun other => (rack.slot other).texture) index slot.texture)
      (Function.update (fun other => (rack.slot other).uploaded) index slot.uploaded)) :
    Rack.Owned { rack.setSlot index slot with backend } where
  valid := valid
  ownership := by
    rw [← map_slot_setSlot Slot.texture, ← map_slot_setSlot Slot.uploaded] at ownership
    exact ownership

theorem setSlot (owned : rack.Owned) {index : Fin 4} {slot : Slot}
    (texture : slot.texture = (rack.slot index).texture)
    (uploaded : slot.uploaded = (rack.slot index).uploaded) : (rack.setSlot index slot).Owned := by
  apply place owned.valid
  rw [texture, uploaded, Function.update_eq_self, Function.update_eq_self]
  exact owned.ownership

theorem onSlot (owned : rack.Owned) (index : Fin 4) (desc : TextureDesc) (pixels : Bytes) :
    (rack.onSlot index fun slot backend => slot.upload backend desc pixels).2.Owned := by
  have granted := owned.upload index desc pixels
  simp only [Rack.onSlot]
  cases uploaded : (rack.slot index).upload rack.backend desc pixels with
  | mk result rest =>
    obtain ⟨slot, backend⟩ := rest
    rw [uploaded] at granted
    cases result with
    | error error =>
      obtain ⟨rfl, valid, same⟩ := granted
      rw [setSlot_self]
      exact ⟨valid, same ▸ owned.ownership⟩
    | ok accepted =>
      obtain ⟨_, valid, handle, rfl, after⟩ := granted
      exact place valid after

theorem teardown (owned : rack.Owned) (index : Fin 4) : (rack.teardown index).Owned := by
  cases held : (rack.slot index).texture with
  | none =>
    -- A slot without a texture may still remember an upload, which goes with the slot.
    have forgotten := owned.ownership.forget held none
    have vacant : Function.update (fun other : Fin 4 => (rack.slot other).texture) index none =
        fun other => (rack.slot other).texture := Function.update_eq_self_iff.mpr held.symm
    rw [← vacant] at forgotten
    have placed : (rack.setSlot index .empty).Owned := place owned.valid forgotten
    simp only [Rack.teardown, held]
    exact ⟨placed.valid, placed.ownership⟩
  | some texture =>
    obtain ⟨valid, released⟩ := Books.release texture owned.valid
    have after := owned.ownership.release held none
    rw [← released] at after
    have placed := @place σ _ _ rack index .empty _ valid after
    simp only [Rack.teardown, held]
    exact ⟨placed.valid, placed.ownership⟩

end Owned

/-- The textures of the channels that have been made again. -/
def rebuilt (rack : Rack σ) (remaining : List (Fin 4)) (index : Fin 4) : Option TextureHandle :=
  if index ∈ remaining then none else (rack.slot index).texture

omit [Backend σ] [Books σ] in
theorem rebuilt_setSlot (rack : Rack σ) {index : Fin 4} {rest : List (Fin 4)}
    (once : index ∉ rest) (slot : Slot) :
    (rack.setSlot index slot).rebuilt rest =
      Function.update (rack.rebuilt (index :: rest)) index slot.texture := by
  funext other
  by_cases same : other = index
  · subst same
    simp only [rebuilt, if_neg once, slot_setSlot_self, Function.update_self]
  · simp only [rebuilt, slot_setSlot, Function.update_of_ne same, List.mem_cons, same, false_or,
      if_false]

/-- What making textures again changes: channels get new handles, or lose theirs when nothing was
uploaded. -/
structure Remade (remaining : List (Fin 4)) (before after : Rack σ) : Prop where
  slots : ∀ index : Fin 4, after.slot index =
    { before.slot index with texture := (after.slot index).texture }
  again : ∀ index ∈ remaining,
    ((after.slot index).texture = none ↔ (before.slot index).uploaded = none)
  others : ∀ index : Fin 4, index ∉ remaining →
    (after.slot index).texture = (before.slot index).texture
  devices : after.devices = before.devices
  events : after.events = before.events
  broken : after.broken = before.broken

omit [Backend σ] [Books σ] in
theorem Remade.cons {rack after : Rack σ} {backend : σ} {index : Fin 4} {rest : List (Fin 4)}
    {texture : Option TextureHandle} (once : index ∉ rest)
    (again : texture = none ↔ (rack.slot index).uploaded = none)
    (later : Remade rest
      { rack.setSlot index { rack.slot index with texture } with backend } after) :
    Remade (index :: rest) rack after where
  slots := by
    intro other
    have slot := later.slots other
    rw [slot_withBackend, slot_setSlot] at slot
    by_cases same : other = index
    · subst same
      simpa only [if_true] using slot
    · simpa only [if_neg same] using slot
  again := by
    intro other member
    by_cases same : other = index
    · subst same
      have kept := later.others other once
      rw [kept, slot_setSlot_self]
      exact again
    · have remade := later.again other (by simpa [same] using member)
      rwa [slot_withBackend, slot_setSlot, if_neg same] at remade
  others := by
    intro other elsewhere
    rw [List.mem_cons, not_or] at elsewhere
    have kept := later.others other elsewhere.2
    rwa [slot_withBackend, slot_setSlot, if_neg elsewhere.1] at kept
  devices := later.devices
  events := later.events
  broken := later.broken

theorem rebuildSlots_ok {rack after : Rack σ} {remaining : List (Fin 4)}
    (distinct : remaining.Nodup) (valid : Books.Valid rack.backend)
    (ownership : Ownership (Books.record? rack.backend) rack.placeholder (rack.rebuilt remaining)
      (fun index => (rack.slot index).uploaded))
    (done : rack.rebuildSlots remaining = (.ok (), after)) :
    after.Owned ∧ Remade remaining rack after := by
  -- The channels that remain count as channels without a texture, so the ownership of the records
  -- that were just cleared is the one to start with, and each step gives one channel its own.
  induction remaining generalizing rack with
  | nil =>
    obtain rfl := (Prod.mk.inj done).2
    have made : rack.rebuilt [] = fun index => (rack.slot index).texture := by
      funext index
      simp [rebuilt]
    exact ⟨⟨valid, made ▸ ownership⟩, fun _ => rfl, by simp, fun _ _ => rfl, rfl, rfl, rfl⟩
  | cons index rest ih =>
    obtain ⟨once, distinct⟩ := List.nodup_cons.mp distinct
    have vacant : rack.rebuilt (index :: rest) index = none := by simp [rebuilt]
    have uploads (texture : Option TextureHandle) :
        (fun other : Fin 4 =>
          ((rack.setSlot index { rack.slot index with texture }).slot other).uploaded) =
        fun other : Fin 4 => (rack.slot other).uploaded := by
      rw [map_slot_setSlot Slot.uploaded, Function.update_eq_self]
    simp only [rebuildSlots] at done
    split at done
    · rename_i nothing
      have still : Ownership (Books.record? rack.backend) rack.placeholder
          ((rack.setSlot index { rack.slot index with texture := none }).rebuilt rest)
          (fun other => ((rack.setSlot index
            { rack.slot index with texture := none }).slot other).uploaded) := by
        rw [rebuilt_setSlot rack once, uploads, ← vacant, Function.update_eq_self]
        exact ownership
      obtain ⟨owned, remade⟩ := @ih (rack.setSlot index _) distinct valid still done
      exact ⟨owned, .cons once (iff_of_true rfl nothing) remade⟩
    · rename_i desc pixels uploaded
      split at done
      · cases done
      · rename_i handle backend created
        obtain ⟨validNext, _, unused, records⟩ := Books.create_ok valid created
        have still : Ownership (Books.record? backend) rack.placeholder
            ((rack.setSlot index { rack.slot index with texture := some handle }).rebuilt rest)
            (fun other => ((rack.setSlot index
              { rack.slot index with texture := some handle }).slot other).uploaded) := by
          have allocated := ownership.allocate ⟨desc, pixels, 0⟩ vacant unused
          rw [← records, TextureRecord.content, ← uploaded, Function.update_eq_self] at allocated
          rw [rebuilt_setSlot rack once, uploads]
          exact allocated
        obtain ⟨owned, remade⟩ := ih distinct validNext still done
        have something : (rack.slot index).uploaded ≠ none := by
          rw [uploaded]
          simp
        exact ⟨owned, .cons once (iff_of_false (by simp) something) remade⟩

/-- On a backend without textures, every channel gets the texture of its last upload. -/
theorem rebuild_ok {rack after : Rack σ} (valid : Books.Valid rack.backend)
    (cleared : Books.record? rack.backend = fun _ => none)
    (done : rack.rebuild = (.ok (), after)) :
    after.Owned ∧ Remade (List.finRange 4) rack after := by
  unfold rebuild at done
  split at done
  · cases done
  · rename_i placeholder backend created
    obtain ⟨validNext, _, _, records⟩ := Books.create_ok valid created
    have vacant : Rack.rebuilt { rack with backend, placeholder } (List.finRange 4) =
        fun _ => none := by
      funext index
      simp [rebuilt]
    have owned : Ownership (Books.record? backend) placeholder
        (Rack.rebuilt { rack with backend, placeholder } (List.finRange 4))
        (fun index => (rack.slot index).uploaded) := by
      rw [records, cleared, vacant]
      exact Ownership.initial _ placeholder ⟨.rgba 1 1, opaqueBlack, 0⟩ rfl
    obtain ⟨whole, remade⟩ := rebuildSlots_ok (by decide) validNext owned done
    exact ⟨whole, { remade with }⟩

end Rack

end LiveFragment.Channel
