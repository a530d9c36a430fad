import LiveFragment.Proofs.Channel.Aside
import LiveFragment.Proofs.Channel.Chronicle
import LiveFragment.Proofs.Channel.Heard

namespace LiveFragment.Channel

open LiveFragment.Number LiveFragment.Backend LiveFragment.Directive LiveFragment.Media

/-- A slot goes with the analyser of its microphone: the analyser has a supported size, and the last
upload has its shape. The texture is there as long as none was lost. -/
structure Slot.Pictures (transform : Transform) (lit : Prop) (slot : Slot)
    (analyser : Analyser Single) : Prop where
  heard : ∃ size ∈ analysisSizes, ∃ blocks, analyser = .heard (Fourier.sound transform) size blocks
  uploaded : slot.uploaded.map (·.1) = some analyser.desc
  lit : lit → slot.texture.isSome

structure Slot.Attuned (transform : Transform) (lit : Prop) (slot : Slot) : Prop where
  awaited : ∀ id size, slot.pending = some (.microphone id size) → size ∈ analysisSizes
  pictures : ∀ id analyser, slot.source = .microphone id analyser →
    slot.Pictures transform lit analyser

namespace Slot.Attuned

variable {transform : Transform} {lit : Prop} {slot next : Slot}

/-- Without a microphone there is nothing to tell but what is awaited. -/
theorem of_deaf (deaf : next.source.kind ≠ .microphone)
    (awaited : ∀ id size, next.pending = some (.microphone id size) → size ∈ analysisSizes) :
    next.Attuned transform lit :=
  ⟨awaited, fun _ _ held => absurd (congrArg Source.kind held) deaf⟩

theorem empty : Slot.empty.Attuned transform lit := of_deaf (by decide) nofun

theorem withRequest (attuned : slot.Attuned transform lit) (request : Option Request) :
    Slot.Attuned transform lit { slot with request } where
  awaited := attuned.awaited
  pictures id analyser held :=
    let shown := attuned.pictures id analyser held
    ⟨shown.heard, shown.uploaded, shown.lit⟩

theorem weaken {less : Prop} (attuned : slot.Attuned transform lit) (weaker : less → lit) :
    slot.Attuned transform less where
  awaited := attuned.awaited
  pictures id analyser held :=
    let shown := attuned.pictures id analyser held
    ⟨shown.heard, shown.uploaded, shown.lit ∘ weaker⟩

theorem pushed (attuned : slot.Attuned transform lit) {id : Nat} {frame : Frame}
    (pushed : Pushed id frame slot next) : next.Attuned transform lit := by
  cases pushed with
  | shown => exact of_deaf (show Kind.stream ≠ .microphone by decide) attuned.awaited
  | waiting held =>
    refine ⟨nofun, fun id analyser microphone => ?_⟩
    have shown := attuned.pictures id analyser microphone
    exact ⟨shown.heard, shown.uploaded, shown.lit⟩
  | other => exact attuned

/-- The texture is made again from the last upload, or it is lost. -/
theorem remade (attuned : slot.Attuned transform lit) {texture : Option TextureHandle} {again : Prop}
    (made : again → slot.uploaded.isSome → texture.isSome) :
    Slot.Attuned transform again { slot with texture } where
  awaited := attuned.awaited
  pictures id analyser held := by
    have shown := attuned.pictures id analyser held
    refine ⟨shown.heard, shown.uploaded, fun again => made again ?_⟩
    rw [← Option.isSome_map, shown.uploaded]
    rfl

end Slot.Attuned

theorem Slot.upload_again {σ : Type} [Backend σ] {slot : Slot} {texture : TextureHandle}
    {desc : TextureDesc} (shown : slot.texture = some texture)
    (same : slot.uploaded.map (·.1) = some desc) (backend : σ) (pixels : Bytes) :
    (slot.upload backend desc pixels).2.1.texture = some texture ∧
      (slot.upload backend desc pixels).2.2 =
        (Backend.updateTexture backend texture desc pixels).2 := by
  unfold upload
  rw [shown]
  simp only [if_pos same]
  cases Backend.updateTexture backend texture desc pixels with
  | mk result next =>
    cases result with
    | error error => exact ⟨shown, rfl⟩
    | ok => exact ⟨rfl, rfl⟩

namespace Rack

variable {σ : Type} [Backend σ]

/-- A refresh replaces the pixels of the texture that a channel has: the backend is asked for
nothing else, and the channel keeps the texture. -/
structure Replaces (rack : Rack σ) (index : Fin 4) (now : Nat) (texture : TextureHandle)
    (desc : TextureDesc) (pixels : Bytes) : Prop where
  fits : pixels.size = desc.byteLength
  backend : (rack.refreshSlot index now).backend =
    (Backend.updateTexture rack.backend texture desc pixels).2
  texture : ((rack.refreshSlot index now).slot index).texture = some texture

section Steps

variable {transform : Transform} {lit : Prop} {rack after : Rack σ} {index : Fin 4}

theorem install_attuned {pending : Pending} {id : Nat}
    (listed : ∀ id size, pending = .microphone id size → size ∈ analysisSizes)
    (idle : (rack.slot index).pending = none)
    (installed : rack.install index (pending.source id) = (.ok (), after)) :
    (after.slot index).Attuned transform lit := by
  have still {next : Slot} (same : next.pending = (rack.slot index).pending) :
      ∀ id size, next.pending = some (.microphone id size) → size ∈ analysisSizes := by
    rw [same, idle]
    exact nofun
  cases pending with
  | camera number =>
    obtain rfl := (Prod.mk.inj installed).2
    rw [setSource, slot_setSlot_self]
    exact .of_deaf (show Kind.camera ≠ .microphone by decide) (still rfl)
  | microphone number size =>
    obtain ⟨handle, slot⟩ := showing_ok installed
    rw [slot]
    refine ⟨still rfl, ?_⟩
    rintro _ _ ⟨⟩
    exact ⟨⟨size, listed number size rfl, [], rfl⟩, rfl, fun _ => rfl⟩
  | stream number latest =>
    obtain ⟨handle, slot⟩ := install_stream installed
    rw [slot]
    exact .of_deaf (show Kind.stream ≠ .microphone by decide) (still rfl)

theorem openLive_attuned {wanted : Wanted} {pending : Nat → Pending}
    (listed : ∀ number id size, pending number = .microphone id size → size ∈ analysisSizes)
    (empty : rack.slot index = .empty)
    (opened : rack.openLive index wanted pending = (.ok (), after)) :
    (after.slot index).Attuned transform lit := by
  unfold openLive at opened
  split at opened
  · cases opened
  · rename_i id devices _
    cases installed : install { rack with devices } index ((pending id).source id) with
    | mk result next =>
      rw [installed, ofBackend] at opened
      cases result with
      | error error => cases opened
      | ok =>
        obtain rfl := (Prod.mk.inj opened).2
        exact @install_attuned σ _ transform lit { rack with devices } next index (pending id) id
          (listed id)
          (congrArg Slot.pending empty) installed
  · rename_i id devices _
    obtain rfl := (Prod.mk.inj opened).2
    rw [setPending, slot_setSlot_self]
    refine .of_deaf ?_ fun number size waits => listed id number size (Option.some.inj waits)
    exact fun kind => absurd ((congrArg (·.source.kind) empty).symm.trans kind) (by decide)

theorem acquire_attuned {request : Request} (empty : rack.slot index = .empty)
    (acquired : rack.acquire index request = (.ok (), after)) :
    (after.slot index).Attuned transform lit := by
  have dead (asks : request.wanted? = none) : (after.slot index).Attuned transform lit := by
    have free : rack.held index = none := congrArg (·.source.resource?) empty
    have idle : rack.awaited index = none := congrArg (·.pending.map Pending.id) empty
    have same := acquire_dead asks free
    rw [acquired] at same
    have held : (after.slot index).source.resource? = none :=
      (congrFun same.held index).trans free
    have waits : (after.slot index).pending = none :=
      Option.map_eq_none_iff.mp ((congrFun same.awaited index).trans idle)
    refine .of_deaf ?_ ?_
    · intro kind
      cases source : (after.slot index).source <;> rw [source] at kind held <;> cases kind
      cases held
    · rw [waits]
      exact nofun
  cases request with
  | camera device =>
    have live : rack.openLive index (.camera device) .camera = (.ok (), after) := acquired
    exact openLive_attuned (by rintro _ _ _ ⟨⟩) empty live
  | microphone size =>
    by_cases supported : analysisSizes.contains size
    · have live : rack.openLive index .microphone (.microphone · size) = (.ok (), after) :=
        (if_pos supported).symm.trans acquired
      refine openLive_attuned ?_ empty live
      rintro _ _ _ ⟨⟩
      simpa using supported
    · exact dead (if_neg supported)
  | stream source =>
    have live : rack.openLive index (.stream source) (.stream · none) = (.ok (), after) := acquired
    exact openLive_attuned (by rintro _ _ _ ⟨⟩) empty live
  | _ => exact dead rfl

theorem bind_attuned (rack : Rack σ) {number : Nat} (named : checkIndex number = .ok index)
    (request : Request) : ((rack.bind number request).2.slot index).Attuned transform lit := by
  rw [bind_eq rack named]
  cases acquired : (rack.teardown index).acquire index request with
  | mk result after =>
    cases result with
    | ok =>
      rw [(supply_accepted acquired).1]
      exact (acquire_attuned (teardown_slot rack index) acquired).withRequest _
    | error error =>
      rw [(supply_refused acquired).1]
      exact .empty

theorem pollPending_attuned (attuned : (rack.slot index).Attuned transform lit) :
    ((rack.pollPending index).slot index).Attuned transform lit := by
  unfold pollPending
  split
  · exact attuned
  · rename_i pending waits
    split
    · exact attuned
    · rename_i outcome devices _
      dsimp only
      split
      · rw [slot_report, teardown_slot]
        exact .empty
      · rename_i resource _
        split
        · rename_i after accepted
          rw [slot_report]
          refine install_attuned ?_ ?_ accepted
          · rintro id size rfl
            exact attuned.awaited id size waits
          · exact congrArg Slot.pending (slot_setSlot_self ..)
        · rw [slot_report, teardown_slot]
          exact .empty

omit [Backend σ] in
theorem onSlot_slot {α : Type} (rack : Rack σ) (index : Fin 4) (step : Slot → σ → α × Slot × σ) :
    (rack.onSlot index step).2.slot index = (step (rack.slot index) rack.backend).2.1 :=
  slot_setSlot_self ..

theorem showFrame_keeps (rack : Rack σ) (index : Fin 4) (frame : Frame) :
    ((rack.showFrame index frame).2.slot index).source = (rack.slot index).source ∧
      ((rack.showFrame index frame).2.slot index).pending = (rack.slot index).pending := by
  unfold showFrame
  split
  · rw [onSlot_slot]
    exact Slot.upload_keeps ..
  · exact ⟨rfl, rfl⟩

/-- A refresh without a microphone leaves it so, whatever it shows. -/
theorem refreshSlot_deaf (deaf : (rack.slot index).source.kind ≠ .microphone) (now : Nat) :
    ((rack.refreshSlot index now).slot index).source.kind = (rack.slot index).source.kind ∧
      ((rack.refreshSlot index now).slot index).pending = (rack.slot index).pending := by
  have kind := takeFrame_kind rack.devices now (rack.slot index).source
  rw [Coherent.refreshSlot_eq deaf]
  cases taken : takeFrame rack.devices now (rack.slot index).source with
  | mk frame rest =>
    obtain ⟨source, devices⟩ := rest
    rw [taken] at kind
    have ready : (setSource { rack with devices } index source).slot index =
        { rack.slot index with source } := slot_setSlot_self ..
    have spent : ((setSource { rack with devices } index source).slot index).source.kind =
          (rack.slot index).source.kind ∧
        ((setSource { rack with devices } index source).slot index).pending =
          (rack.slot index).pending := by
      rw [ready]
      exact ⟨kind, rfl⟩
    cases frame with
    | none => exact spent
    | some frame =>
      dsimp only
      split
      · obtain ⟨same, still⟩ := showFrame_keeps (setSource { rack with devices } index source)
          index frame
        rw [same, still]
        exact spent
      · exact spent

omit [Backend σ] in
theorem hears_heard (rack : Rack σ) (id size : Nat) (blocks : List (List Single)) :
    let sound := Fourier.sound rack.options.services.transform
    rack.hears id (.heard sound size blocks) =
      .heard sound size (blocks ++ [(rack.devices.drain id).1]) :=
  (Analyser.heard_concat ..).symm

theorem refreshSlot_microphone_eq {id : Nat} {analyser : Analyser Single}
    (held : (rack.slot index).source = .microphone id analyser) (now : Nat) :
    let heard := rack.hears id analyser
    let uploads := { rack.slot index with source := .microphone id heard }.upload rack.backend
      heard.desc heard.buffer
    (rack.refreshSlot index now).slot index = uploads.2.1 ∧
      (rack.refreshSlot index now).backend = uploads.2.2 := by
  intro heard uploads
  have ready : (setSource { rack with devices := (rack.devices.drain id).2 } index
      (.microphone id heard)).slot index =
        { rack.slot index with source := .microphone id heard } := slot_setSlot_self ..
  have shown : rack.refreshSlot index now =
      ((setSource { rack with devices := (rack.devices.drain id).2 } index
        (.microphone id heard)).onSlot index fun slot backend =>
          slot.upload backend heard.desc heard.buffer).2 := by
    unfold refreshSlot
    rw [held]
    rfl
  rw [shown, onSlot_slot, ready]
  refine ⟨rfl, ?_⟩
  simp only [onSlot, ready]
  rfl

theorem refreshSlot_attuned
    (attuned : (rack.slot index).Attuned rack.options.services.transform lit)
    (now : Nat) :
    ((rack.refreshSlot index now).slot index).Attuned
      rack.options.services.transform lit := by
  by_cases microphone : (rack.slot index).source.kind = .microphone
  · cases held : (rack.slot index).source with
    | microphone id analyser =>
      obtain ⟨⟨size, listed, blocks, same⟩, uploaded, lit⟩ := attuned.pictures id analyser held
      have heard := hears_heard rack id size blocks
      dsimp only at heard
      rw [← same] at heard
      obtain ⟨handle, shows⟩ := Slot.upload_shows
        { rack.slot index with source := .microphone id (rack.hears id analyser) } rack.backend
        (rack.hears id analyser).desc (rack.hears id analyser).buffer
      rw [(refreshSlot_microphone_eq held now).1, shows]
      split
      · refine ⟨attuned.awaited, ?_⟩
        rintro _ _ ⟨⟩
        exact ⟨⟨size, listed, _, heard⟩, rfl, fun _ => rfl⟩
      · refine ⟨attuned.awaited, ?_⟩
        rintro _ _ ⟨⟩
        refine ⟨⟨size, listed, _, heard⟩, uploaded.trans ?_, lit⟩
        exact congrArg some (Analyser.process_desc ..).symm
    | _ =>
      rw [held] at microphone
      cases microphone
  · obtain ⟨kind, pending⟩ := refreshSlot_deaf microphone now
    refine .of_deaf (kind ▸ microphone) ?_
    rw [pending]
    exact attuned.awaited

theorem replaces {id : Nat} {analyser : Analyser Single}
    (held : (rack.slot index).source = .microphone id analyser)
    (pictures : (rack.slot index).Pictures rack.options.services.transform lit
      analyser) {texture : TextureHandle}
    (shown : (rack.slot index).texture = some texture) (now : Nat) :
    rack.Replaces index now texture (rack.hears id analyser).desc
      (rack.hears id analyser).buffer := by
  obtain ⟨size, listed, blocks, same⟩ := pictures.heard
  have supported : ∀ size ∈ analysisSizes, 2 ≤ size ∧ size / 2 < UInt32.size := by decide
  obtain ⟨least, narrow⟩ := supported size listed
  have keeps := Analyser.keeps_heard (Fourier.sound rack.options.services.transform) least
    (blocks ++ [(rack.devices.drain id).1])
  rw [← hears_heard, ← same] at keeps
  obtain ⟨slot, backend⟩ := refreshSlot_microphone_eq held now
  have shape : (rack.slot index).uploaded.map (·.1) = some (rack.hears id analyser).desc :=
    pictures.uploaded.trans (congrArg some (Analyser.process_desc ..).symm)
  obtain ⟨kept, updated⟩ := @Slot.upload_again σ _
    { rack.slot index with source := .microphone id (rack.hears id analyser) } texture _ shown shape
    rack.backend (rack.hears id analyser).buffer
  exact ⟨(keeps.byteLength narrow).symm, backend.trans updated, slot ▸ kept⟩

end Steps

/-- Nothing but the texture of a channel changes when the textures are made again. It has one if it
had one or its turn came, unless one was refused. -/
theorem rebuildSlots_slot (rack : Rack σ) (indices : List (Fin 4)) (index : Fin 4) :
    ∃ texture, (rack.rebuildSlots indices).2.slot index = { rack.slot index with texture } ∧
      ((rack.rebuildSlots indices).1 = .ok () → (rack.slot index).uploaded.isSome →
        index ∈ indices ∨ (rack.slot index).texture.isSome → texture.isSome) := by
  induction indices generalizing rack with
  | nil =>
    exact ⟨(rack.slot index).texture, rfl, fun _ _ had => had.resolve_left List.not_mem_nil⟩
  | cons head rest ih =>
    obtain ⟨first, backend, ⟨goesOn, made⟩ | ⟨error, refused⟩⟩ := rebuildSlots_cons rack head rest
    · obtain ⟨texture, slot, lit⟩ := ih (rack.remade head first backend)
      rw [slot_remade] at slot lit
      rw [goesOn]
      refine ⟨texture, slot, fun ok uploaded had => lit ok uploaded ?_⟩
      dsimp only
      split
      · rename_i same
        exact .inr (made (same ▸ uploaded))
      · rename_i apart
        exact had.imp (fun member => (List.mem_cons.mp member).resolve_left apart) id
    · rw [refused]
      refine ⟨_, slot_remade .., fun ok => ?_⟩
      cases ok

/-- Every microphone goes with its analyser, in a rack with some options. -/
abbrev Attuned (options : RackOptions) (lit : Fin 4 → Prop) (rack : Rack σ) : Prop :=
  rack.Throughout options fun index slot =>
    slot.Attuned options.services.transform (lit index)

theorem slotClosed_attuned (options : RackOptions) (lit : Fin 4 → Prop) :
    SlotClosed σ options fun index slot =>
      slot.Attuned options.services.transform (lit index) where
  empty _ := .empty
  bind rack index request _ := bind_attuned rack (dif_pos index.isLt) request
  poll _ _ _ attuned := pollPending_attuned attuned
  refresh := by
    rintro rack index now rfl attuned
    exact refreshSlot_attuned attuned now
  push _ _ _ _ _ pushed attuned := attuned.pushed pushed

namespace Attuned

variable {options : RackOptions} {lit : Fin 4 → Prop} {rack : Rack σ}

omit [Backend σ] in
theorem weaken {less : Fin 4 → Prop} (attuned : rack.Attuned options lit)
    (weaker : ∀ index, less index → lit index) : rack.Attuned options less :=
  ⟨attuned.options, fun index => (attuned.slots index).weaken (weaker index)⟩

theorem pollPending (attuned : rack.Attuned options lit) (index : Fin 4) :
    (rack.pollPending index).Attuned options lit :=
  (slotClosed_attuned options lit).pollPending attuned index

theorem refreshSlot (attuned : rack.Attuned options lit) (index : Fin 4) (now : Nat) :
    (rack.refreshSlot index now).Attuned options lit :=
  (slotClosed_attuned options lit).refreshSlot attuned now index

theorem teardown (attuned : rack.Attuned options lit) (index : Fin 4) :
    (rack.teardown index).Attuned options lit :=
  (slotClosed_attuned options lit).teardown attuned index

theorem reached (attuned : rack.Attuned options lit) (now : Nat) (index : Fin 4) :
    (rack.reached now index).Attuned options lit := by
  unfold Rack.reached
  generalize (List.finRange 4).take index = indices
  induction indices generalizing rack with
  | nil => exact attuned
  | cons other rest ih => exact ih ((attuned.pollPending other).refreshSlot other now)

theorem step (attuned : rack.Attuned options lit) (step : Step) :
    (rack.step step).Attuned options lit :=
  (slotClosed_attuned options lit).step attuned step

/-- A rebuild that is not refused makes the texture of every microphone again. -/
theorem rebuild (attuned : rack.Attuned options lit) :
    rack.rebuild.2.Attuned options fun _ => rack.rebuild.1 = .ok () := by
  unfold Rack.rebuild
  split
  · exact ⟨attuned.options, fun index => (attuned.slots index).weaken nofun⟩
  · rename_i placeholder backend _
    refine ⟨?_, fun index => ?_⟩
    · have same : Rack.options { rack with backend, placeholder } = options := attuned.options
      exact rebuildSlots_induction (P := fun rack : Rack σ => rack.options = options)
        (fun _ _ _ _ same => same) same _
    · obtain ⟨texture, slot, made⟩ :=
        rebuildSlots_slot { rack with backend, placeholder } (List.finRange 4) index
      dsimp only at slot ⊢
      rw [slot]
      exact (attuned.slots index).remade fun ok uploaded =>
        made ok uploaded (.inl (List.mem_finRange index))

theorem teardownAll (attuned : rack.Attuned options lit) : rack.teardownAll.Attuned options lit :=
  teardownAll_induction (P := Rack.Attuned options lit)
    (fun _ index attuned => teardown attuned index)
    (fun _ _ attuned => ⟨attuned.options, attuned.slots⟩) attuned

end Attuned

omit [Backend σ] in
theorem attuned_of_empty {rack : Rack σ} (empty : ∀ index : Fin 4, rack.slot index = .empty)
    (lit : Fin 4 → Prop) : rack.Attuned rack.options lit :=
  ⟨rfl, fun index => empty index ▸ .empty⟩

theorem new_empty {backend next : σ} {devices : Devices} {options : RackOptions} {start : Rack σ}
    (made : Rack.new backend devices options = (.ok start, next)) :
    start.options = options ∧ ∀ index : Fin 4, start.slot index = .empty := by
  unfold Rack.new at made
  split at made
  · cases made
  · obtain rfl := Except.ok.inj (Prod.mk.inj made).1
    exact ⟨rfl, fun index => Vector.getElem_replicate ..⟩

/-- No rebuild of a run is refused. -/
def Rebuilds (rack : Rack σ) : List (Move σ) → Prop
  | [] => True
  | move :: rest => (move = .rebuild → rack.rebuild.1 = .ok ()) ∧ (rack.move move).Rebuilds rest

section Moves

variable {options : RackOptions} {lit : Prop} {rack : Rack σ}

theorem Attuned.move (attuned : rack.Attuned options fun _ => lit) (move : Move σ) :
    (rack.move move).Attuned options fun _ =>
      lit ∧ (move = .rebuild → rack.rebuild.1 = .ok ()) := by
  cases move with
  | call step => exact (attuned.step step).weaken fun _ => And.left
  | rebuild => exact attuned.rebuild.weaken fun _ made => made.2 rfl
  | teardownAll => exact attuned.teardownAll.weaken fun _ => And.left
  | backend next =>
    exact ⟨attuned.options, fun index => (attuned.slots index).weaken And.left⟩

theorem Attuned.run (attuned : rack.Attuned options fun _ => lit) (moves : List (Move σ)) :
    (moves.foldl Rack.move rack).Attuned options fun _ => lit ∧ rack.Rebuilds moves := by
  induction moves generalizing rack lit with
  | nil => exact attuned.weaken fun _ => And.left
  | cons move rest ih =>
    exact (ih (attuned.move move)).weaken fun _ ⟨lit, made, later⟩ => ⟨⟨lit, made⟩, later⟩

end Moves

end Rack

open Analyser in
/-- An analyser keeps the end of the sound it heard, silence first: its history, and its waveform
with half as many samples. How the sound was cut into blocks makes no difference to them, and its
rows always fill its texture, whose width is a word of 32 bits. So whenever a run of a rack comes to
refresh a microphone, the refresh replaces the pixels of the texture that the channel has; and it
has one unless a rebuild was refused. -/
theorem microphones_keep_up :
    (∀ (R : Type) (sound : Sound R), sound.Lawful → ∀ size : Nat, 2 ≤ size →
      (∀ blocks : List (List R),
        (heard sound size blocks).history = (stream sound size blocks).rtake size ∧
        (heard sound size blocks).buffer.toList.drop (size / 2) =
          ((stream sound size blocks).rtake (size / 2)).map sound.amplitude ∧
        (heard sound size blocks).buffer.size = 2 * (size / 2) ∧
        (size / 2 < UInt32.size →
          (heard sound size blocks).desc.byteLength = (heard sound size blocks).buffer.size)) ∧
      ∀ blocks others : List (List R), blocks.flatten = others.flatten →
        (heard sound size blocks).history = (heard sound size others).history ∧
        (heard sound size blocks).buffer.toList.drop (size / 2) =
          (heard sound size others).buffer.toList.drop (size / 2)) ∧
    (∀ transform : Transform, transform.Total → (Fourier.sound transform).Lawful) ∧
    ∀ (σ : Type) [Backend σ] (backend next : σ) (devices : Devices) (options : RackOptions)
      (start : Rack σ), Rack.new backend devices options = (.ok start, next) →
      ∀ (moves : List (Move σ)) (now : Nat) (index : Fin 4) (id : Nat) (analyser : Analyser Single),
        let sound := Fourier.sound options.services.transform
        let rack := ((moves.foldl Rack.move start).reached now index).pollPending index
        (rack.slot index).source = .microphone id analyser →
          (∃ size ∈ analysisSizes, ∃ blocks, analyser = heard sound size blocks ∧
            rack.hears id analyser =
              heard sound size (blocks ++ [(rack.devices.drain id).1])) ∧
          (start.Rebuilds moves → (rack.slot index).texture.isSome) ∧
          ∀ texture, (rack.slot index).texture = some texture →
            rack.Replaces index now texture (rack.hears id analyser).desc
              (rack.hears id analyser).buffer := by
  refine ⟨?_, fun _ => Fourier.lawful, ?_⟩
  · intro R sound lawful size least
    have keeps (blocks : List (List R)) := keeps_heard sound least blocks
    have wave (blocks : List (List R)) := waveform_heard lawful least blocks
    refine ⟨fun blocks => ⟨(keeps blocks).history, wave blocks, (keeps blocks).buffer,
      (keeps blocks).byteLength⟩, ?_⟩
    intro blocks others same
    rw [(keeps blocks).history, (keeps others).history, wave, wave, stream, stream, same]
    exact ⟨rfl, rfl⟩
  · intro σ _ backend next devices options start made moves now index id analyser sound rack held
    obtain ⟨rfl, empty⟩ := Rack.new_empty made
    have attuned : start.Attuned start.options fun _ => True := Rack.attuned_of_empty empty _
    have here := ((attuned.run moves).reached now index).pollPending index
    have pictures := (here.slots index).pictures id analyser held
    have same : rack.options = start.options := here.options
    have own : (rack.slot index).Pictures rack.options.services.transform
        (True ∧ start.Rebuilds moves) analyser := same ▸ pictures
    obtain ⟨size, listed, blocks, rfl⟩ := pictures.heard
    refine ⟨⟨size, listed, blocks, rfl, ?_⟩, fun made => pictures.lit ⟨trivial, made⟩,
      fun texture shown => Rack.replaces held own shown now⟩
    have next := rack.hears_heard id size blocks
    rwa [same] at next

/-- A microphone that is there at once. -/
def microphoneMoves : List (Move Headless) :=
  [.call (.host (.plan [.ready])), .call (.bind 0 (.microphone 64))]

open Analyser in
/-- Three blocks, one of them empty, and a channel that is about to hear its first. -/
theorem microphones_keep_up_opened :
    let sound := Fourier.sound Halving.discrete
    let options : RackOptions := { RackOptions.bare with services := .plain }
    let silent := ofSize .zero 64
    sound.Lawful ∧
      (heard sound 4 [[Single.one], [], [.zero, .one]]).history = [.zero, .one, .zero, .one] ∧
      (heard sound 4 [[Single.one], [], [.zero, .one]]).buffer.toList.drop 2 = [128, 255] ∧
      ∃ start next, Rack.new (Headless.new (fun _ => none) 4 4) Devices.none options =
          (.ok start, next) ∧ start.Rebuilds microphoneMoves ∧
        let rack := ((microphoneMoves.foldl Rack.move start).reached 0 0).pollPending 0
        (rack.slot 0).source = .microphone 0 silent ∧
          ∃ texture, (rack.slot 0).texture = some texture ∧
            rack.Replaces 0 0 texture (rack.hears 0 silent).desc (rack.hears 0 silent).buffer := by
  intro sound options silent
  obtain ⟨sounds, lawful, racks⟩ := microphones_keep_up
  have total := lawful _ Halving.total
  obtain ⟨history, waveform, _, _⟩ :=
    (sounds Single sound total 4 (by decide)).1 [[.one], [], [.zero, .one]]
  have made : Rack.new (Headless.new (fun _ => none) 4 4) Devices.none options = (.ok _, _) := rfl
  refine ⟨total, history.trans (by decide), waveform.trans (by decide +kernel), _, _, made, ?_, rfl,
    ?_⟩
  · exact ⟨nofun, nofun, trivial⟩
  · obtain ⟨_, lit, replaces⟩ :=
      racks Headless _ _ _ _ _ made microphoneMoves 0 0 0 silent rfl
    obtain ⟨texture, shown⟩ := Option.isSome_iff_exists.mp (lit ⟨nofun, nofun, trivial⟩)
    exact ⟨texture, shown, replaces texture shown⟩

end LiveFragment.Channel
