import LiveFragment.Channel.Rack
import LiveFragment.Proofs.Backend.Books

namespace LiveFragment

open LiveFragment.Number LiveFragment.Backend LiveFragment.Media

namespace Channel

/-- Options without a library and without services, for noise of one pixel. -/
def RackOptions.bare : RackOptions := ⟨none, 1, none, default, default⟩

/-- What the host does to the live inputs. A plan says how the next openings end. -/
inductive HostStep
  | plan (openings : List Opening)
  | complete (id : Nat) (error : Option AcquireError)
  | abandon (id : Nat)
  | pushFrame (id : Nat) (frame : Frame)
  | pushSamples (id : Nat) (samples : List Single)
  | pushStream (id : Nat) (frame : Frame)

/-- A call of a rack, or a step of its host. -/
inductive Step
  | bind (index : Nat) (request : Request)
  | unbind (index : Nat)
  | refresh (now : Nat)
  | takeEvents
  | host (step : HostStep)

/-- A frame whose number of bytes is not counted with a wrap. -/
def Request.Fits : Request → Prop
  | .pixels frame => frame.byteCount < UInt64.size
  | _ => True

def HostStep.Fits : HostStep → Prop
  | .pushFrame _ frame | .pushStream _ frame => frame.byteCount < UInt64.size
  | _ => True

def Step.Fits : Step → Prop
  | .bind _ request => request.Fits
  | .host step => step.Fits
  | _ => True

theorem Request.Fits.of_resolved {options : RackOptions} {request : Request} {frame : Frame}
    (fits : request.Fits) (resolved : resolveRequest options request = .ok (.pixels frame)) :
    frame.byteCount < UInt64.size := by
  cases request with
  | library name =>
    simp only [resolveRequest] at resolved
    split at resolved
    · cases resolved
    · split at resolved
      · cases resolved
      · split at resolved <;> cases resolved
  | _ =>
    cases resolved
    try exact fits

/-- What a pushed frame does to a slot: the newest frame of a stream is replaced, or that of a
stream that is still to come. -/
inductive Pushed (id : Nat) (frame : Frame) (slot : Slot) : Slot → Prop
  | shown {latest : Option Frame} (held : slot.source = .stream id latest) :
    Pushed id frame slot { slot with source := .stream id (some frame) }
  | waiting {latest : Option Frame} (held : slot.pending = some (.stream id latest)) :
    Pushed id frame slot { slot with pending := some (.stream id (some frame)) }
  | other : Pushed id frame slot slot

namespace Pushed

variable {id : Nat} {frame : Frame} {slot next : Slot}

theorem texture (pushed : Pushed id frame slot next) : next.texture = slot.texture := by
  cases pushed <;> rfl

theorem uploaded (pushed : Pushed id frame slot next) : next.uploaded = slot.uploaded := by
  cases pushed <;> rfl

end Pushed

theorem checkIndex_ok {number : Nat} {index : Fin 4} (named : checkIndex number = .ok index) :
    index.val = number := by
  unfold checkIndex at named
  split at named
  · obtain rfl := Except.ok.inj named
    rfl
  · cases named

namespace Rack

variable {σ : Type}

def host (rack : Rack σ) : HostStep → Rack σ
  | .plan openings => { rack with devices := { rack.devices with plan := openings } }
  | .complete id error => { rack with devices := (rack.devices.complete id error).2 }
  | .abandon id => { rack with devices := (rack.devices.abandon id).2 }
  | .pushFrame id frame => { rack with devices := rack.devices.pushFrame id frame }
  | .pushSamples id samples => { rack with devices := rack.devices.pushSamples id samples }
  | .pushStream id frame => (rack.pushStream id frame).2

/-- An analyser once it has heard what its microphone recorded. -/
def hears (rack : Rack σ) (id : Nat) (analyser : Analyser Single) : Analyser Single :=
  analyser.process (Fourier.sound rack.options.services.transform) (rack.devices.drain id).1

theorem slot_withBackend (rack : Rack σ) (backend : σ) (index : Fin 4) :
    Rack.slot { rack with backend } index = rack.slot index := rfl

theorem slot_report (rack : Rack σ) (channel : Fin 4) (kind : Kind)
    (outcome : Except AcquireError Unit) (index : Fin 4) :
    (rack.report channel kind outcome).slot index = rack.slot index := rfl

theorem slot_setSlot (rack : Rack σ) (index other : Fin 4) (slot : Slot) :
    (rack.setSlot index slot).slot other = if other = index then slot else rack.slot other := by
  by_cases same : other = index
  · simp [setSlot, same]
  · have apart : index.val ≠ other.val := fun equal => same (Fin.ext equal.symm)
    simp [setSlot, same, Vector.getElem_set_ne _ _ apart]

@[simp]
theorem slot_setSlot_self (rack : Rack σ) (index : Fin 4) (slot : Slot) :
    (rack.setSlot index slot).slot index = slot := by
  rw [slot_setSlot, if_pos rfl]

/-- A channel has another texture, or none, and the backend has gone on. -/
def remade (rack : Rack σ) (index : Fin 4) (texture : Option TextureHandle) (backend : σ) :
    Rack σ :=
  { rack.setSlot index { rack.slot index with texture } with backend }

theorem slot_remade (rack : Rack σ) (index other : Fin 4) (texture : Option TextureHandle)
    (backend : σ) : (rack.remade index texture backend).slot other =
      { rack.slot other with
        texture := if other = index then texture else (rack.slot other).texture } := by
  rw [remade, slot_withBackend, slot_setSlot]
  split
  · rename_i same
    rw [same]
  · rfl

theorem map_slot_setSlot {α : Type} (read : Slot → α) (rack : Rack σ) (index : Fin 4)
    (slot : Slot) :
    (fun other : Fin 4 => read ((rack.setSlot index slot).slot other)) =
      Function.update (fun other : Fin 4 => read (rack.slot other)) index (read slot) := by
  funext other
  rw [Function.update_apply, slot_setSlot]
  split <;> rfl

theorem setSlot_self (rack : Rack σ) (index : Fin 4) :
    rack.setSlot index (rack.slot index) = rack := by
  simp [setSlot]

theorem setSlot_again (rack : Rack σ) (backend : σ) (index : Fin 4) (slot next : Slot) :
    Rack.setSlot { rack.setSlot index slot with backend } index next =
      { rack.setSlot index next with backend } := by
  simp only [setSlot, Vector.set_set]

theorem slot_mapSlots (rack : Rack σ) (change : Slot → Slot) (index : Fin 4) :
    Rack.slot { rack with slots := rack.slots.map change } index = change (rack.slot index) := by
  simp only [Fin.getElem_fin, Vector.getElem_map]

/-- A program samples the texture of a channel, or else the placeholder. -/
theorem sampled_eq (rack : Rack σ) (index : Fin 4) :
    rack.sampled index = (rack.slot index).texture.getD rack.placeholder := by
  simp only [textures, Fin.getElem_fin, Vector.getElem_map]

theorem exists_sampled {rack : Rack σ} {handle : TextureHandle}
    (listed : handle ∈ rack.textures.toList) : ∃ index : Fin 4, rack.sampled index = handle := by
  obtain ⟨number, bound, rfl⟩ := List.mem_iff_getElem.mp listed
  have real : number < 4 := by simpa using bound
  exact ⟨⟨number, real⟩, (Vector.getElem_toList bound).symm⟩

/-- A push changes nothing but the slots, and each of them as a push does. -/
theorem pushStream_eq (rack : Rack σ) (id : Nat) (frame : Frame) :
    ∃ change : Slot → Slot, (∀ slot, Pushed id frame slot (change slot)) ∧
      (rack.pushStream id frame).2 = { rack with slots := rack.slots.map change } := by
  have unchanged : { rack with slots := rack.slots.map fun slot => slot } = rack := by simp
  simp only [pushStream]
  split
  · split
    · refine ⟨_, ?_, rfl⟩
      rintro ⟨source, pending, request, texture, uploaded, resolution⟩
      cases source with
      | stream held latest =>
        by_cases same : held = id
        · subst same
          simpa using Pushed.shown rfl
        · simpa [same] using Pushed.other
      | _ =>
        cases pending with
        | none => exact .other
        | some pending =>
          cases pending with
          | stream held latest =>
            by_cases same : held = id
            · subst same
              simpa using Pushed.waiting rfl
            · simpa [same] using Pushed.other
          | _ => exact .other
    · exact ⟨_, fun _ => .other, unchanged.symm⟩
  · exact ⟨_, fun _ => .other, unchanged.symm⟩

variable [Backend σ]

theorem teardown_slot (rack : Rack σ) (index : Fin 4) :
    (rack.teardown index).slot index = .empty :=
  slot_setSlot_self rack index .empty

def step (rack : Rack σ) : Step → Rack σ
  | .bind index request => (rack.bind index request).2
  | .unbind index => (rack.unbind index).2
  | .refresh now => rack.refresh now
  | .takeEvents => rack.takeEvents.2
  | .host step => rack.host step

theorem pollPending_idle {rack : Rack σ} {index : Fin 4}
    (idle : (rack.slot index).pending = none) : rack.pollPending index = rack := by
  unfold pollPending
  rw [idle]

theorem refresh_induction {P : Rack σ → Prop} {now : Nat} {rack : Rack σ}
    (poll : ∀ rack index, P rack → P (rack.pollPending index))
    (shown : ∀ rack index, P rack → P (rack.refreshSlot index now)) (before : P rack) :
    P (rack.refresh now) := by
  unfold refresh
  generalize List.finRange 4 = indices
  induction indices generalizing rack with
  | nil => exact before
  | cons index rest ih => exact ih (shown _ index (poll _ index before))

/-- One channel is remade, with a texture if it had an upload; then the others, unless the backend
refused. -/
theorem rebuildSlots_cons (rack : Rack σ) (index : Fin 4) (rest : List (Fin 4)) :
    ∃ texture backend,
      (rack.rebuildSlots (index :: rest) = (rack.remade index texture backend).rebuildSlots rest ∧
        ((rack.slot index).uploaded.isSome → texture.isSome)) ∨
      ∃ error, rack.rebuildSlots (index :: rest) =
        (.error error, rack.remade index texture backend) := by
  cases uploaded : (rack.slot index).uploaded with
  | none =>
    refine ⟨none, rack.backend, .inl ⟨?_, id⟩⟩
    simp only [rebuildSlots, uploaded, remade]
    rfl
  | some content =>
    cases created : Backend.createTexture rack.backend content.1 content.2 with
    | mk result backend =>
      cases result with
      | ok texture =>
        refine ⟨some texture, backend, .inl ⟨?_, fun _ => rfl⟩⟩
        simp only [rebuildSlots, uploaded, created, remade]
      | error error =>
        refine ⟨none, backend, .inr ⟨error, ?_⟩⟩
        simp only [rebuildSlots, uploaded, created, remade]

/-- What every channel keeps when it is remade is kept when textures are made again. -/
theorem rebuildSlots_induction {P : Rack σ → Prop} {rack : Rack σ}
    (remade : ∀ rack index texture backend, P rack → P (rack.remade index texture backend))
    (before : P rack) (indices : List (Fin 4)) : P (rack.rebuildSlots indices).2 := by
  induction indices generalizing rack with
  | nil => exact before
  | cons index rest ih =>
    obtain ⟨texture, backend, ⟨goesOn, _⟩ | ⟨error, refused⟩⟩ := rebuildSlots_cons rack index rest
    · rw [goesOn]
      exact ih (remade rack index texture backend before)
    · rw [refused]
      exact remade rack index texture backend before

theorem teardownAll_induction {P : Rack σ → Prop} {rack : Rack σ}
    (teardown : ∀ rack index, P rack → P (rack.teardown index))
    (released : ∀ rack backend, P rack → P { rack with backend }) (before : P rack) :
    P rack.teardownAll := by
  have down (indices : List (Fin 4)) : P (indices.foldl Rack.teardown rack) := by
    induction indices generalizing rack with
    | nil => exact before
    | cons index rest ih => exact ih (teardown rack index before)
  exact released _ _ (down (List.finRange 4))

/-- A property of a rack that one channel keeps: when its slot changes but not its texture, when it
shows something, when it is taken down, and when there is news about it. -/
structure ClosedAt (index : Fin 4) (P : Rack σ → Prop) : Prop where
  setSlot : ∀ rack slot, slot.texture = (rack.slot index).texture →
    slot.uploaded = (rack.slot index).uploaded → P rack → P (rack.setSlot index slot)
  upload : ∀ rack desc pixels, P rack →
    P (rack.onSlot index fun slot backend => slot.upload backend desc pixels).2
  teardown : ∀ rack, P rack → P (rack.teardown index)
  devices : ∀ rack devices, P rack → P { rack with devices }
  generators : ∀ rack count, P rack → P { rack with generators := count }
  broken : ∀ rack, P rack → P { rack with broken := true }
  report : ∀ rack kind outcome, P rack → P (rack.report index kind outcome)

namespace ClosedAt

variable {P : Rack σ → Prop} {index : Fin 4} {rack : Rack σ}

theorem showing (closed : ClosedAt index P) (source : Source) (desc : TextureDesc)
    (pixels : Bytes) (before : P rack) : P (rack.showing index source desc pixels).2 := by
  have uploaded := closed.upload rack desc pixels before
  unfold Rack.showing
  split
  · rename_i refused
    rwa [refused] at uploaded
  · rename_i accepted
    rw [accepted] at uploaded
    exact closed.setSlot _ _ rfl rfl uploaded

theorem install (closed : ClosedAt index P) (source : Source) (before : P rack) :
    P (rack.install index source).2 := by
  unfold Rack.install
  split
  · exact closed.showing _ _ _ before
  · rename_i id latest
    have shown := closed.showing (.stream id latest) (.rgba 1 1) opaqueBlack before
    split
    · rename_i refused
      rwa [refused] at shown
    · rename_i accepted
      rw [accepted] at shown
      exact closed.setSlot _ _ rfl rfl shown
  · exact closed.setSlot _ _ rfl rfl before

theorem showFrame (closed : ClosedAt index P) (frame : Frame) (before : P rack) :
    P (rack.showFrame index frame).2 := by
  unfold Rack.showFrame
  split
  · exact closed.upload _ _ _ before
  · exact closed.broken _ before

theorem showImage (closed : ClosedAt index P) (frame : Frame) (before : P rack) :
    P (match rack.showFrame index frame with
      | (.error error, rack) =>
        ((.error (.ofBackend error), rack) : Except AcquireError Unit × Rack σ)
      | (.ok (), rack) => (.ok (), rack.setSource index .image)).2 := by
  have shown := closed.showFrame frame before
  split
  · rename_i refused
    rwa [refused] at shown
  · rename_i accepted
    rw [accepted] at shown
    exact closed.setSlot _ _ rfl rfl shown

theorem openLive (closed : ClosedAt index P) (wanted : Wanted) (pending : Nat → Pending)
    (before : P rack) : P (rack.openLive index wanted pending).2 := by
  unfold Rack.openLive
  split
  · exact closed.devices _ _ before
  · exact closed.install _ (closed.devices _ _ before)
  · exact closed.setSlot _ _ rfl rfl (closed.devices _ _ before)

theorem acquire (closed : ClosedAt index P) (request : Request) (before : P rack) :
    P (rack.acquire index request).2 := by
  unfold Rack.acquire
  split
  · exact before
  · split
    · exact before
    · exact closed.showImage _ before
  · split
    · exact before
    · exact closed.setSlot _ _ rfl rfl before
  · split
    · exact before
    · exact closed.showImage _ before
  · exact closed.openLive _ _ before
  · split
    · exact closed.openLive _ _ before
    · exact before
  · exact closed.openLive _ _ before
  · exact closed.showing _ _ _ (closed.generators _ _ before)
  · exact before

theorem bind {number : Nat} (closed : ∀ index : Fin 4, index.val = number → ClosedAt index P)
    (request : Request) (before : P rack) : P (rack.bind number request).2 := by
  unfold Rack.bind
  split
  · exact before
  · rename_i index named
    have here := closed index (checkIndex_ok named)
    have acquired := here.acquire request (here.teardown _ before)
    split
    · rename_i after accepted
      rw [accepted] at acquired
      have placed : P (after.setSlot index { after.slot index with request := some request }) :=
        here.setSlot _ _ rfl rfl acquired
      dsimp only
      split
      · exact here.report _ _ _ placed
      · exact placed
    · rename_i refused
      rw [refused] at acquired
      exact here.report _ _ _ (here.teardown _ acquired)

theorem unbind {number : Nat} (closed : ∀ index : Fin 4, index.val = number → ClosedAt index P)
    (before : P rack) : P (rack.unbind number).2 := by
  unfold Rack.unbind
  split
  · exact before
  · rename_i index named
    exact (closed index (checkIndex_ok named)).teardown _ before

theorem pollPending (closed : ClosedAt index P) (before : P rack) :
    P (rack.pollPending index) := by
  unfold Rack.pollPending
  split
  · exact before
  · rename_i pending _
    split
    · exact closed.devices _ _ before
    · rename_i outcome devices _
      have settled : P (setPending { rack with devices } index none) :=
        closed.setSlot _ _ rfl rfl (closed.devices _ _ before)
      dsimp only
      split
      · exact closed.report _ _ _ (closed.teardown _ settled)
      · rename_i resource _
        have installed := closed.install (pending.source resource) settled
        split
        · rename_i accepted
          rw [accepted] at installed
          exact closed.report _ _ _ installed
        · rename_i refused
          rw [refused] at installed
          exact closed.report _ _ _ (closed.teardown _ installed)

theorem refreshSlot (closed : ClosedAt index P) (now : Nat) (before : P rack) :
    P (rack.refreshSlot index now) := by
  have ready (devices : Devices) (source : Source) :
      P (setSource { rack with devices } index source) :=
    closed.setSlot _ _ rfl rfl (closed.devices _ _ before)
  unfold Rack.refreshSlot
  split
  · exact closed.upload _ _ _ (ready _ _)
  · split
    dsimp only
    split
    · exact ready _ _
    · split
      · exact closed.showFrame _ (ready _ _)
      · exact ready _ _

theorem refresh (closed : ∀ index : Fin 4, ClosedAt index P) (now : Nat) (before : P rack) :
    P (rack.refresh now) :=
  refresh_induction (fun _ index => (closed index).pollPending)
    (fun _ index => (closed index).refreshSlot now) before

end ClosedAt

end Rack

section TextureCalls

variable {σ : Type} [Backend σ] {P : σ → Prop} (closed : TextureClosed P)

include closed

namespace Slot

theorem allocate_backend {slot : Slot} {backend : σ} (desc : TextureDesc) (pixels : Bytes)
    (before : P backend) : P (slot.allocate backend desc pixels).2.2 := by
  have created := closed.create backend desc pixels before
  unfold allocate
  split
  · rename_i refused
    rwa [refused] at created
  · rename_i accepted
    rw [accepted] at created
    cases slot.texture with
    | none => exact created
    | some old => exact closed.release _ old created

theorem upload_backend {slot : Slot} {backend : σ} (desc : TextureDesc) (pixels : Bytes)
    (before : P backend) : P (slot.upload backend desc pixels).2.2 := by
  unfold upload
  split
  · exact allocate_backend closed desc pixels before
  · rename_i texture _
    split
    · have updated := closed.update backend texture desc pixels before
      split
      · rename_i refused
        rwa [refused] at updated
      · rename_i accepted
        rwa [accepted] at updated
    · exact allocate_backend closed desc pixels before

end Slot

namespace Rack

theorem new_backend {backend : σ} (devices : Devices) (options : RackOptions)
    (before : P backend) : P (Rack.new backend devices options).2 := by
  have created := closed.create backend (.rgba 1 1) opaqueBlack before
  unfold new
  split
  · rename_i refused
    rwa [refused] at created
  · rename_i accepted
    rwa [accepted] at created

theorem teardown_backend {rack : Rack σ} (index : Fin 4) (before : P rack.backend) :
    P (rack.teardown index).backend := by
  simp only [teardown]
  split
  · exact closed.release _ _ before
  · exact before

theorem closedAt_backend (index : Fin 4) :
    ClosedAt index fun rack : Rack σ => P rack.backend where
  setSlot _ _ _ _ before := before
  upload _ desc pixels before := Slot.upload_backend closed desc pixels before
  teardown _ before := teardown_backend closed index before
  devices _ _ before := before
  generators _ _ before := before
  broken _ before := before
  report _ _ _ before := before

theorem refresh_backend {rack : Rack σ} (now : Nat) (before : P rack.backend) :
    P (rack.refresh now).backend :=
  ClosedAt.refresh (fun index => closedAt_backend closed index) now before

omit closed [Backend σ] in
theorem host_backend (rack : Rack σ) (step : HostStep) :
    (rack.host step).backend = rack.backend := by
  cases step with
  | pushStream id frame =>
    simp only [host, pushStream]
    split
    · split <;> rfl
    · rfl
  | _ => rfl

theorem step_backend {rack : Rack σ} (step : Step) (before : P rack.backend) :
    P (rack.step step).backend := by
  cases step with
  | bind number request =>
    exact ClosedAt.bind (fun index _ => closedAt_backend closed index) request before
  | unbind number => exact ClosedAt.unbind (fun index _ => closedAt_backend closed index) before
  | refresh now => exact refresh_backend closed now before
  | takeEvents => exact before
  | host step => exact (host_backend rack step).symm ▸ before

theorem rebuildSlots_backend {rack : Rack σ} (indices : List (Fin 4)) (before : P rack.backend) :
    P (rack.rebuildSlots indices).2.backend := by
  induction indices generalizing rack with
  | nil => exact before
  | cons index rest ih =>
    simp only [rebuildSlots]
    split
    · exact ih before
    · rename_i desc pixels _
      have created := closed.create rack.backend desc pixels before
      split
      · rename_i refused
        rwa [refused] at created
      · rename_i accepted
        rw [accepted] at created
        exact ih created

theorem rebuild_backend {rack : Rack σ} (before : P rack.backend) :
    P rack.rebuild.2.backend := by
  have created := closed.create rack.backend (.rgba 1 1) opaqueBlack before
  unfold rebuild
  split
  · rename_i refused
    rwa [refused] at created
  · rename_i accepted
    rw [accepted] at created
    exact rebuildSlots_backend closed _ created

end Rack

end TextureCalls

end Channel

end LiveFragment
