import LiveFragment.Proofs.Channel.Apart
import LiveFragment.Proofs.Channel.Resources
import LiveFragment.Proofs.Files.Extension

namespace LiveFragment

open LiveFragment.Backend LiveFragment.Files LiveFragment.Media

namespace Media.Devices

/-- The host answers at once exactly when its plan does not say otherwise. -/
theorem acquire_plan (devices : Devices) (wanted : Wanted) :
    (∃ id, (devices.acquire wanted).1 = .inFlight id) ↔
      devices.plan.head? = some .pending := by
  unfold acquire
  cases devices.plan with
  | nil => simp
  | cons opening rest => cases opening <;> simp

end Media.Devices

/-- A texture call that ends with an error. -/
inductive Backend.RefusesTexture {σ : Type} [Backend σ] (backend : σ) (error : BackendError) : Prop
  | create (desc : TextureDesc) (pixels : Bytes)
    (refused : (Backend.createTexture backend desc pixels).1 = .error error)
  | update (handle : TextureHandle) (desc : TextureDesc) (pixels : Bytes)
    (refused : (Backend.updateTexture backend handle desc pixels).1 = .error error)

namespace Channel

theorem Slot.upload_declined {σ : Type} [Backend σ] {slot : Slot} {backend : σ} {desc : TextureDesc}
    {pixels : Bytes} {error : BackendError}
    (failed : (slot.upload backend desc pixels).1 = .error error) :
    RefusesTexture backend error := by
  have allocated (failed : (slot.allocate backend desc pixels).1 = .error error) :
      RefusesTexture backend error := by
    refine .create desc pixels ?_
    unfold allocate at failed
    split at failed
    · rename_i refused
      rw [refused]
      exact congrArg Except.error (Except.error.inj failed)
    · cases failed
  unfold upload at failed
  split at failed
  · exact allocated failed
  · rename_i handle _
    split at failed
    · refine .update handle desc pixels ?_
      split at failed
      · rename_i refused
        rw [refused]
        exact failed
      · cases failed
    · exact allocated failed

/-- A library name says what kind the file has that it stands for. -/
theorem Request.kind_of_resolved {options : RackOptions} {request resolved : Request}
    (found : resolveRequest options request = .ok resolved) : resolved.kind = request.kind := by
  cases request with
  | library name =>
    simp only [resolveRequest] at found
    split at found
    · cases found
    · split at found
      · cases found
      · rename_i path located
        have same := Library.isVideo_of_located located
        split at found
        · rename_i played
          obtain rfl := Except.ok.inj found
          simp only [kind, ← same, if_pos played]
        · rename_i shown
          obtain rfl := Except.ok.inj found
          simp only [kind, ← same, if_neg shown]
  | _ =>
    cases found
    rfl

theorem resolveRequest_ne_library {options : RackOptions} {request : Request} {name : String} :
    resolveRequest options request ≠ .ok (.library name) := by
  intro found
  cases request with
  | library name =>
    simp only [resolveRequest] at found
    split at found
    · cases found
    · split at found
      · cases found
      · split at found <;> cases found
  | _ => cases found

theorem wanted?_of_unresolved {options : RackOptions} {request : Request} {error : AcquireError}
    (missing : resolveRequest options request = .error error) : request.wanted? = none := by
  cases request with
  | library name => rfl
  | _ => cases missing

theorem Pending.source_kind (pending : Pending) (id : Nat) :
    (pending.source id).kind = pending.kind := by
  cases pending <;> rfl

theorem Pushed.pending_kind {id : Nat} {frame : Frame} {slot next : Slot}
    (pushed : Pushed id frame slot next) :
    next.pending.map Pending.kind = slot.pending.map Pending.kind := by
  cases pushed with
  | waiting held =>
    rw [held]
    rfl
  | _ => rfl

namespace Rack

variable {σ : Type}

/-- The kinds of the acquisitions in flight. -/
def inFlight (rack : Rack σ) (index : Fin 4) : Option Kind :=
  (rack.slot index).pending.map Pending.kind

theorem inFlight_setSlot (rack : Rack σ) (index : Fin 4) (slot : Slot) :
    (rack.setSlot index slot).inFlight =
      Function.update rack.inFlight index (slot.pending.map Pending.kind) :=
  map_slot_setSlot (fun slot => slot.pending.map Pending.kind) rack index slot

theorem inFlight_eq_none {rack : Rack σ} {index : Fin 4} :
    rack.inFlight index = none ↔ (rack.slot index).pending = none :=
  Option.map_eq_none_iff

/-- Whether the host takes up what a request asks for, to answer later. -/
def defers (rack : Rack σ) (request : Request) : Bool :=
  request.wanted?.isSome && rack.devices.plan.head? == some .pending

theorem defers_of_dead {rack : Rack σ} {request : Request} (dead : request.wanted? = none) :
    rack.defers request = false := by
  rw [defers, dead]
  rfl

/-- There is no news, and nothing comes into flight or out of it. -/
structure Quiet (before after : Rack σ) : Prop where
  events : after.events = before.events
  inFlight : after.inFlight = before.inFlight

namespace Quiet

theorem refl (rack : Rack σ) : Quiet rack rack := ⟨rfl, rfl⟩

theorem trans {first second third : Rack σ} (before : Quiet first second)
    (after : Quiet second third) : Quiet first third :=
  ⟨after.events.trans before.events, after.inFlight.trans before.inFlight⟩

theorem setSlot (rack : Rack σ) {index : Fin 4} {slot : Slot}
    (pending : slot.pending = (rack.slot index).pending) :
    Quiet rack (rack.setSlot index slot) where
  events := rfl
  inFlight := by
    rw [inFlight_setSlot, pending]
    exact Function.update_eq_self index _

end Quiet

/-- A source of a kind comes to a channel without any news; a refused one leaves all as it is. -/
structure Fills {ε : Type} (before : Rack σ) (index : Fin 4) (kind : Kind)
    (step : Except ε Unit × Rack σ) : Prop where
  quiet : Quiet before step.2
  source : step.1 = .ok () → (step.2.slot index).source.kind = kind

theorem setSource_fills {ε : Type} {before after : Rack σ} (quiet : Quiet before after)
    (index : Fin 4) (source : Source) :
    Fills before index source.kind ((.ok (), after.setSource index source) :
      Except ε Unit × Rack σ) where
  quiet := quiet.trans (.setSlot after rfl)
  source _ := by rw [setSource, slot_setSlot_self]

variable [Backend σ]

theorem onSlot_upload_quiet (rack : Rack σ) (index : Fin 4) (desc : TextureDesc) (pixels : Bytes) :
    Quiet rack (rack.onSlot index fun slot backend => slot.upload backend desc pixels).2 := by
  obtain ⟨_, pending⟩ := (rack.slot index).upload_keeps rack.backend desc pixels
  have same := Quiet.setSlot rack pending
  exact ⟨same.events, same.inFlight⟩

omit [Backend σ] in
theorem Installed.fills {before : Rack σ} {index : Fin 4} {source : Source}
    {step : Except BackendError Unit × Rack σ} (installed : Installed before index source step) :
    Fills before index source.kind step := by
  cases installed with
  | step slot backend shown pending =>
    have same := Quiet.setSlot before pending
    refine ⟨⟨same.events, same.inFlight⟩, ?_⟩
    rintro rfl
    rw [slot_withBackend, slot_setSlot_self, shown]
    rfl

theorem showFrame_quiet (rack : Rack σ) (index : Fin 4) (frame : Frame) :
    Quiet rack (rack.showFrame index frame).2 := by
  unfold showFrame
  split
  · exact onSlot_upload_quiet ..
  · exact ⟨rfl, rfl⟩

/-- What becomes of a request: it fails, or the channel is filled, or it waits. There is no news
yet. -/
inductive Started (before : Rack σ) (index : Fin 4) (kind : Kind) :
    Bool → Except AcquireError Unit × Rack σ → Prop
  | failed {error : AcquireError} {after : Rack σ} (quiet : Quiet before after) :
    Started before index kind false (.error error, after)
  | filled {after : Rack σ} (quiet : Quiet before after)
    (source : (after.slot index).source.kind = kind) :
    Started before index kind false (.ok (), after)
  | waits {after : Rack σ} (events : after.events = before.events)
    (inFlight : after.inFlight = Function.update before.inFlight index (some kind)) :
    Started before index kind true (.ok (), after)

omit [Backend σ] in
theorem Fills.started {before : Rack σ} {index : Fin 4} {kind : Kind}
    {step : Except AcquireError Unit × Rack σ} (fills : Fills before index kind step) :
    Started before index kind false step := by
  obtain ⟨result, after⟩ := step
  cases result with
  | error error => exact .failed fills.quiet
  | ok => exact .filled fills.quiet (fills.source rfl)

omit [Backend σ] in
theorem Fills.ofBackend {before : Rack σ} {index : Fin 4} {kind : Kind}
    {step : Except BackendError Unit × Rack σ} (fills : Fills before index kind step) :
    Fills before index kind (Rack.ofBackend step) := by
  obtain ⟨result, after⟩ := step
  cases result with
  | error error => exact ⟨fills.quiet, nofun⟩
  | ok => exact ⟨fills.quiet, fun _ => fills.source rfl⟩

theorem showImage_fills (rack : Rack σ) (index : Fin 4) (frame : Frame) :
    Fills rack index .image
      (match rack.showFrame index frame with
      | (.error error, rack) =>
        ((.error (.ofBackend error), rack) : Except AcquireError Unit × Rack σ)
      | (.ok (), rack) => (.ok (), rack.setSource index .image)) := by
  have quiet := showFrame_quiet rack index frame
  split
  · rename_i refused
    rw [refused] at quiet
    exact ⟨quiet, nofun⟩
  · rename_i accepted
    rw [accepted] at quiet
    exact setSource_fills quiet index .image

theorem openLive_started (rack : Rack σ) (index : Fin 4) (wanted : Wanted)
    {pending : Nat → Pending} {kind : Kind} (same : ∀ id, (pending id).kind = kind) :
    Started rack index kind (rack.devices.plan.head? == some .pending)
      (rack.openLive index wanted pending) := by
  have planned := rack.devices.acquire_plan wanted
  have atOnce {outcome : Except AcquireError Nat} {devices : Devices}
      (acquired : rack.devices.acquire wanted = (.ready outcome, devices)) :
      (rack.devices.plan.head? == some .pending) = false := by
    rw [acquired] at planned
    simpa using planned
  unfold openLive
  split
  · rename_i acquired
    rw [atOnce acquired]
    exact .failed ⟨rfl, rfl⟩
  · rename_i id devices acquired
    have filled := (install_installed { rack with devices } index ((pending id).source id)).fills
    rw [Pending.source_kind, same] at filled
    have started := filled.ofBackend
    rw [atOnce acquired]
    exact Fills.started ⟨⟨started.quiet.events, started.quiet.inFlight⟩, started.source⟩
  · rename_i id devices acquired
    rw [acquired] at planned
    rw [beq_iff_eq.mpr (planned.mp ⟨id, rfl⟩)]
    refine .waits rfl ?_
    rw [setPending, inFlight_setSlot, Option.map_some, same]
    rfl

theorem acquire_started (rack : Rack σ) (index : Fin 4) (request : Request) :
    Started rack index request.kind (rack.defers request) (rack.acquire index request) := by
  have dead {resolved : Request} (found : resolveRequest rack.options request = .ok resolved)
      (dead : resolved.wanted? = none) : rack.defers request = false :=
    defers_of_dead ((wanted?_of_resolved found).trans dead)
  have live {resolved : Request} (found : resolveRequest rack.options request = .ok resolved)
      {wanted : Wanted} (asks : resolved.wanted? = some wanted) :
      rack.defers request = (rack.devices.plan.head? == some .pending) := by
    rw [defers, wanted?_of_resolved found, asks]
    rfl
  unfold acquire
  split
  · rename_i missing
    rw [defers_of_dead (wanted?_of_unresolved missing)]
    exact .failed (.refl rack)
  · rename_i path resolved
    rw [← Request.kind_of_resolved resolved, dead resolved rfl]
    split
    · exact .failed (.refl rack)
    · exact (showImage_fills ..).started
  · rename_i path resolved
    rw [← Request.kind_of_resolved resolved, dead resolved rfl]
    split
    · exact .failed (.refl rack)
    · rename_i playback _
      exact (setSource_fills (.refl rack) index (.video playback)).started
  · rename_i frame resolved
    rw [← Request.kind_of_resolved resolved, dead resolved rfl]
    split
    · exact .failed (.refl rack)
    · exact (showImage_fills ..).started
  · rename_i device resolved
    rw [← Request.kind_of_resolved resolved, live resolved rfl]
    exact openLive_started rack index _ fun _ => rfl
  · rename_i size resolved
    rw [← Request.kind_of_resolved resolved]
    split
    · rename_i supported
      rw [live resolved (if_pos supported)]
      exact openLive_started rack index _ fun _ => rfl
    · rename_i unsupported
      rw [dead resolved (if_neg unsupported)]
      exact .failed (.refl rack)
  · rename_i source resolved
    rw [← Request.kind_of_resolved resolved, live resolved rfl]
    exact openLive_started rack index _ fun _ => rfl
  · rename_i pattern resolved
    rw [← Request.kind_of_resolved resolved, dead resolved rfl]
    generalize Noise.picture (rack.random index) pattern rack.options.noiseSize = frame
    have started := (showing_installed { rack with generators := rack.generators + 1 } index .noise
      (.rgba frame.width frame.height) frame.pixels).fills.ofBackend
    exact Fills.started ⟨⟨started.quiet.events, started.quiet.inFlight⟩, started.source⟩
  · rename_i name resolved
    exact absurd resolved resolveRequest_ne_library

/-- What a channel has when there is news about it: the source that was asked for, and nothing in
flight; or nothing at all, and the program samples the placeholder. -/
def Bears (rack : Rack σ) (index : Fin 4) (kind : Kind) : Except AcquireError Unit → Prop
  | .ok () => (rack.slot index).source.kind = kind ∧ (rack.slot index).pending = none
  | .error _ => rack.slot index = .empty ∧ rack.sampled index = rack.placeholder

/-- What a rack tells of an acquisition for a channel: its outcome, or nothing while it waits. -/
inductive Told (before : Rack σ) (index : Fin 4) (kind : Kind) (after : Rack σ) :
    Option (Except AcquireError Unit) → Prop
  | news {outcome : Except AcquireError Unit}
    (events : after.events = before.events ++ [⟨index.val, kind, outcome⟩])
    (inFlight : after.inFlight = Function.update before.inFlight index none)
    (bears : after.Bears index kind outcome) : Told before index kind after (some outcome)
  | waits (events : after.events = before.events)
    (inFlight : after.inFlight = Function.update before.inFlight index (some kind)) :
    Told before index kind after none

theorem teardown_inFlight (rack : Rack σ) (index : Fin 4) :
    (rack.teardown index).inFlight = Function.update rack.inFlight index none :=
  inFlight_setSlot rack index .empty

theorem told_failure {before after : Rack σ} {index : Fin 4} (kind : Kind) (error : AcquireError)
    (events : after.events = before.events)
    (inFlight : Function.update after.inFlight index none =
      Function.update before.inFlight index none) :
    Told before index kind ((after.teardown index).report index kind (.error error))
      (some (.error error)) := by
  have empty : (after.teardown index).slot index = .empty := teardown_slot after index
  refine .news ?_ ?_ ⟨empty, ?_⟩
  · rw [← events]
    rfl
  · rw [← inFlight]
    exact teardown_inFlight after index
  · have dark : (((after.teardown index).report index kind (.error error)).slot index).texture =
        none := congrArg Slot.texture empty
    rw [sampled_eq, dark]
    rfl

omit [Backend σ] in
/-- A success is told when the source is there and nothing is in flight. -/
theorem told_success {before after : Rack σ} {index : Fin 4} {kind : Kind}
    (events : after.events = before.events)
    (inFlight : after.inFlight = Function.update before.inFlight index none)
    (source : (after.slot index).source.kind = kind) :
    Told before index kind (after.report index kind (.ok ())) (some (.ok ())) := by
  refine .news ?_ inFlight ⟨source, ?_⟩
  · rw [← events]
    rfl
  · apply inFlight_eq_none.mp
    rw [← Function.update_self index none before.inFlight, ← inFlight]
    rfl

/-- What a bind tells, once the channel is taken down: nothing exactly when the host is to answer
later. -/
theorem bind_told (rack : Rack σ) {number : Nat} {index : Fin 4}
    (named : checkIndex number = .ok index) (request : Request) :
    ∃ told, Told (rack.teardown index) index request.kind (rack.bind number request).2 told ∧
      (told = none ↔ (rack.teardown index).defers request = true) := by
  have free : Function.update (rack.teardown index).inFlight index none =
      (rack.teardown index).inFlight := by rw [teardown_inFlight, Function.update_idem]
  have started := acquire_started (rack.teardown index) index request
  simp only [Rack.bind, named]
  cases acquired : (rack.teardown index).acquire index request with
  | mk result after =>
    rw [acquired] at started
    let filed := after.setSlot index { after.slot index with request := some request }
    have placed : Quiet after filed := .setSlot after rfl
    generalize (rack.teardown index).defers request = deferred at started
    cases started with
    | failed quiet =>
      refine ⟨_, told_failure _ _ quiet.events ?_, by simp⟩
      rw [quiet.inFlight]
    | filled quiet source =>
      have inFlight : filed.inFlight = Function.update (rack.teardown index).inFlight index none :=
        (quiet.trans placed).inFlight.trans free.symm
      have idle : (filed.slot index).pending = none := by
        rw [← inFlight_eq_none, inFlight, Function.update_self]
      have filled : (filed.slot index).source.kind = request.kind := by
        rw [slot_setSlot_self]
        exact source
      dsimp only
      rw [if_pos (Option.isNone_iff_eq_none.mpr idle)]
      exact ⟨_, told_success (quiet.trans placed).events inFlight filled, by simp⟩
    | waits events inFlight =>
      have waiting := placed.inFlight.trans inFlight
      have busy : (filed.slot index).pending ≠ none := by
        rw [ne_eq, ← inFlight_eq_none, waiting, Function.update_self]
        exact Option.some_ne_none _
      dsimp only
      rw [if_neg (mt Option.isNone_iff_eq_none.mp busy)]
      exact ⟨none, .waits (placed.events.trans events) waiting, by simp⟩

theorem showing_refused {rack after : Rack σ} {index : Fin 4} {source : Source}
    {desc : TextureDesc} {pixels : Bytes} {error : BackendError}
    (refused : rack.showing index source desc pixels = (.error error, after)) :
    RefusesTexture rack.backend error := by
  have failed : ((rack.slot index).upload rack.backend desc pixels).1 = .error error := by
    simp only [showing, onSlot] at refused
    split at refused
    · rename_i failed
      exact (congrArg Prod.fst failed).trans (congrArg Prod.fst refused)
    · cases refused
  exact Slot.upload_declined failed

/-- A camera is always taken; another source needs a texture that the backend may refuse. -/
theorem install_refused {rack after : Rack σ} {index : Fin 4} {pending : Pending} {id : Nat}
    {error : BackendError}
    (refused : rack.install index (pending.source id) = (.error error, after)) :
    pending.kind ≠ .camera ∧ RefusesTexture rack.backend error := by
  cases pending with
  | camera number => cases refused
  | microphone number size => exact ⟨nofun, showing_refused refused⟩
  | stream number latest =>
    refine ⟨nofun, ?_⟩
    simp only [install, Pending.source] at refused
    split at refused
    · rename_i failed
      obtain ⟨same, -⟩ := Prod.mk.inj refused
      exact showing_refused (failed.trans (congrArg (·, _) same))
    · cases refused

/-- What is told of an acquisition that has ended: its error, or the success of showing what it
brought. -/
inductive Yields (backend : σ) (kind : Kind) :
    Except AcquireError Nat → Except AcquireError Unit → Prop
  | failure (error : AcquireError) : Yields backend kind (.error error) (.error error)
  | success (id : Nat) : Yields backend kind (.ok id) (.ok ())
  | refused (id : Nat) {error : BackendError} (shown : kind ≠ .camera)
    (refuses : RefusesTexture backend error) :
    Yields backend kind (.ok id) (.error (.ofBackend error))

section Polls

variable {rack : Rack σ} {index : Fin 4} {pending : Pending}

/-- The rack when the end of an acquisition has been fetched. -/
def vacated (rack : Rack σ) (index : Fin 4) (id : Nat) : Rack σ :=
  setPending { rack with devices := (rack.devices.poll id).2 } index none

theorem pollPending_eq (waits : (rack.slot index).pending = some pending) :
    rack.pollPending index =
      match (rack.devices.poll pending.id).1 with
      | none => { rack with devices := (rack.devices.poll pending.id).2 }
      | some (.error error) =>
        ((rack.vacated index pending.id).teardown index).report index pending.kind (.error error)
      | some (.ok resource) =>
        match (rack.vacated index pending.id).install index (pending.source resource) with
        | (.ok (), rack) => rack.report index pending.kind (.ok ())
        | (.error error, rack) =>
          (rack.teardown index).report index pending.kind (.error (.ofBackend error)) := by
  unfold pollPending vacated
  rw [waits]
  dsimp only
  rcases rack.devices.poll pending.id with ⟨_ | _ | _, devices⟩ <;> rfl

theorem pollPending_waits (waits : (rack.slot index).pending = some pending)
    (polled : (rack.devices.poll pending.id).1 = none) :
    rack.pollPending index = { rack with devices := (rack.devices.poll pending.id).2 } := by
  rw [pollPending_eq waits, polled]

/-- An acquisition that fails empties its channel. -/
theorem pollPending_fails (waits : (rack.slot index).pending = some pending) {error : AcquireError}
    (polled : (rack.devices.poll pending.id).1 = some (.error error)) :
    rack.pollPending index = ((rack.vacated index pending.id).teardown index).report index
      pending.kind (.error error) := by
  rw [pollPending_eq waits, polled]

theorem pollPending_brings (waits : (rack.slot index).pending = some pending) {resource : Nat}
    (polled : (rack.devices.poll pending.id).1 = some (.ok resource)) :
    rack.pollPending index =
      match (rack.vacated index pending.id).install index (pending.source resource) with
      | (.ok (), rack) => rack.report index pending.kind (.ok ())
      | (.error error, rack) =>
        (rack.teardown index).report index pending.kind (.error (.ofBackend error)) := by
  rw [pollPending_eq waits, polled]

/-- Once an acquisition has ended, a poll tells of it. -/
theorem pollPending_told (waits : (rack.slot index).pending = some pending)
    {ending : Except AcquireError Nat}
    (polled : (rack.devices.poll pending.id).1 = some ending) :
    ∃ outcome, Told rack index pending.kind (rack.pollPending index) (some outcome) ∧
      Yields rack.backend pending.kind ending outcome := by
  have settled : (rack.vacated index pending.id).inFlight =
      Function.update rack.inFlight index none :=
    inFlight_setSlot { rack with devices := (rack.devices.poll pending.id).2 } index _
  cases ending with
  | error error =>
    rw [pollPending_fails waits polled]
    refine ⟨_, told_failure _ _ rfl ?_, .failure error⟩
    rw [settled, Function.update_idem]
  | ok resource =>
    have filled := (install_installed (rack.vacated index pending.id) index
      (pending.source resource)).fills
    rw [Pending.source_kind] at filled
    rw [pollPending_brings waits polled]
    split
    · rename_i accepted
      rw [accepted] at filled
      exact ⟨_, told_success filled.quiet.events (filled.quiet.inFlight.trans settled)
        (filled.source rfl), .success resource⟩
    · rename_i error after refused
      rw [refused] at filled
      obtain ⟨shown, refuses⟩ := install_refused refused
      refine ⟨_, told_failure _ _ filled.quiet.events ?_, .refused resource shown refuses⟩
      rw [filled.quiet.inFlight, settled, Function.update_idem]

end Polls

theorem refreshSlot_quiet (rack : Rack σ) (index : Fin 4) (now : Nat) :
    Quiet rack (rack.refreshSlot index now) := by
  have ready (devices : Devices) (source : Source) :
      Quiet rack (setSource { rack with devices } index source) :=
    ⟨rfl, (Quiet.setSlot { rack with devices } (by rfl)).inFlight⟩
  unfold refreshSlot
  split
  · exact (ready _ _).trans (onSlot_upload_quiet ..)
  · dsimp only
    split
    · exact ready _ _
    · split
      · exact (ready _ _).trans (showFrame_quiet ..)
      · exact ready _ _

omit [Backend σ] in
theorem host_quiet (rack : Rack σ) (step : HostStep) : Quiet rack (rack.host step) := by
  cases step with
  | pushStream id frame =>
    obtain ⟨change, pushed, after⟩ := pushStream_eq rack id frame
    simp only [Rack.host, after]
    refine ⟨rfl, ?_⟩
    funext index
    simp only [Rack.inFlight, slot_mapSlots, (pushed _).pending_kind]
  | _ => exact ⟨rfl, rfl⟩

theorem rebuildSlots_quiet (rack : Rack σ) (indices : List (Fin 4)) :
    Quiet rack (rack.rebuildSlots indices).2 :=
  rebuildSlots_induction
    (fun before _ _ _ quiet => quiet.trans ⟨rfl, (Quiet.setSlot before (by rfl)).inFlight⟩)
    (.refl rack) indices

theorem rebuild_quiet (rack : Rack σ) : Quiet rack rack.rebuild.2 := by
  unfold rebuild
  split
  · exact ⟨rfl, rfl⟩
  · rename_i placeholder backend _
    have later := rebuildSlots_quiet { rack with backend, placeholder } (List.finRange 4)
    exact ⟨later.events, later.inFlight⟩

end Rack

end Channel

end LiveFragment
