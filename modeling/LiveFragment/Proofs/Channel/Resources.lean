import LiveFragment.Backend.Headless
import LiveFragment.Backend.Scheduled
import LiveFragment.Proofs.Channel.Custody
import LiveFragment.Proofs.Channel.Run

/-! The live inputs over whole runs of a rack, on a backend that may refuse any call. Whatever the
rack took over is held, lies in a hand-off that is waited for, or was stopped, each exactly once.
The exception is a resource whose first texture was refused: it is dropped without being stopped. -/

namespace LiveFragment.Channel

open LiveFragment.Backend LiveFragment.Directive LiveFragment.Media

/-- The resource that a source keeps running. -/
def Source.resource? : Source → Option Nat
  | .camera id | .microphone id _ | .stream id _ => some id
  | _ => none

/-- The live input that a request asks for. -/
def Request.wanted? : Request → Option Wanted
  | .camera device => some (.camera device)
  | .microphone size => if analysisSizes.contains size then some .microphone else none
  | .stream source => some (.stream source)
  | _ => none

/-- The resource that an opening gives at once. -/
def granted (devices : Devices) (wanted : Wanted) : List Nat :=
  match (devices.acquire wanted).1 with
  | .ready (.ok id) => [id]
  | _ => []

theorem wanted?_of_resolved {options : RackOptions} {request resolved : Request}
    (found : resolveRequest options request = .ok resolved) :
    request.wanted? = resolved.wanted? := by
  cases request with
  | library name =>
    simp only [resolveRequest] at found
    split at found
    · cases found
    · split at found
      · cases found
      · split at found <;> cases found <;> rfl
  | _ =>
    cases found
    rfl

theorem Source.stop_eq (source : Source) (devices : Devices) :
    source.stop devices =
      match source.resource? with
      | some id => devices.stop id
      | none => devices := by
  cases source <;> rfl

theorem Pending.source_resource? (pending : Pending) (id : Nat) :
    (pending.source id).resource? = some id := by
  cases pending <;> rfl

theorem Pushed.resource? {id : Nat} {frame : Frame} {slot next : Slot}
    (pushed : Pushed id frame slot next) : next.source.resource? = slot.source.resource? := by
  cases pushed with
  | shown held =>
    rw [held]
    rfl
  | _ => rfl

theorem Pushed.pending_id {id : Nat} {frame : Frame} {slot next : Slot}
    (pushed : Pushed id frame slot next) :
    next.pending.map Pending.id = slot.pending.map Pending.id := by
  cases pushed with
  | waiting held =>
    rw [held]
    rfl
  | _ => rfl

namespace Rack

variable {σ : Type}

/-- The resource that a step of the host hands over to the rack. -/
def delivered (rack : Rack σ) : HostStep → List Nat
  | .complete id error => rack.devices.completed id error
  | _ => []

/-- The resources that the channels hold. -/
def held (rack : Rack σ) (index : Fin 4) : Option Nat := (rack.slot index).source.resource?

/-- The hand-offs that the channels wait for. -/
def awaited (rack : Rack σ) (index : Fin 4) : Option Nat := (rack.slot index).pending.map Pending.id

def InCustody (rack : Rack σ) (taken refused : List Nat) : Prop :=
  Custody rack.devices rack.held rack.awaited taken refused

theorem held_setSlot (rack : Rack σ) (index : Fin 4) (slot : Slot) :
    (rack.setSlot index slot).held = Function.update rack.held index slot.source.resource? :=
  map_slot_setSlot (fun slot => slot.source.resource?) rack index slot

theorem awaited_setSlot (rack : Rack σ) (index : Fin 4) (slot : Slot) :
    (rack.setSlot index slot).awaited =
      Function.update rack.awaited index (slot.pending.map Pending.id) :=
  map_slot_setSlot (fun slot => slot.pending.map Pending.id) rack index slot

/-- Nothing moves between the channels and the live inputs. -/
structure SameHolders (before after : Rack σ) : Prop where
  devices : after.devices = before.devices
  held : after.held = before.held
  awaited : after.awaited = before.awaited

theorem InCustody.same {before after : Rack σ} {taken refused : List Nat}
    (custody : before.InCustody taken refused) (same : SameHolders before after) :
    after.InCustody taken refused := by
  unfold InCustody
  rw [same.devices, same.held, same.awaited]
  exact custody

theorem SameHolders.trans {first second third : Rack σ} (before : SameHolders first second)
    (after : SameHolders second third) : SameHolders first third :=
  ⟨after.devices.trans before.devices, after.held.trans before.held,
    after.awaited.trans before.awaited⟩

/-- A slot is replaced by one with the same source and the same acquisition. -/
theorem SameHolders.setSlot (rack : Rack σ) {index : Fin 4} {slot : Slot}
    (resource : slot.source.resource? = rack.held index)
    (pending : slot.pending.map Pending.id = rack.awaited index) :
    SameHolders rack (rack.setSlot index slot) where
  devices := rfl
  held := by rw [held_setSlot, resource, Function.update_eq_self]
  awaited := by rw [awaited_setSlot, pending, Function.update_eq_self]

/-- A source without a live input comes to a channel that holds nothing. -/
theorem SameHolders.setSource {before after : Rack σ} (same : SameHolders before after)
    {index : Fin 4} (free : before.held index = none) {source : Source}
    (dead : source.resource? = none) : SameHolders before (after.setSource index source) := by
  refine same.trans (.setSlot after ?_ rfl)
  rw [same.held, free]
  exact dead

/-- The resource that a request gains at once. -/
def gains (rack : Rack σ) (request : Request) : List Nat :=
  match request.wanted? with
  | some wanted => granted rack.devices wanted
  | none => []

theorem gains_eq {rack : Rack σ} {request : Request} {wanted : Wanted}
    (asked : request.wanted? = some wanted) :
    rack.gains request = granted rack.devices wanted := by
  rw [gains, asked]

/-- What was granted or refused a resource, seen from the holders. -/
def Takes (before : Rack σ) (index : Fin 4) (resource : Option Nat) :
    Except BackendError Unit × Rack σ → Prop
  | (.error _, after) => SameHolders before after
  | (.ok (), after) =>
    after.devices = before.devices ∧ after.held = Function.update before.held index resource ∧
      after.awaited = before.awaited

theorem Takes.same {before : Rack σ} {index : Fin 4}
    {step : Except BackendError Unit × Rack σ} (takes : Takes before index none step)
    (free : before.held index = none) : SameHolders before step.2 := by
  obtain ⟨result, after⟩ := step
  cases result with
  | error error => exact takes
  | ok accepted =>
    obtain ⟨devices, held, awaited⟩ := takes
    have same : Function.update before.held index none = before.held :=
      Function.update_eq_self_iff.mpr free.symm
    exact ⟨devices, held.trans same, awaited⟩

namespace InCustody

variable {rack : Rack σ} {taken refused : List Nat}

theorem withoutInput (custody : rack.InCustody taken refused) {request : Request}
    (dead : request.wanted? = none) {step : Except AcquireError Unit × Rack σ}
    (same : SameHolders rack step.2) :
    step.2.InCustody (taken ++ rack.gains request)
      (refused ++ if step.1.isOk then [] else rack.gains request) := by
  simp only [gains, dead, List.append_nil, ite_self]
  exact custody.same same

theorem drained (custody : rack.InCustody taken refused) {devices : Devices}
    (opened : devices.opened = rack.devices.opened)
    (handoffs : devices.handoffs = rack.devices.handoffs)
    (completers : devices.completers = rack.devices.completers)
    (stopped : devices.stopped = rack.devices.stopped) :
    Rack.InCustody { rack with devices } taken refused := by
  apply Custody.withDevices custody _ _ _ _ stopped
  · rw [opened]
  · rw [completers]
    exact fun _ member => member
  · rw [completers]
    exact fun _ member _ => member
  · intro id
    simp only [Devices.handoff, handoffs]

theorem takeFrame (custody : rack.InCustody taken refused) (index : Fin 4) (now : Nat) :
    Rack.InCustody
        { rack with devices := (takeFrame rack.devices now (rack.slot index).source).2.2 }
        taken refused ∧
      (Rack.takeFrame rack.devices now (rack.slot index).source).2.1.resource? =
        (rack.slot index).source.resource? := by
  cases (rack.slot index).source with
  | camera id =>
    refine ⟨?_, rfl⟩
    simp only [Rack.takeFrame, Devices.takeFrame]
    split
    · exact custody.drained rfl rfl rfl rfl
    · exact custody
  | _ => exact ⟨custody, rfl⟩

theorem mapSlots (custody : rack.InCustody taken refused) {change : Slot → Slot}
    (resource : ∀ slot, (change slot).source.resource? = slot.source.resource?)
    (pending : ∀ slot, (change slot).pending.map Pending.id = slot.pending.map Pending.id) :
    Rack.InCustody { rack with slots := rack.slots.map change } taken refused := by
  apply custody.same
  constructor
  case devices => rfl
  case held =>
    funext index
    simp only [Rack.held, slot_mapSlots, resource]
  case awaited =>
    funext index
    simp only [Rack.awaited, slot_mapSlots, pending]

/-- The host completes what it was asked for; what is taken of that is taken over. -/
theorem host (custody : rack.InCustody taken refused) (step : HostStep) :
    (rack.host step).InCustody (taken ++ rack.delivered step) refused := by
  have nothing : taken ++ [] = taken := List.append_nil taken
  cases step with
  | complete id error => exact Custody.complete custody id error
  | abandon id =>
    simp only [delivered, nothing]
    exact Custody.abandon custody id
  | pushStream id frame =>
    obtain ⟨change, pushed, after⟩ := pushStream_eq rack id frame
    simp only [Rack.host, after, delivered, nothing]
    exact custody.mapSlots (fun slot => (pushed slot).resource?)
      fun slot => (pushed slot).pending_id
  | _ =>
    simp only [delivered, nothing]
    exact custody.drained rfl rfl rfl rfl

end InCustody

variable [Backend σ]

/-- The resource that a poll brings and that cannot be installed: its first texture is refused. -/
def dropped (rack : Rack σ) (index : Fin 4) : List Nat :=
  match (rack.slot index).pending with
  | none => []
  | some pending =>
    match rack.devices.poll pending.id with
    | (some (.ok resource), devices) =>
      if ((setPending { rack with devices } index none).install index
          (pending.source resource)).1.isOk then []
      else [resource]
    | _ => []

end Rack

theorem Slot.upload_keeps {σ : Type} [Backend σ] (slot : Slot) (backend : σ) (desc : TextureDesc)
    (pixels : Bytes) :
    (slot.upload backend desc pixels).2.1.source = slot.source ∧
      (slot.upload backend desc pixels).2.1.pending = slot.pending := by
  have allocated : (slot.allocate backend desc pixels).2.1.source = slot.source ∧
      (slot.allocate backend desc pixels).2.1.pending = slot.pending := by
    unfold allocate
    split <;> exact ⟨rfl, rfl⟩
  unfold upload
  split
  · exact allocated
  · split
    · split <;> exact ⟨rfl, rfl⟩
    · exact allocated

namespace Rack

variable {σ : Type} [Backend σ]

theorem onSlot_upload_same (rack : Rack σ) (index : Fin 4) (desc : TextureDesc) (pixels : Bytes) :
    SameHolders rack (rack.onSlot index fun slot backend => slot.upload backend desc pixels).2 := by
  obtain ⟨source, pending⟩ := (rack.slot index).upload_keeps rack.backend desc pixels
  simp only [onSlot]
  generalize (rack.slot index).upload rack.backend desc pixels = step at source pending ⊢
  have same : SameHolders rack (rack.setSlot index step.2.1) :=
    .setSlot rack (by rw [source, held]) (by rw [pending, awaited])
  exact ⟨same.devices, same.held, same.awaited⟩

/-- What comes of putting a source into a channel: nothing else changes, and what the channel waits
for stays. It has the source unless the backend refused the texture. -/
inductive Installed (before : Rack σ) (index : Fin 4) (source : Source) :
    Except BackendError Unit × Rack σ → Prop
  | step {result : Except BackendError Unit} (slot : Slot) (backend : σ)
    (shown : slot.source = if result.isOk then source else (before.slot index).source)
    (pending : slot.pending = (before.slot index).pending) :
    Installed before index source (result, { before.setSlot index slot with backend })

theorem showing_installed (rack : Rack σ) (index : Fin 4) (source : Source) (desc : TextureDesc)
    (pixels : Bytes) : Installed rack index source (rack.showing index source desc pixels) := by
  obtain ⟨kept, pending⟩ := (rack.slot index).upload_keeps rack.backend desc pixels
  simp only [showing, onSlot]
  cases uploaded : (rack.slot index).upload rack.backend desc pixels with
  | mk result rest =>
    obtain ⟨slot, backend⟩ := rest
    rw [uploaded] at kept pending
    cases result with
    | error error => exact .step slot backend kept pending
    | ok accepted =>
      dsimp only
      rw [setSource, slot_withBackend, slot_setSlot_self, setSlot_again]
      exact .step { slot with source } backend rfl pending

/-- A stream begins without a resolution, which is not the matter of its source. -/
theorem install_installed (rack : Rack σ) (index : Fin 4) (source : Source) :
    Installed rack index source (rack.install index source) := by
  unfold install
  split
  · exact showing_installed ..
  · rename_i id latest
    have shown := showing_installed rack index (.stream id latest) (.rgba 1 1) opaqueBlack
    split
    · rename_i refused
      rwa [refused] at shown
    · rename_i accepted
      rw [accepted] at shown
      cases shown with
      | step slot backend shown pending =>
        rw [slot_withBackend, slot_setSlot_self, setSlot_again]
        exact .step { slot with resolution := .empty } backend shown pending
  · exact .step { rack.slot index with source } rack.backend rfl rfl

omit [Backend σ] in
theorem Installed.takes {before : Rack σ} {index : Fin 4} {source : Source}
    {step : Except BackendError Unit × Rack σ} (installed : Installed before index source step) :
    Takes before index source.resource? step := by
  cases installed with
  | @step result slot backend shown pending =>
    cases result with
    | error error =>
      have same : SameHolders before (before.setSlot index slot) :=
        .setSlot before (congrArg Source.resource? shown) (congrArg (·.map Pending.id) pending)
      exact ⟨same.devices, same.held, same.awaited⟩
    | ok accepted =>
      have held := held_setSlot before index slot
      have awaited := awaited_setSlot before index slot
      rw [shown] at held
      rw [pending] at awaited
      exact ⟨rfl, held, awaited.trans (Function.update_eq_self index _)⟩

theorem install_takes (rack : Rack σ) (index : Fin 4) (source : Source) :
    Takes rack index source.resource? (rack.install index source) :=
  (install_installed rack index source).takes

theorem showFrame_same (rack : Rack σ) (index : Fin 4) (frame : Frame) :
    SameHolders rack (rack.showFrame index frame).2 := by
  unfold showFrame
  split
  · exact onSlot_upload_same ..
  · exact ⟨rfl, rfl, rfl⟩

theorem acquire_live {request : Request} {wanted : Wanted}
    (asked : request.wanted? = some wanted) :
    ∃ pending : Nat → Pending, (∀ id, (pending id).id = id) ∧
      ∀ (rack : Rack σ) (index : Fin 4),
        rack.acquire index request = rack.openLive index wanted pending := by
  cases request with
  | camera device =>
    obtain rfl := Option.some.inj asked
    exact ⟨.camera, fun _ => rfl, fun _ _ => rfl⟩
  | microphone size =>
    simp only [Request.wanted?, Option.ite_none_right_eq_some, Option.some.injEq] at asked
    obtain ⟨supported, rfl⟩ := asked
    exact ⟨(.microphone · size), fun _ => rfl, fun _ _ => if_pos supported⟩
  | stream source =>
    obtain rfl := Option.some.inj asked
    exact ⟨(.stream · none), fun _ => rfl, fun _ _ => rfl⟩
  | _ => cases asked

theorem acquire_dead {rack : Rack σ} {index : Fin 4} {request : Request}
    (dead : request.wanted? = none) (free : rack.held index = none) :
    SameHolders rack (rack.acquire index request).2 := by
  have still : SameHolders rack rack := ⟨rfl, rfl, rfl⟩
  have shown (frame : Frame) := showFrame_same rack index frame
  generalize acquired : rack.acquire index request = step
  unfold Rack.acquire at acquired
  split at acquired
  · subst acquired
    exact still
  · split at acquired
    · subst acquired
      exact still
    · rename_i frame _
      have same := shown frame
      split at acquired
      · rename_i refusal
        rw [refusal] at same
        subst acquired
        exact same
      · rename_i accepted
        rw [accepted] at same
        subst acquired
        exact same.setSource free rfl
  · split at acquired
    · subst acquired
      exact still
    · subst acquired
      exact still.setSource free rfl
  · rename_i frame _
    split at acquired
    · subst acquired
      exact still
    · have same := shown frame
      split at acquired
      · rename_i refusal
        rw [refusal] at same
        subst acquired
        exact same
      · rename_i accepted
        rw [accepted] at same
        subst acquired
        exact same.setSource free rfl
  · rename_i device resolved
    rw [wanted?_of_resolved resolved] at dead
    cases dead
  · rename_i size resolved
    split at acquired
    · rename_i supported
      rw [wanted?_of_resolved resolved, Request.wanted?, if_pos supported] at dead
      cases dead
    · subst acquired
      exact still
  · rename_i source resolved
    rw [wanted?_of_resolved resolved] at dead
    cases dead
  · subst acquired
    generalize Noise.picture (rack.random index) _ rack.options.noiseSize = frame
    have same := (showing_installed { rack with generators := rack.generators + 1 } index .noise
      (.rgba frame.width frame.height) frame.pixels).takes.same free
    exact ⟨same.devices, same.held, same.awaited⟩
  · subst acquired
    exact still

theorem rebuildSlots_same (rack : Rack σ) (indices : List (Fin 4)) :
    SameHolders rack (rack.rebuildSlots indices).2 := by
  refine rebuildSlots_induction (fun before index texture backend same => same.trans ?_)
    ⟨rfl, rfl, rfl⟩ indices
  have again : SameHolders before (before.setSlot index { before.slot index with texture }) :=
    .setSlot before rfl rfl
  exact ⟨again.devices, again.held, again.awaited⟩

theorem rebuild_same (rack : Rack σ) : SameHolders rack rack.rebuild.2 := by
  unfold rebuild
  split
  · exact ⟨rfl, rfl, rfl⟩
  · rename_i placeholder backend _
    have later := rebuildSlots_same { rack with backend, placeholder } (List.finRange 4)
    exact ⟨later.devices, later.held, later.awaited⟩

namespace InCustody

variable {rack : Rack σ} {taken refused : List Nat}

/-- A channel that is taken down stops what it holds and gives up what it waits for. -/
theorem teardown (custody : rack.InCustody taken refused) (index : Fin 4) :
    (rack.teardown index).InCustody taken refused := by
  have stopped : Custody ((rack.slot index).source.stop rack.devices)
      (Function.update rack.held index none) rack.awaited taken refused := by
    rw [Source.stop_eq]
    cases holds : (rack.slot index).source.resource? with
    | none =>
      have same : Function.update rack.held index none = rack.held :=
        Function.update_eq_self_iff.mpr holds.symm
      rw [same]
      exact custody
    | some id => exact Custody.stop custody holds
  have held : (rack.teardown index).held = Function.update rack.held index none :=
    held_setSlot rack index .empty
  have awaited : (rack.teardown index).awaited = Function.update rack.awaited index none :=
    awaited_setSlot rack index .empty
  unfold InCustody
  rw [held, awaited]
  simp only [Rack.teardown]
  split
  · rename_i pending waits
    have waiting : rack.awaited index = some pending.id := by
      simp only [Rack.awaited]
      rw [waits]
      rfl
    exact stopped.cancel waiting
  · rename_i idle
    have waiting : rack.awaited index = none := by
      simp only [Rack.awaited]
      rw [idle]
      rfl
    have same : Function.update rack.awaited index none = rack.awaited :=
      Function.update_eq_self_iff.mpr waiting.symm
    rw [same]
    exact stopped

/-- A channel takes a resource that nobody has, or it stays refused. -/
theorem install {id : Nat} (custody : rack.InCustody taken (refused ++ [id])) {index : Fin 4}
    (free : rack.held index = none) (idle : rack.awaited index = none) {source : Source}
    (resource : source.resource? = some id) :
    (rack.install index source).2.InCustody taken
      (refused ++ if (rack.install index source).1.isOk then [] else [id]) := by
  have takes := install_takes rack index source
  cases installed : rack.install index source with
  | mk result after =>
    rw [installed] at takes
    cases result with
    | error error => exact custody.same takes
    | ok accepted =>
      obtain ⟨devices, held, awaited⟩ := takes
      have accepted := Custody.accept custody free idle
      unfold InCustody
      rw [devices, held, awaited, resource]
      simpa [Except.isOk, Except.toBool] using accepted

/-- An opening is over at once, with a resource for the channel or an error, or it takes time. -/
theorem openLive (custody : rack.InCustody taken refused) {index : Fin 4}
    (free : rack.held index = none) (idle : rack.awaited index = none) (wanted : Wanted)
    (pending : Nat → Pending) (own : ∀ id, (pending id).id = id) :
    (rack.openLive index wanted pending).2.InCustody (taken ++ granted rack.devices wanted)
      (refused ++ if (rack.openLive index wanted pending).1.isOk then []
        else granted rack.devices wanted) := by
  unfold Rack.openLive granted
  split
  · rename_i error devices acquired
    simp only [acquired, List.append_nil, ite_self]
    exact Custody.open_failed custody acquired
  · rename_i id devices acquired
    have opened : Rack.InCustody { rack with devices } (taken ++ [id]) (refused ++ [id]) :=
      Custody.open_ready custody acquired
    have installed := opened.install free idle ((pending id).source_resource? id)
    simp only [acquired, ofBackend]
    cases done : Rack.install { rack with devices } index ((pending id).source id) with
    | mk result after =>
      rw [done] at installed
      cases result with
      | error error => exact installed
      | ok accepted => exact installed
  · rename_i id devices acquired
    simp only [acquired, List.append_nil, ite_self]
    have later := Custody.open_later custody acquired free idle
    have held : (Rack.setPending { rack with devices } index (some (pending id))).held =
        rack.held := by
      rw [setPending, held_setSlot]
      exact Function.update_eq_self index _
    have awaited : (Rack.setPending { rack with devices } index (some (pending id))).awaited =
        Function.update rack.awaited index (some id) := by
      rw [setPending, awaited_setSlot, Option.map_some, own]
      rfl
    unfold InCustody
    rw [held, awaited]
    exact later

theorem acquire (custody : rack.InCustody taken refused) {index : Fin 4}
    (free : rack.held index = none) (idle : rack.awaited index = none) (request : Request) :
    (rack.acquire index request).2.InCustody (taken ++ rack.gains request)
      (refused ++ if (rack.acquire index request).1.isOk then [] else rack.gains request) := by
  cases asked : request.wanted? with
  | none => exact custody.withoutInput asked (acquire_dead asked free)
  | some wanted =>
    obtain ⟨pending, own, live⟩ := @acquire_live σ _ _ _ asked
    rw [live, gains_eq asked]
    exact custody.openLive free idle wanted pending own

theorem bind (custody : rack.InCustody taken refused) {number : Nat} {index : Fin 4}
    (named : checkIndex number = .ok index) (request : Request) :
    (rack.bind number request).2.InCustody (taken ++ (rack.teardown index).gains request)
      (refused ++ if ((rack.teardown index).acquire index request).1.isOk then []
        else (rack.teardown index).gains request) := by
  have free : (rack.teardown index).held index = none := by
    rw [Rack.held, teardown_slot]
    rfl
  have idle : (rack.teardown index).awaited index = none := by
    rw [Rack.awaited, teardown_slot]
    rfl
  have acquired := (custody.teardown index).acquire free idle request
  simp only [Rack.bind, named]
  split
  · rename_i after accepted
    rw [accepted] at acquired ⊢
    have same : SameHolders after
        (after.setSlot index { after.slot index with request := some request }) :=
      .setSlot after rfl rfl
    have granted := acquired.same same
    dsimp only
    split
    · exact granted
    · exact granted
  · rename_i error after refusal
    rw [refusal] at acquired ⊢
    exact acquired.teardown index

theorem unbind (custody : rack.InCustody taken refused) (number : Nat) :
    (rack.unbind number).2.InCustody taken refused := by
  unfold Rack.unbind
  split
  · exact custody
  · exact custody.teardown _

theorem pollPending (custody : rack.InCustody taken refused) (index : Fin 4) :
    (rack.pollPending index).InCustody taken (refused ++ rack.dropped index) := by
  cases waits : (rack.slot index).pending with
  | none =>
    simp only [Rack.pollPending, dropped, waits, List.append_nil]
    exact custody
  | some pending =>
    have waiting : rack.awaited index = some pending.id := by
      rw [Rack.awaited, waits]
      rfl
    have free : rack.held index = none := custody.lone index (by simp [waiting])
    simp only [Rack.pollPending, dropped, waits]
    cases polled : rack.devices.poll pending.id with
    | mk outcome devices =>
      cases outcome with
      | none =>
        have still := Custody.poll_waits custody waiting (congrArg Prod.fst polled)
        rw [polled] at still
        simp only [List.append_nil]
        exact still
      | some outcome =>
        have fetched := Custody.poll custody waiting (congrArg Prod.fst polled)
        rw [polled] at fetched
        have held : (Rack.setPending { rack with devices } index none).held = rack.held := by
          rw [setPending, held_setSlot]
          exact Function.update_eq_self index _
        have awaited : (Rack.setPending { rack with devices } index none).awaited =
            Function.update rack.awaited index none := by
          rw [setPending, awaited_setSlot]
          rfl
        have ready : (Rack.setPending { rack with devices } index none).InCustody taken
            (refused ++ outcome.toOption.toList) := by
          unfold InCustody
          rw [held, awaited]
          exact fetched
        cases outcome with
        | error error =>
          rw [List.append_nil]
          rw [Except.toOption, Option.toList_none, List.append_nil] at ready
          exact ready.teardown index
        | ok resource =>
          have installed := InCustody.install ready (by rw [held, free])
            (by rw [awaited, Function.update_self]) (pending.source_resource? resource)
          dsimp only
          split
          · rename_i after accepted
            rw [accepted] at installed ⊢
            exact installed
          · rename_i error after refusal
            rw [refusal] at installed ⊢
            exact installed.teardown index

theorem refreshSlot (custody : rack.InCustody taken refused) (index : Fin 4) (now : Nat) :
    (rack.refreshSlot index now).InCustody taken refused := by
  have drains (devices : Devices) (source : Source)
      (quiet : Rack.InCustody { rack with devices } taken refused)
      (resource : source.resource? = (rack.slot index).source.resource?) :
      (Rack.setSource { rack with devices } index source).InCustody taken refused :=
    quiet.same (.setSlot { rack with devices } resource rfl)
  unfold Rack.refreshSlot
  split
  · rename_i id analyser source
    have ready := drains (rack.devices.drain id).2
      (.microphone id (rack.hears id analyser))
      (custody.drained rfl rfl rfl rfl) (by rw [source]; rfl)
    exact ready.same (onSlot_upload_same ..)
  · obtain ⟨quiet, resource⟩ := custody.takeFrame index now
    have ready := drains _ _ quiet resource
    dsimp only
    split
    · exact ready
    · split
      · exact ready.same (showFrame_same ..)
      · exact ready

theorem rebuild (custody : rack.InCustody taken refused) :
    rack.rebuild.2.InCustody taken refused :=
  custody.same (rebuild_same rack)

theorem teardownAll (custody : rack.InCustody taken refused) :
    rack.teardownAll.InCustody taken refused :=
  teardownAll_induction (P := (Rack.InCustody · taken refused))
    (fun _ index custody => teardown custody index) (fun _ _ custody => custody) custody

end InCustody

end Rack

/-- A call of a rack or a step of its host, or what else may happen between them. The backend is
replaced by any other, whatever may have become of it. -/
inductive Move (σ : Type)
  | call (step : Step)
  | rebuild
  | teardownAll
  | backend (next : σ)

def Rack.move {σ : Type} [Backend σ] (rack : Rack σ) : Move σ → Rack σ
  | .call step => rack.step step
  | .rebuild => rack.rebuild.2
  | .teardownAll => rack.teardownAll
  | .backend next => { rack with backend := next }

/-- A rack with the resources it took over so far, and those of them that it dropped since their
first texture was refused. -/
structure Ledger (σ : Type) where
  rack : Rack σ
  taken : List Nat
  refused : List Nat

namespace Ledger

variable {σ : Type} [Backend σ]

def bind (ledger : Ledger σ) (number : Nat) (request : Request) : Ledger σ :=
  let after := (ledger.rack.bind number request).2
  match checkIndex number with
  | .error _ => { ledger with rack := after }
  | .ok index =>
    let down := ledger.rack.teardown index
    { rack := after
      taken := ledger.taken ++ down.gains request
      refused := ledger.refused ++
        if (down.acquire index request).1.isOk then [] else down.gains request }

def refreshSlot (ledger : Ledger σ) (index : Fin 4) (now : Nat) : Ledger σ :=
  { rack := (ledger.rack.pollPending index).refreshSlot index now
    taken := ledger.taken
    refused := ledger.refused ++ ledger.rack.dropped index }

def step (ledger : Ledger σ) : Step → Ledger σ
  | .bind number request => ledger.bind number request
  | .refresh now =>
    (List.finRange 4).foldl (fun ledger index => ledger.refreshSlot index now) ledger
  | .host step =>
    { ledger with
      rack := ledger.rack.host step
      taken := ledger.taken ++ ledger.rack.delivered step }
  | other => { ledger with rack := ledger.rack.step other }

def move (ledger : Ledger σ) : Move σ → Ledger σ
  | .call step => ledger.step step
  | other => { ledger with rack := ledger.rack.move other }

def run (ledger : Ledger σ) (moves : List (Move σ)) : Ledger σ := moves.foldl move ledger

theorem step_rack (ledger : Ledger σ) (step : Step) :
    (ledger.step step).rack = ledger.rack.step step := by
  cases step with
  | bind number request =>
    simp only [Ledger.step, bind]
    split <;> rfl
  | refresh now =>
    simp only [Ledger.step, Rack.step, Rack.refresh]
    generalize List.finRange 4 = indices
    induction indices generalizing ledger with
    | nil => rfl
    | cons index rest ih => exact ih (ledger.refreshSlot index now)
  | _ => rfl

theorem move_rack (ledger : Ledger σ) (move : Move σ) :
    (ledger.move move).rack = ledger.rack.move move := by
  cases move with
  | call step => exact step_rack ledger step
  | _ => rfl

theorem run_rack (ledger : Ledger σ) (moves : List (Move σ)) :
    (ledger.run moves).rack = moves.foldl Rack.move ledger.rack := by
  induction moves generalizing ledger with
  | nil => rfl
  | cons move rest ih =>
    simp only [run, List.foldl_cons] at ih ⊢
    rw [ih, move_rack]

def Balanced (ledger : Ledger σ) : Prop := ledger.rack.InCustody ledger.taken ledger.refused

theorem Balanced.step {ledger : Ledger σ} (balanced : ledger.Balanced) (step : Step) :
    (ledger.step step).Balanced := by
  cases step with
  | bind number request =>
    simp only [Ledger.step, bind]
    split
    · rename_i error wrong
      simp only [Ledger.Balanced, Rack.bind, wrong]
      exact balanced
    · rename_i index named
      exact Rack.InCustody.bind balanced named request
  | unbind number => exact Rack.InCustody.unbind balanced number
  | refresh now =>
    simp only [Ledger.step]
    generalize List.finRange 4 = indices
    induction indices generalizing ledger with
    | nil => exact balanced
    | cons index rest ih =>
      have polled := Rack.InCustody.pollPending balanced index
      have shown : (ledger.refreshSlot index now).Balanced := polled.refreshSlot index now
      exact ih shown
  | takeEvents => exact balanced
  | host step => exact Rack.InCustody.host balanced step

theorem Balanced.move {ledger : Ledger σ} (balanced : ledger.Balanced) (move : Move σ) :
    (ledger.move move).Balanced := by
  cases move with
  | call step => exact balanced.step step
  | rebuild => exact Rack.InCustody.rebuild balanced
  | teardownAll => exact Rack.InCustody.teardownAll balanced
  | backend next => exact balanced

theorem Balanced.run {ledger : Ledger σ} (balanced : ledger.Balanced) (moves : List (Move σ)) :
    (ledger.run moves).Balanced := by
  induction moves generalizing ledger with
  | nil => exact balanced
  | cons move rest ih => exact ih (balanced.move move)

end Ledger

/-- The number of places that answer for a resource: the channels that hold it, the channels that
wait for a hand-off in which it lies, and the times it was stopped. -/
def Rack.custodians {σ : Type} (rack : Rack σ) (id : Nat) : Nat :=
  holders rack.held id +
    ∑ index, (if rack.awaited index = some id ∧ rack.devices.arrived id = 1 then 1 else 0) +
    rack.devices.stopped.count id

theorem Rack.new_vacant {σ : Type} [Backend σ] {backend next : σ} {options : RackOptions}
    {start : Rack σ} (made : Rack.new backend Devices.none options = (.ok start, next)) :
    start.devices = Devices.none ∧ (start.held = fun _ => none) ∧
      start.awaited = fun _ => none := by
  unfold Rack.new at made
  split at made
  · cases made
  · have same := Except.ok.inj (Prod.mk.inj made).1
    have slots (index : Fin 4) : start.slot index = .empty := by
      rw [← same]
      simp only [Fin.getElem_fin, Vector.getElem_replicate]
    have devices : start.devices = Devices.none := by rw [← same]
    have held : start.held = fun _ => none := by
      funext index
      rw [Rack.held, slots]
      rfl
    have awaited : start.awaited = fun _ => none := by
      funext index
      rw [Rack.awaited, slots]
      rfl
    exact ⟨devices, held, awaited⟩

theorem Rack.new_inCustody {σ : Type} [Backend σ] {backend next : σ} {options : RackOptions}
    {start : Rack σ} (made : Rack.new backend Devices.none options = (.ok start, next)) :
    start.InCustody [] [] := by
  obtain ⟨devices, held, awaited⟩ := new_vacant made
  unfold Rack.InCustody
  rw [devices, held, awaited]
  exact Custody.initial

/-- Each resource that was taken over is in one place, unless its first texture was refused: then it
is in none. So all are accounted for just when no first texture was refused. -/
theorem Ledger.run_custodians {σ : Type} [Backend σ] {backend next : σ} {options : RackOptions}
    {start : Rack σ} (made : Rack.new backend Devices.none options = (.ok start, next))
    (moves : List (Move σ)) :
    let ledger := Ledger.run ⟨start, [], []⟩ moves
    ledger.rack = moves.foldl Rack.move start ∧ ledger.taken.Nodup ∧
      (∀ id ∈ ledger.refused, id ∈ ledger.taken) ∧
      (∀ id, ledger.rack.custodians id =
        if id ∈ ledger.taken ∧ id ∉ ledger.refused then 1 else 0) ∧
      ((∀ id ∈ ledger.taken, ledger.rack.custodians id = 1) ↔ ledger.refused = []) := by
  have initial : Ledger.Balanced ⟨start, [], []⟩ := Rack.new_inCustody made
  have balanced := initial.run moves
  intro ledger
  have total (id : Nat) : ledger.rack.custodians id =
      if id ∈ ledger.taken ∧ id ∉ ledger.refused then 1 else 0 := Custody.total balanced id
  have taken (id : Nat) (member : id ∈ ledger.refused) : id ∈ ledger.taken :=
    Custody.mem_taken_of_refused balanced member
  refine ⟨run_rack _ moves, balanced.once, taken, total, ?_⟩
  constructor
  · intro kept
    apply List.eq_nil_iff_forall_not_mem.mpr
    intro id member
    have one := kept id (taken id member)
    rw [total, if_neg fun both => both.2 member] at one
    cases one
  · intro none id member
    rw [total, none, if_pos ⟨member, List.not_mem_nil⟩]

/-- A backend that takes the placeholder and refuses the texture after it. -/
def refusing : Scheduled Headless :=
  ⟨Headless.new (fun _ => none) 4 4, [⟨.create, .texture (.other "late"), 1, 1⟩], []⟩

/-- A stream arrives, and the backend refuses its first texture. -/
def refusedMoves : List (Move (Scheduled Headless)) :=
  [.call (.host (.plan [.pending])), .call (.bind 0 (.stream "feed")),
    .call (.host (.complete 0 none)), .call (.refresh 0)]

/-- The refused stream was taken over, and now no channel holds it and it was never stopped. -/
theorem Ledger.refused_stream_custodians :
    ∃ start next, Rack.new refusing Devices.none .bare = (.ok start, next) ∧
      let ledger := Ledger.run ⟨start, [], []⟩ refusedMoves
      ledger.taken = [0] ∧ ledger.refused = [0] ∧ ledger.rack.devices.stopped = [] ∧
        (ledger.rack.slot 0).source.kind = .empty ∧ ledger.rack.custodians 0 = 0 := by
  have made : Rack.new refusing Devices.none .bare = (.ok _, _) := rfl
  obtain ⟨_, _, _, total, _⟩ := Ledger.run_custodians made refusedMoves
  refine ⟨_, _, made, rfl, rfl, rfl, rfl, ?_⟩
  rw [total 0]
  rfl

end LiveFragment.Channel
