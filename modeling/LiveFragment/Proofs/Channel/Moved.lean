import LiveFragment.Proofs.Channel.Motion

namespace LiveFragment.Channel

open LiveFragment.Backend LiveFragment.Media Relation

namespace Rack

variable {σ : Type}

def view (rack : Rack σ) : View := ⟨rack.devices, rack.held, rack.awaited⟩

theorem SameHolders.view {before after : Rack σ} (same : SameHolders before after) :
    after.view = before.view := by
  simp only [Rack.view, same.devices, same.held, same.awaited]

theorem SameHolders.motions {before after : Rack σ} (same : SameHolders before after) :
    Motions before.view after.view :=
  same.view ▸ .refl

theorem awaited_of_pending {rack : Rack σ} {index : Fin 4} {pending : Pending}
    (waits : (rack.slot index).pending = some pending) : rack.awaited index = some pending.id := by
  rw [awaited, waits]
  rfl

variable [Backend σ]

theorem teardown_view (rack : Rack σ) (index : Fin 4) :
    (rack.teardown index).view =
      ⟨(rack.teardown index).devices, Function.update rack.held index none,
        Function.update rack.awaited index none⟩ := by
  have held : (rack.teardown index).held = Function.update rack.held index none :=
    held_setSlot rack index .empty
  have awaited : (rack.teardown index).awaited = Function.update rack.awaited index none :=
    awaited_setSlot rack index .empty
  rw [view, held, awaited]

theorem teardown_opened (rack : Rack σ) (index : Fin 4) :
    (rack.teardown index).devices.opened = rack.devices.opened ∧
      (rack.teardown index).devices.plan = rack.devices.plan := by
  have stopped : ((rack.slot index).source.stop rack.devices).opened = rack.devices.opened ∧
      ((rack.slot index).source.stop rack.devices).plan = rack.devices.plan := by
    cases (rack.slot index).source <;> exact ⟨rfl, rfl⟩
  simp only [teardown]
  split
  · rw [Devices.cancel_eq]
    exact stopped
  · exact stopped

theorem teardown_motions (rack : Rack σ) (index : Fin 4) :
    Motions rack.view (rack.teardown index).view := by
  have stopped : Motions rack.view
      ⟨(rack.slot index).source.stop rack.devices, Function.update rack.held index none,
        rack.awaited⟩ := by
    rw [Source.stop_eq]
    cases holds : (rack.slot index).source.resource? with
    | none =>
      have same : Function.update rack.held index none = rack.held :=
        Function.update_eq_self_iff.mpr holds.symm
      rw [same]
      exact .refl
    | some id => exact .single (.stops holds)
  rw [teardown_view]
  refine stopped.trans ?_
  cases waits : (rack.slot index).pending with
  | none =>
    have idle : rack.awaited index = none := by rw [awaited, waits]; rfl
    have same : Function.update rack.awaited index none = rack.awaited :=
      Function.update_eq_self_iff.mpr idle.symm
    simp only [teardown, waits, same]
    exact .refl
  | some pending =>
    simp only [teardown, waits]
    exact .single (.cancels (awaited_of_pending waits))

theorem openLive_motions (rack : Rack σ) (index : Fin 4) (wanted : Wanted)
    {pending : Nat → Pending} (own : ∀ id, (pending id).id = id) :
    Motions rack.view (rack.openLive index wanted pending).2.view := by
  unfold openLive
  split
  · rename_i acquired
    exact .single (.opens acquired)
  · rename_i id devices acquired
    have takes := install_takes { rack with devices } index ((pending id).source id)
    cases installed : install { rack with devices } index ((pending id).source id) with
    | mk result after =>
      rw [installed] at takes
      cases result with
      | error error =>
        have opens : Motion rack.view (Rack.view { rack with devices }) := .opens acquired
        exact .head opens (SameHolders.motions takes)
      | ok accepted =>
        obtain ⟨same, held, awaited⟩ := takes
        have gains : Motion rack.view after.view := by
          rw [view, view, same, held, awaited, Pending.source_resource?]
          exact .gains index acquired
        exact .single gains
  · rename_i id devices acquired
    have waits : Motion rack.view
        (Rack.view (setPending { rack with devices } index (some (pending id)))) := by
      have held :
          (setPending { rack with devices } index (some (pending id))).held = rack.held := by
        rw [setPending, held_setSlot]
        exact Function.update_eq_self index _
      rw [view, view, held, setPending, awaited_setSlot, Option.map_some, own]
      exact .waits index acquired
    exact .single waits

theorem acquire_motions {rack : Rack σ} {index : Fin 4} (free : rack.held index = none)
    (request : Request) : Motions rack.view (rack.acquire index request).2.view := by
  cases asked : request.wanted? with
  | none => exact (acquire_dead asked free).motions
  | some wanted =>
    obtain ⟨pending, own, live⟩ := @acquire_live σ _ _ _ asked
    rw [live]
    exact openLive_motions rack index wanted own

/-- What a bind does once the channel is taken down. -/
def supply (rack : Rack σ) (index : Fin 4) (request : Request) : Rack σ :=
  match rack.acquire index request with
  | (.ok (), rack) =>
    let rack := rack.setSlot index { rack.slot index with request := some request }
    if (rack.slot index).pending.isNone then rack.report index request.kind (.ok ()) else rack
  | (.error error, rack) => (rack.teardown index).report index request.kind (.error error)

theorem bind_eq (rack : Rack σ) {number : Nat} {index : Fin 4}
    (named : checkIndex number = .ok index) (request : Request) :
    (rack.bind number request).2 = (rack.teardown index).supply index request := by
  simp only [Rack.bind, named, supply]
  cases (rack.teardown index).acquire index request with
  | mk result after => cases result <;> rfl

theorem supply_accepted {rack after : Rack σ} {index : Fin 4} {request : Request}
    (acquired : rack.acquire index request = (.ok (), after)) :
    (rack.supply index request).slot index = { after.slot index with request := some request } ∧
      (rack.supply index request).devices = after.devices ∧
      (rack.supply index request).backend = after.backend := by
  unfold supply
  rw [acquired]
  dsimp only
  split <;> exact ⟨slot_setSlot_self .., rfl, rfl⟩

/-- Nothing is left in the channel, and what was opened has been opened all the same. -/
theorem supply_refused {rack after : Rack σ} {index : Fin 4} {request : Request}
    {error : AcquireError} (acquired : rack.acquire index request = (.error error, after)) :
    (rack.supply index request).slot index = .empty ∧
      (rack.supply index request).devices.opened = after.devices.opened := by
  unfold supply
  rw [acquired]
  exact ⟨teardown_slot after index, (teardown_opened after index).1⟩

theorem supply_motions {rack : Rack σ} {index : Fin 4} (free : rack.held index = none)
    (request : Request) : Motions rack.view (rack.supply index request).view := by
  have acquired := acquire_motions free request
  unfold supply
  split
  · rename_i after accepted
    rw [accepted] at acquired
    have same : SameHolders after
        (after.setSlot index { after.slot index with request := some request }) :=
      .setSlot after rfl rfl
    dsimp only
    split
    · exact acquired.trans same.motions
    · exact acquired.trans same.motions
  · rename_i error after refusal
    rw [refusal] at acquired
    exact acquired.trans (teardown_motions after index)

theorem teardown_free (rack : Rack σ) (index : Fin 4) : (rack.teardown index).held index = none :=
  congrArg (fun slot => slot.source.resource?) (teardown_slot rack index)

theorem bind_motions (rack : Rack σ) (number : Nat) (request : Request) :
    Motions rack.view (rack.bind number request).2.view := by
  cases named : checkIndex number with
  | error error =>
    simp only [Rack.bind, named]
    exact .refl
  | ok index =>
    rw [bind_eq rack named]
    exact (teardown_motions rack index).trans (supply_motions (teardown_free rack index) request)

theorem unbind_motions (rack : Rack σ) (number : Nat) :
    Motions rack.view (rack.unbind number).2.view := by
  unfold Rack.unbind
  split
  · exact .refl
  · exact teardown_motions rack _

omit [Backend σ] in
theorem setPending_view (rack : Rack σ) (index : Fin 4) (devices : Devices) :
    (setPending { rack with devices } index none).view =
      ⟨devices, rack.held, Function.update rack.awaited index none⟩ := by
  have held : (setPending { rack with devices } index none).held = rack.held := by
    rw [setPending, held_setSlot]
    exact Function.update_eq_self index _
  have awaited : (setPending { rack with devices } index none).awaited =
      Function.update rack.awaited index none := awaited_setSlot { rack with devices } index _
  rw [view, held, awaited]
  rfl

omit [Backend σ] in
theorem fetches_motion {rack : Rack σ} {index : Fin 4} {pending : Pending}
    (waits : (rack.slot index).pending = some pending) {outcome : Except AcquireError Nat}
    {devices : Devices} (polled : rack.devices.poll pending.id = (some outcome, devices)) :
    Motion rack.view (setPending { rack with devices } index none).view := by
  obtain rfl : (rack.devices.poll pending.id).2 = devices := congrArg Prod.snd polled
  rw [setPending_view]
  exact .fetches (awaited_of_pending waits) (congrArg Prod.fst polled)

theorem pollPending_motions (rack : Rack σ) (index : Fin 4) :
    Motions rack.view (rack.pollPending index).view := by
  unfold pollPending
  split
  · exact .refl
  · rename_i pending waits
    split
    · rename_i devices polled
      obtain rfl : (rack.devices.poll pending.id).2 = devices := congrArg Prod.snd polled
      exact .single (.asks (awaited_of_pending waits) (congrArg Prod.fst polled))
    · rename_i outcome devices polled
      have fetches := fetches_motion waits polled
      dsimp only
      split
      · exact .head fetches (teardown_motions _ index)
      · rename_i resource
        have installed := install_takes (setPending { rack with devices } index none) index
          (pending.source resource)
        split
        · rename_i after accepted
          rw [accepted] at installed
          obtain ⟨same, held, awaited⟩ := installed
          have settled := setPending_view rack index devices
          have moved : after.view = ⟨devices, Function.update rack.held index (some resource),
              Function.update rack.awaited index none⟩ := by
            rw [view, same, held, awaited, Pending.source_resource?]
            rw [view, View.mk.injEq] at settled
            rw [settled.1, settled.2.1, settled.2.2]
          obtain rfl : (rack.devices.poll pending.id).2 = devices := congrArg Prod.snd polled
          have takes : Motion rack.view after.view := by
            rw [moved]
            exact .takes (awaited_of_pending waits) (congrArg Prod.fst polled)
          exact .single takes
        · rename_i error after refusal
          rw [refusal] at installed
          exact .head fetches ((SameHolders.motions installed).trans (teardown_motions after index))

omit [Backend σ] in
/-- Data that is taken out of the live inputs leaves a channel its resource. -/
theorem setSource_motions (rack : Rack σ) {index : Fin 4} {source : Source} {devices : Devices}
    (resource : source.resource? = rack.held index)
    (opened : devices.opened = rack.devices.opened)
    (handoffs : devices.handoffs = rack.devices.handoffs)
    (stopped : devices.stopped = rack.devices.stopped) :
    Motions rack.view (setSource { rack with devices } index source).view := by
  have data : Motion rack.view (Rack.view { rack with devices }) := .data opened handoffs stopped
  have same : SameHolders { rack with devices } (setSource { rack with devices } index source) :=
    .setSlot { rack with devices } resource rfl
  exact .head data same.motions

omit [Backend σ] in
/-- A source that gives out a frame keeps its resource, and the books of the live inputs stay. -/
theorem takeFrame_keeps (devices : Devices) (now : Nat) (source : Source) :
    (takeFrame devices now source).2.1.resource? = source.resource? ∧
      (takeFrame devices now source).2.2.opened = devices.opened ∧
      (takeFrame devices now source).2.2.handoffs = devices.handoffs ∧
      (takeFrame devices now source).2.2.stopped = devices.stopped := by
  cases source with
  | camera id =>
    refine ⟨rfl, ?_⟩
    simp only [takeFrame, Devices.takeFrame]
    split <;> exact ⟨rfl, rfl, rfl⟩
  | _ => exact ⟨rfl, rfl, rfl, rfl⟩

theorem refreshSlot_motions (rack : Rack σ) (index : Fin 4) (now : Nat) :
    Motions rack.view (rack.refreshSlot index now).view := by
  unfold refreshSlot
  split
  · rename_i id analyser source
    let heard : Source := .microphone id (rack.hears id analyser)
    have resource : heard.resource? = rack.held index := by rw [held, source]; rfl
    have ready : Motions rack.view
        (setSource { rack with devices := (rack.devices.drain id).2 } index heard).view :=
      setSource_motions rack resource rfl rfl rfl
    exact ready.trans (onSlot_upload_same ..).motions
  · obtain ⟨resource, opened, handoffs, stopped⟩ :=
      takeFrame_keeps rack.devices now (rack.slot index).source
    have ready := setSource_motions rack resource opened handoffs stopped
    dsimp only
    split
    · exact ready
    · split
      · exact ready.trans (showFrame_same ..).motions
      · exact ready

theorem refresh_motions (rack : Rack σ) (now : Nat) (indices : List (Fin 4)) :
    Motions rack.view
      (indices.foldl (fun rack index => (rack.pollPending index).refreshSlot index now)
        rack).view := by
  induction indices generalizing rack with
  | nil => exact .refl
  | cons index rest ih =>
    exact ((pollPending_motions rack index).trans (refreshSlot_motions _ index now)).trans (ih _)

omit [Backend σ] in
theorem host_motions (rack : Rack σ) (step : HostStep) :
    Motions rack.view (rack.host step).view := by
  cases step with
  | complete id error => exact .single (.completes (Devices.complete_completes ..))
  | abandon id => exact .single (.completes (Devices.abandon_completes ..))
  | pushStream id frame =>
    obtain ⟨change, pushed, after⟩ := pushStream_eq rack id frame
    have same : SameHolders rack { rack with slots := rack.slots.map change } := by
      constructor
      case devices => rfl
      case held =>
        funext index
        simp only [held, slot_mapSlots, (pushed _).resource?]
      case awaited =>
        funext index
        simp only [awaited, slot_mapSlots, (pushed _).pending_id]
    rw [host, after]
    exact same.motions
  | _ => exact .single (.data rfl rfl rfl)

theorem teardownAll_motions (rack : Rack σ) : Motions rack.view rack.teardownAll.view :=
  teardownAll_induction (P := fun after => Motions rack.view after.view)
    (fun before index moved => moved.trans (teardown_motions before index))
    (fun _ _ moved => moved) .refl

theorem step_motions (rack : Rack σ) (step : Step) : Motions rack.view (rack.step step).view := by
  cases step with
  | bind number request => exact bind_motions rack number request
  | unbind number => exact unbind_motions rack number
  | refresh now => exact refresh_motions rack now _
  | takeEvents => exact .refl
  | host step => exact host_motions rack step

theorem move_motions (rack : Rack σ) (move : Move σ) : Motions rack.view (rack.move move).view := by
  cases move with
  | call step => exact step_motions rack step
  | rebuild => exact (rebuild_same rack).motions
  | teardownAll => exact teardownAll_motions rack
  | backend next => exact .refl

theorem run_motions (rack : Rack σ) (moves : List (Move σ)) :
    Motions rack.view (moves.foldl move rack).view := by
  induction moves generalizing rack with
  | nil => exact .refl
  | cons move rest ih => exact (move_motions rack move).trans (ih _)

end Rack

end LiveFragment.Channel
