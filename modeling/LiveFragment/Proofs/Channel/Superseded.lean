import LiveFragment.Proofs.Channel.Forgotten

namespace LiveFragment.Channel

open LiveFragment.Backend LiveFragment.Media

/-- An acquisition has brought a resource that nobody fetched, or it may still be completed. -/
def InFlight (devices : Devices) (id : Nat) : Prop :=
  devices.arrived id = 1 ∨ (id ∈ devices.completers ∧ devices.handoff id = .waiting)

/-- A call that gives a channel something else, or nothing. -/
def Step.Supersedes (index : Fin 4) : Step → Prop
  | .bind number _ | .unbind number => number = index.val
  | _ => False

theorem checkIndex_val (index : Fin 4) : checkIndex index.val = .ok index :=
  dif_pos index.isLt

namespace Rack

variable {σ : Type}

/-- The rack if an acquisition had come to something else by now. -/
def instead (rack : Rack σ) (id : Nat) (cell : Handoff Nat) : Rack σ :=
  { rack with devices := rack.devices.finished id cell }

theorem forget_instead (rack : Rack σ) (id : Nat) (cell : Handoff Nat) :
    (rack.instead id cell).forget id = rack.forget id := by
  simp only [forget, instead, Devices.forget_finished_self]

theorem instead_tickets {rack : Rack σ} (tickets : rack.view.Tickets) {id : Nat}
    {cell : Handoff Nat}
    (faithful : ∀ resource, cell = .delivered (.ok resource) → resource = id) :
    (rack.instead id cell).view.Tickets where
  places := tickets.places
  outcome other resource delivered := by
    have found : (rack.devices.finished id cell).handoff other = .delivered (.ok resource) :=
      delivered
    rw [Devices.finished_handoff] at found
    split at found
    · rename_i same
      exact same ▸ faithful resource found
    · exact tickets.outcome other resource found

/-- What a rack and its live inputs still have to do with an acquisition a channel waits for. -/
theorem places_of_pending {rack : Rack σ} (tickets : rack.view.Tickets) {index : Fin 4}
    {pending : Pending} (waits : (rack.slot index).pending = some pending) :
    pending.id < rack.devices.opened.length ∧ holders rack.held pending.id = 0 ∧
      holders rack.awaited pending.id = 1 ∧ rack.devices.stopped.count pending.id = 0 := by
  have places : holders rack.held pending.id + holders rack.awaited pending.id +
      rack.devices.stopped.count pending.id ≤
        if pending.id < rack.devices.opened.length then 1 else 0 := tickets.places pending.id
  have here := holders_pos (awaited_of_pending waits)
  split at places
  · exact ⟨‹_›, by omega, by omega, by omega⟩
  · omega

theorem count_resources_self {devices : Devices} {id : Nat}
    (faithful : ∀ resource, devices.handoff id = .delivered (.ok resource) → resource = id) :
    (devices.handoff id).resources.count id = devices.arrived id := by
  unfold Handoff.resources Devices.arrived
  split
  · rename_i resource delivered
    rw [faithful resource delivered]
    simp
  · rfl

variable [Backend σ]

/-- Taking a channel down is the end of the acquisition that it waits for. -/
theorem teardown_gone {rack : Rack σ} (tickets : rack.view.Tickets) {index : Fin 4}
    {pending : Pending} (waits : (rack.slot index).pending = some pending) :
    (rack.teardown index).view.Gone pending.id (rack.devices.arrived pending.id) := by
  obtain ⟨opened, held, awaited, stopped⟩ := places_of_pending tickets waits
  have devices : (rack.teardown index).devices =
      ((rack.slot index).source.stop rack.devices).cancel pending.id := by
    simp only [teardown, waits]
  have handoff (id : Nat) : ((rack.slot index).source.stop rack.devices).handoff id =
      rack.devices.handoff id := by
    rw [Devices.handoff, Source.stop_handoffs]
    rfl
  have viewed := teardown_view rack index
  have after := (teardown_motions rack index).tickets tickets
  rw [viewed] at after ⊢
  have elsewhere := ne_some_of_holders held
  refine ⟨after, ?_, ?_, ?_, ?_, ?_⟩
  · have same : ((rack.slot index).source.stop rack.devices).opened = rack.devices.opened := by
      cases (rack.slot index).source <;> rfl
    simp only [devices, Devices.cancel_opened, same]
    exact opened
  · simp only [devices, Devices.cancel_handoff, if_true]
  · exact update_ne_some elsewhere index (by simp)
  · have vacated := holders_vacate (awaited_of_pending waits) pending.id
    apply ne_some_of_holders
    rw [awaited, if_pos rfl] at vacated
    dsimp only
    omega
  · have before : ((rack.slot index).source.stop rack.devices).stopped.count pending.id = 0 := by
      rw [Source.stop_eq]
      cases holds : (rack.slot index).source.resource? with
      | none => exact stopped
      | some other =>
        have apart : other ≠ pending.id := by
          rintro rfl
          exact elsewhere index holds
        simp [Devices.stop, stopped, apart]
    simp only [devices, Devices.cancel_stopped, List.count_append, before, handoff, Nat.zero_add]
    exact count_resources_self (tickets.outcome pending.id)

theorem step_gone {rack : Rack σ} (tickets : rack.view.Tickets) {index : Fin 4}
    {pending : Pending} (waits : (rack.slot index).pending = some pending) {cut : Step}
    (supersedes : cut.Supersedes index) :
    (rack.step cut).view.Gone pending.id (rack.devices.arrived pending.id) := by
  have down := teardown_gone tickets waits
  cases cut with
  | bind number request =>
    obtain rfl : number = index.val := supersedes
    simp only [step, bind_eq rack (checkIndex_val index)]
    exact (supply_motions (teardown_free rack index) request).gone down
  | unbind number =>
    obtain rfl : number = index.val := supersedes
    simp only [step, unbind, checkIndex_val]
    exact down
  | _ => cases supersedes

/-- What a channel gets instead does not depend on what became of the acquisition. -/
theorem forget_step {rack twin : Rack σ} (tickets : rack.view.Tickets)
    (twinTickets : twin.view.Tickets) {index : Fin 4} {pending : Pending}
    (waits : (rack.slot index).pending = some pending)
    (twinWaits : (twin.slot index).pending = some pending) {cut : Step}
    (supersedes : cut.Supersedes index)
    (alike : rack.forget pending.id = twin.forget pending.id) :
    (rack.step cut).forget pending.id = (twin.step cut).forget pending.id := by
  have down :
      (rack.teardown index).forget pending.id = (twin.teardown index).forget pending.id := by
    have elsewhere := ne_some_of_holders (places_of_pending tickets waits).2.1
    have twinElsewhere := ne_some_of_holders (places_of_pending twinTickets twinWaits).2.1
    rw [forget_teardown_self tickets waits (elsewhere index),
      forget_teardown_self twinTickets twinWaits (twinElsewhere index), alike]
  cases cut with
  | bind number request =>
    obtain rfl : number = index.val := supersedes
    simp only [step, bind_eq _ (checkIndex_val index)]
    rw [forget_supply (teardown_gone tickets waits) (teardown_free rack index),
      forget_supply (teardown_gone twinTickets twinWaits) (teardown_free twin index), down]
  | unbind number =>
    obtain rfl : number = index.val := supersedes
    simp only [step, unbind, checkIndex_val]
    exact down
  | _ => cases supersedes

theorem new_tickets {backend next : σ} {options : RackOptions} {start : Rack σ}
    (made : Rack.new backend Devices.none options = (.ok start, next)) : start.view.Tickets := by
  obtain ⟨devices, held, awaited⟩ := new_vacant made
  rw [view, devices, held, awaited]
  constructor
  case places =>
    intro id
    simp [View.places, holders, Devices.none]
  case outcome =>
    intro id resource delivered
    simp [Devices.handoff, Devices.none] at delivered

end Rack

/-- What has become of a superseded acquisition: what had arrived was stopped when the channel was
cut off, and once only; what arrives after is handed back, and no channel ever has it. -/
structure Superseded {σ : Type} (id : Nat) (before cut after : Rack σ) : Prop where
  untouched : before.devices.stopped.count id = 0
  stopped : cut.devices.stopped.count id = before.devices.arrived id
  once : after.devices.stopped.count id = before.devices.arrived id
  returned : ∀ error, (after.devices.complete id error).1 =
    if id ∈ after.devices.completers then some false else none
  nowhere : ∀ index, after.held index ≠ some id ∧ after.awaited index ≠ some id

theorem View.Gone.returned {view : View} {id stops : Nat} (gone : view.Gone id stops)
    (error : Option AcquireError) :
    (view.devices.complete id error).1 =
      if id ∈ view.devices.completers then some false else none := by
  unfold Devices.complete
  by_cases present : id ∈ view.devices.completers
  · rw [if_pos (by simpa using present), if_pos present, gone.cell]
    rfl
  · rw [if_neg (by simpa using present), if_neg present]

/-- In every run, an acquisition in flight is that of one channel, and the only one that the channel
waits for. Once the channel is bound anew or unbound, the acquisition is superseded, and all goes as
if it had come to anything else. -/
theorem Rack.run_superseded {σ : Type} [Backend σ] {backend next : σ} {options : RackOptions}
    {start : Rack σ} (made : Rack.new backend Devices.none options = (.ok start, next)) :
    (∀ (moves : List (Move σ)) (id : Nat),
      let rack := moves.foldl move start
      InFlight rack.devices id → ∃! index, rack.awaited index = some id) ∧
    ∀ (earlier later : List (Move σ)) (index : Fin 4) (pending : Pending) (cut : Step),
      let before := earlier.foldl move start
      let after := later.foldl move (before.step cut)
      (before.slot index).pending = some pending → cut.Supersedes index →
        Superseded pending.id before (before.step cut) after ∧
        ∀ cell : Handoff Nat,
          (∀ resource, cell = .delivered (.ok resource) → resource = pending.id) →
          after.forget pending.id =
            ((later.filter fun move => !move.ends pending.id).foldl move
              ((before.instead pending.id cell).step cut)).forget pending.id := by
  constructor
  · intro moves id rack due
    have initial : Ledger.Balanced ⟨start, [], []⟩ := Rack.new_inCustody made
    have balanced := initial.run moves
    rw [Ledger.Balanced, Ledger.run_rack] at balanced
    obtain ⟨index, waits⟩ := balanced.expected id due
    exact ⟨index, waits, fun other both => balanced.distinct other index id both waits⟩
  · intro earlier later index pending cut before after waits supersedes
    have tickets : before.view.Tickets := (run_motions start earlier).tickets (new_tickets made)
    have gone := step_gone tickets waits supersedes
    have further := (run_motions (before.step cut) later).gone gone
    refine ⟨⟨(places_of_pending tickets waits).2.2.2, gone.stopped, further.stopped,
      further.returned, fun other => ⟨further.held other, further.awaited other⟩⟩, ?_⟩
    intro cell faithful
    have twinTickets := instead_tickets tickets faithful
    have twinWaits : ((before.instead pending.id cell).slot index).pending = some pending := waits
    have twinGone := step_gone twinTickets twinWaits supersedes
    have alike := forget_step tickets twinTickets waits twinWaits supersedes
      (forget_instead before pending.id cell).symm
    rw [forget_run gone, forget_run twinGone, alike]
    simp only [List.filter_filter, Bool.and_self]

/-- A camera arrives for a channel that is then bound anew. -/
def overtaken : List (Move Headless) :=
  [.call (.host (.plan [.pending, .pending])), .call (.bind 0 (.camera none)),
    .call (.host (.complete 0 none))]

/-- The other camera, which the channel waits for instead, arrives and is shown. -/
def overtaking : List (Move Headless) :=
  [.call (.host (.complete 1 none)), .call (.refresh 7)]

/-- The first camera is stopped, once, and it might as well not have arrived. -/
theorem Rack.run_superseded_camera :
    ∃ start next,
      Rack.new (Headless.new (fun _ => none) 4 4) Devices.none .bare = (.ok start, next) ∧
      let before := overtaken.foldl move start
      let cut := before.step (.bind 0 (.camera none))
      let after := overtaking.foldl move cut
      before.devices.arrived 0 = 1 ∧ Superseded 0 before cut after ∧
        after.devices.stopped = [0] ∧ after.held 0 = some 1 ∧
        after.forget 0 =
          ((overtaking.filter fun move => !move.ends 0).foldl move
            ((before.instead 0 .waiting).step (.bind 0 (.camera none)))).forget 0 := by
  have made : Rack.new (Headless.new (fun _ => none) 4 4) Devices.none .bare =
    (.ok _, _) := rfl
  have results := (run_superseded made).2 overtaken overtaking 0 (.camera 0)
    (.bind 0 (.camera none)) rfl rfl
  exact ⟨_, _, made, rfl, results.1, rfl, rfl, results.2 .waiting nofun⟩

end LiveFragment.Channel
