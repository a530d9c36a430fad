import LiveFragment.Proofs.Channel.Coherence
import LiveFragment.Proofs.Channel.Moved

namespace LiveFragment

open LiveFragment.Backend LiveFragment.Media

namespace Media

/-- What is filed under other numbers. -/
def strike {α : Type} (id : Nat) (entries : List (Nat × α)) : List (Nat × α) :=
  entries.filter (·.1 ≠ id)

theorem strike_refile_self {α : Type} (id : Nat) (value : α) (entries : List (Nat × α)) :
    strike id (refile id value entries) = strike id entries := by
  simp [strike, refile, List.filter_filter]

theorem strike_refile {α : Type} {id other : Nat} (apart : other ≠ id) (value : α)
    (entries : List (Nat × α)) :
    strike id (refile other value entries) = refile other value (strike id entries) := by
  rw [strike, refile, refile, strike, List.filter_cons_of_pos (by simpa using apart),
    List.filter_comm]

namespace Devices

/-- The live inputs without the hand-off of an acquisition and without its resource. -/
def forget (devices : Devices) (id : Nat) : Devices :=
  { devices with
    handoffs := strike id devices.handoffs
    completers := devices.completers.filter (· ≠ id)
    stopped := devices.stopped.filter (· ≠ id) }

variable {devices : Devices} {id other : Nat}

theorem forget_handoff (apart : other ≠ id) :
    (devices.forget id).handoff other = devices.handoff other := by
  have different : (other == id) = false := by simpa using apart
  have without := handoff_refile devices id other .waiting
  rw [if_neg apart] at without
  rw [← without]
  simp only [handoff, refile, List.lookup_cons, different, forget, strike]

theorem forget_stop (apart : other ≠ id) :
    (devices.stop other).forget id = (devices.forget id).stop other := by
  simp [forget, stop, apart]

theorem forget_refile (apart : other ≠ id) (cell : Handoff Nat) :
    forget { devices with handoffs := refile other cell devices.handoffs } id =
      { devices.forget id with handoffs := refile other cell (devices.forget id).handoffs } := by
  simp only [forget, strike_refile apart]

theorem forget_finished (apart : other ≠ id) (cell : Handoff Nat) :
    (devices.finished other cell).forget id = (devices.forget id).finished other cell := by
  simp only [forget, finished, strike_refile apart]
  rw [List.filter_comm]

theorem forget_finished_self (cell : Handoff Nat) :
    (devices.finished id cell).forget id = devices.forget id := by
  simp only [forget, finished, strike_refile_self, List.filter_filter, Bool.and_self]

theorem forget_acquire (opened : id < devices.opened.length) (wanted : Wanted) :
    (devices.forget id).acquire wanted =
      ((devices.acquire wanted).1, (devices.acquire wanted).2.forget id) := by
  have apart : devices.opened.length ≠ id := Nat.ne_of_gt opened
  have kept : (devices.opened.length :: devices.completers).filter (· ≠ id) =
      devices.opened.length :: devices.completers.filter (· ≠ id) :=
    List.filter_cons_of_pos (by simpa using apart)
  simp only [acquire, forget]
  cases devices.plan.headD .unsupported with
  | pending => simp only [strike_refile apart, kept]
  | _ => rfl

theorem forget_cancel (apart : other ≠ id)
    (outcome : ∀ resource, devices.handoff other = .delivered (.ok resource) → resource = other) :
    (devices.cancel other).forget id = (devices.forget id).cancel other := by
  have kept : (devices.handoff other).resources.filter (· ≠ id) =
      (devices.handoff other).resources := by
    apply List.filter_eq_self.mpr
    intro resource inside
    rw [eq_of_mem_resources outcome inside]
    simpa using apart
  rw [cancel_eq, cancel_eq, forget_handoff apart]
  simp only [forget, strike_refile apart, List.filter_append, kept]

theorem forget_cancel_self
    (outcome : ∀ resource, devices.handoff id = .delivered (.ok resource) → resource = id) :
    (devices.cancel id).forget id = devices.forget id := by
  have gone : (devices.handoff id).resources.filter (· ≠ id) = [] := by
    apply List.filter_eq_nil_iff.mpr
    intro resource inside
    simp [eq_of_mem_resources outcome inside]
  rw [cancel_eq]
  simp only [forget, strike_refile_self, List.filter_append, gone, List.append_nil]

theorem forget_poll (apart : other ≠ id) :
    (devices.forget id).poll other =
      ((devices.poll other).1, (devices.poll other).2.forget id) := by
  simp only [poll, forget_handoff apart, forget_refile apart]

theorem mem_forget_completers (apart : other ≠ id) :
    (devices.forget id).completers.contains other = devices.completers.contains other := by
  rw [Bool.eq_iff_iff]
  simp [forget, apart]

theorem forget_complete (apart : other ≠ id) (error : Option AcquireError) :
    (devices.complete other error).2.forget id = ((devices.forget id).complete other error).2 := by
  simp only [complete, mem_forget_completers apart, forget_handoff apart]
  split
  · exact forget_finished apart _
  · rfl

theorem forget_complete_self (error : Option AcquireError) :
    (devices.complete id error).2.forget id = devices.forget id := by
  unfold complete
  split
  · exact forget_finished_self _
  · rfl

theorem forget_abandon (apart : other ≠ id) :
    (devices.abandon other).2.forget id = ((devices.forget id).abandon other).2 := by
  simp only [abandon, mem_forget_completers apart, forget_handoff apart]
  split
  · exact forget_finished apart _
  · rfl

theorem forget_abandon_self : (devices.abandon id).2.forget id = devices.forget id := by
  unfold abandon
  split
  · exact forget_finished_self _
  · rfl

end Devices

end Media

namespace Channel

theorem Source.forget_stop {source : Source} {id : Nat} (apart : source.resource? ≠ some id)
    (devices : Devices) :
    (source.stop devices).forget id = source.stop (devices.forget id) := by
  rw [Source.stop_eq, Source.stop_eq]
  cases held : source.resource? with
  | none => rfl
  | some other =>
    rw [held] at apart
    exact Devices.forget_stop (by simpa using apart)

theorem Source.stop_handoffs (source : Source) (devices : Devices) :
    (source.stop devices).handoffs = devices.handoffs := by
  cases source <;> rfl

/-- Whether a step of the host says how an acquisition ends. -/
def HostStep.ends (id : Nat) : HostStep → Bool
  | .complete other _ | .abandon other => other = id
  | _ => false

def Move.ends {σ : Type} (id : Nat) : Move σ → Bool
  | .call (.host step) => step.ends id
  | _ => false

namespace Rack

variable {σ : Type}

/-- A rack whose live inputs have forgotten an acquisition. -/
def forget (rack : Rack σ) (id : Nat) : Rack σ := { rack with devices := rack.devices.forget id }

variable [Backend σ] {rack : Rack σ} {id : Nat} {index : Fin 4}

theorem forget_showing (rack : Rack σ) (id : Nat) (index : Fin 4) (source : Source)
    (desc : TextureDesc) (pixels : Bytes) :
    (rack.forget id).showing index source desc pixels =
      ((rack.showing index source desc pixels).1,
        (rack.showing index source desc pixels).2.forget id) := by
  have uploaded :
      (rack.forget id).onSlot index (fun slot backend => slot.upload backend desc pixels) =
      ((rack.onSlot index fun slot backend => slot.upload backend desc pixels).1,
        (rack.onSlot index fun slot backend => slot.upload backend desc pixels).2.forget id) := rfl
  simp only [showing, uploaded]
  cases rack.onSlot index fun slot backend => slot.upload backend desc pixels with
  | mk result after => cases result <;> rfl

theorem forget_install (rack : Rack σ) (id : Nat) (index : Fin 4) (source : Source) :
    (rack.forget id).install index source =
      ((rack.install index source).1, (rack.install index source).2.forget id) := by
  cases source with
  | microphone number analyser => exact forget_showing ..
  | stream number latest =>
    simp only [install, forget_showing]
    cases rack.showing index (.stream number latest) (.rgba 1 1) opaqueBlack with
    | mk result after => cases result <;> rfl
  | _ => rfl

theorem forget_showFrame (rack : Rack σ) (id : Nat) (index : Fin 4) (frame : Frame) :
    (rack.forget id).showFrame index frame =
      ((rack.showFrame index frame).1, (rack.showFrame index frame).2.forget id) := by
  unfold showFrame
  split <;> rfl

theorem forget_openLive (opened : id < rack.devices.opened.length) (index : Fin 4) (wanted : Wanted)
    (pending : Nat → Pending) :
    (rack.forget id).openLive index wanted pending =
      ((rack.openLive index wanted pending).1,
        (rack.openLive index wanted pending).2.forget id) := by
  have acquired := Devices.forget_acquire opened wanted
  simp only [openLive]
  rw [show (rack.forget id).devices = rack.devices.forget id from rfl, acquired]
  cases rack.devices.acquire wanted with
  | mk acquisition devices =>
    cases acquisition with
    | ready outcome =>
      cases outcome with
      | error error => rfl
      | ok number =>
        have installed :=
          forget_install { rack with devices } id index ((pending number).source number)
        dsimp only
        exact congrArg ofBackend installed
    | inFlight number => rfl

theorem forget_acquire (opened : id < rack.devices.opened.length) (index : Fin 4)
    (request : Request) :
    (rack.forget id).acquire index request =
      ((rack.acquire index request).1, (rack.acquire index request).2.forget id) := by
  have options : (rack.forget id).options = rack.options := rfl
  simp only [acquire, options]
  cases resolved : resolveRequest rack.options request with
  | error error => rfl
  | ok request =>
    cases request with
    | image path =>
      dsimp only
      cases loadImage rack.options path with
      | error error => rfl
      | ok frame =>
        simp only [forget_showFrame]
        cases rack.showFrame index frame with
        | mk result after => cases result <;> rfl
    | video path =>
      dsimp only
      cases loadVideo rack.options path <;> rfl
    | pixels frame =>
      dsimp only
      split
      · rfl
      · simp only [forget_showFrame]
        cases rack.showFrame index frame with
        | mk result after => cases result <;> rfl
    | camera device => exact forget_openLive opened ..
    | microphone size =>
      dsimp only
      split
      · exact forget_openLive opened ..
      · rfl
    | stream source => exact forget_openLive opened ..
    | noise pattern =>
      exact congrArg ofBackend
        (forget_showing { rack with generators := rack.generators + 1 } id index .noise _ _)
    | library name => rfl

/-- What a channel stops and what it waited for was something else. -/
theorem forget_teardown {stops : Nat} (gone : rack.view.Gone id stops) (index : Fin 4) :
    (rack.teardown index).forget id = (rack.forget id).teardown index := by
  have stopped := Source.forget_stop (gone.held index) rack.devices
  cases waits : (rack.slot index).pending with
  | none => simp only [teardown, forget, setSlot, waits, stopped]
  | some pending =>
    have apart : pending.id ≠ id := by
      rintro rfl
      exact gone.awaited index (awaited_of_pending waits)
    have cancelled : (((rack.slot index).source.stop rack.devices).cancel pending.id).forget id =
        ((rack.slot index).source.stop (rack.devices.forget id)).cancel pending.id := by
      rw [← stopped]
      apply Devices.forget_cancel apart
      intro resource delivered
      rw [Devices.handoff, Source.stop_handoffs] at delivered
      exact gone.outcome pending.id resource delivered
    simp only [teardown, forget, setSlot, waits, cancelled]

/-- A channel that is taken down while it waits forgets what it waited for. -/
theorem forget_teardown_self (tickets : rack.view.Tickets) {pending : Pending}
    (waits : (rack.slot index).pending = some pending)
    (apart : rack.held index ≠ some pending.id) :
    (rack.teardown index).forget pending.id =
      ((rack.forget pending.id).setPending index none).teardown index := by
  have stopped := Source.forget_stop apart rack.devices
  have cancelled : (((rack.slot index).source.stop rack.devices).cancel pending.id).forget
      pending.id = (rack.slot index).source.stop (rack.devices.forget pending.id) := by
    rw [← stopped]
    apply Devices.forget_cancel_self
    intro resource delivered
    rw [Devices.handoff, Source.stop_handoffs] at delivered
    exact tickets.outcome pending.id resource delivered
  have idle : ((rack.forget pending.id).setPending index none).slot index =
      { rack.slot index with pending := none } := slot_setSlot_self ..
  have emptied : ((rack.forget pending.id).setPending index none).slots.set index .empty =
      rack.slots.set index .empty := by
    simp [setPending, setSlot, forget]
  simp only [teardown, waits, idle, setSlot, emptied]
  simp only [forget, setPending, setSlot, cancelled]

theorem forget_supply {stops : Nat} (gone : rack.view.Gone id stops)
    (free : rack.held index = none) (request : Request) :
    (rack.supply index request).forget id = (rack.forget id).supply index request := by
  have after := (acquire_motions free request).gone gone
  simp only [supply, forget_acquire gone.opened]
  cases acquired : rack.acquire index request with
  | mk result next =>
    rw [acquired] at after
    cases result with
    | error error =>
      have down := forget_teardown after index
      dsimp only
      rw [← down]
      rfl
    | ok =>
      dsimp only
      split
      · rename_i idle
        exact (if_pos idle).symm
      · rename_i busy
        exact (if_neg busy).symm

theorem forget_bind {stops : Nat} (gone : rack.view.Gone id stops) (number : Nat)
    (request : Request) :
    (rack.bind number request).2.forget id = ((rack.forget id).bind number request).2 := by
  cases named : checkIndex number with
  | error error => simp only [Rack.bind, named]
  | ok index =>
    rw [bind_eq _ named, bind_eq _ named,
      forget_supply ((teardown_motions rack index).gone gone) (teardown_free rack index),
      forget_teardown gone]

theorem forget_unbind {stops : Nat} (gone : rack.view.Gone id stops) (number : Nat) :
    (rack.unbind number).2.forget id = ((rack.forget id).unbind number).2 := by
  unfold unbind
  split
  · rfl
  · exact forget_teardown gone _

theorem forget_pollPending {stops : Nat} (gone : rack.view.Gone id stops) (index : Fin 4) :
    (rack.pollPending index).forget id = (rack.forget id).pollPending index := by
  cases waits : (rack.slot index).pending with
  | none =>
    have waiting : ((rack.forget id).slot index).pending = none := waits
    simp only [pollPending, waits, waiting]
  | some pending =>
    have waiting : ((rack.forget id).slot index).pending = some pending := waits
    have apart : pending.id ≠ id := by
      rintro rfl
      exact gone.awaited index (awaited_of_pending waits)
    have asked : (rack.forget id).devices.poll pending.id = ((rack.devices.poll pending.id).1,
        (rack.devices.poll pending.id).2.forget id) := Devices.forget_poll apart
    simp only [pollPending, waits, waiting, asked]
    cases polled : rack.devices.poll pending.id with
    | mk outcome next =>
      cases outcome with
      | none => rfl
      | some outcome =>
        have fetched := (fetches_motion waits polled).gone gone
        cases outcome with
        | error error =>
          have down := forget_teardown fetched index
          exact congrArg (·.report index pending.kind (.error error)) down
        | ok resource =>
          have takes := install_takes (setPending { rack with devices := next } index none) index
            (pending.source resource)
          have installed : install
              (setPending { rack.forget id with devices := next.forget id } index none) index
              (pending.source resource) = _ :=
            forget_install (setPending { rack with devices := next } index none) id ..
          simp only [installed]
          cases done : install (setPending { rack with devices := next } index none) index
              (pending.source resource) with
          | mk result after =>
            rw [done] at takes
            cases result with
            | ok => rfl
            | error error =>
              have same : after.view = (setPending { rack with devices := next } index none).view :=
                SameHolders.view takes
              have down := forget_teardown (same ▸ fetched) index
              exact congrArg (·.report index pending.kind (.error (.ofBackend error))) down

omit [Backend σ] in
theorem forget_takeFrame (devices : Devices) (id now : Nat) (source : Source) :
    takeFrame (devices.forget id) now source =
      ((takeFrame devices now source).1, (takeFrame devices now source).2.1,
        (takeFrame devices now source).2.2.forget id) := by
  cases source with
  | camera number =>
    have frames : (devices.forget id).frames = devices.frames := rfl
    simp only [takeFrame, Devices.takeFrame, frames]
    split <;> rfl
  | _ => rfl

theorem forget_refreshSlot (rack : Rack σ) (id : Nat) (index : Fin 4) (now : Nat) :
    (rack.refreshSlot index now).forget id = (rack.forget id).refreshSlot index now := by
  by_cases other : (rack.slot index).source.kind = .microphone
  · cases held : (rack.slot index).source with
    | microphone number analyser =>
      have holds : ((rack.forget id).slot index).source = .microphone number analyser := held
      simp only [refreshSlot, held, holds]
      rfl
    | _ =>
      rw [held] at other
      cases other
  · have apart : ((rack.forget id).slot index).source.kind ≠ .microphone := other
    have taken : takeFrame (rack.forget id).devices now ((rack.forget id).slot index).source = _ :=
      forget_takeFrame rack.devices id now (rack.slot index).source
    rw [Coherent.refreshSlot_eq other, Coherent.refreshSlot_eq apart, taken]
    obtain ⟨frame, source, devices⟩ := takeFrame rack.devices now (rack.slot index).source
    cases frame with
    | none => rfl
    | some frame =>
      have shown :=
        forget_showFrame (Rack.setSource { rack with devices } index source) id index frame
      dsimp only
      split
      · exact congrArg Prod.snd shown.symm
      · rfl

theorem forget_refresh {stops : Nat} (gone : rack.view.Gone id stops) (now : Nat)
    (indices : List (Fin 4)) :
    (indices.foldl (fun rack index => (rack.pollPending index).refreshSlot index now)
        rack).forget id =
      indices.foldl (fun rack index => (rack.pollPending index).refreshSlot index now)
        (rack.forget id) := by
  induction indices generalizing rack with
  | nil => rfl
  | cons index rest ih =>
    have polled := (pollPending_motions rack index).gone gone
    have shown := (refreshSlot_motions (rack.pollPending index) index now).gone polled
    rw [List.foldl_cons, List.foldl_cons, ih shown, forget_refreshSlot, forget_pollPending gone]

theorem forget_rebuildSlots (rack : Rack σ) (id : Nat) (indices : List (Fin 4)) :
    (rack.rebuildSlots indices).2.forget id = ((rack.forget id).rebuildSlots indices).2 := by
  induction indices generalizing rack with
  | nil => rfl
  | cons index rest ih =>
    have slot : (rack.forget id).slot index = rack.slot index := rfl
    have backend : (rack.forget id).backend = rack.backend := rfl
    simp only [rebuildSlots, slot, backend]
    cases (rack.slot index).uploaded with
    | none => exact ih _
    | some upload =>
      dsimp only
      cases Backend.createTexture rack.backend upload.1 upload.2 with
      | mk result next =>
        cases result with
        | error error => rfl
        | ok texture => exact ih _

theorem forget_rebuild (rack : Rack σ) (id : Nat) :
    rack.rebuild.2.forget id = (rack.forget id).rebuild.2 := by
  have backend : (rack.forget id).backend = rack.backend := rfl
  simp only [rebuild, backend]
  cases Backend.createTexture rack.backend (.rgba 1 1) opaqueBlack with
  | mk result next =>
    cases result with
    | error error => rfl
    | ok placeholder => exact forget_rebuildSlots ..

theorem forget_teardowns {stops : Nat} (gone : rack.view.Gone id stops) (indices : List (Fin 4)) :
    (indices.foldl teardown rack).forget id = indices.foldl teardown (rack.forget id) := by
  induction indices generalizing rack with
  | nil => rfl
  | cons index rest ih =>
    rw [List.foldl_cons, List.foldl_cons, ih ((teardown_motions rack index).gone gone),
      forget_teardown gone]

omit [Backend σ] in
theorem forget_host {step : HostStep} (other : step.ends id = false) (rack : Rack σ) :
    (rack.host step).forget id = (rack.forget id).host step := by
  cases step with
  | complete number error =>
    have apart : number ≠ id := by simpa [HostStep.ends] using other
    simp only [host, forget, Devices.forget_complete apart]
  | abandon number =>
    have apart : number ≠ id := by simpa [HostStep.ends] using other
    simp only [host, forget, Devices.forget_abandon apart]
  | pushStream number frame =>
    have opened : (rack.forget id).devices.opened = rack.devices.opened := rfl
    have slots : (rack.forget id).slots = rack.slots := rfl
    simp only [host, pushStream, opened, slots]
    split
    · split <;> rfl
    · rfl
  | _ => rfl

omit [Backend σ] in
theorem forget_host_self {step : HostStep} (own : step.ends id = true) (rack : Rack σ) :
    (rack.host step).forget id = rack.forget id := by
  cases step with
  | complete number error =>
    obtain rfl : number = id := by simpa [HostStep.ends] using own
    simp only [host, forget, Devices.forget_complete_self]
  | abandon number =>
    obtain rfl : number = id := by simpa [HostStep.ends] using own
    simp only [host, forget, Devices.forget_abandon_self]
  | _ => cases own

theorem forget_move {stops : Nat} (gone : rack.view.Gone id stops) {move : Move σ}
    (other : move.ends id = false) : (rack.move move).forget id = (rack.forget id).move move := by
  cases move with
  | call step =>
    cases step with
    | bind number request => exact forget_bind gone number request
    | unbind number => exact forget_unbind gone number
    | refresh now => exact forget_refresh gone now _
    | takeEvents => rfl
    | host step => exact forget_host other rack
  | rebuild => exact forget_rebuild rack id
  | teardownAll =>
    have down := forget_teardowns gone (List.finRange 4)
    simp only [Rack.move, teardownAll, ← down]
    rfl
  | backend next => rfl

theorem forget_move_self {move : Move σ} (own : move.ends id = true) (rack : Rack σ) :
    (rack.move move).forget id = rack.forget id := by
  cases move with
  | call step =>
    cases step with
    | host step => exact forget_host_self own rack
    | _ => cases own
  | _ => cases own

/-- A run does the same whether or not the acquisition ends in its course. -/
theorem forget_run {stops : Nat} (gone : rack.view.Gone id stops) (moves : List (Move σ)) :
    (moves.foldl move rack).forget id =
      (moves.filter fun move => !move.ends id).foldl move (rack.forget id) := by
  induction moves generalizing rack with
  | nil => rfl
  | cons move rest ih =>
    have next := (move_motions rack move).gone gone
    rw [List.foldl_cons, ih next]
    cases own : move.ends id with
    | false => rw [List.filter_cons_of_pos (by simp [own]), List.foldl_cons, forget_move gone own]
    | true =>
      have same : (rack.move move).forget id = rack.forget id := forget_move_self own rack
      rw [List.filter_cons_of_neg (by simp [own]), same]

end Rack

end Channel

end LiveFragment
