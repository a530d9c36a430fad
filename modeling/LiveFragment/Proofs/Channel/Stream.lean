import LiveFragment.Proofs.Channel.Aside
import LiveFragment.Proofs.Channel.Feed

namespace LiveFragment.Channel

open LiveFragment.Backend LiveFragment.Media

/-- The frame that a turn pushes into a stream. -/
def Turn.pushed? (id : Nat) : Turn → Option Frame
  | .call step => step.pushed? id
  | .lose | .restore => none

def Turn.refreshes : Turn → Bool
  | .call (.refresh _) => true
  | _ => false

theorem Turn.of_refreshes {turn : Turn} (refreshes : turn.refreshes = true) :
    ∃ now, turn = .call (.refresh now) := by
  unfold Turn.refreshes at refreshes
  split at refreshes
  · exact ⟨_, rfl⟩
  · cases refreshes

/-- A turn that gives a channel something else, or nothing. -/
def Turn.Supersedes (index : Fin 4) : Turn → Prop
  | .call step => step.Supersedes index
  | .lose | .restore => False

namespace Rack

variable {rack : Rack Headless} {index : Fin 4} {id : Nat} {name : String} {latest : Option Frame}

/-- A rack as every run leaves it, in which something was opened as a stream. -/
structure Regular (id : Nat) (name : String) (rack : Rack Headless) : Prop where
  coherent : ∃ fresh, rack.Coherent fresh
  tickets : rack.view.Tickets
  opened : rack.devices.opened[id]? = some (.stream name)

/-- A channel has a stream with the newest frame that was not shown, and a texture for it. -/
structure Streams (index : Fin 4) (id : Nat) (latest : Option Frame) (rack : Rack Headless) :
    Prop where
  source : (rack.slot index).source = .stream id latest
  texture : (rack.slot index).texture ≠ none

/-- A channel waits for a stream, for which a frame may have been pushed already. -/
def Expects (index : Fin 4) (id : Nat) (latest : Option Frame) (rack : Rack Headless) : Prop :=
  (rack.slot index).pending = some (.stream id latest)

theorem Streams.held (streams : rack.Streams index id latest) : rack.held index = some id :=
  congrArg Source.resource? streams.source

theorem Expects.awaited (expects : rack.Expects index id latest) :
    rack.awaited index = some id :=
  congrArg (Option.map Pending.id) expects

theorem turn_motions (rack : Rack Headless) (turn : Turn) :
    Motions rack.view (rack.turn turn).view := by
  cases turn with
  | call step => exact step_motions rack step
  | lose => exact .refl
  | restore =>
    exact (rebuild_same { rack with backend := (Backend.restore rack.backend).2 }).motions

theorem turns_motions (rack : Rack Headless) (turns : List Turn) :
    Motions rack.view (rack.run turns).view := by
  induction turns generalizing rack with
  | nil => exact .refl
  | cons turn rest ih => exact (turn_motions rack turn).trans (ih _)

theorem Coherent.run (coherent : ∃ fresh, rack.Coherent fresh) {turns : List Turn}
    (fits : ∀ turn ∈ turns, turn.Fits) : ∃ fresh, (rack.run turns).Coherent fresh := by
  obtain ⟨fresh, coherent⟩ := coherent
  have watched : Watched.Coherent ⟨rack, fresh⟩ := coherent
  have after := watched.run fits
  rw [Watched.Coherent, Watched.run_rack] at after
  exact ⟨_, after⟩

/-- After a restoration, channels have new textures where they had uploaded any. -/
theorem restore_remade (coherent : ∃ fresh, rack.Coherent fresh) :
    Remade (List.finRange 4) rack (rack.turn .restore) := by
  obtain ⟨fresh, coherent⟩ := coherent
  simp only [Rack.turn]
  cases restored : Backend.restore rack.backend with
  | mk result next =>
    obtain ⟨rfl, rfl⟩ := Prod.mk.inj restored
    obtain ⟨valid, cleared⟩ := Books.restore_ok coherent.valid restored
    obtain ⟨after, rebuilt, _⟩ := coherent.rebuild valid rfl cleared
    rw [rebuilt]
    exact { (rebuild_ok valid cleared rebuilt).2 with }

theorem Regular.run (regular : rack.Regular id name) {turns : List Turn}
    (fits : ∀ turn ∈ turns, turn.Fits) : (rack.run turns).Regular id name :=
  ⟨Coherent.run regular.coherent fits, (turns_motions rack turns).tickets regular.tickets,
    opened_later regular.opened (turns_motions rack turns)⟩

theorem Regular.turn (regular : rack.Regular id name) {turn : Turn} (fits : turn.Fits) :
    (rack.turn turn).Regular id name :=
  @Regular.run rack id name regular [turn] fun _ member => List.mem_singleton.mp member ▸ fits

namespace Streams

variable {rack : Rack Headless} {index : Fin 4} {id : Nat} {name : String} {latest : Option Frame}

theorem feeds (streams : rack.Streams index id latest) : (rack.slot index).feeds id = true :=
  Slot.feeds_source streams.source

theorem of_slot {after : Rack Headless} (streams : rack.Streams index id latest)
    (slot : after.slot index = rack.slot index) : after.Streams index id latest :=
  ⟨slot ▸ streams.source, slot ▸ streams.texture⟩

theorem idle (streams : rack.Streams index id latest) (coherent : ∃ fresh, rack.Coherent fresh) :
    (rack.slot index).pending = none := by
  obtain ⟨fresh, coherent⟩ := coherent
  refine (coherent.slots index).settled ?_
  rw [streams.source]
  nofun

theorem sound (streams : rack.Streams index id latest) (coherent : ∃ fresh, rack.Coherent fresh)
    (frame : Frame) (pushed : latest = some frame) : frame.Sound := by
  obtain ⟨fresh, coherent⟩ := coherent
  refine (coherent.slots index).sound frame ?_
  rw [streams.source, pushed]
  exact List.mem_singleton_self _

/-- Whether the backend takes the newest frame or not, the stream has handed it out. -/
theorem refreshSlot (streams : rack.Streams index id latest)
    (coherent : ∃ fresh, rack.Coherent fresh) (now : Nat) :
    (rack.refreshSlot index now).Streams index id none := by
  have slot : (rack.setSource index (.stream id none)).slot index =
      { rack.slot index with source := .stream id none } := slot_setSlot_self ..
  have taken : (rack.setSource index (.stream id none)).Streams index id none :=
    ⟨congrArg Slot.source slot, slot ▸ streams.texture⟩
  rw [refreshSlot_stream streams.source (streams.sound coherent)]
  cases latest.filter (·.isWellFormed) with
  | none => exact taken
  | some frame =>
    obtain ⟨handle, shown⟩ := (rack.setSource index (.stream id none)).onSlot_shows index
      frame.content.1 frame.content.2
    rw [Option.elim_some]
    split at shown
    · exact ⟨(congrArg Slot.source shown).trans taken.source,
        (congrArg Slot.texture shown).trans_ne (Option.some_ne_none handle)⟩
    · exact taken.of_slot shown

theorem refresh (streams : rack.Streams index id latest) (regular : rack.Regular id name)
    (now : Nat) : (rack.refresh now).Streams index id none := by
  have reached := reached_aside index regular.coherent regular.tickets now
  have there := streams.of_slot reached.slot
  have shown := there.refreshSlot reached.coherent now
  refine Streams.of_slot ?_ (refresh_aside index regular.coherent regular.tickets now).slot
  rw [visit, pollPending_idle (there.idle reached.coherent)]
  exact shown

/-- As long as the channel is given nothing else, it has the stream. -/
theorem turn (streams : rack.Streams index id latest) (regular : rack.Regular id name)
    {turn : Turn} (kept : ¬ turn.Supersedes index) :
    (rack.turn turn).Streams index id
      (if turn.refreshes then none else (turn.pushed? id).or latest) := by
  have quiet (step : Step) (leaves : step.Leaves index) :
      (rack.step step).Streams index id ((step.pushed? id).or latest) := by
    have slot := step_slot regular.opened streams.feeds leaves
    cases pushed : step.pushed? id with
    | none =>
      rw [pushed] at slot
      exact streams.of_slot slot
    | some frame =>
      rw [pushed, Option.elim_some, Slot.push_source streams.source] at slot
      exact ⟨slot ▸ rfl, slot ▸ streams.texture⟩
  cases turn with
  | call step =>
    cases step with
    | refresh now => exact streams.refresh regular now
    | bind number request => exact quiet (.bind number request) kept
    | unbind number => exact quiet (.unbind number) kept
    | takeEvents => exact quiet .takeEvents trivial
    | host step => exact quiet (.host step) trivial
  | lose => exact ⟨streams.source, streams.texture⟩
  | restore =>
    have remade := restore_remade regular.coherent
    obtain ⟨fresh, coherent⟩ := regular.coherent
    refine ⟨(congrArg Slot.source (remade.slots index)).trans streams.source, fun bare => ?_⟩
    have nothing := (remade.again index (List.mem_finRange index)).mp bare
    exact streams.texture ((coherent.slots index).retained.mpr nothing)

end Streams

namespace Expects

variable {rack : Rack Headless} {index : Fin 4} {id : Nat} {name : String} {latest : Option Frame}

theorem vacant (expects : rack.Expects index id latest)
    (coherent : ∃ fresh, rack.Coherent fresh) : (rack.slot index).source.kind = .empty := by
  obtain ⟨fresh, coherent⟩ := coherent
  exact (coherent.slots index).waiting (expects ▸ Option.some_ne_none _)

theorem free (expects : rack.Expects index id latest) (coherent : ∃ fresh, rack.Coherent fresh) :
    rack.held index = none := by
  have vacant := expects.vacant coherent
  unfold Rack.held
  cases source : (rack.slot index).source with
  | empty => rfl
  | _ =>
    rw [source] at vacant
    cases vacant

theorem feeds (expects : rack.Expects index id latest) (coherent : ∃ fresh, rack.Coherent fresh) :
    (rack.slot index).feeds id = true :=
  Slot.feeds_pending (expects.vacant coherent) expects

theorem turn (expects : rack.Expects index id latest) (regular : rack.Regular id name)
    {turn : Turn} (kept : ¬ turn.Supersedes index) (other : turn.refreshes = false) :
    (rack.turn turn).Expects index id ((turn.pushed? id).or latest) := by
  have quiet (step : Step) (leaves : step.Leaves index) :
      (rack.step step).Expects index id ((step.pushed? id).or latest) := by
    have slot := step_slot regular.opened (expects.feeds regular.coherent) leaves
    unfold Expects
    cases pushed : step.pushed? id with
    | none =>
      rw [slot, pushed]
      exact expects
    | some frame =>
      rw [slot, pushed, Option.elim_some,
        Slot.push_pending (expects.vacant regular.coherent) expects]
      rfl
  cases turn with
  | call step =>
    cases step with
    | refresh now => cases other
    | bind number request => exact quiet (.bind number request) kept
    | unbind number => exact quiet (.unbind number) kept
    | takeEvents => exact quiet .takeEvents trivial
    | host step => exact quiet (.host step) trivial
  | lose => exact expects
  | restore =>
    exact (congrArg Slot.pending ((restore_remade regular.coherent).slots index)).trans expects

/-- The other channels do not interfere with what the stream comes to. -/
theorem reached (expects : rack.Expects index id latest) (regular : rack.Regular id name)
    (now : Nat) :
    let met := rack.reached now index
    rack.Aside index met ∧ met.Expects index id latest ∧ met.Regular id name ∧
      (met.devices.poll id).1 = (rack.devices.poll id).1 := by
  have aside := reached_aside index regular.coherent regular.tickets now
  refine ⟨aside, (congrArg Slot.pending aside.slot).trans expects, ?_, ?_⟩
  · exact ⟨aside.coherent, aside.motions.tickets regular.tickets,
      opened_later regular.opened aside.motions⟩
  · exact congrArg (fun cell => cell.poll.1) (aside.handoff id expects.awaited)

end Expects

theorem refreshSlot_vacant {σ : Type} [Backend σ] {rack : Rack σ} {index : Fin 4}
    (vacant : (rack.slot index).source.kind = .empty) (now : Nat) :
    (rack.refreshSlot index now).slot index = rack.slot index := by
  cases source : (rack.slot index).source with
  | empty =>
    simp only [refreshSlot, source, takeFrame, setSource]
    rw [slot_setSlot_self]
    exact congrArg (fun source => { rack.slot index with source }) source.symm
  | _ =>
    rw [source] at vacant
    cases vacant

namespace Expects

variable {rack : Rack Headless} {index : Fin 4} {id : Nat} {name : String} {latest : Option Frame}

/-- The stream is not there yet, and nothing happens to its channel. -/
theorem refresh_waits (expects : rack.Expects index id latest) (regular : rack.Regular id name)
    (polled : (rack.devices.poll id).1 = none) (now : Nat) :
    (rack.refresh now).slot index = rack.slot index := by
  obtain ⟨aside, there, met, asked⟩ := expects.reached regular now
  have waits : ((rack.reached now index).pollPending index).slot index =
      (rack.reached now index).slot index := by
    rw [pollPending_waits there (asked.trans polled)]
  have visited : ((rack.reached now index).visit now index).slot index =
      (rack.reached now index).slot index := by
    refine (refreshSlot_vacant ?_ now).trans waits
    rw [waits]
    exact there.vacant met.coherent
  have refreshed := refresh_aside index regular.coherent regular.tickets now
  exact (refreshed.slot.trans visited).trans aside.slot

/-- A channel that is empty once it was visited has lost the stream for good. -/
theorem refresh_absent (expects : rack.Expects index id latest) (regular : rack.Regular id name)
    {now : Nat}
    (empty : ((rack.reached now index).pollPending index).slot index = .empty) :
    (rack.refresh now).view.Absent id := by
  obtain ⟨_, there, met, _⟩ := expects.reached regular now
  have visited : ((rack.reached now index).visit now index).slot index = .empty :=
    (refreshSlot_vacant (by rw [empty]; rfl) now).trans empty
  refine (refresh_aside index regular.coherent regular.tickets now).motions.absent ?_
  exact absent_of_emptied met.tickets (.inr there.awaited) (visit_motions _ now index)
    (fun other apart => (closedAt_slot apart _).visit now rfl) visited

theorem refresh_fails (expects : rack.Expects index id latest) (regular : rack.Regular id name)
    {error : AcquireError} (polled : (rack.devices.poll id).1 = some (.error error)) (now : Nat) :
    (rack.refresh now).view.Absent id := by
  obtain ⟨_, there, _, asked⟩ := expects.reached regular now
  refine expects.refresh_absent regular ?_
  rw [pollPending_fails there (asked.trans polled)]
  exact teardown_slot ..

/-- The stream is there, and it depends on the backend whether it comes to its channel. -/
theorem refresh_brings (expects : rack.Expects index id latest) (regular : rack.Regular id name)
    {resource : Nat} (polled : (rack.devices.poll id).1 = some (.ok resource)) (now : Nat) :
    (rack.refresh now).Streams index id none ∨ (rack.refresh now).view.Absent id := by
  obtain ⟨_, there, met, asked⟩ := expects.reached regular now
  have brings := pollPending_brings there (asked.trans polled)
  obtain rfl : resource = id := met.tickets.eq_of_polled (asked.trans polled)
  cases installed : ((rack.reached now index).vacated index resource).install index
      (.stream resource latest) with
  | mk result after =>
    simp only [Pending.id, Pending.source] at brings
    rw [installed] at brings
    cases result with
    | error error =>
      refine .inr (expects.refresh_absent regular ?_)
      rw [brings]
      exact teardown_slot after index
    | ok accepted =>
      obtain ⟨handle, slot⟩ := install_stream installed
      have streams : ((rack.reached now index).pollPending index).Streams index resource latest := by
        rw [brings]
        exact ⟨congrArg Slot.source slot,
          (congrArg Slot.texture slot).trans_ne (Option.some_ne_none handle)⟩
      have shown := streams.refreshSlot (Coherent.polled met.coherent index) now
      exact .inl (shown.of_slot (refresh_aside index regular.coherent regular.tickets now).slot)

end Expects

end Rack

end LiveFragment.Channel
