import LiveFragment.Proofs.Channel.Apart
import LiveFragment.Proofs.Channel.Superseded

namespace LiveFragment.Channel

open LiveFragment.Backend LiveFragment.Media

namespace Slot

/-- Whether a channel shows a stream or waits for it. -/
def feeds (id : Nat) (slot : Slot) : Bool :=
  match slot.source, slot.pending with
  | .stream held _, _ => held == id
  | _, some (.stream held _) => held == id
  | _, _ => false

/-- A frame that is pushed takes the place of the one before it. -/
def push (id : Nat) (frame : Frame) (slot : Slot) : Slot :=
  if slot.feeds id then
    match slot.source, slot.pending with
    | .stream .., _ => { slot with source := .stream id (some frame) }
    | _, _ => { slot with pending := some (.stream id (some frame)) }
  else slot

variable {id : Nat} {slot : Slot} {latest : Option Frame}

theorem feeds_iff : slot.feeds id = true ↔
    (∃ latest, slot.source = .stream id latest) ∨
      slot.source.kind ≠ .stream ∧ ∃ latest, slot.pending = some (.stream id latest) := by
  obtain ⟨source, pending, _, _, _, _⟩ := slot
  cases source with
  | stream held latest => simp [feeds, Source.kind]
  | _ =>
    cases pending with
    | none => simp [feeds]
    | some pending => cases pending <;> simp [feeds, Source.kind]

theorem feeds_source (source : slot.source = .stream id latest) : slot.feeds id = true :=
  feeds_iff.mpr (.inl ⟨latest, source⟩)

theorem feeds_pending (vacant : slot.source.kind = .empty)
    (pending : slot.pending = some (.stream id latest)) : slot.feeds id = true :=
  feeds_iff.mpr (.inr ⟨by rw [vacant]; decide, latest, pending⟩)

theorem place_of_feeds (feeds : slot.feeds id = true) :
    slot.source.resource? = some id ∨ slot.pending.map Pending.id = some id := by
  rcases feeds_iff.mp feeds with ⟨latest, source⟩ | ⟨_, latest, pending⟩
  · exact .inl (source ▸ rfl)
  · exact .inr (pending ▸ rfl)

theorem feeds_unique {other : Nat} (feeds : slot.feeds id = true)
    (both : slot.feeds other = true) : other = id := by
  rcases feeds_iff.mp feeds with ⟨_, source⟩ | ⟨idle, _, pending⟩
  · rcases feeds_iff.mp both with ⟨_, same⟩ | ⟨idle, _⟩
    · exact (Source.stream.inj (same.symm.trans source)).1
    · exact absurd (congrArg Source.kind source) idle
  · rcases feeds_iff.mp both with ⟨_, source⟩ | ⟨_, _, same⟩
    · exact absurd (congrArg Source.kind source) idle
    · exact (Pending.stream.inj (Option.some.inj (same.symm.trans pending))).1

theorem push_source (source : slot.source = .stream id latest) (frame : Frame) :
    slot.push id frame = { slot with source := .stream id (some frame) } := by
  rw [push, if_pos (feeds_source source), source]

theorem push_pending (vacant : slot.source.kind = .empty)
    (pending : slot.pending = some (.stream id latest)) (frame : Frame) :
    slot.push id frame = { slot with pending := some (.stream id (some frame)) } := by
  rw [push, if_pos (feeds_pending vacant pending)]
  split
  · rename_i source
    rw [source] at vacant
    cases vacant
  · rfl

theorem push_elsewhere (other : ¬ slot.feeds id = true) (frame : Frame) :
    slot.push id frame = slot :=
  if_neg other

theorem push_keeps (id : Nat) (frame : Frame) (slot : Slot) :
    (slot.push id frame).texture = slot.texture ∧
      (slot.push id frame).resolution = slot.resolution := by
  unfold push
  split
  · constructor <;> split <;> rfl
  · exact ⟨rfl, rfl⟩

end Slot

/-- The frame that a step pushes into a stream. -/
def Step.pushed? (id : Nat) : Step → Option Frame
  | .host (.pushStream other frame) => if other = id then some frame else none
  | _ => none

/-- A step that does not refresh, and does not give a channel anything else. -/
def Step.Leaves (index : Fin 4) : Step → Prop
  | .bind number _ | .unbind number => number ≠ index.val
  | .refresh _ => False
  | .takeEvents | .host _ => True

namespace Rack

section Pushes

variable {σ : Type} {rack : Rack σ} {id : Nat} {name : String}

theorem pushStream_opened (opened : rack.devices.opened[id]? = some (.stream name))
    (frame : Frame) :
    rack.pushStream id frame =
      (some (rack.slots.toList.any (Slot.feeds id)),
        { rack with slots := rack.slots.map (Slot.push id frame) }) := by
  have pushed : rack.pushStream id frame =
      if rack.slots.toList.any (Slot.feeds id) then
        (some true, { rack with slots := rack.slots.map (Slot.push id frame) })
      else (some false, rack) := by
    simp only [pushStream, opened]
    rfl
  rw [pushed]
  split
  · rename_i taken
    rw [taken]
  · rename_i nobody
    have apart (slot : Slot) (member : slot ∈ rack.slots) : slot.push id frame = slot := by
      refine Slot.push_elsewhere (fun feeds => nobody ?_) frame
      exact List.any_eq_true.mpr ⟨slot, Vector.mem_toList_iff.mpr member, feeds⟩
    have still : rack.slots.map (Slot.push id frame) = rack.slots := by
      simpa using Vector.map_congr_left apart
    rw [still, Bool.eq_false_iff.mpr nobody]

theorem pushStream_fed (opened : rack.devices.opened[id]? = some (.stream name)) {index : Fin 4}
    (feeds : (rack.slot index).feeds id = true) (frame : Frame) :
    (rack.pushStream id frame).1 = some true := by
  rw [pushStream_opened opened]
  refine congrArg some (List.any_eq_true.mpr ⟨rack.slot index, ?_, feeds⟩)
  exact Vector.mem_toList_iff.mpr (Vector.getElem_mem _)

theorem pushStream_absent (opened : rack.devices.opened[id]? = some (.stream name))
    (absent : rack.view.Absent id) (frame : Frame) :
    rack.pushStream id frame = (some false, rack) := by
  have apart (slot : Slot) (member : slot ∈ rack.slots) : ¬ slot.feeds id = true := by
    obtain ⟨number, bound, rfl⟩ := Vector.mem_iff_getElem.mp member
    exact fun feeds => (Slot.place_of_feeds feeds).elim (absent.held ⟨number, bound⟩)
      (absent.awaited ⟨number, bound⟩)
  have nobody : rack.slots.toList.any (Slot.feeds id) = false :=
    List.any_eq_false.mpr fun slot member => apart slot (Vector.mem_toList_iff.mp member)
  have still : rack.slots.map (Slot.push id frame) = rack.slots := by
    simpa using Vector.map_congr_left fun slot member =>
      Slot.push_elsewhere (apart slot member) frame
  rw [pushStream_opened opened, nobody, still]

theorem opened_later {after : Rack σ} (opened : rack.devices.opened[id]? = some (.stream name))
    (motions : Motions rack.view after.view) :
    after.devices.opened[id]? = some (.stream name) := by
  obtain ⟨bound, found⟩ := List.getElem?_eq_some_iff.mp opened
  have longer : rack.devices.opened <+: after.devices.opened := motions.opened
  rw [List.getElem?_eq_some_iff]
  exact ⟨Nat.lt_of_lt_of_le bound longer.length_le, (longer.getElem bound).symm.trans found⟩

/-- A channel that is emptied by itself leaves its stream to nobody. -/
theorem absent_of_emptied {after : Rack σ} {index : Fin 4} (tickets : rack.view.Tickets)
    (here : rack.held index = some id ∨ rack.awaited index = some id)
    (motions : Motions rack.view after.view)
    (others : ∀ other, other ≠ index → after.slot other = rack.slot other)
    (empty : after.slot index = .empty) : after.view.Absent id := by
  have elsewhere (other : Fin 4) : after.held other ≠ some id ∧ after.awaited other ≠ some id := by
    unfold Rack.held Rack.awaited
    by_cases same : other = index
    · rw [same, empty]
      exact ⟨nofun, nofun⟩
    · rw [others other same]
      exact tickets.alone here same
  exact ⟨motions.tickets tickets,
    Nat.lt_of_lt_of_le (tickets.opened_of_place here) motions.opened.length_le,
    fun other => (elsewhere other).1, fun other => (elsewhere other).2⟩

end Pushes

section Steps

variable {σ : Type} [Backend σ] {rack : Rack σ} {id : Nat} {name : String} {index : Fin 4}

theorem teardown_absent (tickets : rack.view.Tickets)
    (here : rack.held index = some id ∨ rack.awaited index = some id) :
    (rack.teardown index).view.Absent id :=
  absent_of_emptied tickets here (teardown_motions rack index)
    (fun _ apart => (closedAt_slot apart _).teardown rack rfl) (teardown_slot rack index)

theorem step_absent (tickets : rack.view.Tickets)
    (here : rack.held index = some id ∨ rack.awaited index = some id) {cut : Step}
    (supersedes : cut.Supersedes index) : (rack.step cut).view.Absent id := by
  have down := teardown_absent tickets here
  cases cut with
  | bind number request =>
    obtain rfl : number = index.val := supersedes
    simp only [step, bind_eq rack (checkIndex_val index)]
    exact (supply_motions (teardown_free rack index) request).absent down
  | unbind number =>
    obtain rfl : number = index.val := supersedes
    simp only [step, unbind, checkIndex_val]
    exact down
  | _ => cases supersedes

/-- A channel with a stream is left alone but for the frames that are pushed there. -/
theorem step_slot (opened : rack.devices.opened[id]? = some (.stream name))
    (feeds : (rack.slot index).feeds id = true) {step : Step} (leaves : step.Leaves index) :
    (rack.step step).slot index =
      (step.pushed? id).elim (rack.slot index) fun frame => (rack.slot index).push id frame := by
  cases step with
  | bind number request => exact bind_apart rack (Ne.symm leaves) request
  | unbind number =>
    refine ClosedAt.unbind (P := fun after => after.slot index = rack.slot index) ?_ rfl
    intro other named
    have apart : index ≠ other := by
      rintro rfl
      exact leaves named.symm
    exact closedAt_slot apart _
  | refresh now => cases leaves
  | takeEvents => rfl
  | host step =>
    cases step with
    | pushStream other frame =>
      simp only [Rack.step, host, Step.pushed?]
      by_cases same : other = id
      · rw [same, if_pos rfl, pushStream_opened opened, slot_mapSlots]
        rfl
      · have deaf : ¬ (rack.slot index).feeds other = true :=
          fun both => same (Slot.feeds_unique feeds both)
        rw [if_neg same]
        cases asked : rack.devices.opened[other]? with
        | none => simp only [pushStream, asked]; rfl
        | some wanted =>
          cases wanted with
          | stream source =>
            rw [pushStream_opened asked, slot_mapSlots]
            exact Slot.push_elsewhere deaf frame
          | _ => simp only [pushStream, asked]; rfl
    | _ => rfl

end Steps

end Rack

end LiveFragment.Channel
