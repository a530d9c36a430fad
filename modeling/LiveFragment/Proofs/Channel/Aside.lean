import LiveFragment.Proofs.Channel.Awaited
import LiveFragment.Proofs.Channel.Display

namespace LiveFragment.Channel

open LiveFragment.Backend LiveFragment.Media

namespace Rack

section Visits

variable {σ : Type} [Backend σ]

/-- What a refresh does for one channel. -/
def visit (now : Nat) (rack : Rack σ) (index : Fin 4) : Rack σ :=
  (rack.pollPending index).refreshSlot index now

/-- The rack when a refresh comes to a channel. -/
def reached (rack : Rack σ) (now : Nat) (index : Fin 4) : Rack σ :=
  ((List.finRange 4).take index).foldl (visit now) rack

theorem refresh_reached (rack : Rack σ) (now : Nat) (index : Fin 4) :
    rack.refresh now =
      ((List.finRange 4).drop (index + 1)).foldl (visit now)
        ((rack.reached now index).visit now index) := by
  have order : ∀ index : Fin 4, List.finRange 4 =
      (List.finRange 4).take index ++ index :: (List.finRange 4).drop (index + 1) := by decide
  calc rack.refresh now
    _ = (List.finRange 4).foldl (visit now) rack := rfl
    _ = _ := congrArg (List.foldl (visit now) rack) (order index)
    _ = _ := by
      rw [List.foldl_append, List.foldl_cons]
      rfl

theorem ClosedAt.visit {P : Rack σ → Prop} {index : Fin 4} (closed : ClosedAt index P)
    {rack : Rack σ} (now : Nat) (before : P rack) : P (rack.visit now index) :=
  closed.refreshSlot now (closed.pollPending before)

theorem visit_motions (rack : Rack σ) (now : Nat) (index : Fin 4) :
    Motions rack.view (rack.visit now index).view :=
  (pollPending_motions rack index).trans (refreshSlot_motions _ index now)

theorem Coherent.polled [Books σ] {rack : Rack σ} (coherent : ∃ fresh, rack.Coherent fresh)
    (index : Fin 4) : ∃ fresh, (rack.pollPending index).Coherent fresh := by
  obtain ⟨fresh, coherent⟩ := coherent
  have watched : Watched.Coherent ⟨rack, fresh⟩ := coherent
  exact ⟨_, watched.poll index⟩

theorem Coherent.visit [Books σ] {rack : Rack σ} (coherent : ∃ fresh, rack.Coherent fresh)
    (now : Nat) (index : Fin 4) : ∃ fresh, (rack.visit now index).Coherent fresh := by
  obtain ⟨fresh, polled⟩ := Coherent.polled coherent index
  exact ⟨_, polled.refreshSlot index now⟩

end Visits

/-- What a channel finds after only the others were visited. -/
structure Aside (index : Fin 4) (before after : Rack Headless) : Prop where
  coherent : ∃ fresh, after.Coherent fresh
  motions : Motions before.view after.view
  slot : after.slot index = before.slot index
  display : after.display? index = before.display? index
  handoff : ∀ id, before.awaited index = some id →
    after.devices.handoff id = before.devices.handoff id
  backend : before.backend.Later after.backend

namespace Aside

variable {index : Fin 4} {first second third : Rack Headless}

theorem refl (coherent : ∃ fresh, first.Coherent fresh) : first.Aside index first :=
  ⟨coherent, .refl, rfl, rfl, fun _ _ => rfl, .refl _⟩

theorem awaited (aside : first.Aside index second) :
    second.awaited index = first.awaited index :=
  congrArg (fun slot => slot.pending.map Pending.id) aside.slot

theorem trans (before : first.Aside index second) (after : second.Aside index third) :
    first.Aside index third where
  coherent := after.coherent
  motions := before.motions.trans after.motions
  slot := after.slot.trans before.slot
  display := after.display.trans before.display
  handoff id awaited :=
    (after.handoff id (before.awaited.trans awaited)).trans (before.handoff id awaited)
  backend := before.backend.trans after.backend

end Aside

variable {rack : Rack Headless} {index : Fin 4}

theorem visit_aside (coherent : ∃ fresh, rack.Coherent fresh) (tickets : rack.view.Tickets)
    {other : Fin 4} (apart : index ≠ other) (now : Nat) :
    rack.Aside index (rack.visit now other) := by
  have slot : (rack.visit now other).slot index = rack.slot index :=
    (closedAt_slot apart _).visit now rfl
  refine ⟨Coherent.visit coherent now other, visit_motions rack now other, slot, ?_, ?_, ?_⟩
  · refine display?_congr (congrArg Slot.texture slot) (congrArg Slot.resolution slot) ?_
    intro handle held
    obtain ⟨fresh, coherent⟩ := coherent
    exact ((closedAt_texture apart handle (Books.record? rack.backend handle)).visit now
      ⟨coherent.owned, held, rfl⟩).2.2
  · intro id awaited
    have awaits : rack.Awaits index id (rack.devices.handoff id) := ⟨tickets, awaited, rfl⟩
    exact ((awaits.pollPending apart).refreshSlot other now).cell
  · exact (closedAt_backend (Headless.textureClosed_later rack.backend) other).visit now (.refl _)

theorem visits_aside (coherent : ∃ fresh, rack.Coherent fresh) (tickets : rack.view.Tickets)
    {others : List (Fin 4)} (apart : ∀ other ∈ others, index ≠ other) (now : Nat) :
    rack.Aside index (others.foldl (visit now) rack) := by
  induction others generalizing rack with
  | nil => exact .refl coherent
  | cons other rest ih =>
    have first := visit_aside coherent tickets (apart other (by simp)) now
    exact first.trans (ih first.coherent (first.motions.tickets tickets)
      fun other member => apart other (by simp [member]))

theorem reached_aside (index : Fin 4) (coherent : ∃ fresh, rack.Coherent fresh)
    (tickets : rack.view.Tickets) (now : Nat) : rack.Aside index (rack.reached now index) := by
  have before : ∀ index : Fin 4, ∀ other ∈ (List.finRange 4).take index, index ≠ other := by
    decide
  exact visits_aside coherent tickets (before index) now

theorem refresh_aside (index : Fin 4) (coherent : ∃ fresh, rack.Coherent fresh)
    (tickets : rack.view.Tickets) (now : Nat) :
    ((rack.reached now index).visit now index).Aside index (rack.refresh now) := by
  have after : ∀ index : Fin 4, ∀ other ∈ (List.finRange 4).drop (index + 1), index ≠ other := by
    decide
  have reached := reached_aside index coherent tickets now
  rw [refresh_reached rack now index]
  refine visits_aside (Coherent.visit reached.coherent now index) ?_ (after index) now
  exact (visit_motions _ now index).tickets (reached.motions.tickets tickets)

end Rack

end LiveFragment.Channel
