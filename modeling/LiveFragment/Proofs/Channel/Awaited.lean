import LiveFragment.Proofs.Channel.Apart
import LiveFragment.Proofs.Channel.Forgotten

namespace LiveFragment.Channel

open LiveFragment.Backend LiveFragment.Media

namespace Rack

variable {σ : Type}

theorem Installed.devices {before : Rack σ} {index : Fin 4} {source : Source}
    {step : Except BackendError Unit × Rack σ} (installed : Installed before index source step) :
    step.2.devices = before.devices := by
  cases installed
  rfl

theorem Installed.awaited {before : Rack σ} {index : Fin 4} {source : Source}
    {step : Except BackendError Unit × Rack σ} (installed : Installed before index source step) :
    step.2.awaited = before.awaited := by
  cases installed with
  | step slot backend shown pending =>
    have awaited := awaited_setSlot before index slot
    rw [pending] at awaited
    exact awaited.trans (Function.update_eq_self index _)

variable [Backend σ]

theorem teardown_handoff {rack : Rack σ} {index : Fin 4} {id : Nat}
    (apart : rack.awaited index ≠ some id) :
    (rack.teardown index).devices.handoff id = rack.devices.handoff id := by
  have stopped :
      ((rack.slot index).source.stop rack.devices).handoff id = rack.devices.handoff id := by
    rw [Devices.handoff, Source.stop_handoffs]
    rfl
  cases waits : (rack.slot index).pending with
  | none =>
    simp only [teardown, waits]
    exact stopped
  | some pending =>
    have other : id ≠ pending.id := by
      rintro rfl
      exact apart (awaited_of_pending waits)
    simp only [teardown, waits]
    rw [Devices.cancel_handoff, if_neg other]
    exact stopped

theorem openLive_handoff (rack : Rack σ) (index : Fin 4) (wanted : Wanted)
    (pending : Nat → Pending) {id : Nat} (opened : id < rack.devices.opened.length) :
    (rack.openLive index wanted pending).2.devices.handoff id = rack.devices.handoff id := by
  unfold openLive
  split
  · rename_i devices acquired
    rw [Devices.handoff, (Devices.acquire_ready acquired).2.1]
    rfl
  · rename_i number devices acquired
    have installed := (install_installed { rack with devices } index
      ((pending number).source number)).devices
    rw [ofBackend, installed, Devices.handoff, (Devices.acquire_ready acquired).2.1]
    rfl
  · rename_i number devices acquired
    obtain ⟨new, _, _, _, handoff⟩ := Devices.acquire_later acquired
    exact (handoff id).trans (if_neg (new ▸ Nat.ne_of_lt opened))

theorem acquire_handoff {rack : Rack σ} {index : Fin 4} (free : rack.held index = none)
    (request : Request) {id : Nat} (opened : id < rack.devices.opened.length) :
    (rack.acquire index request).2.devices.handoff id = rack.devices.handoff id := by
  cases asked : request.wanted? with
  | none => rw [(acquire_dead asked free).devices]
  | some wanted =>
    obtain ⟨pending, _, live⟩ := @acquire_live σ _ _ _ asked
    rw [live]
    exact openLive_handoff rack index wanted pending opened

theorem refreshSlot_handoff (rack : Rack σ) (index : Fin 4) (now id : Nat) :
    (rack.refreshSlot index now).devices.handoff id = rack.devices.handoff id := by
  have handoffs : (rack.refreshSlot index now).devices.handoffs = rack.devices.handoffs := by
    have taken := (takeFrame_keeps rack.devices now (rack.slot index).source).2.2.1
    unfold Rack.refreshSlot
    split
    · rfl
    · dsimp only
      split
      · exact taken
      · split
        · exact (congrArg Devices.handoffs (showFrame_same ..).devices).trans taken
        · exact taken
  rw [Devices.handoff, handoffs]
  rfl

theorem refreshSlot_awaited (rack : Rack σ) (index : Fin 4) (now : Nat) :
    (rack.refreshSlot index now).awaited = rack.awaited := by
  have ready (devices : Devices) (source : Source) :
      (setSource { rack with devices } index source).awaited = rack.awaited := by
    rw [setSource, awaited_setSlot]
    exact Function.update_eq_self index _
  unfold Rack.refreshSlot
  split
  · exact (onSlot_upload_same ..).awaited.trans (ready _ _)
  · dsimp only
    split
    · exact ready _ _
    · split
      · exact (showFrame_same ..).awaited.trans (ready _ _)
      · exact ready _ _

/-- A channel waits for an acquisition, which has come to something or not. -/
structure Awaits (channel : Fin 4) (id : Nat) (cell : Handoff Nat) (rack : Rack σ) : Prop where
  tickets : rack.view.Tickets
  awaited : rack.awaited channel = some id
  cell : rack.devices.handoff id = cell

namespace Awaits

variable {rack : Rack σ} {channel index : Fin 4} {id : Nat} {cell : Handoff Nat}

omit [Backend σ] in
theorem elsewhere (awaits : rack.Awaits channel id cell) (apart : channel ≠ index) :
    rack.awaited index ≠ some id :=
  (awaits.tickets.alone (.inr awaits.awaited) (Ne.symm apart)).2

omit [Backend σ] in
theorem opened (awaits : rack.Awaits channel id cell) : id < rack.devices.opened.length :=
  awaits.tickets.opened_of_place (.inr awaits.awaited)

omit [Backend σ] in
/-- What another channel does, by motions and without a look at the slot of this one. -/
theorem later {after : Rack σ} (awaits : rack.Awaits channel id cell)
    (motions : Motions rack.view after.view) (slot : after.slot channel = rack.slot channel)
    (handoff : after.devices.handoff id = rack.devices.handoff id) :
    after.Awaits channel id cell where
  tickets := motions.tickets awaits.tickets
  awaited := (congrArg (fun slot => slot.pending.map Pending.id) slot).trans awaits.awaited
  cell := handoff.trans awaits.cell

theorem teardown (awaits : rack.Awaits channel id cell) (apart : channel ≠ index) :
    (rack.teardown index).Awaits channel id cell :=
  awaits.later (teardown_motions rack index) ((closedAt_slot apart _).teardown rack rfl)
    (teardown_handoff (awaits.elsewhere apart))

theorem acquire (awaits : rack.Awaits channel id cell) (apart : channel ≠ index)
    (free : rack.held index = none) (request : Request) :
    (rack.acquire index request).2.Awaits channel id cell :=
  awaits.later (acquire_motions free request) ((closedAt_slot apart _).acquire request rfl)
    (acquire_handoff free request awaits.opened)

theorem bind (awaits : rack.Awaits channel id cell) {number : Nat} (apart : channel.val ≠ number)
    (request : Request) : (rack.bind number request).2.Awaits channel id cell := by
  cases named : checkIndex number with
  | error error =>
    simp only [Rack.bind, named]
    exact awaits
  | ok index =>
    have different : channel ≠ index := by
      rintro rfl
      exact apart (checkIndex_ok named)
    have acquired :=
      (awaits.teardown different).acquire different (teardown_free rack index) request
    refine awaits.later (bind_motions rack number request) (bind_apart rack apart request) ?_
    simp only [Rack.bind, named]
    split
    · rename_i after accepted
      rw [accepted] at acquired
      dsimp only
      split <;> exact acquired.cell.trans awaits.cell.symm
    · rename_i refused
      rw [refused] at acquired
      exact (acquired.teardown different).cell.trans awaits.cell.symm

theorem pollPending (awaits : rack.Awaits channel id cell) (apart : channel ≠ index) :
    (rack.pollPending index).Awaits channel id cell := by
  refine awaits.later (pollPending_motions rack index)
    ((closedAt_slot apart _).pollPending rfl) ?_
  unfold Rack.pollPending
  split
  · rfl
  · rename_i pending waits
    have other : id ≠ pending.id := by
      rintro rfl
      exact awaits.elsewhere apart (awaited_of_pending waits)
    have asked : (rack.devices.poll pending.id).2.handoff id = rack.devices.handoff id := by
      rw [Devices.poll_handoff, if_neg other]
    split
    · rename_i devices polled
      rw [polled] at asked
      exact asked
    · rename_i outcome devices polled
      rw [polled] at asked
      have idle : (setPending { rack with devices } index none).awaited index ≠ some id := by
        rw [setPending, awaited_setSlot, Function.update_self]
        exact (Option.some_ne_none id).symm
      dsimp only
      split
      · exact (teardown_handoff idle).trans asked
      · rename_i resource
        have installed := install_installed (setPending { rack with devices } index none) index
          (pending.source resource)
        have still := installed.devices
        split
        · rename_i after accepted
          rw [accepted] at still
          exact (congrArg (Devices.handoff · id) still).trans asked
        · rename_i error after refused
          rw [refused] at still installed
          have awaited : after.awaited index ≠ some id := installed.awaited ▸ idle
          exact (teardown_handoff awaited).trans
            ((congrArg (Devices.handoff · id) still).trans asked)

theorem refreshSlot (awaits : rack.Awaits channel id cell) (index : Fin 4) (now : Nat) :
    (rack.refreshSlot index now).Awaits channel id cell where
  tickets := (refreshSlot_motions rack index now).tickets awaits.tickets
  awaited := (congrFun (refreshSlot_awaited rack index now) channel).trans awaits.awaited
  cell := (refreshSlot_handoff rack index now id).trans awaits.cell

end Awaits

end Rack

end LiveFragment.Channel
