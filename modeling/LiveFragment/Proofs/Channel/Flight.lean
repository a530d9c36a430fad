import LiveFragment.Proofs.Channel.Awaited
import LiveFragment.Proofs.Channel.Told

namespace LiveFragment.Channel

open LiveFragment.Backend LiveFragment.Media

/-- The end that a step of the host puts to an acquisition. -/
def HostStep.ending? : HostStep → Option (Nat × Except AcquireError Nat)
  | .complete id none => some (id, .ok id)
  | .complete id (some error) => some (id, .error error)
  | .abandon id => some (id, .error Handoff.abandonedError)
  | _ => none

/-- An acquisition that the host took up: the binding that it is for, its number, and the end that
it has come to. -/
structure Flight where
  binding : Nat
  id : Nat
  ending : Option (Except AcquireError Nat)

namespace Flight

/-- The first end of an acquisition is the one that counts. -/
def after (flight : Flight) (step : HostStep) : Flight :=
  match flight.ending, step.ending? with
  | none, some (id, ending) =>
    if flight.id = id then { flight with ending := some ending } else flight
  | _, _ => flight

/-- What lies in the hand-off of an acquisition. -/
def Lies (flight : Flight) (cell : Handoff Nat) : Prop :=
  match flight.ending with
  | none => cell = .waiting
  | some ending => cell.poll.1 = some ending

theorem after_binding (flight : Flight) (step : HostStep) :
    (flight.after step).binding = flight.binding := by
  unfold after
  split
  · split <;> rfl
  · rfl

theorem after_id (flight : Flight) (step : HostStep) : (flight.after step).id = flight.id := by
  unfold after
  split
  · split <;> rfl
  · rfl

end Flight

namespace Rack

variable {σ : Type}

theorem host_ended {rack : Rack σ} {step : HostStep} {id : Nat} {ending : Except AcquireError Nat}
    (ends : step.ending? = some (id, ending)) (member : id ∈ rack.devices.completers)
    (waiting : rack.devices.handoff id = .waiting) :
    ((rack.host step).devices.handoff id).poll.1 = some ending := by
  have present : rack.devices.completers.contains id = true := by simpa using member
  have filed (cell : Handoff Nat) : (rack.devices.finished id cell).handoff id = cell := by
    rw [Devices.finished_handoff, if_pos rfl]
  cases step with
  | complete number error =>
    cases error <;>
    · obtain ⟨rfl, rfl⟩ := Prod.mk.inj (Option.some.inj ends)
      simp only [host, Devices.complete, present, waiting, if_true]
      exact congrArg (fun cell => cell.poll.1) (filed _)
  | abandon number =>
    obtain ⟨rfl, rfl⟩ := Prod.mk.inj (Option.some.inj ends)
    simp only [host, Devices.abandon, present, waiting, if_true]
    exact congrArg (fun cell => cell.poll.1) (filed _)
  | _ => cases ends

theorem host_spared {rack : Rack σ} {step : HostStep} {id : Nat}
    (spared : rack.devices.handoff id ≠ .waiting ∨ ∀ ending, step.ending? ≠ some (id, ending)) :
    (rack.host step).devices.handoff id = rack.devices.handoff id := by
  have apart {devices : Devices} (completes : rack.devices.Completes devices)
      (answered : rack.devices.handoff id ≠ .waiting) :
      devices.handoff id = rack.devices.handoff id :=
    (completes.2.2 id).resolve_right fun ⟨waiting, _⟩ => answered waiting
  cases step with
  | complete number error =>
    rcases spared with answered | other
    · exact apart (Devices.complete_completes ..) answered
    · have different : id ≠ number := by
        rintro rfl
        cases error <;> exact other _ rfl
      simp only [host, Devices.complete]
      split
      · exact (Devices.finished_handoff ..).trans (if_neg different)
      · rfl
  | abandon number =>
    rcases spared with answered | other
    · exact apart (Devices.abandon_completes ..) answered
    · have different : id ≠ number := by
        rintro rfl
        exact other _ rfl
      simp only [host, Devices.abandon]
      split
      · exact (Devices.finished_handoff ..).trans (if_neg different)
      · rfl
  | pushStream number frame =>
    obtain ⟨change, -, after⟩ := pushStream_eq rack number frame
    rw [host, after]
  | _ => rfl

theorem host_awaited (rack : Rack σ) (step : HostStep) :
    (rack.host step).awaited = rack.awaited := by
  cases step with
  | pushStream id frame =>
    obtain ⟨change, pushed, after⟩ := pushStream_eq rack id frame
    funext index
    simp only [host, after, awaited, slot_mapSlots, (pushed _).pending_id]
  | _ => rfl

/-- A channel waits for an acquisition, and its end lies in the hand-off. -/
structure Flies (rack : Rack σ) (index : Fin 4) (flight : Flight) : Prop where
  awaits : rack.Awaits index flight.id (rack.devices.handoff flight.id)
  lies : flight.Lies (rack.devices.handoff flight.id)

namespace Flies

variable {rack : Rack σ} {index : Fin 4} {flight : Flight}

theorem later (flies : rack.Flies index flight) {after : Rack σ}
    (awaits : after.Awaits index flight.id (rack.devices.handoff flight.id)) :
    after.Flies index flight where
  awaits := ⟨awaits.tickets, awaits.awaited, rfl⟩
  lies := awaits.cell.symm ▸ flies.lies

theorem same (flies : rack.Flies index flight) {after : Rack σ} (same : SameHolders rack after) :
    after.Flies index flight := by
  refine flies.later ⟨same.motions.tickets flies.awaits.tickets, ?_, ?_⟩
  · exact (congrFun same.awaited index).trans flies.awaits.awaited
  · rw [same.devices]

theorem host (flies : rack.Flies index flight) {taken refused : List Nat}
    (custody : rack.InCustody taken refused) (step : HostStep) :
    (rack.host step).Flies index (flight.after step) := by
  have awaited := (congrFun (host_awaited rack step) index).trans flies.awaits.awaited
  have tickets := (host_motions rack step).tickets flies.awaits.tickets
  have lies := flies.lies
  unfold Flight.Lies at lies
  refine ⟨⟨tickets, (flight.after_id step).symm ▸ awaited, rfl⟩, ?_⟩
  rw [flight.after_id, Flight.Lies]
  cases ended : flight.ending with
  | some ending =>
    have stays : flight.after step = flight := by simp only [Flight.after, ended]
    simp only [ended] at lies
    have answered : rack.devices.handoff flight.id ≠ .waiting := by
      intro waiting
      rw [waiting] at lies
      cases lies
    simp only [stays, ended, host_spared (.inl answered)]
    exact lies
  | none =>
    simp only [ended] at lies
    by_cases ends : ∃ ending, step.ending? = some (flight.id, ending)
    · obtain ⟨ending, ends⟩ := ends
      have now : (flight.after step).ending = some ending := by
        simp only [Flight.after, ended, ends, if_true]
      simp only [now]
      exact host_ended ends (custody.due index _ flies.awaits.awaited lies) lies
    · have stays : flight.after step = flight := by
        unfold Flight.after
        split
        · rename_i id ending _ other
          split
          · rename_i same
            exact absurd ⟨ending, same ▸ other⟩ ends
          · rfl
        · rfl
      simp only [stays, ended, host_spared (.inr (not_exists.mp ends))]
      exact lies

variable [Backend σ]

theorem poll (flies : rack.Flies index flight) (goesOn : flight.ending = none) :
    (rack.pollPending index).Flies index flight := by
  have waiting : rack.devices.handoff flight.id = .waiting := by
    have lies := flies.lies
    rwa [Flight.Lies, goesOn] at lies
  obtain ⟨pending, held, own⟩ := Option.map_eq_some_iff.mp flies.awaits.awaited
  have nothing : (rack.devices.poll pending.id).1 = none := by
    rw [own, Devices.poll, waiting]
    rfl
  have motions := pollPending_motions rack index
  rw [pollPending_waits held nothing] at motions ⊢
  refine flies.later ⟨motions.tickets flies.awaits.tickets, flies.awaits.awaited, ?_⟩
  rw [Devices.poll_handoff, own, if_pos rfl, waiting]

end Flies

variable [Backend σ]

/-- A binding that is answered later takes off under the number of its opening. -/
theorem bind_flies {rack : Rack σ} (tickets : rack.view.Tickets) {number : Nat} {index : Fin 4}
    (named : checkIndex number = .ok index) {request : Request}
    (defers : rack.defers request = true) (binding : Nat) :
    (rack.bind number request).2.Flies index ⟨binding, rack.devices.opened.length, none⟩ := by
  obtain ⟨opened, plan⟩ := teardown_opened rack index
  obtain ⟨asks, planned⟩ := Bool.and_eq_true_iff.mp defers
  obtain ⟨wanted, asks⟩ := Option.isSome_iff_exists.mp asks
  obtain ⟨pending, own, live⟩ := @acquire_live σ _ _ _ asks
  obtain ⟨id, later⟩ := ((rack.teardown index).devices.acquire_plan wanted).mpr
    (plan ▸ beq_iff_eq.mp planned)
  cases acquired : (rack.teardown index).devices.acquire wanted with
  | mk acquisition devices =>
    rw [acquired] at later
    obtain rfl : acquisition = .inFlight id := later
    obtain ⟨new, -, -, -, handoff⟩ := Devices.acquire_later acquired
    rw [opened] at new
    have waits : (rack.teardown index).acquire index request =
        (.ok (), setPending { rack.teardown index with devices } index (some (pending id))) := by
      rw [live, openLive, acquired]
    obtain ⟨slot, same, -⟩ := supply_accepted waits
    have motions := bind_motions rack number request
    rw [bind_eq rack named] at motions ⊢
    have cell : ((rack.teardown index).supply index request).devices.handoff id = .waiting := by
      rw [same, Devices.handoff]
      exact (handoff id).trans (if_pos rfl)
    rw [← new]
    refine ⟨⟨motions.tickets tickets, ?_, rfl⟩, cell⟩
    rw [awaited, slot, setPending, slot_setSlot_self]
    exact congrArg some (own id)

end Rack

end LiveFragment.Channel
