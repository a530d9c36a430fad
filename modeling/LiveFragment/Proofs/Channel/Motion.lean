import Mathlib.Logic.Relation
import LiveFragment.Proofs.Channel.Resources

namespace LiveFragment

open LiveFragment.Backend LiveFragment.Media

namespace Media.Devices

/-- An opening that is over at once only counts. -/
theorem acquire_ready {devices next : Devices} {wanted : Wanted}
    {outcome : Except AcquireError Nat}
    (acquired : devices.acquire wanted = (.ready outcome, next)) :
    next.opened = devices.opened ++ [wanted] ∧ next.handoffs = devices.handoffs ∧
      next.stopped = devices.stopped ∧ ∀ id, outcome = .ok id → id = devices.opened.length := by
  simp only [acquire] at acquired
  split at acquired <;> cases acquired
  · exact ⟨rfl, rfl, rfl, fun _ same => (Except.ok.inj same).symm⟩
  · exact ⟨rfl, rfl, rfl, fun _ refused => by cases refused⟩
  · exact ⟨rfl, rfl, rfl, fun _ refused => by cases refused⟩

theorem cancel_eq (devices : Devices) (id : Nat) :
    devices.cancel id =
      { devices with
        handoffs := refile id .cancelled devices.handoffs
        stopped := devices.stopped ++ (devices.handoff id).resources } := by
  simp only [cancel, Handoff.cancel, Handoff.resources]
  cases devices.handoff id with
  | delivered outcome => cases outcome <;> simp [stop]
  | _ => simp

theorem cancel_stopped (devices : Devices) (id : Nat) :
    (devices.cancel id).stopped = devices.stopped ++ (devices.handoff id).resources := by
  rw [cancel_eq]

/-- The completing side leaves a cell alone, or it waited and gets nothing but its own resource. -/
def Completes (before after : Devices) : Prop :=
  after.opened = before.opened ∧ after.stopped = before.stopped ∧
    ∀ id, after.handoff id = before.handoff id ∨
      (before.handoff id = .waiting ∧
        ∀ resource, after.handoff id = .delivered (.ok resource) → resource = id)

theorem finished_completes {devices : Devices} {id : Nat} {cell : Handoff Nat}
    (next : cell = devices.handoff id ∨ (devices.handoff id = .waiting ∧
      ∀ resource, cell = .delivered (.ok resource) → resource = id)) :
    Completes devices (devices.finished id cell) := by
  refine ⟨rfl, rfl, fun other => ?_⟩
  rw [finished_handoff]
  split
  · rename_i same
    exact same ▸ next
  · exact .inl rfl

theorem complete_completes (devices : Devices) (id : Nat) (error : Option AcquireError) :
    Completes devices (devices.complete id error).2 := by
  unfold complete
  split
  · apply finished_completes
    cases devices.handoff id with
    | waiting =>
      right
      refine ⟨rfl, fun resource delivered => ?_⟩
      cases error with
      | none =>
        cases delivered
        rfl
      | some error => cases delivered
    | _ => exact .inl rfl
  · exact ⟨rfl, rfl, fun _ => .inl rfl⟩

theorem abandon_completes (devices : Devices) (id : Nat) :
    Completes devices (devices.abandon id).2 := by
  unfold abandon
  split
  · apply finished_completes
    cases devices.handoff id with
    | waiting => exact .inr ⟨rfl, nofun⟩
    | _ => exact .inl rfl
  · exact ⟨rfl, rfl, fun _ => .inl rfl⟩

end Media.Devices

namespace Channel

/-- What the channels have of the live inputs. -/
structure View where
  devices : Devices
  held : Fin 4 → Option Nat
  awaited : Fin 4 → Option Nat

/-- What the channels or the host do to the live inputs at a time. -/
inductive Motion (view : View) : View → Prop
  /-- Only the data of the live inputs changes, or the plan for them. -/
  | data {devices : Devices} (opened : devices.opened = view.devices.opened)
    (handoffs : devices.handoffs = view.devices.handoffs)
    (stopped : devices.stopped = view.devices.stopped) : Motion view { view with devices }
  /-- Something was opened at once, and nobody has it. -/
  | opens {wanted : Wanted} {outcome : Except AcquireError Nat} {devices : Devices}
    (acquired : view.devices.acquire wanted = (.ready outcome, devices)) :
    Motion view { view with devices }
  | gains (index : Fin 4) {wanted : Wanted} {id : Nat} {devices : Devices}
    (acquired : view.devices.acquire wanted = (.ready (.ok id), devices)) :
    Motion view { view with devices, held := Function.update view.held index (some id) }
  | waits (index : Fin 4) {wanted : Wanted} {id : Nat} {devices : Devices}
    (acquired : view.devices.acquire wanted = (.inFlight id, devices)) :
    Motion view { view with devices, awaited := Function.update view.awaited index (some id) }
  | stops {index : Fin 4} {id : Nat} (holds : view.held index = some id) :
    Motion view
      { view with
        devices := view.devices.stop id
        held := Function.update view.held index none }
  | cancels {index : Fin 4} {id : Nat} (waiting : view.awaited index = some id) :
    Motion view
      { view with
        devices := view.devices.cancel id
        awaited := Function.update view.awaited index none }
  /-- The outcome is not there yet. -/
  | asks {index : Fin 4} {id : Nat} (waiting : view.awaited index = some id)
    (polled : (view.devices.poll id).1 = none) :
    Motion view { view with devices := (view.devices.poll id).2 }
  /-- An outcome is fetched, and nobody has its resource. -/
  | fetches {index : Fin 4} {id : Nat} {outcome : Except AcquireError Nat}
    (waiting : view.awaited index = some id) (polled : (view.devices.poll id).1 = some outcome) :
    Motion view
      { view with
        devices := (view.devices.poll id).2
        awaited := Function.update view.awaited index none }
  | takes {index : Fin 4} {id resource : Nat} (waiting : view.awaited index = some id)
    (polled : (view.devices.poll id).1 = some (.ok resource)) :
    Motion view
      { devices := (view.devices.poll id).2
        held := Function.update view.held index (some resource)
        awaited := Function.update view.awaited index none }
  | completes {devices : Devices} (completes : view.devices.Completes devices) :
    Motion view { view with devices }

/-- A chain of motions. -/
abbrev Motions : View → View → Prop := Relation.ReflTransGen Motion

/-- How often a number is held, awaited or stopped. -/
def View.places (view : View) (id : Nat) : Nat :=
  holders view.held id + holders view.awaited id + view.devices.stopped.count id

/-- What was opened is in one place at most, and no resource lies in another's hand-off. -/
structure View.Tickets (view : View) : Prop where
  places : ∀ id, view.places id ≤ if id < view.devices.opened.length then 1 else 0
  outcome : ∀ id resource, view.devices.handoff id = .delivered (.ok resource) → resource = id

/-- What was opened and is with no channel, neither held nor awaited. -/
structure View.Absent (id : Nat) (view : View) : Prop extends view.Tickets where
  opened : id < view.devices.opened.length
  held : ∀ index, view.held index ≠ some id
  awaited : ∀ index, view.awaited index ≠ some id

/-- An acquisition that was given up: nobody waits for it or holds its resource, which was stopped
as often as it had arrived. -/
structure View.Gone (id stops : Nat) (view : View) : Prop extends view.Tickets where
  opened : id < view.devices.opened.length
  cell : view.devices.handoff id = .cancelled
  held : ∀ index, view.held index ≠ some id
  awaited : ∀ index, view.awaited index ≠ some id
  stopped : view.devices.stopped.count id = stops

theorem View.Gone.absent {id stops : Nat} {view : View} (gone : view.Gone id stops) :
    view.Absent id :=
  ⟨gone.toTickets, gone.opened, gone.held, gone.awaited⟩

theorem update_ne_some {places : Fin 4 → Option Nat} {id : Nat}
    (elsewhere : ∀ index, places index ≠ some id) (index : Fin 4) {next : Option Nat}
    (apart : next ≠ some id) (other : Fin 4) :
    Function.update places index next other ≠ some id := by
  by_cases same : other = index
  · rwa [same, Function.update_self]
  · rw [Function.update_of_ne same]
    exact elsewhere other

theorem holders_pos {places : Fin 4 → Option Nat} {index : Fin 4} {id : Nat}
    (here : places index = some id) : 0 < holders places id := by
  have moved := holders_update places index none id
  rw [if_pos here, if_neg (by simp)] at moved
  omega

theorem ne_some_of_holders {places : Fin 4 → Option Nat} {id : Nat} (none : holders places id = 0)
    (index : Fin 4) : places index ≠ some id :=
  fun here => absurd none (Nat.pos_iff_ne_zero.mp (holders_pos here))

theorem holders_vacate {places : Fin 4 → Option Nat} {index : Fin 4} {id : Nat}
    (here : places index = some id) (other : Nat) :
    holders (Function.update places index none) other + (if id = other then 1 else 0) =
      holders places other := by
  have moved := holders_update places index none other
  simpa only [here, Option.some.injEq, reduceCtorEq, if_false, Nat.add_zero] using moved

theorem holders_occupy_le (places : Fin 4 → Option Nat) (index : Fin 4) (id other : Nat) :
    holders (Function.update places index (some id)) other ≤
      holders places other + if id = other then 1 else 0 := by
  have moved := holders_update places index (some id) other
  simp only [Option.some.injEq] at moved
  omega

theorem count_resources_le {cell : Handoff Nat} {id : Nat}
    (faithful : ∀ resource, cell = .delivered (.ok resource) → resource = id) (other : Nat) :
    cell.resources.count other ≤ if id = other then 1 else 0 := by
  unfold Handoff.resources
  split
  · rw [faithful _ rfl, List.count_singleton]
    simp only [beq_iff_eq, Nat.le_refl]
  · simp

namespace View.Tickets

variable {view next : View}

theorem kept (tickets : view.Tickets) (opened : next.devices.opened = view.devices.opened)
    (places : ∀ id, next.places id ≤ view.places id)
    (outcome : ∀ id resource, next.devices.handoff id = .delivered (.ok resource) →
      resource = id) : next.Tickets where
  places id := opened ▸ Nat.le_trans (places id) (tickets.places id)
  outcome := outcome

theorem opens (tickets : view.Tickets) {wanted : Wanted}
    (opened : next.devices.opened = view.devices.opened ++ [wanted])
    (places : ∀ id, next.places id ≤
      view.places id + if view.devices.opened.length = id then 1 else 0)
    (outcome : ∀ id resource, next.devices.handoff id = .delivered (.ok resource) →
      resource = id) : next.Tickets where
  places id := by
    have before := tickets.places id
    have after := places id
    rw [opened, List.length_append, List.length_singleton]
    split at before <;> split at after <;> split <;> omega
  outcome := outcome

theorem outcome_of_handoffs (tickets : view.Tickets) {devices : Devices}
    (handoffs : devices.handoffs = view.devices.handoffs) (id resource : Nat)
    (delivered : devices.handoff id = .delivered (.ok resource)) : resource = id := by
  simp only [Devices.handoff, handoffs] at delivered
  exact tickets.outcome id resource delivered

theorem outcome_poll (tickets : view.Tickets) (asked id resource : Nat)
    (delivered : (view.devices.poll asked).2.handoff id = .delivered (.ok resource)) :
    resource = id := by
  rw [Devices.poll_handoff] at delivered
  split at delivered
  · cases delivered
  · exact tickets.outcome id resource delivered

theorem eq_of_polled (tickets : view.Tickets) {id resource : Nat}
    (polled : (view.devices.poll id).1 = some (.ok resource)) : resource = id := by
  rcases Devices.handoff_of_poll polled with delivered | ⟨_, impossible⟩
  · exact tickets.outcome id resource delivered
  · cases impossible

/-- What a channel holds or waits for was opened. -/
theorem opened_of_place (tickets : view.Tickets) {index : Fin 4} {id : Nat}
    (here : view.held index = some id ∨ view.awaited index = some id) :
    id < view.devices.opened.length := by
  have placed : 0 < holders view.held id + holders view.awaited id :=
    here.elim (fun held => Nat.add_pos_left (holders_pos held) _)
      (fun awaited => Nat.add_pos_right _ (holders_pos awaited))
  have places := tickets.places id
  unfold View.places at places
  split at places
  · assumption
  · omega

/-- What a channel holds or waits for, no other does. -/
theorem alone (tickets : view.Tickets) {index other : Fin 4} {id : Nat}
    (here : view.held index = some id ∨ view.awaited index = some id) (apart : other ≠ index) :
    view.held other ≠ some id ∧ view.awaited other ≠ some id := by
  have places := tickets.places id
  rw [if_pos (tickets.opened_of_place here), View.places] at places
  rcases here with here | here
  · have left := holders_vacate here id
    rw [if_pos rfl] at left
    refine ⟨fun there => ?_, ne_some_of_holders (by omega) other⟩
    have still : Function.update view.held index none other = some id := by
      rwa [Function.update_of_ne apart]
    have others := holders_pos still
    omega
  · have left := holders_vacate here id
    rw [if_pos rfl] at left
    refine ⟨ne_some_of_holders (by omega) other, fun there => ?_⟩
    have still : Function.update view.awaited index none other = some id := by
      rwa [Function.update_of_ne apart]
    have others := holders_pos still
    omega

end View.Tickets

namespace Motion

variable {view next : View}

theorem tickets (motion : Motion view next) (tickets : view.Tickets) : next.Tickets := by
  cases motion with
  | data opened handoffs stopped =>
    refine tickets.kept opened (fun id => ?_) (tickets.outcome_of_handoffs handoffs)
    rw [View.places, stopped]
    exact Nat.le_refl _
  | opens acquired =>
    obtain ⟨opened, handoffs, stopped, _⟩ := Devices.acquire_ready acquired
    refine tickets.opens opened (fun id => ?_) (tickets.outcome_of_handoffs handoffs)
    rw [View.places, stopped]
    exact Nat.le_add_right ..
  | gains index acquired =>
    obtain ⟨opened, handoffs, stopped, own⟩ := Devices.acquire_ready acquired
    refine tickets.opens opened (fun id => ?_) (tickets.outcome_of_handoffs handoffs)
    obtain rfl := own _ rfl
    have moved := holders_occupy_le view.held index view.devices.opened.length id
    simp only [View.places, stopped]
    omega
  | waits index acquired =>
    obtain ⟨rfl, opened, _, stopped, handoff⟩ := Devices.acquire_later acquired
    refine tickets.opens opened (fun id => ?_) fun id resource delivered => ?_
    · have moved := holders_occupy_le view.awaited index view.devices.opened.length id
      simp only [View.places, stopped]
      omega
    · rw [handoff] at delivered
      split at delivered
      · cases delivered
      · exact tickets.outcome id resource delivered
  | stops holds =>
    refine tickets.kept rfl (fun id => ?_) tickets.outcome
    have moved := holders_vacate holds id
    simp only [View.places, Devices.stop, List.count_append, List.count_singleton, beq_iff_eq]
    omega
  | cancels waiting =>
    rename_i index number
    refine tickets.kept (Devices.cancel_opened ..) (fun id => ?_) fun id resource delivered => ?_
    · have moved := holders_vacate waiting id
      have stopped := count_resources_le (tickets.outcome number) id
      simp only [View.places, Devices.cancel_stopped, List.count_append]
      omega
    · rw [Devices.cancel_handoff] at delivered
      split at delivered
      · cases delivered
      · exact tickets.outcome id resource delivered
  | asks waiting polled =>
    exact tickets.kept rfl (fun _ => Nat.le_refl _) (tickets.outcome_poll _)
  | fetches waiting polled =>
    refine tickets.kept rfl (fun id => ?_) (tickets.outcome_poll _)
    have moved := holders_vacate waiting id
    simp only [View.places, Devices.poll_stopped]
    omega
  | takes waiting polled =>
    rename_i index _ resource
    refine tickets.kept rfl (fun id => ?_) (tickets.outcome_poll _)
    obtain rfl := tickets.eq_of_polled polled
    have vacated := holders_vacate waiting id
    have occupied := holders_occupy_le view.held index resource id
    simp only [View.places, Devices.poll_stopped]
    omega
  | completes completes =>
    obtain ⟨opened, stopped, handoff⟩ := completes
    refine tickets.kept opened (fun id => ?_) fun id resource delivered => ?_
    · rw [View.places, stopped]
      exact Nat.le_refl _
    · rcases handoff id with same | ⟨_, own⟩
      · exact tickets.outcome id resource (same ▸ delivered)
      · exact own resource delivered

theorem opened (motion : Motion view next) : view.devices.opened <+: next.devices.opened := by
  cases motion with
  | data opened => exact opened ▸ List.prefix_refl _
  | opens acquired => exact (Devices.acquire_ready acquired).1 ▸ List.prefix_append ..
  | gains index acquired => exact (Devices.acquire_ready acquired).1 ▸ List.prefix_append ..
  | waits index acquired => exact (Devices.acquire_later acquired).2.1 ▸ List.prefix_append ..
  | cancels => exact Devices.cancel_opened _ _ ▸ List.prefix_refl _
  | completes completes => exact completes.1 ▸ List.prefix_refl _
  | _ => exact List.prefix_refl _

/-- No motion brings back what no channel has any more. -/
theorem absent {id : Nat} (motion : Motion view next) (absent : view.Absent id) :
    next.Absent id := by
  have new : view.devices.opened.length ≠ id := Nat.ne_of_gt absent.opened
  refine ⟨motion.tickets absent.toTickets, Nat.lt_of_lt_of_le absent.opened motion.opened.length_le,
    ?held, ?awaited⟩
  case held =>
    cases motion with
    | gains index acquired =>
      obtain ⟨_, _, _, own⟩ := Devices.acquire_ready acquired
      obtain rfl := own _ rfl
      exact update_ne_some absent.held index (by simpa using new)
    | stops => exact update_ne_some absent.held _ (by simp)
    | takes waiting fetched =>
      rename_i index other resource
      have apart : resource ≠ id := by
        rw [absent.eq_of_polled fetched]
        rintro rfl
        exact absent.awaited index waiting
      exact update_ne_some absent.held index (by simpa using apart)
    | _ => exact absent.held
  case awaited =>
    cases motion with
    | waits index acquired =>
      obtain ⟨rfl, _⟩ := Devices.acquire_later acquired
      exact update_ne_some absent.awaited index (by simpa using new)
    | cancels => exact update_ne_some absent.awaited _ (by simp)
    | fetches => exact update_ne_some absent.awaited _ (by simp)
    | takes => exact update_ne_some absent.awaited _ (by simp)
    | _ => exact absent.awaited

/-- No motion touches an acquisition that was given up. -/
theorem gone {id stops : Nat} (motion : Motion view next) (gone : view.Gone id stops) :
    next.Gone id stops := by
  have absent := motion.absent gone.absent
  refine ⟨absent.toTickets, absent.opened, ?cell, absent.held, absent.awaited, ?stopped⟩
  case cell =>
    have stays {devices : Devices} (handoffs : devices.handoffs = view.devices.handoffs) :
        devices.handoff id = .cancelled := by
      rw [Devices.handoff, handoffs]
      exact gone.cell
    have polled {index : Fin 4} {other : Nat} (waiting : view.awaited index = some other) :
        (view.devices.poll other).2.handoff id = .cancelled := by
      rw [Devices.poll_handoff, if_neg]
      · exact gone.cell
      · rintro rfl
        exact gone.awaited index waiting
    cases motion with
    | data _ handoffs => exact stays handoffs
    | opens acquired => exact stays (Devices.acquire_ready acquired).2.1
    | gains index acquired => exact stays (Devices.acquire_ready acquired).2.1
    | waits index acquired =>
      obtain ⟨rfl, _, _, _, handoff⟩ := Devices.acquire_later acquired
      rw [handoff, if_neg (Nat.ne_of_lt gone.opened)]
      exact gone.cell
    | stops => exact gone.cell
    | cancels waiting =>
      rename_i index other
      have apart : id ≠ other := by
        rintro rfl
        exact gone.awaited index waiting
      rw [Devices.cancel_handoff, if_neg apart]
      exact gone.cell
    | asks waiting => exact polled waiting
    | fetches waiting => exact polled waiting
    | takes waiting => exact polled waiting
    | completes completes =>
      rcases completes.2.2 id with same | ⟨waiting, _⟩
      · exact same.trans gone.cell
      · rw [gone.cell] at waiting
        cases waiting
  case stopped =>
    cases motion with
    | data _ _ stopped => exact stopped ▸ gone.stopped
    | opens acquired => exact (Devices.acquire_ready acquired).2.2.1 ▸ gone.stopped
    | gains index acquired => exact (Devices.acquire_ready acquired).2.2.1 ▸ gone.stopped
    | waits index acquired => exact (Devices.acquire_later acquired).2.2.2.1 ▸ gone.stopped
    | stops holds =>
      rename_i index other
      have apart : other ≠ id := by
        rintro rfl
        exact gone.held index holds
      rw [Devices.stop, List.count_append, gone.stopped]
      simp [apart]
    | cancels waiting =>
      rename_i index other
      have apart : other ≠ id := by
        rintro rfl
        exact gone.awaited index waiting
      have counted := count_resources_le (gone.outcome other) id
      rw [if_neg apart] at counted
      rw [Devices.cancel_stopped, List.count_append, gone.stopped]
      omega
    | completes completes => exact completes.2.1 ▸ gone.stopped
    | _ => exact gone.stopped

end Motion

namespace Motions

variable {view next : View}

theorem tickets (motions : Motions view next) (tickets : view.Tickets) : next.Tickets := by
  induction motions with
  | refl => exact tickets
  | tail _ motion ih => exact motion.tickets ih

theorem opened (motions : Motions view next) : view.devices.opened <+: next.devices.opened := by
  induction motions with
  | refl => exact List.prefix_refl _
  | tail _ motion ih => exact ih.trans motion.opened

theorem absent {id : Nat} (motions : Motions view next) (absent : view.Absent id) :
    next.Absent id := by
  induction motions with
  | refl => exact absent
  | tail _ motion ih => exact motion.absent ih

theorem gone {id stops : Nat} (motions : Motions view next) (gone : view.Gone id stops) :
    next.Gone id stops := by
  induction motions with
  | refl => exact gone
  | tail _ motion ih => exact motion.gone ih

end Motions

end Channel

end LiveFragment
