import LiveFragment.Media.Handoff

/-! Both sides of a hand-off at once. Each side acts on the cell a step at a time, and between any two
steps of one side the other may act: the completing side answers and goes away later, or goes away
without an answer; the waiting side asks as often as it likes and may cancel in the end. Wherever the
two sides are, a resource that was handed over is in exactly one place. -/

namespace LiveFragment.Media

/-- How far the completing side has come. It answers at most once. -/
inductive Completing
  | silent
  | answered
  | gone
deriving DecidableEq, Repr

/-- Whether the waiting side still asks. It may go away without cancelling. -/
inductive Waiting
  | asking
  | cancelled
  | gone
deriving DecidableEq, Repr

/-- A step of one of the sides, and the answer it gets. -/
inductive Event (α : Type)
  /-- An outcome that the cell takes or hands back. -/
  | complete (outcome : Except AcquireError α) (taken : Bool)
  | abandon
  | poll (answer : Option (Except AcquireError α))
  | cancel (answer : Option α)
  | forsake

/-- A cell with its two sides. -/
structure Exchange (α : Type) where
  cell : Handoff α
  completing : Completing
  waiting : Waiting

variable {α : Type}

/-- The resource that lies in a cell. -/
def Handoff.resource? : Handoff α → Option α
  | delivered (.ok resource) => some resource
  | _ => none

theorem Handoff.eq_delivered {cell : Handoff α} {resource : α}
    (held : cell.resource? = some resource) : cell = .delivered (.ok resource) := by
  unfold Handoff.resource? at held
  split at held <;> cases held
  rfl

namespace Exchange

def start : Exchange α := ⟨.waiting, .silent, .asking⟩

inductive Step : Exchange α → Event α → Exchange α → Prop
  | complete {exchange : Exchange α} (outcome : Except AcquireError α)
    (silent : exchange.completing = .silent) :
    Step exchange (.complete outcome (exchange.cell.deliver outcome).1)
      { exchange with cell := (exchange.cell.deliver outcome).2, completing := .answered }
  | abandon {exchange : Exchange α} (there : exchange.completing ≠ .gone) :
    Step exchange .abandon { exchange with cell := exchange.cell.abandon, completing := .gone }
  | poll {exchange : Exchange α} (asking : exchange.waiting = .asking) :
    Step exchange (.poll exchange.cell.poll.1) { exchange with cell := exchange.cell.poll.2 }
  | cancel {exchange : Exchange α} (asking : exchange.waiting = .asking) :
    Step exchange (.cancel exchange.cell.cancel.1)
      { exchange with cell := exchange.cell.cancel.2, waiting := .cancelled }
  | forsake {exchange : Exchange α} (asking : exchange.waiting = .asking) :
    Step exchange .forsake { exchange with waiting := .gone }

/-- The steps so far, in their order, and what they led to. -/
inductive Run : List (Event α) → Exchange α → Prop
  | start : Run [] start
  | next {events : List (Event α)} {exchange later : Exchange α} {event : Event α}
    (run : Run events exchange) (step : Step exchange event later) : Run (events ++ [event]) later

/-- The cell exists as long as one of the sides does. -/
def Alive (exchange : Exchange α) : Prop :=
  exchange.completing ≠ .gone ∨ exchange.waiting = .asking

instance (exchange : Exchange α) : Decidable exchange.Alive :=
  inferInstanceAs (Decidable (_ ∨ _))

end Exchange

/-- Where a resource is. -/
inductive Place
  | stored
  | polled
  | cancelled
  | handedBack
deriving DecidableEq, Repr

namespace Event

/-- The resource that a step hands over. -/
def given? : Event α → Option α
  | complete (.ok resource) _ => some resource
  | _ => none

/-- Where a step leaves a resource, outside of the cell. -/
def place? : Event α → Option (Place × α)
  | complete (.ok resource) false => some (.handedBack, resource)
  | poll (some (.ok resource)) => some (.polled, resource)
  | cancel (some resource) => some (.cancelled, resource)
  | _ => none

end Event

namespace Exchange

/-- The resource in the cell, if any. -/
def kept (exchange : Exchange α) : List α := exchange.cell.resource?.toList

/-- The resources that steps have left outside of the cell. -/
def outside (events : List (Event α)) : List (Place × α) := events.filterMap Event.place?

/-- The places of all resources: the cell while it exists, and where steps have left them. -/
def places (events : List (Event α)) (exchange : Exchange α) : List (Place × α) :=
  (if exchange.Alive then exchange.kept.map (Place.stored, ·) else []) ++ outside events

/-- The resources that were handed over. -/
def given (events : List (Event α)) : List α := events.filterMap Event.given?

theorem given_next (events : List (Event α)) (event : Event α) :
    given (events ++ [event]) = given events ++ event.given?.toList := by
  cases found : event.given? <;> simp [given, found]

theorem outside_next (events : List (Event α)) (event : Event α) :
    outside (events ++ [event]) = outside events ++ event.place?.toList := by
  cases found : event.place? <;> simp [outside, found]

/-- What has been handed over is in the cell or was left outside. The cell gets something only from
a completing side that was silent, and keeps nothing once the waiting side has cancelled. -/
structure Consistent (events : List (Event α)) (exchange : Exchange α) : Prop where
  silent : exchange.completing = .silent →
    given events = [] ∧ (exchange.cell = .waiting ∨ exchange.cell = .cancelled)
  once : (given events).length ≤ 1
  balance : exchange.kept ++ (outside events).map (·.2) = given events
  cancelled : exchange.waiting = .cancelled → exchange.cell = .cancelled

theorem consistent_start : Consistent [] (start : Exchange α) where
  silent _ := ⟨rfl, .inl rfl⟩
  once := Nat.zero_le 1
  balance := rfl
  cancelled := nofun

variable {events : List (Event α)} {exchange later : Exchange α} {event : Event α}

theorem kept_abandon (exchange : Exchange α) :
    exchange.kept = kept { exchange with cell := exchange.cell.abandon, completing := .gone } := by
  obtain ⟨cell, completing, waiting⟩ := exchange
  cases cell <;> rfl

/-- Asking takes out of the cell what it answers. -/
theorem kept_poll (exchange : Exchange α) :
    exchange.kept = kept { exchange with cell := exchange.cell.poll.2 } ++
      ((Event.poll exchange.cell.poll.1).place?.map (·.2)).toList := by
  obtain ⟨cell, completing, waiting⟩ := exchange
  cases cell with
  | delivered outcome => cases outcome <;> rfl
  | _ => rfl

theorem kept_cancel (exchange : Exchange α) :
    exchange.kept = kept { exchange with cell := exchange.cell.cancel.2, waiting := .cancelled } ++
      ((Event.cancel exchange.cell.cancel.1).place?.map (·.2)).toList := by
  obtain ⟨cell, completing, waiting⟩ := exchange
  cases cell with
  | delivered outcome => cases outcome <;> rfl
  | _ => rfl

/-- A step that gives nothing keeps the balance when it takes out of the cell what it leaves outside. -/
theorem Consistent.keeps (consistent : Consistent events exchange) (event : Event α)
    (later : Exchange α) (nothing : event.given? = none)
    (moved : exchange.kept = later.kept ++ (event.place?.map (·.2)).toList) :
    (given (events ++ [event])).length ≤ 1 ∧
      later.kept ++ (outside (events ++ [event])).map (·.2) = given (events ++ [event]) := by
  have same : given (events ++ [event]) = given events := by
    rw [given_next, nothing, Option.toList_none, List.append_nil]
  rw [same]
  refine ⟨consistent.once, ?_⟩
  have balance := consistent.balance
  have once := consistent.once
  rw [← balance, moved] at once
  rw [← balance, moved, outside_next, List.map_append]
  -- At most one resource is anywhere, so that the order of the two parts does not matter.
  cases placed : event.place? with
  | none => simp
  | some place =>
    simp only [placed, Option.map_some, Option.toList_some, List.length_append, List.length_map,
      List.length_singleton] at once
    have empty : outside events = [] := List.eq_nil_of_length_eq_zero (by omega)
    simp [empty]

/-- A cell that a silent side has not answered holds nothing, and takes an outcome while it waits. -/
theorem Consistent.complete (consistent : Consistent events exchange)
    (silent : exchange.completing = .silent) (outcome : Except AcquireError α) :
    Consistent (events ++ [.complete outcome (exchange.cell.deliver outcome).1])
      { exchange with cell := (exchange.cell.deliver outcome).2, completing := .answered } := by
  obtain ⟨nothing, idle⟩ := consistent.silent silent
  have bare : outside events = [] := by
    have balance := consistent.balance
    rw [nothing, List.append_eq_nil_iff, List.map_eq_nil_iff] at balance
    exact balance.2
  constructor
  case silent => nofun
  case once =>
    rw [given_next, nothing]
    exact Option.length_toList_le
  case balance =>
    rw [given_next, outside_next, nothing, bare]
    rcases idle with waiting | cancelled
    · rw [waiting]
      cases outcome <;> rfl
    · rw [cancelled]
      cases outcome <;> rfl
  case cancelled =>
    intro gone
    rw [consistent.cancelled gone]
    rfl

/-- Whatever either side does next, the two stay consistent. -/
theorem Consistent.step (consistent : Consistent events exchange)
    (step : Step exchange event later) : Consistent (events ++ [event]) later := by
  cases step with
  | complete outcome silent => exact consistent.complete silent outcome
  | abandon there =>
    obtain ⟨once, balance⟩ := consistent.keeps .abandon
      { exchange with cell := exchange.cell.abandon, completing := .gone } rfl
      (exchange.kept_abandon.trans (List.append_nil _).symm)
    refine ⟨nofun, once, balance, ?_⟩
    intro gone
    simp [consistent.cancelled gone, Handoff.abandon]
  | poll asking =>
    obtain ⟨once, balance⟩ := consistent.keeps (.poll exchange.cell.poll.1)
      { exchange with cell := exchange.cell.poll.2 } rfl exchange.kept_poll
    refine ⟨?_, once, balance, ?_⟩
    · intro silent
      obtain ⟨nothing, idle⟩ := consistent.silent silent
      refine ⟨by rw [given_next, nothing]; rfl, .inl ?_⟩
      rcases idle with waiting | cancelled
      · simp [waiting, Handoff.poll]
      · simp [cancelled, Handoff.poll]
    · intro gone
      cases asking.symm.trans gone
  | cancel asking =>
    have ends : exchange.cell.cancel.2 = .cancelled := by
      unfold Handoff.cancel
      split <;> rfl
    obtain ⟨once, balance⟩ := consistent.keeps (.cancel exchange.cell.cancel.1)
      { exchange with cell := exchange.cell.cancel.2, waiting := .cancelled } rfl
      exchange.kept_cancel
    refine ⟨?_, once, balance, fun _ => ends⟩
    intro silent
    obtain ⟨nothing, _⟩ := consistent.silent silent
    exact ⟨by rw [given_next, nothing]; rfl, .inr ends⟩
  | forsake asking =>
    obtain ⟨once, balance⟩ := consistent.keeps .forsake
      { exchange with waiting := .gone } rfl (List.append_nil _).symm
    refine ⟨?_, once, balance, nofun⟩
    intro silent
    obtain ⟨nothing, idle⟩ := consistent.silent silent
    exact ⟨by rw [given_next, nothing]; rfl, idle⟩

/-- Completing is an answer and going away with nothing in between. -/
theorem Run.completed (run : Run events exchange) (silent : exchange.completing = .silent)
    (outcome : Except AcquireError α) :
    Run (events ++ [.complete outcome (exchange.cell.complete outcome).1] ++ [.abandon])
      ⟨(exchange.cell.complete outcome).2, .gone, exchange.waiting⟩ :=
  .next (.next run (.complete outcome silent)) (.abandon nofun)

theorem Run.consistent (run : Run events exchange) : Consistent events exchange := by
  induction run with
  | start => exact consistent_start
  | next _ step before => exact before.step step

/-- Where the resources of a run are. -/
structure Settled (events : List (Event α)) (exchange : Exchange α) : Prop where
  once : (given events).length ≤ 1
  /-- Nothing is anywhere but what was handed over, and that is not in two places. -/
  never_twice : ((exchange.places events).map (·.2)).Sublist (given events)
  one_place : exchange.waiting ≠ .gone →
    ∀ resource ∈ given events, ∃ place, exchange.places events = [(place, resource)]
  /-- What is in the cell can still be had from it. -/
  in_reach : exchange.waiting = .asking →
    ∀ resource, (Place.stored, resource) ∈ exchange.places events →
      exchange.cell.poll.1 = some (.ok resource) ∧ exchange.cell.cancel.1 = some resource
  answer : ∀ resource taken, Event.complete (.ok resource) taken ∈ events →
    (taken = true ↔ (Place.handedBack, resource) ∉ exchange.places events)

theorem stored_resources (resources : List α) :
    (resources.map (Place.stored, ·)).map (·.2) = resources := by
  rw [List.map_map]
  exact List.map_id _

theorem mem_places {place : Place} {resource : α} :
    (place, resource) ∈ exchange.places events ↔
      (exchange.Alive ∧ place = .stored ∧ exchange.cell.resource? = some resource) ∨
        (place, resource) ∈ outside events := by
  rw [places, List.mem_append]
  refine or_congr ?_ Iff.rfl
  split
  · rename_i alive
    simp only [kept, alive, true_and, List.mem_map, Option.mem_toList, Prod.mk.injEq]
    constructor
    · rintro ⟨_, held, rfl, rfl⟩
      exact ⟨rfl, held⟩
    · rintro ⟨rfl, held⟩
      exact ⟨resource, held, rfl, rfl⟩
  · rename_i freed
    simp [freed]

/-- No step leaves a resource in the cell and calls that outside. -/
theorem stored_notMem_outside (resource : α) : (Place.stored, resource) ∉ outside events := by
  intro member
  obtain ⟨event, _, placed⟩ := List.mem_filterMap.mp member
  unfold Event.place? at placed
  split at placed <;> cases placed

theorem handedBack_mem_outside {resource : α} :
    (Place.handedBack, resource) ∈ outside events ↔ Event.complete (.ok resource) false ∈ events := by
  rw [outside, List.mem_filterMap]
  constructor
  · rintro ⟨event, member, placed⟩
    unfold Event.place? at placed
    split at placed <;> cases placed
    exact member
  · intro member
    exact ⟨_, member, rfl⟩

/-- A completing side answers once, and so in one way. -/
theorem Consistent.answered_once (consistent : Consistent events exchange) {resource : α}
    (taken : Event.complete (.ok resource) true ∈ events) :
    Event.complete (.ok resource) false ∉ events := by
  intro refused
  obtain ⟨front, back, rfl⟩ := List.append_of_mem taken
  have gives {part : List (Event α)} (member : Event.complete (.ok resource) false ∈ part) :
      0 < (given part).length :=
    List.length_pos_of_mem (List.mem_filterMap.mpr ⟨_, member, rfl⟩)
  have once := consistent.once
  simp only [given, List.filterMap_append, List.length_append, List.filterMap_cons, Event.given?,
    List.length_cons] at once gives
  rcases List.mem_append.mp refused with before | after
  · have more := gives before
    omega
  · rcases List.mem_cons.mp after with same | later
    · cases same
    · have more := gives later
      omega

/-- While the waiting side has not gone without a word, all that was handed over has a place. -/
theorem Consistent.places_resources (consistent : Consistent events exchange)
    (here : exchange.waiting ≠ .gone) :
    (exchange.places events).map (·.2) = given events := by
  rw [← consistent.balance, places, List.map_append]
  congr 1
  split
  · exact stored_resources exchange.kept
  · rename_i freed
    have cancelled : exchange.waiting = .cancelled := by
      cases state : exchange.waiting with
      | asking => exact absurd (.inr state) freed
      | cancelled => rfl
      | gone => exact absurd state here
    simp [kept, consistent.cancelled cancelled, Handoff.resource?]

theorem Consistent.settled (consistent : Consistent events exchange) :
    Settled events exchange := by
  constructor
  case once => exact consistent.once
  case never_twice =>
    rw [← consistent.balance, places, List.map_append]
    refine List.Sublist.append ?_ (List.Sublist.refl _)
    split
    · exact (stored_resources exchange.kept).symm ▸ List.Sublist.refl _
    · exact List.nil_sublist _
  case one_place =>
    intro here resource member
    have same := consistent.places_resources here
    have single : given events = [resource] := by
      obtain ⟨only, alone⟩ := List.length_eq_one_iff.mp
        (Nat.le_antisymm consistent.once (List.length_pos_of_mem member))
      rw [alone, List.mem_singleton] at member
      rw [alone, member]
    rw [single] at same
    obtain ⟨⟨place, held⟩, alone, rfl⟩ := List.map_eq_singleton_iff.mp same
    exact ⟨place, alone⟩
  case in_reach =>
    intro _ resource member
    rcases mem_places.mp member with ⟨_, _, held⟩ | outside
    · rw [Handoff.eq_delivered held]
      exact ⟨rfl, rfl⟩
    · exact absurd outside (stored_notMem_outside resource)
  case answer =>
    intro resource taken answered
    have refused : (Place.handedBack, resource) ∈ exchange.places events ↔
        Event.complete (.ok resource) false ∈ events := by
      rw [mem_places, handedBack_mem_outside]
      simp
    rw [refused]
    cases taken with
    | true => exact iff_of_true rfl (consistent.answered_once answered)
    | false => exact iff_of_false nofun (not_not_intro answered)

/-- In every order of the steps of both sides, a resource that was handed over is in one place. -/
theorem run_settled (run : Run events exchange) : Settled events exchange :=
  run.consistent.settled

/-- The resource is fetched between the answer of the completing side and its going away. -/
theorem run_settled_raced :
    ∃ (events : List (Event Nat)) (exchange : Exchange Nat),
      events = [.poll none, .complete (.ok 5) true, .poll (some (.ok 5)), .abandon,
        .poll (some (.error Handoff.abandonedError)), .cancel none] ∧
      Run events exchange ∧ Settled events exchange ∧
        exchange.places events = [(.polled, 5)] := by
  have fetched := Run.next (Run.next (Run.next (@Run.start Nat) (.poll rfl))
    (.complete (.ok 5) rfl)) (.poll rfl)
  have run := Run.next (Run.next (Run.next fetched (.abandon nofun)) (.poll rfl)) (.cancel rfl)
  exact ⟨_, _, rfl, run, run_settled run, rfl⟩

end Exchange

end LiveFragment.Media
