import LiveFragment.Proofs.Media.Exchange

/-! How often an acquisition tells its outcome. To ask for the outcome leaves the cell as it was
before there was one, and a completing side that goes away afterwards finds it so and calls the
acquisition abandoned. In that order of the steps the waiting side is told twice, and in no other. -/

namespace LiveFragment.Media

variable {α : Type}

namespace Event

/-- What the waiting side is told. -/
def told? : Event α → Option (Except AcquireError α)
  | poll answer => answer
  | _ => none

/-- A step that what is told later depends on. -/
def matters : Event α → Bool
  | complete _ taken => taken
  | abandon => true
  | poll answer => answer.isSome
  | cancel _ | forsake => false

theorem told?_eq_none {event : Event α} (idle : event.matters = false) : event.told? = none := by
  cases event with
  | poll answer => exact Option.isSome_eq_false_iff.mp idle |> Option.isNone_iff_eq_none.mp
  | _ => rfl

end Event

namespace Exchange

/-- All that the waiting side is told, in its order. -/
def told (events : List (Event α)) : List (Except AcquireError α) :=
  events.filterMap Event.told?

def mattering (events : List (Event α)) : List (Event α) := events.filter Event.matters

/-- The outcome is fetched before the completing side goes away. -/
def raced (outcome : Except AcquireError α) : List (Event α) :=
  [.complete outcome true, .poll (some outcome), .abandon,
    .poll (some (.error Handoff.abandonedError))]

theorem told_next (events : List (Event α)) (event : Event α) :
    told (events ++ [event]) = told events ++ event.told?.toList := by
  cases found : event.told? <;> simp [told, found]

theorem mattering_append (events later : List (Event α)) :
    mattering (events ++ later) = mattering events ++ mattering later :=
  List.filter_append ..

theorem told_mattering (events : List (Event α)) : told (mattering events) = told events := by
  rw [told, mattering, List.filterMap_filter, told]
  congr 1
  funext event
  split
  · rfl
  · rename_i idle
    exact (Event.told?_eq_none (Bool.not_eq_true _ |>.mp idle)).symm

/-- The steps that mattered so far, with how far the completing side is and what the cell holds. -/
inductive History : Completing → Handoff α → List (Event α) → Prop
  | start : History .silent .waiting []
  | delivered (outcome : Except AcquireError α) :
    History .answered (.delivered outcome) [.complete outcome true]
  | fetched (outcome : Except AcquireError α) :
    History .answered .waiting [.complete outcome true, .poll (some outcome)]
  | left (outcome : Except AcquireError α) :
    History .gone (.delivered outcome) [.complete outcome true, .abandon]
  | fetchedLate (outcome : Except AcquireError α) :
    History .gone .waiting [.complete outcome true, .abandon, .poll (some outcome)]
  | mistaken (outcome : Except AcquireError α) :
    History .gone .abandoned [.complete outcome true, .poll (some outcome), .abandon]
  | raced (outcome : Except AcquireError α) : History .gone .waiting (raced outcome)
  | abandoned : History .gone .abandoned [.abandon]
  | toldAbandoned :
    History .gone .waiting [.abandon, .poll (some (.error Handoff.abandonedError))]

section History

variable {completing : Completing} {cell : Handoff α} {events : List (Event α)}

theorem History.complete (history : History .silent cell events)
    (outcome : Except AcquireError α) :
    History .answered (cell.deliver outcome).2
      (events ++ mattering [.complete outcome (cell.deliver outcome).1]) := by
  cases history
  exact .delivered outcome

theorem History.abandon (history : History completing cell events)
    (there : completing ≠ .gone) :
    History .gone cell.abandon (events ++ mattering [.abandon]) := by
  cases history with
  | start => exact .abandoned
  | delivered outcome => exact .left outcome
  | fetched outcome => exact .mistaken outcome
  | _ => exact absurd rfl there

theorem History.poll (history : History completing cell events) :
    History completing cell.poll.2 (events ++ mattering [.poll cell.poll.1]) := by
  cases history with
  | start => exact .start
  | delivered outcome => exact .fetched outcome
  | fetched outcome => exact .fetched outcome
  | left outcome => exact .fetchedLate outcome
  | fetchedLate outcome => exact .fetchedLate outcome
  | mistaken outcome => exact .raced outcome
  | raced outcome => exact .raced outcome
  | abandoned => exact .toldAbandoned
  | toldAbandoned => exact .toldAbandoned

theorem History.told_le (history : History completing cell events) :
    (told events).length ≤ 2 := by
  cases history <;> simp [told, List.filterMap_cons, Event.told?, Exchange.raced]

/-- Only the race tells twice. -/
theorem History.eq_raced (history : History completing cell events)
    (twice : 1 < (told events).length) : ∃ outcome, events = Exchange.raced outcome := by
  cases history with
  | raced outcome => exact ⟨outcome, rfl⟩
  | _ => simp [told, List.filterMap_cons, Event.told?] at twice

end History

/-- What has happened to an exchange. A waiting side that has cancelled is told nothing more. -/
inductive Traced (events : List (Event α)) (exchange : Exchange α) : Prop
  | followed (here : exchange.waiting ≠ .cancelled)
    (history : History exchange.completing exchange.cell (mattering events))
  | cancelled {before : List (Event α)} {completing : Completing} {cell : Handoff α}
    (gone : exchange.waiting = .cancelled) (earlier : before <+: events)
    (same : told events = told before) (history : History completing cell (mattering before))

variable {events : List (Event α)} {exchange later : Exchange α} {event : Event α}

/-- While the waiting side has not cancelled, each step continues the history. -/
theorem History.step (history : History exchange.completing exchange.cell (mattering events))
    (step : Step exchange event later) (here : later.waiting ≠ .cancelled) :
    History later.completing later.cell (mattering (events ++ [event])) := by
  rw [mattering_append]
  cases step with
  | complete outcome silent =>
    rw [silent] at history
    exact history.complete outcome
  | abandon there => exact history.abandon there
  | poll asking => exact history.poll
  | cancel asking => exact absurd rfl here
  | forsake asking => exact (List.append_nil _).symm ▸ history

theorem Traced.step (traced : Traced events exchange) (step : Step exchange event later) :
    Traced (events ++ [event]) later := by
  cases traced with
  | followed here history =>
    by_cases gone : later.waiting = .cancelled
    case neg => exact .followed gone (history.step step gone)
    cases step with
    | cancel asking =>
      refine .cancelled rfl (List.prefix_append ..) ?_ history
      exact (told_next ..).trans (List.append_nil _)
    | forsake asking => cases gone
    | _ => exact absurd gone here
  | cancelled gone earlier same history =>
    have silent : event.told? = none ∧ later.waiting = .cancelled := by
      cases step with
      | complete outcome silent => exact ⟨rfl, gone⟩
      | abandon there => exact ⟨rfl, gone⟩
      | poll asking | cancel asking | forsake asking => cases asking.symm.trans gone
    refine .cancelled silent.2 (earlier.trans (List.prefix_append ..)) ?_ history
    rw [told_next, silent.1, same]
    exact List.append_nil _

theorem Run.traced (run : Run events exchange) : Traced events exchange := by
  induction run with
  | start => exact .followed nofun .start
  | next _ step before => exact before.step step

theorem Traced.exists_history (traced : Traced events exchange) :
    ∃ before completing cell, before <+: events ∧ told events = told before ∧
      History completing cell (mattering before) := by
  cases traced with
  | followed here history => exact ⟨events, _, _, List.prefix_rfl, rfl, history⟩
  | cancelled gone earlier same history => exact ⟨_, _, _, earlier, same, history⟩

theorem told_raced (outcome : Except AcquireError α) :
    told (raced outcome) = [outcome, .error Handoff.abandonedError] := rfl

/-- In every order of the steps of both sides an outcome is told at most twice, and it is told twice
exactly when it was fetched between its delivery and the going away of the completing side, and the
waiting side asked again. -/
theorem run_told (run : Run events exchange) :
    (told events).length ≤ 2 ∧
      (1 < (told events).length ↔ ∃ outcome, (raced outcome).Sublist events) := by
  obtain ⟨before, completing, cell, earlier, same, history⟩ := run.traced.exists_history
  rw [same, ← told_mattering]
  refine ⟨history.told_le, ?_, ?_⟩
  · intro twice
    obtain ⟨outcome, race⟩ := history.eq_raced twice
    refine ⟨outcome, ?_⟩
    rw [← race]
    exact List.filter_sublist.trans earlier.sublist
  · rintro ⟨outcome, race⟩
    rw [told_mattering, ← same]
    calc
      1 < (told (raced outcome)).length := by
        rw [told_raced]
        exact Nat.one_lt_two
      _ ≤ (told events).length := (race.filterMap Event.told?).length_le

/-- The outcome is told, and then that there is none. -/
theorem run_told_twice :
    ∃ (events : List (Event Nat)) (exchange : Exchange Nat),
      Run events exchange ∧
      told events = [.ok 5, .error Handoff.abandonedError] ∧
      (raced (.ok 5)).Sublist events ∧
      (1 < (told events).length ↔ ∃ outcome, (raced outcome).Sublist events) := by
  have fetched := Run.next (Run.next (Run.next (@Run.start Nat) (.poll rfl))
    (.complete (.ok 5) rfl)) (.poll rfl)
  have run := Run.next (Run.next fetched (.abandon nofun)) (.poll rfl)
  exact ⟨_, _, run, rfl, List.sublist_cons_self .., (run_told run).2⟩

end Exchange

end LiveFragment.Media
