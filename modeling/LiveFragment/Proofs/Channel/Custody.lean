import Mathlib.Algebra.BigOperators.Fin
import Mathlib.Logic.Function.Basic
import LiveFragment.Media.Devices

namespace LiveFragment

open LiveFragment.Media

/-- The resources that lie in a hand-off. -/
def Media.Handoff.resources : Handoff Nat → List Nat
  | delivered (.ok resource) => [resource]
  | _ => []

namespace Media.Devices

/-- Whether a resource lies in its hand-off, as a number. -/
def arrived (devices : Devices) (id : Nat) : Nat :=
  match devices.handoff id with
  | .delivered (.ok _) => 1
  | _ => 0

/-- The resource that a completion hands over, if it is taken. -/
def completed (devices : Devices) (id : Nat) (error : Option AcquireError) : List Nat :=
  if (devices.complete id error).1 = some true ∧ error = .none then [id] else []

theorem handoff_refile (devices : Devices) (id other : Nat) (cell : Handoff Nat) :
    Devices.handoff { devices with handoffs := refile id cell devices.handoffs } other =
      if other = id then cell else devices.handoff other := by
  have kept (entries : List (Nat × Handoff Nat)) (apart : other ≠ id) :
      (entries.filter (·.1 ≠ id)).lookup other = entries.lookup other := by
    induction entries with
    | nil => rfl
    | cons entry rest ih =>
      by_cases dropped : entry.1 = id
      · have different : (other == entry.1) = false := by simp [dropped, apart]
        rw [List.filter_cons_of_neg (by simpa using dropped), List.lookup_cons, different, ih]
      · rw [List.filter_cons_of_pos (by simpa using dropped), List.lookup_cons, List.lookup_cons,
          ih]
  by_cases same : other = id
  · simp [handoff, refile, same]
  · have different : (other == id) = false := by simp [same]
    simp only [handoff, refile, List.lookup_cons, different, kept devices.handoffs same,
      if_neg same]

/-- A hand-off whose completing side has gone, leaving what the cell has. -/
def finished (devices : Devices) (id : Nat) (cell : Handoff Nat) : Devices :=
  { devices with
    handoffs := refile id cell devices.handoffs
    completers := devices.completers.filter (· ≠ id) }

theorem finished_handoff (devices : Devices) (id other : Nat) (cell : Handoff Nat) :
    (devices.finished id cell).handoff other = if other = id then cell else devices.handoff other :=
  handoff_refile devices id other cell

theorem eq_of_mem_resources {cell : Handoff Nat} {id resource : Nat}
    (faithful : ∀ resource, cell = .delivered (.ok resource) → resource = id)
    (inside : resource ∈ cell.resources) : resource = id := by
  unfold Handoff.resources at inside
  split at inside
  · rw [List.mem_singleton.mp inside]
    exact faithful _ rfl
  · simp at inside

theorem finished_arrived {devices : Devices} {id : Nat} {cell : Handoff Nat}
    (waiting : devices.handoff id = .waiting)
    (faithful : ∀ resource, cell = .delivered (.ok resource) → resource = id) (other : Nat) :
    (devices.finished id cell).arrived other =
      devices.arrived other + cell.resources.count other := by
  rw [arrived, finished_handoff]
  by_cases own : other = id
  · subst own
    have bare : devices.arrived other = 0 := by simp [arrived, waiting]
    rw [if_pos rfl, bare]
    unfold Handoff.resources
    split
    · rw [faithful _ rfl]
      simp
    · simp
  · have absent : cell.resources.count other = 0 :=
      List.count_eq_zero.mpr fun inside => own (eq_of_mem_resources faithful inside)
    rw [if_neg own, absent]
    rfl

theorem acquire_later {devices next : Devices} {wanted : Wanted} {id : Nat}
    (acquired : devices.acquire wanted = (.inFlight id, next)) :
    id = devices.opened.length ∧ next.opened = devices.opened ++ [wanted] ∧
      next.completers = id :: devices.completers ∧ next.stopped = devices.stopped ∧
      ∀ other, next.handoff other = if other = id then .waiting else devices.handoff other := by
  simp only [acquire] at acquired
  split at acquired <;> cases acquired
  exact ⟨rfl, rfl, rfl, rfl, fun other => handoff_refile devices _ other .waiting⟩

theorem cancel_opened (devices : Devices) (id : Nat) :
    (devices.cancel id).opened = devices.opened := by
  simp only [cancel]
  split <;> rfl

theorem cancel_completers (devices : Devices) (id : Nat) :
    (devices.cancel id).completers = devices.completers := by
  simp only [cancel]
  split <;> rfl

theorem cancel_handoff (devices : Devices) (id other : Nat) :
    (devices.cancel id).handoff other =
      if other = id then .cancelled else devices.handoff other := by
  have cell : ((devices.handoff id).cancel).2 = .cancelled := by
    unfold Handoff.cancel
    split <;> rfl
  rw [← handoff_refile]
  simp only [cancel, cell]
  split <;> rfl

theorem cancel_moves {devices : Devices} {id : Nat}
    (outcome : ∀ resource, devices.handoff id = .delivered (.ok resource) → resource = id)
    (other : Nat) :
    (devices.cancel id).arrived other + (devices.cancel id).stopped.count other =
      devices.arrived other + devices.stopped.count other := by
  have gone :
      (devices.cancel id).arrived other = if other = id then 0 else devices.arrived other := by
    simp only [arrived, cancel_handoff]
    by_cases same : other = id
    · simp only [if_pos same]
    · simp only [if_neg same]
  rw [gone]
  by_cases delivered : ∃ resource, devices.handoff id = .delivered (.ok resource)
  · obtain ⟨resource, found⟩ := delivered
    obtain rfl := outcome resource found
    have stopped : (devices.cancel resource).stopped = devices.stopped ++ [resource] := by
      simp [cancel, Handoff.cancel, found, stop]
    have lies : devices.arrived resource = 1 := by simp [arrived, found]
    rw [stopped, List.count_append, List.count_singleton]
    by_cases same : other = resource
    · subst same
      simp [lies, Nat.add_comm]
    · simp [same, Ne.symm same]
  · have bare (resource : Nat) : devices.handoff id ≠ .delivered (.ok resource) :=
      fun found => delivered ⟨resource, found⟩
    have stopped : (devices.cancel id).stopped = devices.stopped := by
      simp only [cancel, Handoff.cancel]
    have lies : devices.arrived id = 0 := by
      rw [arrived]
      split
      · rename_i found
        exact absurd found (bare _)
      · rfl
    rw [stopped]
    by_cases same : other = id
    · simp [same, lies]
    · simp [same]

theorem poll_opened (devices : Devices) (id : Nat) :
    (devices.poll id).2.opened = devices.opened := rfl

theorem poll_completers (devices : Devices) (id : Nat) :
    (devices.poll id).2.completers = devices.completers := rfl

theorem poll_stopped (devices : Devices) (id : Nat) :
    (devices.poll id).2.stopped = devices.stopped := rfl

theorem poll_handoff (devices : Devices) (id other : Nat) :
    (devices.poll id).2.handoff other = if other = id then .waiting else devices.handoff other := by
  have cell : ((devices.handoff id).poll).2 = .waiting := by cases devices.handoff id <;> rfl
  simp only [poll, cell]
  exact handoff_refile ..

/-- There is an outcome once the acquisition was completed or given up. -/
theorem handoff_of_poll {devices : Devices} {id : Nat} {outcome : Except AcquireError Nat}
    (polled : (devices.poll id).1 = some outcome) :
    devices.handoff id = .delivered outcome ∨
      (devices.handoff id = .abandoned ∧ outcome = .error Handoff.abandonedError) := by
  simp only [poll] at polled
  cases found : devices.handoff id with
  | waiting => simp [Handoff.poll, found] at polled
  | delivered outcome =>
    simp only [Handoff.poll, found, Option.some.injEq] at polled
    exact .inl (polled ▸ rfl)
  | abandoned =>
    simp only [Handoff.poll, found, Option.some.injEq] at polled
    exact .inr ⟨rfl, polled.symm⟩
  | cancelled => simp [Handoff.poll, found] at polled

/-- What lay in the hand-off has been fetched. -/
theorem poll_arrived {devices : Devices} {id : Nat}
    (faithful : ∀ resource, devices.handoff id = .delivered (.ok resource) → resource = id)
    {outcome : Except AcquireError Nat} (polled : (devices.poll id).1 = some outcome)
    (other : Nat) :
    devices.arrived other =
      (devices.poll id).2.arrived other + outcome.toOption.toList.count other := by
  have gone : (devices.poll id).2.arrived other =
      if other = id then 0 else devices.arrived other := by
    simp only [arrived, poll_handoff]
    by_cases same : other = id
    · simp only [if_pos same]
    · simp only [if_neg same]
  have fetched : outcome.toOption.toList.count other =
      if other = id then devices.arrived id else 0 := by
    rcases handoff_of_poll polled with found | ⟨found, rfl⟩
    · cases outcome with
      | error error => simp [Except.toOption, arrived, found]
      | ok resource =>
        obtain rfl := faithful resource found
        have lies : devices.arrived resource = 1 := by simp [arrived, found]
        by_cases same : other = resource
        · simp [Except.toOption, lies, same]
        · simp [Except.toOption, same, Ne.symm same]
    · simp [Except.toOption, arrived, found]
  rw [gone, fetched]
  split
  · rename_i same
    rw [same, Nat.zero_add]
  · rfl

end Media.Devices

namespace Channel

/-- The number of channels that hold a resource. -/
def holders (held : Fin 4 → Option Nat) (id : Nat) : Nat :=
  ∑ index, if held index = some id then 1 else 0

theorem holders_update (held : Fin 4 → Option Nat) (index : Fin 4) (next : Option Nat) (id : Nat) :
    holders (Function.update held index next) id + (if held index = some id then 1 else 0) =
      holders held id + if next = some id then 1 else 0 := by
  have others : ∑ other ∈ Finset.univ.erase index,
        (if Function.update held index next other = some id then 1 else 0) =
      ∑ other ∈ Finset.univ.erase index, if held other = some id then 1 else 0 := by
    apply Finset.sum_congr rfl
    intro other member
    rw [Function.update_of_ne (Finset.ne_of_mem_erase member)]
  unfold holders
  rw [← Finset.add_sum_erase _ _ (Finset.mem_univ index), others, Function.update_self,
    ← Finset.add_sum_erase Finset.univ (fun other => if held other = some id then 1 else 0)
      (Finset.mem_univ index)]
  omega

theorem update_eq_some {awaited : Fin 4 → Option Nat} {index other : Fin 4} {next : Option Nat}
    {id : Nat} (waits : Function.update awaited index next other = some id) :
    (other = index ∧ next = some id) ∨ (other ≠ index ∧ awaited other = some id) := by
  by_cases same : other = index
  · rw [same, Function.update_self] at waits
    exact .inl ⟨same, waits⟩
  · rw [Function.update_of_ne same] at waits
    exact .inr ⟨same, waits⟩

/-- The channels' part in the resources: what each holds, and which hand-off each waits for. -/
structure Custody (devices : Devices) (held awaited : Fin 4 → Option Nat)
    (taken refused : List Nat) : Prop where
  balance : ∀ id, taken.count id =
    holders held id + devices.arrived id + devices.stopped.count id + refused.count id
  once : taken.Nodup
  known : ∀ id ∈ taken, id < devices.opened.length
  /-- What can still be completed was not, so that it is not taken over twice. -/
  completable : ∀ id ∈ devices.completers, id < devices.opened.length ∧ id ∉ taken ∧
    (devices.handoff id = .waiting ∨ devices.handoff id = .cancelled)
  outcome : ∀ id resource, devices.handoff id = .delivered (.ok resource) → resource = id
  lone : ∀ index, awaited index ≠ none → held index = none
  distinct : ∀ first second id, awaited first = some id → awaited second = some id → first = second
  waits : ∀ index id, awaited index = some id →
    id < devices.opened.length ∧ devices.handoff id ≠ .cancelled
  /-- What has come to nothing yet can still be completed. -/
  due : ∀ index id, awaited index = some id → devices.handoff id = .waiting →
    id ∈ devices.completers
  /-- A hand-off that has something, or may still get it, has a channel that waits for it. -/
  expected : ∀ id, devices.arrived id = 1 ∨
    (id ∈ devices.completers ∧ devices.handoff id = .waiting) → ∃ index, awaited index = some id

namespace Custody

variable {devices next : Devices} {held awaited : Fin 4 → Option Nat} {taken refused : List Nat}

theorem initial : Custody Devices.none (fun _ => none) (fun _ => none) [] [] where
  balance := by simp [holders, Devices.arrived, Devices.handoff, Devices.none]
  once := .nil
  known := by simp
  completable := by simp [Devices.none]
  outcome := by simp [Devices.handoff, Devices.none]
  lone := by simp
  distinct := by simp
  waits := by simp
  due := by simp
  expected := by simp [Devices.arrived, Devices.handoff, Devices.none]

theorem withDevices (custody : Custody devices held awaited taken refused)
    (opened : devices.opened.length ≤ next.opened.length)
    (completers : ∀ id ∈ next.completers, id ∈ devices.completers)
    (still : ∀ id ∈ devices.completers, devices.handoff id = .waiting → id ∈ next.completers)
    (handoff : ∀ id, next.handoff id = devices.handoff id)
    (stopped : next.stopped = devices.stopped) : Custody next held awaited taken refused := by
  have arrived (id : Nat) : next.arrived id = devices.arrived id := by
    simp only [Devices.arrived, handoff]
  constructor
  case balance =>
    intro id
    rw [arrived, stopped]
    exact custody.balance id
  case once => exact custody.once
  case known => exact fun id member => Nat.lt_of_lt_of_le (custody.known id member) opened
  case completable =>
    intro id member
    obtain ⟨below, free, cell⟩ := custody.completable id (completers id member)
    exact ⟨Nat.lt_of_lt_of_le below opened, free, by rwa [handoff]⟩
  case outcome =>
    intro id resource delivered
    exact custody.outcome id resource (handoff id ▸ delivered)
  case lone => exact custody.lone
  case distinct => exact custody.distinct
  case waits =>
    intro index id waiting
    obtain ⟨below, cell⟩ := custody.waits index id waiting
    exact ⟨Nat.lt_of_lt_of_le below opened, by rwa [handoff]⟩
  case due =>
    intro index id waiting cell
    rw [handoff] at cell
    exact still id (custody.due index id waiting cell) cell
  case expected =>
    intro id due
    rw [arrived, handoff] at due
    exact custody.expected id (due.imp_right fun ⟨member, cell⟩ => ⟨completers id member, cell⟩)

theorem stop (custody : Custody devices held awaited taken refused) {index : Fin 4} {id : Nat}
    (holds : held index = some id) :
    Custody (devices.stop id) (Function.update held index none) awaited taken refused := by
  constructor
  case balance =>
    intro other
    have before := custody.balance other
    have moved := holders_update held index none other
    have counted : (devices.stop id).stopped.count other =
        devices.stopped.count other + if id = other then 1 else 0 := by
      simp [Devices.stop, List.count_singleton]
    have arrived : (devices.stop id).arrived other = devices.arrived other := rfl
    simp only [holds, Option.some.injEq, reduceCtorEq, if_false] at moved
    omega
  case once => exact custody.once
  case known => exact custody.known
  case completable => exact custody.completable
  case outcome => exact custody.outcome
  case lone =>
    intro other waiting
    by_cases same : other = index
    · rw [same, Function.update_self]
    · rw [Function.update_of_ne same]
      exact custody.lone other waiting
  case distinct => exact custody.distinct
  case waits => exact custody.waits
  case due => exact custody.due
  case expected => exact custody.expected

/-- What a channel waited for is over: given up, or fetched after it was completed. -/
theorem settle (custody : Custody devices held awaited taken refused) {index : Fin 4} {id : Nat}
    (waiting : awaited index = some id) (opened : next.opened = devices.opened)
    (completers : next.completers = devices.completers)
    (others : ∀ other, other ≠ id → next.handoff other = devices.handoff other)
    (ended : next.handoff id = .cancelled ∨
      (next.handoff id = .waiting ∧ id ∉ devices.completers)) {left : List Nat}
    (balance : ∀ other, taken.count other =
      holders held other + next.arrived other + next.stopped.count other + left.count other) :
    Custody next held (Function.update awaited index none) taken left := by
  have still {other : Fin 4} {number : Nat}
      (waits : Function.update awaited index none other = some number) :
      awaited other = some number ∧ number ≠ id := by
    rcases update_eq_some waits with ⟨_, impossible⟩ | ⟨apart, before⟩
    · cases impossible
    · refine ⟨before, ?_⟩
      rintro rfl
      exact apart (custody.distinct other index number before waiting)
  constructor
  case balance => exact balance
  case once => exact custody.once
  case known => exact opened ▸ custody.known
  case completable =>
    rw [completers, opened]
    intro number member
    obtain ⟨below, free, cell⟩ := custody.completable number member
    refine ⟨below, free, ?_⟩
    by_cases same : number = id
    · subst same
      rcases ended with cancelled | ⟨_, done⟩
      · exact .inr cancelled
      · exact absurd member done
    · rw [others number same]
      exact cell
  case outcome =>
    intro number resource delivered
    by_cases same : number = id
    · subst same
      rcases ended with cell | ⟨cell, _⟩ <;> rw [cell] at delivered <;> cases delivered
    · rw [others number same] at delivered
      exact custody.outcome number resource delivered
  case lone =>
    intro other waits
    obtain ⟨number, some⟩ := Option.ne_none_iff_exists'.mp waits
    exact custody.lone other (by rw [(still some).1]; simp)
  case distinct =>
    intro first second number left right
    exact custody.distinct first second number (still left).1 (still right).1
  case waits =>
    intro other number waits
    obtain ⟨before, apart⟩ := still waits
    rw [opened, others number apart]
    exact custody.waits other number before
  case due =>
    intro other number waits cell
    obtain ⟨before, apart⟩ := still waits
    rw [others number apart] at cell
    exact completers ▸ custody.due other number before cell
  case expected =>
    intro number due
    have apart : number ≠ id := by
      rintro rfl
      rcases ended with cell | ⟨cell, done⟩ <;> simp [Devices.arrived, cell] at due
      exact done (completers ▸ due)
    have same : next.arrived number = devices.arrived number := by
      simp only [Devices.arrived, others number apart]
    rw [same, others number apart, completers] at due
    obtain ⟨other, waits⟩ := custody.expected number due
    refine ⟨other, ?_⟩
    have different : other ≠ index := by
      rintro rfl
      exact apart (Option.some.inj (waits.symm.trans waiting))
    rw [Function.update_of_ne different]
    exact waits

/-- A channel gives up what it waits for; a resource that had arrived is stopped. -/
theorem cancel (custody : Custody devices held awaited taken refused) {index : Fin 4} {id : Nat}
    (waiting : awaited index = some id) :
    Custody (devices.cancel id) held (Function.update awaited index none) taken refused := by
  apply custody.settle waiting (Devices.cancel_opened ..) (Devices.cancel_completers ..)
  case others => exact fun other apart => by rw [Devices.cancel_handoff, if_neg apart]
  case ended => exact .inl (by rw [Devices.cancel_handoff, if_pos rfl])
  case balance =>
    intro other
    have before := custody.balance other
    have moved := Devices.cancel_moves (custody.outcome id) other
    omega

/-- A channel asks for what it waits for, and it is there or was given up. -/
theorem poll (custody : Custody devices held awaited taken refused) {index : Fin 4} {id : Nat}
    (waiting : awaited index = some id) {outcome : Except AcquireError Nat}
    (polled : (devices.poll id).1 = some outcome) :
    Custody (devices.poll id).2 held (Function.update awaited index none) taken
      (refused ++ outcome.toOption.toList) := by
  have done : id ∉ devices.completers := by
    intro member
    obtain ⟨_, _, cell | cell⟩ := custody.completable id member <;>
      simp [Devices.poll, Handoff.poll, cell] at polled
  apply custody.settle waiting (Devices.poll_opened ..) (Devices.poll_completers ..)
  case others => exact fun other apart => by rw [Devices.poll_handoff, if_neg apart]
  case ended => exact .inr ⟨by rw [Devices.poll_handoff, if_pos rfl], done⟩
  case balance =>
    intro other
    have before := custody.balance other
    have fetched := Devices.poll_arrived (custody.outcome id) polled other
    rw [List.count_append, Devices.poll_stopped]
    omega

/-- A channel asks for what it waits for, and it is not there yet. -/
theorem poll_waits (custody : Custody devices held awaited taken refused) {index : Fin 4} {id : Nat}
    (waiting : awaited index = some id) (polled : (devices.poll id).1 = none) :
    Custody (devices.poll id).2 held awaited taken refused := by
  have cell : devices.handoff id = .waiting := by
    have live := (custody.waits index id waiting).2
    simp only [Devices.poll] at polled
    cases found : devices.handoff id <;> simp [Handoff.poll, found] at polled live ⊢
  apply custody.withDevices (Nat.le_of_eq (congrArg _ (Devices.poll_opened ..).symm))
    (fun _ member => member) (fun _ member _ => member) _ (Devices.poll_stopped ..)
  intro other
  rw [Devices.poll_handoff]
  split
  · rename_i same
    rw [same, cell]
  · rfl

/-- The completing side of an acquisition that is waited for finishes it. -/
theorem fill (custody : Custody devices held awaited taken refused) {id : Nat}
    (member : id ∈ devices.completers) (waiting : devices.handoff id = .waiting)
    {cell : Handoff Nat} (faithful : ∀ resource, cell = .delivered (.ok resource) → resource = id)
    (live : cell ≠ .cancelled) (answered : cell ≠ .waiting) :
    Custody (devices.finished id cell) held awaited (taken ++ cell.resources) refused := by
  obtain ⟨below, free, _⟩ := custody.completable id member
  have only {resource : Nat} (new : resource ∈ cell.resources) : resource = id :=
    Devices.eq_of_mem_resources faithful new
  have filed : (devices.finished id cell).handoff id = cell := by
    rw [Devices.finished_handoff, if_pos rfl]
  have others {other : Nat} (apart : other ≠ id) :
      (devices.finished id cell).handoff other = devices.handoff other := by
    rw [Devices.finished_handoff, if_neg apart]
  constructor
  case balance =>
    intro other
    have before := custody.balance other
    have stopped : (devices.finished id cell).stopped = devices.stopped := rfl
    rw [List.count_append, Devices.finished_arrived waiting faithful, stopped]
    omega
  case once =>
    apply List.Nodup.append custody.once
    · unfold Handoff.resources
      split <;> simp
    · intro resource old new
      exact free (only new ▸ old)
  case known =>
    intro resource both
    rcases List.mem_append.mp both with old | new
    · exact custody.known resource old
    · exact only new ▸ below
  case completable =>
    intro other kept
    obtain ⟨member, apart⟩ := List.mem_filter.mp kept
    have apart : other ≠ id := by simpa using apart
    obtain ⟨below, free, found⟩ := custody.completable other member
    refine ⟨below, ?_, by rw [others apart]; exact found⟩
    intro both
    rcases List.mem_append.mp both with old | new
    · exact free old
    · exact apart (only new)
  case outcome =>
    intro other resource delivered
    by_cases own : other = id
    · rw [own, filed] at delivered
      rw [own]
      exact faithful resource delivered
    · rw [others own] at delivered
      exact custody.outcome other resource delivered
  case lone => exact custody.lone
  case distinct => exact custody.distinct
  case waits =>
    intro index other waits
    obtain ⟨below, found⟩ := custody.waits index other waits
    refine ⟨below, ?_⟩
    by_cases own : other = id
    · rw [own, filed]
      exact live
    · rw [others own]
      exact found
  case due =>
    intro index other waits cell
    have apart : other ≠ id := by
      rintro rfl
      exact answered (filed.symm.trans cell)
    rw [others apart] at cell
    exact List.mem_filter.mpr ⟨custody.due index other waits cell, by simpa using apart⟩
  case expected =>
    intro other due
    by_cases own : other = id
    · rw [own]
      exact custody.expected id (.inr ⟨member, waiting⟩)
    · apply custody.expected other
      rw [Devices.arrived, others own] at due
      exact due.imp_right fun ⟨kept, found⟩ => ⟨(List.mem_filter.mp kept).1, found⟩

theorem dismiss (custody : Custody devices held awaited taken refused) {id : Nat}
    (cancelled : devices.handoff id = .cancelled) :
    Custody (devices.finished id .cancelled) held awaited taken refused := by
  refine custody.withDevices (Nat.le_refl _) (fun other kept => (List.mem_filter.mp kept).1) ?still
    ?handoff rfl
  case still =>
    intro other member waiting
    have apart : other ≠ id := by
      rintro rfl
      rw [cancelled] at waiting
      cases waiting
    exact List.mem_filter.mpr ⟨member, by simpa using apart⟩
  case handoff =>
    intro other
    rw [Devices.finished_handoff]
    split
    · rename_i same
      rw [same, cancelled]
    · rfl

theorem complete (custody : Custody devices held awaited taken refused) (id : Nat)
    (error : Option AcquireError) :
    Custody (devices.complete id error).2 held awaited (taken ++ devices.completed id error)
      refused := by
  unfold Devices.completed Devices.complete
  split
  · rename_i present
    have member : id ∈ devices.completers := by simpa using present
    obtain ⟨_, _, waiting | cancelled⟩ := custody.completable id member
    · cases error with
      | none =>
        have own (resource : Nat)
            (same : Handoff.delivered (.ok id) = .delivered (.ok resource)) : resource = id := by
          cases same
          rfl
        simp only [waiting, Handoff.complete, Handoff.deliver, Handoff.abandon]
        exact custody.fill member waiting own (by simp) (by simp)
      | some error =>
        have bare (resource : Nat)
            (same : Handoff.delivered (.error error) = .delivered (.ok resource)) :
            resource = id := by
          cases same
        simp only [waiting, Handoff.complete, Handoff.deliver, Handoff.abandon]
        exact custody.fill member waiting bare (by simp) (by simp)
    · simp only [cancelled, Handoff.complete, Handoff.deliver, Handoff.abandon]
      rw [if_neg (by simp), List.append_nil]
      exact custody.dismiss cancelled
  · rw [if_neg (by simp), List.append_nil]
    exact custody

theorem abandon (custody : Custody devices held awaited taken refused) (id : Nat) :
    Custody (devices.abandon id).2 held awaited taken refused := by
  unfold Devices.abandon
  split
  · rename_i present
    have member : id ∈ devices.completers := by simpa using present
    obtain ⟨_, _, waiting | cancelled⟩ := custody.completable id member
    · have filled : Custody (devices.finished id .abandoned) held awaited
          (taken ++ Handoff.resources .abandoned) refused :=
        custody.fill member waiting (by simp) (by simp) (by simp)
      have nothing : taken ++ Handoff.resources .abandoned = taken := List.append_nil taken
      rw [nothing] at filled
      simp only [waiting, Handoff.abandon]
      exact filled
    · simp only [cancelled, Handoff.abandon]
      exact custody.dismiss cancelled
  · exact custody

/-- A resource that is there at once. Until a channel has it, it counts as refused. -/
theorem open_ready (custody : Custody devices held awaited taken refused) {wanted : Wanted}
    {id : Nat} (acquired : devices.acquire wanted = (.ready (.ok id), next)) :
    Custody next held awaited (taken ++ [id]) (refused ++ [id]) := by
  simp only [Devices.acquire] at acquired
  split at acquired <;> cases acquired
  have fresh : devices.opened.length ∉ taken :=
    fun member => Nat.lt_irrefl _ (custody.known _ member)
  constructor
  case balance =>
    intro other
    have before := custody.balance other
    rw [List.count_append, List.count_append]
    simp only [Devices.arrived, Devices.handoff] at before ⊢
    omega
  case once => exact List.Nodup.append custody.once (by simp) (by simpa using fresh)
  case known =>
    intro other both
    rw [List.length_append]
    rcases List.mem_append.mp both with old | new
    · exact Nat.lt_add_right _ (custody.known other old)
    · simp [List.mem_singleton.mp new]
  case completable =>
    intro other member
    obtain ⟨below, free, cell⟩ := custody.completable other member
    refine ⟨by rw [List.length_append]; exact Nat.lt_add_right _ below, ?_, cell⟩
    intro both
    rcases List.mem_append.mp both with old | new
    · exact free old
    · exact Nat.ne_of_lt below (List.mem_singleton.mp new)
  case outcome => exact custody.outcome
  case lone => exact custody.lone
  case distinct => exact custody.distinct
  case waits =>
    intro index other waits
    obtain ⟨below, cell⟩ := custody.waits index other waits
    exact ⟨by rw [List.length_append]; exact Nat.lt_add_right _ below, cell⟩
  case due => exact custody.due
  case expected => exact custody.expected

theorem open_failed (custody : Custody devices held awaited taken refused) {wanted : Wanted}
    {error : AcquireError} (acquired : devices.acquire wanted = (.ready (.error error), next)) :
    Custody next held awaited taken refused := by
  have grown : devices.opened.length ≤ (devices.opened ++ [wanted]).length := by simp
  simp only [Devices.acquire] at acquired
  split at acquired <;> cases acquired
  · exact custody.withDevices grown (fun _ member => member) (fun _ member _ => member)
      (fun _ => rfl) rfl
  · exact custody.withDevices grown (fun _ member => member) (fun _ member _ => member)
      (fun _ => rfl) rfl

theorem open_later (custody : Custody devices held awaited taken refused) {wanted : Wanted}
    {id : Nat} (acquired : devices.acquire wanted = (.inFlight id, next)) {index : Fin 4}
    (free : held index = none) (idle : awaited index = none) :
    Custody next held (Function.update awaited index (some id)) taken refused := by
  obtain ⟨rfl, opened, completers, stopped, handoff⟩ := Devices.acquire_later acquired
  have fresh : devices.opened.length ∉ taken :=
    fun member => Nat.lt_irrefl _ (custody.known _ member)
  have others {other : Nat} (below : other < devices.opened.length) :
      next.handoff other = devices.handoff other := by
    rw [handoff, if_neg (Nat.ne_of_lt below)]
  have arrived (other : Nat) : next.arrived other = devices.arrived other := by
    by_cases same : other = devices.opened.length
    · have before := custody.balance other
      rw [List.count_eq_zero.mpr (same ▸ fresh)] at before
      have nothing : next.arrived other = 0 := by
        rw [Devices.arrived, handoff, if_pos same]
      omega
    · rw [Devices.arrived, handoff, if_neg same, Devices.arrived]
  have waiting {other : Fin 4} {id : Nat}
      (waits : Function.update awaited index (some devices.opened.length) other = some id) :
      (other = index ∧ id = devices.opened.length) ∨ (other ≠ index ∧ awaited other = some id) :=
    (update_eq_some waits).imp_left fun ⟨own, same⟩ => ⟨own, (Option.some.inj same).symm⟩
  constructor
  case balance =>
    intro other
    rw [arrived, stopped]
    exact custody.balance other
  case once => exact custody.once
  case known =>
    intro other member
    rw [opened, List.length_append]
    exact Nat.lt_add_right _ (custody.known other member)
  case completable =>
    intro other member
    rw [opened, List.length_append]
    rw [completers] at member
    rcases List.mem_cons.mp member with rfl | old
    · exact ⟨by simp, fresh, .inl (by rw [handoff, if_pos rfl])⟩
    · obtain ⟨below, free, cell⟩ := custody.completable other old
      exact ⟨Nat.lt_add_right _ below, free, by rw [others below]; exact cell⟩
  case outcome =>
    intro other resource delivered
    rw [handoff] at delivered
    split at delivered
    · cases delivered
    · exact custody.outcome other resource delivered
  case lone =>
    intro other waits
    obtain ⟨id, some⟩ := Option.ne_none_iff_exists'.mp waits
    rcases waiting some with ⟨rfl, _⟩ | ⟨_, before⟩
    · exact free
    · exact custody.lone other (by simp [before])
  case distinct =>
    intro first second id left right
    rcases waiting left with ⟨rfl, rfl⟩ | ⟨_, leftBefore⟩ <;>
      rcases waiting right with ⟨rfl, same⟩ | ⟨_, rightBefore⟩
    · rfl
    · exact absurd (custody.waits second _ rightBefore).1 (Nat.lt_irrefl _)
    · exact absurd (same ▸ custody.waits first _ leftBefore).1 (Nat.lt_irrefl _)
    · exact custody.distinct first second id leftBefore rightBefore
  case waits =>
    intro other id waits
    rw [opened, List.length_append]
    rcases waiting waits with ⟨_, rfl⟩ | ⟨_, before⟩
    · exact ⟨by simp, by rw [handoff, if_pos rfl]; simp⟩
    · obtain ⟨below, cell⟩ := custody.waits other id before
      exact ⟨Nat.lt_add_right _ below, by rw [others below]; exact cell⟩
  case due =>
    intro other id waits cell
    rw [completers]
    rcases waiting waits with ⟨_, rfl⟩ | ⟨_, before⟩
    · exact List.mem_cons_self
    · rw [others (custody.waits other id before).1] at cell
      exact List.mem_cons_of_mem _ (custody.due other id before cell)
  case expected =>
    intro id due
    by_cases same : id = devices.opened.length
    · exact ⟨index, by rw [Function.update_self, same]⟩
    · rw [arrived, completers, handoff, if_neg same] at due
      have before := due.imp_right fun ⟨member, cell⟩ =>
        And.intro ((List.mem_cons.mp member).resolve_left same) cell
      obtain ⟨other, waits⟩ := custody.expected id before
      refine ⟨other, ?_⟩
      have apart : other ≠ index := by
        rintro rfl
        rw [idle] at waits
        cases waits
      rw [Function.update_of_ne apart]
      exact waits

theorem accept {id : Nat} (custody : Custody devices held awaited taken (refused ++ [id]))
    {index : Fin 4} (free : held index = none) (idle : awaited index = none) :
    Custody devices (Function.update held index (some id)) awaited taken refused := by
  constructor
  case balance =>
    intro other
    have before := custody.balance other
    have moved := holders_update held index (some id) other
    rw [List.count_append, List.count_singleton] at before
    simp only [free, Option.some.injEq, reduceCtorEq, if_false, beq_iff_eq] at moved before
    omega
  case once => exact custody.once
  case known => exact custody.known
  case completable => exact custody.completable
  case outcome => exact custody.outcome
  case lone =>
    intro other waits
    have apart : other ≠ index := by
      rintro rfl
      exact waits idle
    rw [Function.update_of_ne apart]
    exact custody.lone other waits
  case distinct => exact custody.distinct
  case waits => exact custody.waits
  case due => exact custody.due
  case expected => exact custody.expected

theorem arrived_le_one (devices : Devices) (id : Nat) : devices.arrived id ≤ 1 := by
  unfold Devices.arrived
  split <;> simp

/-- What lies in a hand-off lies in the one that a channel waits for. -/
theorem arrived_eq_sum (custody : Custody devices held awaited taken refused) (id : Nat) :
    ∑ index, (if awaited index = some id ∧ devices.arrived id = 1 then 1 else 0) =
      devices.arrived id := by
  by_cases lies : devices.arrived id = 1
  · obtain ⟨index, waits⟩ := custody.expected id (.inl lies)
    rw [Finset.sum_eq_single index]
    · rw [if_pos ⟨waits, lies⟩, lies]
    · intro other _ apart
      apply if_neg
      rintro ⟨both, _⟩
      exact apart (custody.distinct other index id both waits)
    · exact fun absent => absurd (Finset.mem_univ index) absent
  · have none : devices.arrived id = 0 := by
      have := arrived_le_one devices id
      omega
    simp [none]

theorem mem_taken_of_refused (custody : Custody devices held awaited taken refused) {id : Nat}
    (member : id ∈ refused) : id ∈ taken := by
  have before := custody.balance id
  have counted := List.count_pos_iff.mpr member
  exact List.count_pos_iff.mp (by omega)

/-- Everything that was taken over is in one place, but what was refused is in none. -/
theorem total (custody : Custody devices held awaited taken refused) (id : Nat) :
    holders held id +
        ∑ index, (if awaited index = some id ∧ devices.arrived id = 1 then 1 else 0) +
        devices.stopped.count id =
      if id ∈ taken ∧ id ∉ refused then 1 else 0 := by
  have balance := custody.balance id
  rw [custody.arrived_eq_sum]
  have once := List.nodup_iff_count_le_one.mp custody.once id
  by_cases kept : id ∈ taken ∧ id ∉ refused
  · have counted := List.count_pos_iff.mpr kept.1
    have absent := List.count_eq_zero.mpr kept.2
    rw [if_pos kept]
    omega
  · rw [if_neg kept]
    by_cases member : id ∈ taken
    · have counted := List.count_pos_iff.mpr (not_not.mp (not_and.mp kept member))
      omega
    · have absent := List.count_eq_zero.mpr member
      omega

end Custody

end Channel

end LiveFragment
