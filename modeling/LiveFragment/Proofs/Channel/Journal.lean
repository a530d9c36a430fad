import LiveFragment.Proofs.Channel.Flight
import LiveFragment.Proofs.Channel.Superseded

namespace LiveFragment.Channel

open LiveFragment.Backend LiveFragment.Media

/-- A binding that is over: the end that it came to if it was in flight, and the rack before and
after this was told. -/
structure Notice (σ : Type) where
  binding : Nat
  ending : Option (Except AcquireError Nat)
  before : Rack σ
  rack : Rack σ

/-- A rack with all its bindings so far, in order. A channel waits for a binding that the host took
up until it finds that the host has ended it; the others are over at once. -/
structure Journal (σ : Type) where
  rack : Rack σ
  /-- The events that were taken out of the rack. -/
  taken : List Event
  bindings : List (Fin 4 × Request)
  waiting : Fin 4 → Option Flight
  superseded : List Nat
  notices : List (Notice σ)

/-- The binding that a move makes. -/
def Move.binding? {σ : Type} : Move σ → Option (Fin 4 × Request)
  | .call (.bind number request) => (checkIndex number).toOption.map (·, request)
  | _ => none

namespace Journal

variable {σ : Type}

def start (rack : Rack σ) : Journal σ := ⟨rack, [], [], fun _ => none, [], []⟩

/-- The kind that a binding asks for. -/
def kind? (journal : Journal σ) (binding : Nat) : Option Kind :=
  journal.bindings[binding]?.map fun (_, request) => request.kind

/-- A new binding, under the number of the next opening. -/
def announce (journal : Journal σ) (index : Fin 4) (request : Request) : Journal σ :=
  { journal with
    bindings := journal.bindings ++ [(index, request)]
    waiting := Function.update journal.waiting index
      (some ⟨journal.bindings.length, journal.rack.devices.opened.length, none⟩) }

/-- What a channel waits for is over. -/
def settle (journal : Journal σ) (index : Fin 4) (notice : Notice σ) : Journal σ :=
  { journal with
    rack := notice.rack
    waiting := Function.update journal.waiting index none
    notices := journal.notices ++ [notice] }

variable [Backend σ]

/-- A channel is taken down, and what it waited for is superseded. -/
def down (journal : Journal σ) (index : Fin 4) : Journal σ :=
  { journal with
    rack := journal.rack.teardown index
    waiting := Function.update journal.waiting index none
    superseded := journal.superseded ++ (journal.waiting index).toList.map Flight.binding }

def bind (journal : Journal σ) (number : Nat) (request : Request) : Journal σ :=
  match checkIndex number with
  | .error _ => journal
  | .ok index =>
    let after := (journal.rack.bind number request).2
    let announced := (journal.down index).announce index request
    if journal.rack.defers request then { announced with rack := after }
    else announced.settle index ⟨journal.bindings.length, none, journal.rack, after⟩

def unbind (journal : Journal σ) (number : Nat) : Journal σ :=
  match checkIndex number with
  | .error _ => journal
  | .ok index => journal.down index

/-- A channel asks for what it waits for, and is told of it once it has ended. -/
def poll (journal : Journal σ) (index : Fin 4) : Journal σ :=
  let after := journal.rack.pollPending index
  match journal.waiting index with
  | some ⟨binding, _, some ending⟩ =>
    journal.settle index ⟨binding, some ending, journal.rack, after⟩
  | _ => { journal with rack := after }

def refreshSlot (journal : Journal σ) (index : Fin 4) (now : Nat) : Journal σ :=
  let polled := journal.poll index
  { polled with rack := polled.rack.refreshSlot index now }

def step (journal : Journal σ) : Step → Journal σ
  | .bind number request => journal.bind number request
  | .unbind number => journal.unbind number
  | .refresh now =>
    (List.finRange 4).foldl (fun journal index => journal.refreshSlot index now) journal
  | .takeEvents =>
    { journal with
      rack := journal.rack.takeEvents.2
      taken := journal.taken ++ journal.rack.takeEvents.1 }
  | .host step =>
    { journal with
      rack := journal.rack.host step
      waiting := fun index => (journal.waiting index).map (·.after step) }

def move (journal : Journal σ) : Move σ → Journal σ
  | .call step => journal.step step
  | .teardownAll =>
    { (List.finRange 4).foldl down journal with rack := journal.rack.teardownAll }
  | other => { journal with rack := journal.rack.move other }

def run (journal : Journal σ) (moves : List (Move σ)) : Journal σ := moves.foldl move journal

theorem poll_rack (journal : Journal σ) (index : Fin 4) :
    (journal.poll index).rack = journal.rack.pollPending index := by
  unfold poll
  dsimp only
  split <;> rfl

theorem poll_bindings (journal : Journal σ) (index : Fin 4) :
    (journal.poll index).bindings = journal.bindings := by
  unfold poll
  dsimp only
  split <;> rfl

theorem bind_rack (journal : Journal σ) (number : Nat) (request : Request) :
    (journal.bind number request).rack = (journal.rack.bind number request).2 := by
  unfold bind
  split
  · rename_i wrong
    simp only [Rack.bind, wrong]
  · dsimp only
    split <;> rfl

theorem bind_bindings (journal : Journal σ) {number : Nat} {index : Fin 4}
    (named : checkIndex number = .ok index) (request : Request) :
    (journal.bind number request).bindings = journal.bindings ++ [(index, request)] := by
  simp only [bind, named]
  split <;> rfl

theorem refresh_rack (journal : Journal σ) (now : Nat) (indices : List (Fin 4)) :
    (indices.foldl (fun journal index => journal.refreshSlot index now) journal).rack =
      indices.foldl (fun rack index => (rack.pollPending index).refreshSlot index now)
        journal.rack := by
  induction indices generalizing journal with
  | nil => rfl
  | cons index rest ih => rw [List.foldl_cons, List.foldl_cons, ih, refreshSlot, poll_rack]

theorem step_rack (journal : Journal σ) (step : Step) :
    (journal.step step).rack = journal.rack.step step := by
  cases step with
  | bind number request => exact bind_rack journal number request
  | unbind number =>
    simp only [Journal.step, unbind, Rack.step, Rack.unbind]
    cases checkIndex number <;> rfl
  | refresh now => exact refresh_rack journal now _
  | _ => rfl

theorem move_rack (journal : Journal σ) (move : Move σ) :
    (journal.move move).rack = journal.rack.move move := by
  cases move with
  | call step => exact step_rack journal step
  | _ => rfl

theorem run_rack (journal : Journal σ) (moves : List (Move σ)) :
    (journal.run moves).rack = moves.foldl Rack.move journal.rack := by
  induction moves generalizing journal with
  | nil => rfl
  | cons move rest ih =>
    simp only [run, List.foldl_cons] at ih ⊢
    rw [ih, move_rack]

theorem refresh_bindings (journal : Journal σ) (now : Nat) (indices : List (Fin 4)) :
    (indices.foldl (fun journal index => journal.refreshSlot index now) journal).bindings =
      journal.bindings := by
  induction indices generalizing journal with
  | nil => rfl
  | cons index rest ih =>
    rw [List.foldl_cons, ih]
    exact poll_bindings ..

theorem down_rack (journal : Journal σ) (indices : List (Fin 4)) :
    (indices.foldl down journal).rack = indices.foldl Rack.teardown journal.rack := by
  induction indices generalizing journal with
  | nil => rfl
  | cons index rest ih => rw [List.foldl_cons, List.foldl_cons, ih, down]

theorem down_bindings (journal : Journal σ) (indices : List (Fin 4)) :
    (indices.foldl down journal).bindings = journal.bindings := by
  induction indices generalizing journal with
  | nil => rfl
  | cons index rest ih => rw [List.foldl_cons, ih, down]

theorem move_bindings (journal : Journal σ) (move : Move σ) :
    (journal.move move).bindings = journal.bindings ++ move.binding?.toList := by
  cases move with
  | call step =>
    cases step with
    | bind number request =>
      simp only [Journal.move, Journal.step, Move.binding?]
      cases named : checkIndex number with
      | error wrong =>
        simp only [bind, named]
        exact (List.append_nil _).symm
      | ok index => exact bind_bindings journal named request
    | unbind number =>
      simp only [Journal.move, Journal.step, unbind, Move.binding?]
      split <;> exact (List.append_nil _).symm
    | refresh now => exact (refresh_bindings ..).trans (List.append_nil _).symm
    | _ => exact (List.append_nil _).symm
  | teardownAll => exact (down_bindings ..).trans (List.append_nil _).symm
  | _ => exact (List.append_nil _).symm

theorem run_bindings (journal : Journal σ) (moves : List (Move σ)) :
    (journal.run moves).bindings = journal.bindings ++ moves.filterMap Move.binding? := by
  induction moves generalizing journal with
  | nil => exact (List.append_nil _).symm
  | cons move rest ih =>
    simp only [run, List.foldl_cons] at ih ⊢
    rw [ih, move_bindings, List.append_assoc]
    cases found : move.binding? <;> simp [found]

end Journal

/-- What an event has to do with a notice: it is about the channel and the kind of the binding and
tells the end of it, and it was the last event when the channel was as the event says. -/
def Explains {σ : Type} [Backend σ] (bindings : List (Fin 4 × Request)) (notice : Notice σ)
    (event : Event) : Prop :=
  ∃ index request, bindings[notice.binding]? = some (index, request) ∧
    event.channel = index.val ∧ event.kind = request.kind ∧
    (∀ resolved, resolveRequest notice.rack.options request = .ok resolved →
      event.kind = resolved.kind) ∧
    (∀ ending, notice.ending = some ending →
      Rack.Yields notice.before.backend event.kind ending event.outcome) ∧
    notice.rack.events.getLast? = some event ∧ notice.rack.Bears index event.kind event.outcome

theorem Explains.more {σ : Type} [Backend σ] {bindings : List (Fin 4 × Request)}
    {notice : Notice σ} {event : Event} (explains : Explains bindings notice event)
    (further : List (Fin 4 × Request)) : Explains (bindings ++ further) notice event := by
  obtain ⟨index, request, listed, told⟩ := explains
  have inside := (List.getElem?_eq_some_iff.mp listed).1
  exact ⟨index, request, by rwa [List.getElem?_append_left inside], told⟩

namespace Journal

variable {σ : Type} [Backend σ]

/-- The binding that a channel waits for. -/
def awaited (journal : Journal σ) (index : Fin 4) : Option Nat :=
  (journal.waiting index).map Flight.binding

/-- The events are those of the notices, every binding has one place, and the channels wait for the
acquisitions in flight. This last may fail for a channel that is about to be settled. -/
structure Kept (settled : Fin 4 → Prop) (journal : Journal σ) : Prop where
  told : List.Forall₂ (Explains journal.bindings) journal.notices
    (journal.taken ++ journal.rack.events)
  balance : ∀ binding, (journal.notices.map Notice.binding).count binding +
      journal.superseded.count binding + holders journal.awaited binding =
    if binding < journal.bindings.length then 1 else 0
  known : ∀ index flight, journal.waiting index = some flight →
    ∃ request, journal.bindings[flight.binding]? = some (index, request)
  inFlight : ∀ index, settled index →
    journal.rack.inFlight index = (journal.awaited index).bind journal.kind?
  flies : ∀ index flight, settled index → journal.waiting index = some flight →
    journal.rack.Flies index flight
  tickets : journal.rack.view.Tickets

namespace Kept

variable {settled : Fin 4 → Prop} {journal : Journal σ}

theorem quiet (kept : journal.Kept settled) {after : Rack σ} (quiet : Rack.Quiet journal.rack after)
    (flies : ∀ index flight, settled index → journal.waiting index = some flight →
      after.Flies index flight)
    (tickets : after.view.Tickets) : Kept settled { journal with rack := after } where
  told := quiet.events ▸ kept.told
  balance := kept.balance
  known := kept.known
  inFlight index here := (congrFun quiet.inFlight index).trans (kept.inFlight index here)
  flies := flies
  tickets := tickets

theorem weaken (kept : journal.Kept settled) {fewer : Fin 4 → Prop}
    (less : ∀ index, fewer index → settled index) : journal.Kept fewer :=
  { kept with
    inFlight := fun index here => kept.inFlight index (less index here)
    flies := fun index flight here => kept.flies index flight (less index here) }

omit [Backend σ] in
theorem awaited_update (journal : Journal σ) (index : Fin 4) (flight : Option Flight) :
    (fun other => (Function.update journal.waiting index flight other).map Flight.binding) =
      Function.update journal.awaited index (flight.map Flight.binding) := by
  funext other
  by_cases same : other = index
  · rw [same, Function.update_self, Function.update_self]
  · rw [Function.update_of_ne same, Function.update_of_ne same]
    rfl

theorem down (kept : journal.Kept settled) (index : Fin 4) : (journal.down index).Kept settled where
  told := kept.told
  balance binding := by
    have before := kept.balance binding
    have moved := holders_update journal.awaited index none binding
    have counted : ((journal.waiting index).toList.map Flight.binding).count binding =
        if journal.awaited index = some binding then 1 else 0 := by
      rw [awaited]
      cases journal.waiting index with
      | none => simp
      | some flight => simp [List.count_singleton]
    have left : (journal.down index).awaited = Function.update journal.awaited index none :=
      awaited_update journal index none
    refine Eq.trans ?_ before
    rw [left]
    simp only [Journal.down, List.count_append, counted]
    simp only [reduceCtorEq, if_false] at moved
    omega
  known other flight waits := by
    by_cases same : other = index
    · simp [Journal.down, same] at waits
    · simp only [Journal.down, Function.update_of_ne same] at waits
      exact kept.known other flight waits
  inFlight other here := by
    have left : (journal.down index).awaited = Function.update journal.awaited index none :=
      awaited_update journal index none
    have teardown := Rack.teardown_inFlight journal.rack index
    rw [left]
    by_cases same : other = index
    · subst same
      simp only [Journal.down, teardown, Function.update_self, Option.bind_none]
    · simp only [Journal.down, teardown, Function.update_of_ne same]
      exact kept.inFlight other here
  flies other flight here waits := by
    by_cases same : other = index
    · simp [Journal.down, same] at waits
    · simp only [Journal.down, Function.update_of_ne same] at waits
      have flies := kept.flies other flight here waits
      exact flies.later (flies.awaits.teardown same)
  tickets := (Rack.teardown_motions journal.rack index).tickets kept.tickets

theorem announce (kept : journal.Kept settled) {index : Fin 4} (free : journal.waiting index = none)
    (request : Request) :
    (journal.announce index request).Kept fun other => settled other ∧ other ≠ index where
  told := kept.told.imp fun _ _ explains => explains.more _
  balance binding := by
    have before := kept.balance binding
    have moved := holders_update journal.awaited index (some journal.bindings.length) binding
    have idle : journal.awaited index = none := by rw [awaited, free]; rfl
    have more : (journal.announce index request).awaited =
        Function.update journal.awaited index (some journal.bindings.length) :=
      awaited_update journal index _
    rw [more]
    simp only [idle, reduceCtorEq, if_false, Option.some.injEq] at moved
    simp only [Journal.announce, List.length_append, List.length_singleton]
    split at before <;> split at moved <;> split <;> omega
  known other flight waits := by
    by_cases same : other = index
    · subst same
      simp only [Journal.announce, Function.update_self, Option.some.injEq] at waits
      exact ⟨request, by simp [Journal.announce, ← waits]⟩
    · simp only [Journal.announce, Function.update_of_ne same] at waits
      obtain ⟨earlier, listed⟩ := kept.known other flight waits
      have inside := (List.getElem?_eq_some_iff.mp listed).1
      exact ⟨earlier, by rwa [Journal.announce, List.getElem?_append_left inside]⟩
  inFlight other here := by
    have before := kept.inFlight other here.1
    simp only [awaited, Journal.announce, Function.update_of_ne here.2] at before ⊢
    cases waits : journal.waiting other with
    | none => rwa [waits] at before
    | some flight =>
      obtain ⟨earlier, listed⟩ := kept.known other flight waits
      have inside := (List.getElem?_eq_some_iff.mp listed).1
      rw [waits] at before
      simpa only [Option.map_some, Option.bind_some, kind?, List.getElem?_append_left inside]
        using before
  flies other flight here waits := by
    simp only [Journal.announce, Function.update_of_ne here.2] at waits
    exact kept.flies other flight here.1 waits
  tickets := kept.tickets

section Settle

variable {index : Fin 4} (kept : journal.Kept (· ≠ index)) {flight : Flight}
  (waits : journal.waiting index = some flight) {request : Request}
  (listed : journal.bindings[flight.binding]? = some (index, request))

include kept waits listed

theorem wait {after : Rack σ} (told : Rack.Told journal.rack index request.kind after none)
    (flies : ∀ other flight, journal.waiting other = some flight → after.Flies other flight)
    (tickets : after.view.Tickets) : Kept (fun _ => True) { journal with rack := after } := by
  cases told with
  | waits events inFlight =>
    refine ⟨?_, kept.balance, kept.known, fun other _ => ?_,
      fun other flight _ => flies other flight, tickets⟩
    · simp only [events]
      exact kept.told
    · by_cases same : other = index
      · subst same
        simp only [inFlight, Function.update_self, awaited, waits, Option.map_some,
          Option.bind_some, kind?, listed]
      · simp only [inFlight, Function.update_of_ne same]
        exact kept.inFlight other same

/-- A channel is settled by what the rack tells of what it waits for. -/
theorem settle {notice : Notice σ} (same : notice.binding = flight.binding)
    {outcome : Except AcquireError Unit}
    (told : Rack.Told journal.rack index request.kind notice.rack (some outcome))
    (yields : ∀ ending, notice.ending = some ending →
      Rack.Yields notice.before.backend request.kind ending outcome)
    (flies : ∀ other flight, other ≠ index → journal.waiting other = some flight →
      notice.rack.Flies other flight)
    (tickets : notice.rack.view.Tickets) : (journal.settle index notice).Kept fun _ => True := by
  have left : (journal.settle index notice).awaited = Function.update journal.awaited index none :=
    awaited_update journal index none
  cases told with
  | news events inFlight bears =>
    constructor
    case told =>
      have explains : Explains journal.bindings notice ⟨index.val, request.kind, outcome⟩ := by
        refine ⟨index, request, by rwa [same], rfl, rfl, ?_, yields, by simp [events], bears⟩
        exact fun resolved found => (Request.kind_of_resolved found).symm
      simp only [Journal.settle, events, ← List.append_assoc]
      exact List.rel_append kept.told (.cons explains .nil)
    case balance =>
      intro other
      have moved := holders_update journal.awaited index none other
      refine Eq.trans ?_ (kept.balance other)
      rw [left]
      simp only [awaited, waits, Option.map_some, Option.some.injEq, reduceCtorEq,
        if_false] at moved
      simp only [Journal.settle, List.map_append, List.count_append, List.map_cons, List.map_nil,
        List.count_singleton, beq_iff_eq, same]
      omega
    case known =>
      intro other held found
      by_cases own : other = index
      · simp [Journal.settle, own] at found
      · simp only [Journal.settle, Function.update_of_ne own] at found
        exact kept.known other held found
    case inFlight =>
      intro other _
      rw [left]
      by_cases own : other = index
      · subst own
        simp only [Journal.settle, inFlight, Function.update_self, Option.bind_none]
      · simp only [Journal.settle, inFlight, Function.update_of_ne own]
        exact kept.inFlight other own
    case flies =>
      intro other held _ found
      by_cases own : other = index
      · simp [Journal.settle, own] at found
      · simp only [Journal.settle, Function.update_of_ne own] at found
        exact flies other held own found
    case tickets => exact tickets

end Settle

theorem bind (kept : journal.Kept fun _ => True) (number : Nat) (request : Request) :
    (journal.bind number request).Kept fun _ => True := by
  cases named : checkIndex number with
  | error wrong =>
    simp only [Journal.bind, named]
    exact kept
  | ok index =>
    have free : (journal.down index).waiting index = none := Function.update_self ..
    have announced := ((kept.down index).announce free request).weaken fun other apart =>
      ⟨trivial, apart⟩
    have waits : ((journal.down index).announce index request).waiting index =
        some ⟨journal.bindings.length, journal.rack.devices.opened.length, none⟩ := by
      simp only [Journal.announce, Function.update_self, Journal.down,
        (Rack.teardown_opened journal.rack index).1]
    have listed : ((journal.down index).announce index request).bindings[journal.bindings.length]? =
        some (index, request) := List.getElem?_concat_length ..
    have tickets := (Rack.bind_motions journal.rack number request).tickets kept.tickets
    have others {other : Fin 4} (apart : other ≠ index) {flight : Flight}
        (held : ((journal.down index).announce index request).waiting other = some flight) :
        (journal.rack.bind number request).2.Flies other flight := by
      simp only [Journal.announce, Journal.down, Function.update_of_ne apart] at held
      have flies := kept.flies other flight trivial held
      have different : other.val ≠ number := by
        rw [← checkIndex_ok named]
        exact fun same => apart (Fin.ext same)
      exact flies.later (flies.awaits.bind different request)
    have asked : (journal.rack.teardown index).defers request = journal.rack.defers request := by
      rw [Rack.defers, Rack.defers, (Rack.teardown_opened journal.rack index).2]
    obtain ⟨told, tells, later⟩ := Rack.bind_told journal.rack named request
    rw [asked] at later
    simp only [Journal.bind, named]
    split
    · rename_i defers
      obtain rfl := later.mpr defers
      refine announced.wait waits listed tells (fun other flight held => ?_) tickets
      by_cases apart : other = index
      · subst apart
        obtain rfl := Option.some.inj (waits.symm.trans held)
        exact Rack.bind_flies kept.tickets named defers _
      · exact others apart held
    · rename_i atOnce
      cases told with
      | none => exact absurd (later.mp rfl) atOnce
      | some outcome =>
        refine announced.settle waits listed rfl tells (fun _ ended => ?_)
          (fun _ _ apart held => ?_) tickets
        · cases ended
        · exact others apart held

theorem unbind (kept : journal.Kept fun _ => True) (number : Nat) :
    (journal.unbind number).Kept fun _ => True := by
  unfold Journal.unbind
  split
  · exact kept
  · exact kept.down _

/-- A poll tells of what a channel waits for once it has ended, and else of nothing. -/
theorem poll (kept : journal.Kept fun _ => True) (index : Fin 4) :
    (journal.poll index).Kept fun _ => True := by
  have asked := kept.inFlight index trivial
  have tickets := (Rack.pollPending_motions journal.rack index).tickets kept.tickets
  have others {other : Fin 4} (apart : other ≠ index) {flight : Flight}
      (held : journal.waiting other = some flight) :
      (journal.rack.pollPending index).Flies other flight := by
    have flies := kept.flies other flight trivial held
    exact flies.later (flies.awaits.pollPending apart)
  cases waits : journal.waiting index with
  | none =>
    rw [awaited, waits] at asked
    simp only [Journal.poll, waits, Rack.pollPending_idle (Rack.inFlight_eq_none.mp asked)]
    exact kept
  | some flight =>
    obtain ⟨request, listed⟩ := kept.known index flight waits
    have flies := kept.flies index flight trivial waits
    obtain ⟨pending, held, own⟩ := Option.map_eq_some_iff.mp flies.awaits.awaited
    have kind : pending.kind = request.kind := by
      have told : journal.rack.inFlight index = some pending.kind := by
        rw [Rack.inFlight, held]
        rfl
      rw [asked, awaited, waits, Option.map_some, Option.bind_some, kind?, listed] at told
      exact (Option.some.inj told).symm
    obtain ⟨binding, id, ending⟩ := flight
    have lies := flies.lies
    simp only [Flight.Lies] at lies
    cases ending with
    | none =>
      have going := flies.poll rfl
      have nothing : (journal.rack.devices.poll pending.id).1 = none := by
        rw [own, Devices.poll, lies]
        rfl
      simp only [Journal.poll, waits]
      refine kept.quiet ?_ (fun other flight _ flown => ?_) tickets
      · rw [Rack.pollPending_waits held nothing]
        exact ⟨rfl, rfl⟩
      · by_cases apart : other = index
        · subst apart
          obtain rfl := Option.some.inj (waits.symm.trans flown)
          exact going
        · exact others apart flown
    | some ending =>
      have polled : (journal.rack.devices.poll pending.id).1 = some ending := by
        rw [own]
        exact lies
      obtain ⟨outcome, told, yields⟩ := Rack.pollPending_told held polled
      rw [kind] at told yields
      simp only [Journal.poll, waits]
      refine (kept.weaken fun _ _ => trivial).settle waits listed rfl told ?_
        (fun _ _ apart held => others apart held) tickets
      rintro _ ⟨⟩
      exact yields

theorem refresh (kept : journal.Kept fun _ => True) (now : Nat) (indices : List (Fin 4)) :
    (indices.foldl (fun journal index => journal.refreshSlot index now) journal).Kept
      fun _ => True := by
  induction indices generalizing journal with
  | nil => exact kept
  | cons index rest ih =>
    have polled := kept.poll index
    refine ih (polled.quiet (Rack.refreshSlot_quiet ..) (fun other flight _ held => ?_)
      ((Rack.refreshSlot_motions ..).tickets polled.tickets))
    have flies := polled.flies other flight trivial held
    exact flies.later (flies.awaits.refreshSlot index now)

theorem host (kept : journal.Kept fun _ => True) {taken refused : List Nat}
    (custody : journal.rack.InCustody taken refused) (step : HostStep) :
    (journal.step (.host step)).Kept fun _ => True := by
  have quiet := Rack.host_quiet journal.rack step
  have same : (journal.step (.host step)).awaited = journal.awaited := by
    funext index
    simp only [awaited, Journal.step, Option.map_map]
    exact congrArg (Option.map · _) (funext fun flight => flight.after_binding step)
  have flown {index : Fin 4} {flight : Flight}
      (held : (journal.step (.host step)).waiting index = some flight) :
      ∃ before, journal.waiting index = some before ∧ before.after step = flight :=
    Option.map_eq_some_iff.mp held
  constructor
  case told => exact quiet.events ▸ kept.told
  case balance =>
    rw [same]
    exact kept.balance
  case known =>
    intro index flight held
    obtain ⟨before, waits, rfl⟩ := flown held
    rw [before.after_binding]
    exact kept.known index before waits
  case inFlight =>
    intro index _
    rw [same]
    exact (congrFun quiet.inFlight index).trans (kept.inFlight index trivial)
  case flies =>
    intro index flight _ held
    obtain ⟨before, waits, rfl⟩ := flown held
    exact (kept.flies index before trivial waits).host custody step
  case tickets => exact (Rack.host_motions journal.rack step).tickets kept.tickets

theorem step (kept : journal.Kept fun _ => True) {taken refused : List Nat}
    (custody : journal.rack.InCustody taken refused) (step : Step) :
    (journal.step step).Kept fun _ => True := by
  cases step with
  | bind number request => exact kept.bind number request
  | unbind number => exact kept.unbind number
  | refresh now => exact kept.refresh now _
  | takeEvents =>
    refine ⟨?_, kept.balance, kept.known, kept.inFlight, fun index flight here held => ?_,
      kept.tickets⟩
    · simp only [Journal.step, Rack.takeEvents, List.append_nil]
      exact kept.told
    · exact (kept.flies index flight here held).same ⟨rfl, rfl, rfl⟩
  | host step => exact kept.host custody step

theorem teardowns (kept : journal.Kept settled) (indices : List (Fin 4)) :
    (indices.foldl Journal.down journal).Kept settled := by
  induction indices generalizing journal with
  | nil => exact kept
  | cons index rest ih => exact ih (kept.down index)

theorem move (kept : journal.Kept fun _ => True) {taken refused : List Nat}
    (custody : journal.rack.InCustody taken refused) (move : Move σ) :
    (journal.move move).Kept fun _ => True := by
  cases move with
  | call step => exact kept.step custody step
  | rebuild =>
    have same := Rack.rebuild_same journal.rack
    exact kept.quiet (Rack.rebuild_quiet ..)
      (fun index flight here held => (kept.flies index flight here held).same same)
      (same.motions.tickets kept.tickets)
  | teardownAll =>
    have down := kept.teardowns (List.finRange 4)
    have all : Rack.SameHolders ((List.finRange 4).foldl Journal.down journal).rack
        journal.rack.teardownAll := by
      rw [down_rack]
      exact ⟨rfl, rfl, rfl⟩
    refine down.quiet ?_ (fun index flight here held => (down.flies index flight here held).same all)
      (all.motions.tickets down.tickets)
    rw [down_rack]
    exact ⟨rfl, rfl⟩
  | backend next =>
    exact kept.quiet ⟨rfl, rfl⟩
      (fun index flight here held => (kept.flies index flight here held).same ⟨rfl, rfl, rfl⟩)
      kept.tickets

theorem run (kept : journal.Kept fun _ => True) {ledger : Ledger σ} (balanced : ledger.Balanced)
    (same : ledger.rack = journal.rack) (moves : List (Move σ)) :
    (journal.run moves).Kept fun _ => True := by
  induction moves generalizing journal ledger with
  | nil => exact kept
  | cons move rest ih =>
    have custody : journal.rack.InCustody ledger.taken ledger.refused := same ▸ balanced
    refine ih (kept.move custody move) (balanced.move move) ?_
    rw [Ledger.move_rack, move_rack, same]

end Kept

end Journal

/-- A new rack has no news, and nothing is in flight. -/
theorem Journal.kept_start {σ : Type} [Backend σ] {backend next : σ} {options : RackOptions}
    {start : Rack σ} (made : Rack.new backend Devices.none options = (.ok start, next)) :
    (Journal.start start).Kept fun _ => True := by
  have tickets := Rack.new_tickets made
  unfold Rack.new at made
  split at made
  · cases made
  · have same := Except.ok.inj (Prod.mk.inj made).1
    constructor
    case told =>
      rw [← same]
      exact .nil
    case balance =>
      intro binding
      simp [Journal.start, Journal.awaited, holders]
    case known => exact fun _ _ waits => by cases waits
    case inFlight =>
      intro index _
      simp only [← same, Journal.start, Rack.inFlight, Fin.getElem_fin, Vector.getElem_replicate]
      rfl
    case flies => exact fun _ _ _ waits => by cases waits
    case tickets => exact tickets

/-- After any moves, the events that were told are those of the notices, one by one. Every binding
was noticed once, or is waited for, or was superseded. Those that the host took up to answer later
are waited for until the first refresh after the host has ended them, with a resource or an error,
and this is what is told then; all others are told of at once. -/
theorem Journal.run_reports {σ : Type} [Backend σ] {backend next : σ} {options : RackOptions}
    {start : Rack σ} (made : Rack.new backend Devices.none options = (.ok start, next))
    (moves : List (Move σ)) :
    let journal := (Journal.start start).run moves
    journal.rack = moves.foldl Rack.move start ∧
      journal.bindings = moves.filterMap Move.binding? ∧
      List.Forall₂ (Explains journal.bindings) journal.notices
        (journal.taken ++ journal.rack.events) ∧
      (∀ binding, (journal.notices.map Notice.binding).count binding +
          journal.superseded.count binding + holders journal.awaited binding =
        if binding < journal.bindings.length then 1 else 0) ∧
      ∀ index, (journal.rack.slot index).pending.map Pending.id =
        (journal.waiting index).map Flight.id := by
  have balanced : Ledger.Balanced ⟨start, [], []⟩ := Rack.new_inCustody made
  have kept := (kept_start made).run balanced rfl moves
  intro journal
  refine ⟨run_rack .., run_bindings .., kept.told, kept.balance, fun index => ?_⟩
  have asked := kept.inFlight index trivial
  cases waits : journal.waiting index with
  | none =>
    rw [awaited, waits] at asked
    rw [Rack.inFlight_eq_none.mp asked]
    rfl
  | some flight => exact (kept.flies index flight trivial waits).awaits.awaited

/-- A stream is bound anew before it is there, and then the backend refuses its first texture. -/
def supersedingMoves : List (Move (Scheduled Headless)) :=
  [.call (.host (.plan [.pending, .pending])), .call (.bind 0 (.stream "feed")), .call (.refresh 0),
    .call (.bind 0 (.stream "feed")), .call (.refresh 0), .call (.host (.complete 1 none)),
    .call (.refresh 0)]

/-- Only the second binding is told of, once its stream is there and by its failure to be shown. -/
theorem Journal.run_reports_superseded :
    ∃ start next, Rack.new refusing Devices.none .bare = (.ok start, next) ∧
      let journal := (Journal.start start).run supersedingMoves
      ((Journal.start start).run (supersedingMoves.take 5)).notices = [] ∧
        journal.superseded = [0] ∧ journal.notices.map Notice.binding = [1] ∧
        journal.notices.map Notice.ending = [some (.ok 1)] ∧
        journal.rack.events.map Event.kind = [.stream] ∧
        List.Forall₂ (Explains [(0, .stream "feed"), (0, .stream "feed")]) journal.notices
          journal.rack.events := by
  have made : Rack.new refusing Devices.none .bare = (.ok _, _) := rfl
  obtain ⟨_, _, told, _, _⟩ := run_reports made supersedingMoves
  exact ⟨_, _, made, rfl, rfl, rfl, rfl, rfl, told⟩

end LiveFragment.Channel
