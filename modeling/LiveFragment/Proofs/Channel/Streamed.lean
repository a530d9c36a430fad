import Mathlib.Data.List.DropRight
import LiveFragment.Proofs.Channel.Stream

namespace LiveFragment.Channel

open LiveFragment.Backend LiveFragment.Media

/-- The frame that was pushed into a stream last. -/
def newest (id : Nat) (turns : List Turn) : Option Frame :=
  (turns.filterMap (Turn.pushed? id)).getLast?

/-- The turns after the last refresh. -/
def sinceRefresh (turns : List Turn) : List Turn := turns.rtakeWhile fun turn => !turn.refreshes

theorem newest_concat (id : Nat) (turns : List Turn) (turn : Turn) :
    newest id (turns ++ [turn]) = (turn.pushed? id).or (newest id turns) := by
  unfold newest
  cases pushed : turn.pushed? id with
  | none => simp [List.filterMap_append, pushed]
  | some frame => simp [List.filterMap_append, pushed]

theorem sinceRefresh_concat (turns : List Turn) (turn : Turn) :
    sinceRefresh (turns ++ [turn]) =
      if turn.refreshes then [] else sinceRefresh turns ++ [turn] := by
  unfold sinceRefresh
  rw [List.rtakeWhile_concat]
  cases turn.refreshes <;> rfl

namespace Rack

/-- What comes of asking for a stream depends on the answer of the host, and on the device when the
stream is there at once. -/
def Begins (index : Fin 4) (name : String) (before after : Rack Headless) : Prop :=
  let id := before.devices.opened.length
  match (before.devices.acquire (.stream name)).1 with
  | .ready (.ok _) =>
    if before.backend.lost then after.slot index = .empty
    else after.Streams index id none ∧
      ∃ first, before.backend.lastId < first.id ∧ after.display? index = some (.initial first)
  | .inFlight _ => after.Expects index id none
  | .ready (.error _) => after.slot index = .empty

theorem supply_begins {rack : Rack Headless} {index : Fin 4} (valid : rack.backend.Valid)
    (empty : rack.slot index = .empty) (name : String) :
    (rack.supply index (.stream name)).devices.opened = rack.devices.opened ++ [.stream name] ∧
      Begins index name rack (rack.supply index (.stream name)) := by
  have asked : rack.acquire index (.stream name) =
    rack.openLive index (.stream name) (.stream · none) := rfl
  have bare : (rack.slot index).texture = none := by
    rw [empty]
    rfl
  unfold Begins
  unfold openLive at asked
  cases acquired : rack.devices.acquire (.stream name) with
  | mk answer devices =>
    rw [acquired] at asked
    cases answer with
    | inFlight id =>
      obtain ⟨slot, same, _⟩ := supply_accepted asked
      obtain ⟨number, opened, _⟩ := Devices.acquire_later acquired
      refine ⟨same ▸ opened, ?_⟩
      dsimp only
      unfold Expects
      rw [slot, setPending, slot_setSlot_self, number]
    | ready outcome =>
      obtain ⟨opened, _, _, number⟩ := Devices.acquire_ready acquired
      cases outcome with
      | error error =>
        obtain ⟨slot, same⟩ := supply_refused asked
        exact ⟨same.trans opened, slot⟩
      | ok id =>
        have here := number id rfl
        dsimp only at asked ⊢
        rw [← here]
        have kept := (install_installed { rack with devices } index (.stream id none)).devices
        cases lost : rack.backend.lost with
        | true =>
          obtain ⟨after, refused⟩ := @install_lost { rack with devices } index lost bare id none
          simp only [Pending.source, refused, ofBackend] at asked kept
          obtain ⟨slot, same⟩ := supply_refused asked
          rw [same, kept]
          exact ⟨opened, slot⟩
        | false =>
          obtain ⟨after, installed, source, shown⟩ :=
            @install_display { rack with devices } index lost valid bare id none
          simp only [Pending.source, installed, ofBackend] at asked kept
          obtain ⟨slot, same, backend⟩ := supply_accepted asked
          have texture := (display?_eq_some.mp shown).1
          rw [same, kept]
          refine ⟨opened, ⟨?_, ?_⟩, rack.backend.nextTexture, Nat.lt_succ_self _, ?_⟩
          · rw [slot]
            exact source
          · rw [slot, texture]
            exact Option.some_ne_none _
          · refine (display?_congr ?_ ?_ fun handle _ => ?_).trans shown
            · rw [slot]
            · rw [slot]
            · rw [backend]

variable {rack : Rack Headless} {index : Fin 4} {id : Nat} {name : String} {latest : Option Frame}

/-- What the channel had before makes no difference to the stream that it is bound to. -/
theorem bind_begins (coherent : ∃ fresh, rack.Coherent fresh) (index : Fin 4) (name : String) :
    (rack.bind index.val (.stream name)).2.devices.opened =
        rack.devices.opened ++ [.stream name] ∧
      Begins index name rack (rack.bind index.val (.stream name)).2 := by
  obtain ⟨fresh, coherent⟩ := coherent
  have down := coherent.teardown index
  obtain ⟨opened, plan⟩ := teardown_opened rack index
  have later : rack.backend.Later (rack.teardown index).backend :=
    (closedAt_backend (Headless.textureClosed_later rack.backend) index).teardown rack (.refl _)
  have answer : ((rack.teardown index).devices.acquire (.stream name)).1 =
      (rack.devices.acquire (.stream name)).1 := by
    unfold Devices.acquire
    rw [plan, opened]
    cases rack.devices.plan.headD .unsupported <;> rfl
  obtain ⟨longer, begins⟩ := supply_begins down.valid (teardown_slot rack index) name
  rw [bind_eq rack (checkIndex_val index)]
  refine ⟨longer.trans (by rw [opened]), ?_⟩
  unfold Begins at begins ⊢
  rw [answer, later.lost, opened] at begins
  -- The device may have given out more handles, but not before the channel was taken down.
  cases answered : (rack.devices.acquire (.stream name)).1 with
  | inFlight id =>
    rw [answered] at begins
    exact begins
  | ready outcome =>
    rw [answered] at begins
    cases outcome with
    | error error => exact begins
    | ok id =>
      dsimp only at begins ⊢
      cases lost : rack.backend.lost with
      | true =>
        rw [lost] at begins
        exact begins
      | false =>
        rw [lost] at begins
        obtain ⟨streams, first, new, shown⟩ := begins
        exact ⟨streams, first, Nat.lt_of_le_of_lt later.issued new, shown⟩

/-- How a stream stands with its channel after some turns since it was asked for. -/
inductive Phase (index : Fin 4) (id : Nat) (course : List Turn) (rack : Rack Headless) : Prop
  | connected (streams : rack.Streams index id (newest id (sinceRefresh course)))
  | connecting (expects : rack.Expects index id (newest id course))
  | closed (absent : rack.view.Absent id)

namespace Phase

variable {course : List Turn}

/-- A channel that is given something else is done with the stream. -/
theorem superseded (phase : rack.Phase index id course) (regular : rack.Regular id name)
    {turn : Turn} (supersedes : turn.Supersedes index) : (rack.turn turn).view.Absent id := by
  cases turn with
  | call cut =>
    cases phase with
    | connected streams => exact step_absent regular.tickets (.inl streams.held) supersedes
    | connecting expects => exact step_absent regular.tickets (.inr expects.awaited) supersedes
    | closed absent => exact (step_motions rack cut).absent absent
  | lose => cases supersedes
  | restore => cases supersedes

theorem turn (phase : rack.Phase index id course) (regular : rack.Regular id name) (turn : Turn) :
    (rack.turn turn).Phase index id (course ++ [turn]) := by
  by_cases supersedes : turn.Supersedes index
  · exact .closed (phase.superseded regular supersedes)
  cases phase with
  | closed absent => exact .closed ((turn_motions rack turn).absent absent)
  | connected streams =>
    have after := streams.turn regular supersedes
    apply connected
    rw [sinceRefresh_concat]
    cases refreshes : turn.refreshes with
    | true =>
      rw [refreshes] at after
      exact after
    | false =>
      rw [refreshes] at after
      simpa only [Bool.false_eq_true, if_false, newest_concat] using after
  | connecting expects =>
    cases refreshes : turn.refreshes with
    | false =>
      apply connecting
      rw [newest_concat]
      exact expects.turn regular supersedes refreshes
    | true =>
      obtain ⟨now, rfl⟩ := Turn.of_refreshes refreshes
      have same : newest id (course ++ [.call (.refresh now)]) = newest id course :=
        newest_concat id course _
      cases polled : (rack.devices.poll id).1 with
      | none =>
        have still := expects.refresh_waits regular polled now
        exact .connecting ((congrArg Slot.pending still).trans (same ▸ expects))
      | some outcome =>
        cases outcome with
        | error error => exact .closed (expects.refresh_fails regular polled now)
        | ok resource =>
          rcases expects.refresh_brings regular polled now with streams | absent
          · apply connected
            rw [sinceRefresh_concat]
            exact streams
          · exact .closed absent

theorem run (phase : rack.Phase index id []) (regular : rack.Regular id name)
    (fits : ∀ turn ∈ course, turn.Fits) : (rack.run course).Phase index id course := by
  induction course using List.reverseRecOn with
  | nil => exact phase
  | append_singleton earlier turn ih =>
    have before : ∀ turn ∈ earlier, turn.Fits := fun turn member => fits turn (by simp [member])
    have step := (ih before).turn (regular.run before) turn
    rwa [Rack.run, List.foldl_append]

end Phase

/-- A channel that is left empty has no stream, and nobody else does. -/
theorem bind_absent (tickets : rack.view.Tickets) {request : Request}
    (empty : (rack.bind index.val request).2.slot index = .empty)
    (opened : rack.devices.opened.length < (rack.bind index.val request).2.devices.opened.length) :
    (rack.bind index.val request).2.view.Absent rack.devices.opened.length := by
  have nowhere (other : Fin 4) :
      rack.held other ≠ some rack.devices.opened.length ∧
        rack.awaited other ≠ some rack.devices.opened.length :=
    ⟨fun held => Nat.lt_irrefl _ (tickets.opened_of_place (.inl held)),
      fun awaited => Nat.lt_irrefl _ (tickets.opened_of_place (.inr awaited))⟩
  have elsewhere (other : Fin 4) :
      (rack.bind index.val request).2.held other ≠ some rack.devices.opened.length ∧
        (rack.bind index.val request).2.awaited other ≠ some rack.devices.opened.length := by
    unfold Rack.held Rack.awaited
    by_cases same : other = index
    · rw [same, empty]
      exact ⟨nofun, nofun⟩
    · rw [bind_apart rack (fun equal => same (Fin.ext equal)) request]
      exact nowhere other
  exact ⟨(bind_motions rack index.val request).tickets tickets, opened,
    fun other => (elsewhere other).1, fun other => (elsewhere other).2⟩

theorem bind_phase (coherent : ∃ fresh, rack.Coherent fresh) (tickets : rack.view.Tickets)
    (index : Fin 4) (name : String) :
    let bound := (rack.bind index.val (.stream name)).2
    bound.Regular rack.devices.opened.length name ∧
      bound.Phase index rack.devices.opened.length [] := by
  obtain ⟨opened, begins⟩ := bind_begins coherent index name
  have longer : rack.devices.opened.length <
      (rack.bind index.val (.stream name)).2.devices.opened.length := by
    rw [opened, List.length_append]
    exact Nat.lt_succ_self _
  refine ⟨⟨?_, (bind_motions rack index.val _).tickets tickets, ?_⟩, ?_⟩
  · exact @Coherent.run rack coherent [.call (.bind index.val (.stream name))]
      fun _ member => List.mem_singleton.mp member ▸ trivial
  · rw [opened, List.getElem?_append_right (Nat.le_refl _), Nat.sub_self]
    rfl
  · unfold Begins at begins
    cases acquired : rack.devices.acquire (.stream name) with
    | mk answer devices =>
      rw [acquired] at begins
      cases answer with
      | inFlight id => exact .connecting begins
      | ready outcome =>
        cases outcome with
        | error error => exact .closed (bind_absent tickets begins longer)
        | ok id =>
          dsimp only at begins
          split at begins
          · exact .closed (bind_absent tickets begins longer)
          · exact .connected begins.1

/-- What a refresh makes of the newest frame of a stream: the channel displays what follows from it,
a texture that is not kept is released, and at most that frame is uploaded. -/
structure Advances (index : Fin 4) (id now : Nat) (frame : Option Frame) (display : Display)
    (next : TextureHandle) (rack : Rack Headless) : Prop where
  held : (rack.refresh now).held index = some id
  shown : (rack.refresh now).display? index = some (display.takes next frame)
  new : rack.backend.lastId < next.id
  released : (display.takes next frame).texture ≠ display.texture →
    (rack.refresh now).backend.Spent display.texture
  once :
    let polled := (rack.reached now index).pollPending index
    (polled.refreshSlot index now).backend =
      (frame.filter (·.isWellFormed)).elim polled.backend fun frame =>
        ((polled.slot index).uploadFrame polled.backend frame).2.2

/-- A stream that takes no more frames: a push is refused and changes nothing, whatever happens. -/
def Closed (id : Nat) (rack : Rack Headless) : Prop :=
  ∀ (later : List Turn) (frame : Frame),
    (rack.run later).pushStream id frame = (some false, rack.run later)

/-- A channel that has a stream, with the newest frame since the last refresh. -/
structure Connected (index : Fin 4) (id : Nat) (frame : Option Frame) (rack : Rack Headless) :
    Prop where
  pushes : ∀ frame, (rack.pushStream id frame).1 = some true
  stays : ∀ turn : Turn, ¬ turn.Supersedes index → (rack.turn turn).held index = some id
  still : ∀ step : Step, step.Leaves index →
    (rack.step step).display? index = rack.display? index
  refreshes : rack.backend.lost = false → ∀ now, ∃ display next,
    rack.display? index = some display ∧ rack.Advances index id now frame display next

/-- A channel that waits for a stream, with the newest frame so far. The refresh that connects it
begins with a black texture. -/
structure Connecting (index : Fin 4) (id : Nat) (frame : Option Frame) (rack : Rack Headless) :
    Prop where
  pushes : ∀ frame, (rack.pushStream id frame).1 = some true
  stays : ∀ turn : Turn, ¬ turn.Supersedes index → turn.refreshes = false →
    (rack.turn turn).awaited index = some id
  bare : rack.display? index = none
  refreshes : rack.backend.lost = false → ∀ now,
    match (rack.devices.poll id).1 with
    | none => (rack.refresh now).slot index = rack.slot index
    | some (.ok _) => ∃ first next, rack.backend.lastId < first.id ∧
      rack.Advances index id now frame (.initial first) next
    | some (.error _) => (rack.refresh now).Closed id

theorem Regular.closed (regular : rack.Regular id name) (absent : rack.view.Absent id) :
    rack.Closed id := by
  intro later frame
  have motions := turns_motions rack later
  exact pushStream_absent (opened_later regular.opened motions) (motions.absent absent) frame

/-- Between refreshes a channel with a stream displays the same, whatever is pushed. -/
theorem Regular.step_display (regular : rack.Regular id name)
    (feeds : (rack.slot index).feeds id = true) {step : Step} (leaves : step.Leaves index) :
    (rack.step step).display? index = rack.display? index := by
  have slot := step_slot regular.opened feeds leaves
  have same : ((rack.step step).slot index).texture = (rack.slot index).texture ∧
      ((rack.step step).slot index).resolution = (rack.slot index).resolution := by
    rw [slot]
    cases step.pushed? id with
    | none => exact ⟨rfl, rfl⟩
    | some frame => exact Slot.push_keeps id frame (rack.slot index)
  refine display?_congr same.1 same.2 fun handle held => ?_
  obtain ⟨fresh, coherent⟩ := regular.coherent
  have kept {number : Nat} (apart : number ≠ index.val) (other : Fin 4) (named : other.val = number) :
      ClosedAt other fun after : Rack Headless => after.Owned ∧
        (after.slot index).texture = some handle ∧
          Books.record? after.backend handle = Books.record? rack.backend handle := by
    refine closedAt_texture ?_ handle _
    rintro rfl
    exact apart named.symm
  cases step with
  | bind number request =>
    exact (ClosedAt.bind (kept leaves) request ⟨coherent.owned, held, rfl⟩).2.2
  | unbind number => exact (ClosedAt.unbind (kept leaves) ⟨coherent.owned, held, rfl⟩).2.2
  | refresh now => cases leaves
  | takeEvents => rfl
  | host step => exact congrArg (Headless.texture? · handle) (host_backend rack step)

/-- What the channel displays when the refresh has come to it is what the refresh goes on from. -/
theorem Regular.advances (regular : rack.Regular id name) (present : rack.backend.lost = false)
    {display : Display} (now : Nat) :
    let polled := (rack.reached now index).pollPending index
    polled.Streams index id latest → polled.display? index = some display →
      rack.Advances index id now latest display polled.backend.nextTexture := by
  intro polled streams shown
  have reached := reached_aside index regular.coherent regular.tickets now
  have later : rack.backend.Later polled.backend := reached.backend.trans
    ((closedAt_backend (Headless.textureClosed_later _) index).pollPending (.refl _))
  obtain ⟨fresh, coherent⟩ := Coherent.polled reached.coherent index
  obtain ⟨source, next, released, once⟩ :=
    refreshSlot_display coherent (later.lost.trans present) streams.source shown now
  have aside := refresh_aside index regular.coherent regular.tickets now
  constructor
  case held =>
    have held := congrArg Source.resource? source
    exact (congrArg (fun slot => slot.source.resource?) aside.slot).trans held
  case shown => exact aside.display.trans next
  case new => exact Nat.lt_succ_of_le later.issued
  case released => exact fun other => aside.backend.spent _ (released other)
  case once => exact once

theorem Streams.connected (streams : rack.Streams index id latest)
    (regular : rack.Regular id name) : rack.Connected index id latest := by
  constructor
  case pushes => exact pushStream_fed regular.opened streams.feeds
  case stays => exact fun turn kept => (streams.turn regular kept).held
  case still => exact fun step leaves => regular.step_display streams.feeds leaves
  case refreshes =>
    intro present now
    have reached := reached_aside index regular.coherent regular.tickets now
    have there := streams.of_slot reached.slot
    have idle := pollPending_idle (there.idle reached.coherent)
    obtain ⟨fresh, coherent⟩ := regular.coherent
    obtain ⟨display, shown⟩ := coherent.display?_of_texture streams.texture
    refine ⟨display, _, shown, regular.advances present now ?_ ?_⟩
    · rw [idle]
      exact there
    · rw [idle]
      exact reached.display.trans shown

theorem Expects.connecting (expects : rack.Expects index id latest)
    (regular : rack.Regular id name) : rack.Connecting index id latest := by
  have vacant := expects.vacant regular.coherent
  constructor
  case pushes => exact pushStream_fed regular.opened (expects.feeds regular.coherent)
  case stays => exact fun turn kept other => (expects.turn regular kept other).awaited
  case bare =>
    obtain ⟨fresh, coherent⟩ := regular.coherent
    unfold display?
    rw [(coherent.slots index).bare vacant]
    rfl
  case refreshes =>
    intro present now
    obtain ⟨reached, there, met, asked⟩ := expects.reached regular now
    cases polled : (rack.devices.poll id).1 with
    | none => exact expects.refresh_waits regular polled now
    | some outcome =>
      rw [polled] at asked
      cases outcome with
      | error error =>
        have after := @Regular.turn rack id name regular (.call (.refresh now)) trivial
        exact after.closed (expects.refresh_fails regular polled now)
      | ok resource =>
        obtain rfl : resource = id := met.tickets.eq_of_polled asked
        obtain ⟨fresh, coherent⟩ := reached.coherent
        have bare : (((rack.reached now index).vacated index resource).slot index).texture =
            none := by
          rw [vacated, setPending, slot_setSlot_self]
          exact (coherent.slots index).bare (there.vacant met.coherent)
        obtain ⟨after, installed, source, shown⟩ :=
          @install_display ((rack.reached now index).vacated index resource) index
            (reached.backend.lost.trans present) coherent.valid bare resource latest
        have polled : (rack.reached now index).pollPending index =
            after.report index .stream (.ok ()) := by
          rw [pollPending_brings there asked]
          simp only [Pending.id, Pending.source, installed]
          rfl
        have texture := (display?_eq_some.mp shown).1
        refine ⟨_, _, Nat.lt_succ_of_le reached.backend.issued, regular.advances present now ?_ ?_⟩
        · rw [polled]
          exact ⟨source, texture.trans_ne (Option.some_ne_none _)⟩
        · rw [polled]
          exact shown

/-- A stream over a whole run, from the bind that asks for it. As long as the channel is given nothing
else it has the stream, or waits for it. Each refresh shows the last frame pushed since the refresh
before, and the one that connects the stream the last frame pushed so far, in place or in a new
texture; without such a frame, or when it is malformed, the channel displays the same as before. And
once the channel has neither, the stream takes no more frames. -/
theorem run_streamed (judge : String → Option String) (width height : UInt32)
    (options : RackOptions) {earlier course : List Turn}
    (fits : ∀ turn ∈ earlier ++ course, turn.Fits) (index : Fin 4) (name : String) :
    ∃ start, Rack.new (Headless.new judge width height) Devices.none options =
        (.ok start, start.backend) ∧
      let before := start.run earlier
      let id := before.devices.opened.length
      let bound := (before.bind index.val (.stream name)).2
      let rack := bound.run course
      Begins index name before bound ∧
      (rack.held index = some id → rack.Connected index id (newest id (sinceRefresh course))) ∧
      (rack.awaited index = some id → rack.Connecting index id (newest id course)) ∧
      (rack.held index ≠ some id → rack.awaited index ≠ some id → rack.Closed id) ∧
      ((∃ turn ∈ course, turn.Supersedes index) → rack.Closed id) := by
  have queued : Devices.none.Sound := by simp [Devices.Sound, Devices.none]
  have valid := Headless.valid_new judge width height
  have cleared : Books.record? (Headless.new judge width height) = fun _ => none := rfl
  obtain ⟨start, made, initial, _⟩ := new_coherent options valid rfl cleared queued
  refine ⟨start, made, ?_⟩
  intro before id bound rack
  have earlierFits : ∀ turn ∈ earlier, turn.Fits := fun turn member => fits turn (by simp [member])
  have courseFits : ∀ turn ∈ course, turn.Fits := fun turn member => fits turn (by simp [member])
  have coherent : ∃ fresh, before.Coherent fresh := Coherent.run ⟨_, initial⟩ earlierFits
  have tickets : before.view.Tickets := (turns_motions start earlier).tickets (new_tickets made)
  obtain ⟨regular, phase⟩ := bind_phase coherent tickets index name
  have now : rack.Regular id name := regular.run courseFits
  have current : rack.Phase index id course := phase.run regular courseFits
  refine ⟨(bind_begins coherent index name).2, fun held => ?_, fun awaited => ?_,
    fun unheld unawaited => ?_, ?_⟩
  · cases current with
    | connected streams => exact streams.connected now
    | connecting expects => cases held.symm.trans (expects.free now.coherent)
    | closed absent => exact absurd held (absent.held index)
  · cases current with
    | connected streams =>
      have idle : rack.awaited index = none :=
        congrArg (Option.map Pending.id) (streams.idle now.coherent)
      cases awaited.symm.trans idle
    | connecting expects => exact expects.connecting now
    | closed absent => exact absurd awaited (absent.awaited index)
  · cases current with
    | connected streams => exact absurd streams.held unheld
    | connecting expects => exact absurd expects.awaited unawaited
    | closed absent => exact now.closed absent
  · rintro ⟨cut, member, supersedes⟩
    obtain ⟨front, back, rfl⟩ := List.append_of_mem member
    have frontFits : ∀ turn ∈ front, turn.Fits :=
      fun turn member => courseFits turn (by simp [member])
    have absent := (phase.run regular frontFits).superseded (regular.run frontFits) supersedes
    have same : rack = ((bound.run front).turn cut).run back := by
      simp only [rack, Rack.run, List.foldl_append, List.foldl_cons]
    refine now.closed ?_
    rw [same]
    exact (turns_motions _ back).absent absent

/-- One frame is pushed to a stream that is still to come, and two once it is there. -/
def feedTurns : List Turn :=
  [.call (.host (.pushStream 0 ⟨1, 1, opaqueBlack⟩)), .call (.host (.complete 0 none)),
    .call (.refresh 5), .call (.host (.pushStream 0 ⟨2, 1, opaqueBlack ++ opaqueBlack⟩)),
    .call (.host (.pushStream 0 ⟨1, 2, opaqueBlack ++ #[1, 2, 3, 4]⟩))]

/-- The next refresh shows the second of the two, in a new texture. -/
theorem run_streamed_feed :
    ∃ start, Rack.new (Headless.new (fun _ => none) 4 4) Devices.none .bare =
        (.ok start, start.backend) ∧
      let before := start.run [.call (.host (.plan [.pending]))]
      let rack := (before.bind 1 (.stream "feed")).2.run feedTurns
      (∀ turn ∈ Turn.call (.host (.plan [.pending])) :: feedTurns, turn.Fits) ∧
      rack.held 1 = some 0 ∧
      ∃ next, rack.backend.lastId < next.id ∧
        (rack.refresh 6).display? 1 =
          some ⟨next, ⟨.rgba 1 2, #[1, 2, 3, 4] ++ opaqueBlack, 0⟩, .ofSize 1 2⟩ := by
  have fits : ∀ turn ∈ [Turn.call (.host (.plan [.pending]))] ++ feedTurns, turn.Fits := by
    simp [feedTurns, Turn.Fits, Step.Fits, HostStep.Fits, Frame.byteCount, UInt64.size]
  obtain ⟨start, made, _, connected, _⟩ :=
    run_streamed _ 4 4 .bare fits 1 "feed"
  have begun : Rack.new (Headless.new (fun _ => none) 4 4) Devices.none .bare =
      (.ok _, _) := rfl
  obtain ⟨same, _⟩ := Prod.mk.inj (begun.symm.trans made)
  obtain rfl := Except.ok.inj same
  obtain ⟨display, next, shown, advances⟩ :=
    (connected (by decide +kernel)).refreshes (by decide +kernel) 6
  refine ⟨_, made, fits, by decide +kernel, next, advances.new, advances.shown.trans ?_⟩
  obtain rfl := Option.some.inj (shown.symm.trans (by decide +kernel :
    _ = some ⟨⟨2⟩, ⟨.rgba 1 1, opaqueBlack, 1⟩, .ofSize 1 1⟩))
  rfl

end Rack

end LiveFragment.Channel
