import LiveFragment.Proofs.Channel.Awaited
import LiveFragment.Proofs.Directive.Scanned
import LiveFragment.Proofs.Engine.Resumed

namespace LiveFragment

open LiveFragment.Text LiveFragment.Backend LiveFragment.Channel LiveFragment.Directive
  LiveFragment.Media LiveFragment.Parameter LiveFragment.Program

/-- A property of a backend that is kept when programs are taken and given back. -/
structure Backend.ProgramClosed {σ : Type} [Backend σ] (P : σ → Prop) : Prop where
  compile : ∀ backend text, P backend → P (Backend.compileProgram backend text).2
  release : ∀ backend handle, P backend → P (Backend.releaseProgram backend handle)

/-- A backend without a device makes no texture for a program. -/
theorem Backend.Headless.programClosed (textures : List (TextureHandle × TextureRecord))
    (allocations : Nat) :
    ProgramClosed fun backend : Headless =>
      backend.textures = textures ∧ backend.allocations = allocations where
  compile backend text kept := by
    simp only [Backend.compileProgram, Headless.compileProgram]
    split
    · exact kept
    · split <;> exact kept
  release _ _ kept := kept

theorem Backend.Books.programClosed {σ : Type} [Backend σ] [Books σ]
    (records : TextureHandle → Option TextureRecord) :
    ProgramClosed fun backend : σ => Books.Valid backend ∧ Books.record? backend = records where
  compile backend text := by
    rintro ⟨valid, same⟩
    exact (Books.compileProgram text valid).imp_right fun kept => kept.trans same
  release backend handle := by
    rintro ⟨valid, same⟩
    exact (Books.releaseProgram handle valid).imp_right fun kept => kept.trans same

theorem Directive.Directives.mem_textures_iff (source : String) (directive : TextureDirective) :
    directive ∈ (Directives.ofSource source).textures ↔
      (((lines source.toList).filterMap texture?).filter
        (·.channel == directive.channel)).getLast? = some directive := by
  have distinct : ((Directives.ofSource source).textures.map (·.channel)).Nodup :=
    List.pairwise_map.mpr ((ordered_ofSource source).imp Nat.ne_of_lt)
  have last := find?_ofChars source.toList directive.channel
  rw [textureLines] at last
  rw [← last]
  exact ⟨find?_of_distinct distinct, List.mem_of_find?_eq_some⟩

theorem Directive.Directives.eq_of_channel {source : String} {first second : TextureDirective}
    (here : first ∈ (Directives.ofSource source).textures)
    (there : second ∈ (Directives.ofSource source).textures)
    (same : first.channel = second.channel) : first = second := by
  have last := (mem_textures_iff source first).mp here
  rw [same, (mem_textures_iff source second).mp there] at last
  exact (Option.some.inj last).symm

namespace Channel.Rack

variable {σ : Type}

/-- A channel has what is asked of it, or nothing is. -/
def Meets (rack : Rack σ) (directives : List TextureDirective) (index : Fin 4) : Prop :=
  ∀ directive ∈ directives, directive.channel = index.val →
    (rack.slot index).request = some (.ofSource directive.source)

theorem mem_unmet {rack : Rack σ} {directives : List TextureDirective}
    {directive : TextureDirective} {index : Fin 4} (named : directive.channel = index.val) :
    directive ∈ rack.unmet directives ↔ directive ∈ directives ∧
      (rack.slot index).request ≠ some (.ofSource directive.source) := by
  rw [unmet, List.mem_filter, named, request?_eq]
  simp

theorem Meets.apart {rack : Rack σ} {directives : List TextureDirective} {index : Fin 4}
    (meets : rack.Meets directives index) :
    ∀ directive ∈ rack.unmet directives, directive.channel ≠ index.val := by
  intro directive member named
  obtain ⟨declared, other⟩ := (mem_unmet named).mp member
  exact other (meets directive declared named)

theorem unmet_eq_nil {rack : Rack σ} {directives : List TextureDirective}
    (channels : ∀ directive ∈ directives, directive.channel < 4)
    (meets : ∀ index, rack.Meets directives index) : rack.unmet directives = [] := by
  apply List.eq_nil_iff_forall_not_mem.mpr
  intro directive member
  have declared := (List.mem_filter.mp member).1
  exact (meets ⟨directive.channel, channels directive declared⟩).apart directive member rfl

theorem follow_awaits [Backend σ] {rack : Rack σ} {directives : List TextureDirective}
    {channel : Fin 4} (apart : ∀ directive ∈ directives, directive.channel ≠ channel.val)
    {id : Nat} {cell : Handoff Nat} (awaits : rack.Awaits channel id cell) :
    (directives.foldl follow rack).Awaits channel id cell := by
  induction directives generalizing rack with
  | nil => exact awaits
  | cons directive rest ih =>
    obtain ⟨first, others⟩ := List.forall_mem_cons.mp apart
    exact ih others (awaits.bind first.symm _)

end Channel.Rack

namespace Engine

open Channel.Rack

variable {σ : Type} [Backend σ]

theorem Untouched.rack {before after : Engine σ} (untouched : before.Untouched after) :
    after.rack = { before.rack with backend := after.rack.backend } := by
  obtain ⟨⟨backend, devices, slots, placeholder, options, events, broken, generators⟩, _⟩ := after
  simp only [Rack.mk.injEq, true_and]
  exact ⟨untouched.devices, untouched.slots, untouched.placeholder, untouched.options,
    untouched.events, untouched.broken, untouched.generators⟩

theorem retired_closed {P : σ → Prop} (closed : ProgramClosed P) {engine : Engine σ}
    (before : P engine.rack.backend) : P engine.retired := by
  unfold retired
  split
  · exact closed.release _ _ before
  · exact before

theorem compile_rack {engine after : Engine σ} {source : String}
    (compiled : engine.compile source = (.ok (), after)) :
    ∃ handle backend,
      Backend.compileProgram engine.rack.backend
          (Assembly.ofSource source (Directives.ofSource source).params).text =
        (.ok handle, backend) ∧
      after.rack = (engine.rack.unmet (Directives.ofSource source).textures).foldl follow
        { engine.rack with backend := (engine.setBackend backend).retired } := by
  simp only [compile] at compiled
  split at compiled
  · cases compiled
  · obtain ⟨handle, backend, taken, rack⟩ := installProgram_ok compiled
    exact ⟨handle, backend, taken, rack⟩

/-- Giving a program back and taking one keeps what programs keep. -/
theorem compile_closed {P : σ → Prop} (closed : ProgramClosed P) {engine : Engine σ}
    (before : P engine.rack.backend) {text : String} {handle : ProgramHandle} {backend : σ}
    (taken : Backend.compileProgram engine.rack.backend text = (.ok handle, backend)) :
    P (engine.setBackend backend).retired := by
  have after := closed.compile engine.rack.backend text before
  rw [taken] at after
  exact retired_closed closed after

/-- A text whose directives are met is compiled without a look at the channels, and a text that does
not compile anyway. -/
theorem compile_met {engine after : Engine σ} {source : String} {result : Except Error Unit}
    (met : engine.rack.unmet (Directives.ofSource source).textures = [])
    (compiled : engine.compile source = (result, after)) :
    after.rack = { engine.rack with backend := after.rack.backend } ∧
      ∀ P : σ → Prop, ProgramClosed P → P engine.rack.backend → P after.rack.backend := by
  cases result with
  | ok =>
    obtain ⟨_, backend, taken, rack⟩ := compile_rack compiled
    rw [met, List.foldl_nil] at rack
    rw [rack]
    exact ⟨rfl, fun P closed before => compile_closed closed before taken⟩
  | error error =>
    simp only [compile] at compiled
    split at compiled
    · obtain rfl := (Prod.mk.inj compiled).2
      exact ⟨rfl, fun _ _ before => before⟩
    · have untouched := installProgram_error compiled
      refine ⟨untouched.rack, fun P closed before => ?_⟩
      rcases untouched.backend with same | ⟨text, refusal, refused⟩
      · rw [same]
        exact before
      · have after := closed.compile engine.rack.backend text before
        rw [show Backend.compileProgram engine.rack.backend text = _ from refused] at after
        exact after

/-- How the channels follow the directives of a text that compiles. -/
structure Followed [Books σ] (before : Engine σ) (source : String) (after : Engine σ) :
    Prop where
  /-- What the text asks of a channel is what its last line for the channel asks. -/
  last : ∀ directive, directive ∈ (Directives.ofSource source).textures ↔
    (((lines source.toList).filterMap texture?).filter
      (·.channel == directive.channel)).getLast? = some directive
  /-- The program is taken and the one before it is given back; then the channels that do not have
  what is asked of them are bound to it, and no others. -/
  bound : ∃ handle backend,
    Backend.compileProgram before.rack.backend
        (Assembly.ofSource source (Directives.ofSource source).params).text =
      (.ok handle, backend) ∧
    after.rack = (before.rack.unmet (Directives.ofSource source).textures).foldl follow
      { before.rack with backend := (before.setBackend backend).retired }
  /-- No channel is bound twice. -/
  once : (before.rack.unmet (Directives.ofSource source).textures).Pairwise
    (·.channel < ·.channel)
  /-- A channel that has what is asked of it is left alone, and so is one of which nothing is. -/
  kept : ∀ index, before.rack.Meets (Directives.ofSource source).textures index →
    after.rack.slot index = before.rack.slot index
  /-- Nothing is uploaded to such a channel. -/
  untouched : before.rack.Owned → ∀ index,
    before.rack.Meets (Directives.ofSource source).textures index →
      ∀ handle, (before.rack.slot index).texture = some handle →
        Books.record? after.rack.backend handle = Books.record? before.rack.backend handle
  /-- An acquisition that such a channel waits for is neither given up nor asked about. -/
  inFlight : before.rack.view.Tickets → ∀ index,
    before.rack.Meets (Directives.ofSource source).textures index →
      ∀ pending, (before.rack.slot index).pending = some pending →
        after.rack.devices.handoff pending.id = before.rack.devices.handoff pending.id
  /-- The others have what is asked of them now, or they are empty and there is news of it. -/
  settled : ∀ directive ∈ (Directives.ofSource source).textures, ∀ index : Fin 4,
    directive.channel = index.val →
      (before.rack.slot index).request ≠ some (.ofSource directive.source) →
        after.rack.Settled index (.ofSource directive.source) before.rack.events
  /-- All news is about them. -/
  told : Tells ((before.rack.unmet (Directives.ofSource source).textures).map (·.channel))
    before.rack.events after.rack
  /-- When there is no news of a failure, compiling the text again leaves the channels, their live
  inputs and the news alone, and nothing but programs is asked of the backend. -/
  again : (∀ event ∈ after.rack.events.drop before.rack.events.length, event.outcome.isOk) →
    ∀ result later, after.compile source = (result, later) →
      later.rack = { after.rack with backend := later.rack.backend } ∧
        ∀ P : σ → Prop, ProgramClosed P → P after.rack.backend → P later.rack.backend

/-- Compiling a text binds the channels whose directives are not met, and no others. -/
theorem compile_followed [Books σ] {engine after : Engine σ} {source : String}
    (compiled : engine.compile source = (.ok (), after)) : engine.Followed source after := by
  obtain ⟨handle, backend, taken, rack⟩ := compile_rack compiled
  have ordered := Directives.ordered_ofSource source
  have channels := (Directives.formed_ofSource source).channels
  have kept (index : Fin 4)
      (meets : engine.rack.Meets (Directives.ofSource source).textures index) :
      after.rack.slot index = engine.rack.slot index := by
    rw [rack]
    exact follow_slot meets.apart
  have settled (directive : TextureDirective)
      (declared : directive ∈ (Directives.ofSource source).textures) (index : Fin 4)
      (named : directive.channel = index.val)
      (other : (engine.rack.slot index).request ≠ some (.ofSource directive.source)) :
      after.rack.Settled index (.ofSource directive.source) engine.rack.events := by
    rw [rack]
    exact follow_settled (ordered.filter _) ((mem_unmet named).mpr ⟨declared, other⟩) named
  constructor
  case last => exact Directives.mem_textures_iff source
  case bound => exact ⟨handle, backend, taken, rack⟩
  case once => exact ordered.filter _
  case kept => exact kept
  case untouched =>
    intro owned index meets texture held
    obtain ⟨valid, same⟩ := compile_closed (Books.programClosed _) ⟨owned.valid, rfl⟩ taken
    have served : Rack.Owned { engine.rack with backend := (engine.setBackend backend).retired } :=
      ⟨valid, same ▸ owned.ownership⟩
    rw [rack, follow_texture meets.apart served held, same]
  case inFlight =>
    intro tickets index meets pending waits
    have awaits : Awaits index pending.id (engine.rack.devices.handoff pending.id)
        { engine.rack with backend := (engine.setBackend backend).retired } :=
      ⟨tickets, awaited_of_pending waits, rfl⟩
    rw [rack]
    exact (follow_awaits meets.apart awaits).cell
  case settled => exact settled
  case told =>
    rw [rack]
    exact follow_tells (fun directive member => List.mem_map_of_mem member) ⟨[], by simp, by simp⟩
  case again =>
    intro successes result later recompiled
    refine compile_met (unmet_eq_nil channels fun index directive declared named => ?_) recompiled
    by_cases met : (engine.rack.slot index).request = some (.ofSource directive.source)
    · have meets : engine.rack.Meets (Directives.ofSource source).textures index := by
        intro other member here
        rwa [Directives.eq_of_channel member declared (here.trans named.symm)]
      rw [kept index meets]
      exact met
    · rcases settled directive declared index named met with done | ⟨_, news, error, queued, failed⟩
      · exact done
      · have success := successes _ (by rw [queued, List.drop_left]; exact failed)
        cases success

/-- The next input opens later, a picture is bound, and the news of it is fetched. -/
def pictureOps : List Op :=
  [.host (.plan [.pending]), .bind 2 (.pixels ⟨1, 1, opaqueBlack⟩), .takeEvents]

/-- Noise and a microphone; the first line is overruled. -/
def duetSource : String :=
  Session.drawingText "// @texture 1 noise-rgb\n// @texture 0 noise\n// @texture 1 mic 512\n"

/-- The noise is there and the microphone is awaited, the picture stays; and compiling the text once
more makes no texture. -/
theorem compile_followed_duet :
    ∃ start, Engine.new (Headless.new (fun _ => none) 1 1) Devices.none Session.lossOptions =
        (.ok start, start.rack.backend) ∧
      let before := (Session.run ⟨start, none⟩ pictureOps).engine
      let after := (before.compile duetSource).2
      let later := (after.compile duetSource).2
      (before.compile duetSource).1 = .ok () ∧ before.Followed duetSource after ∧
        after.rack.slots.toList.map (·.source.kind) = [.noise, .empty, .image, .empty] ∧
        after.rack.slots.toList.map (·.pending.isSome) = [false, true, false, false] ∧
        after.rack.events.map (·.channel) = [0] ∧
        later.rack = { after.rack with backend := later.rack.backend } ∧
        later.rack.backend.allocations = 3 := by
  obtain ⟨start, made, _⟩ := Engine.new_coherent (fun _ => none) 1 1 Session.lossOptions
  have seen := Engine.observed_of_new made (fun engine =>
      let before := (Session.run ⟨engine, none⟩ pictureOps).engine
      let after := (before.compile duetSource).2
      (((before.compile duetSource).1.isOk, before.rack.events.length),
        (after.rack.slots.toList.map (·.source.kind),
          after.rack.slots.toList.map (·.pending.isSome)),
        (after.rack.events.map fun event => (event.channel, event.outcome.isOk)),
        after.rack.backend.allocations))
    ((true, 0), ([.noise, .empty, .image, .empty], [false, true, false, false]), [(0, true)], 3)
    (by decide +kernel)
  simp only [Prod.mk.injEq] at seen
  refine ⟨start, made, ?_⟩
  dsimp only
  generalize (Session.run ⟨start, none⟩ pictureOps).engine = before at seen ⊢
  obtain ⟨⟨accepted, bare⟩, ⟨kinds, waiting⟩, told, allocations⟩ := seen
  cases answer : before.compile duetSource with
  | mk result after =>
    rw [answer] at accepted kinds waiting told allocations
    cases result with
    | error error => cases accepted
    | ok =>
      have followed := compile_followed answer
      have successes : ∀ event ∈ after.rack.events.drop before.rack.events.length,
          event.outcome.isOk := by
        intro event member
        rw [bare, List.drop_zero] at member
        have listed := List.mem_map_of_mem (f := fun event => (event.channel, event.outcome.isOk))
          member
        rw [told, List.mem_singleton] at listed
        exact (Prod.mk.inj listed).2
      obtain ⟨rack, programs⟩ := followed.again successes _ _ rfl
      have made := programs _ (Headless.programClosed after.rack.backend.textures 3)
        ⟨rfl, allocations⟩
      have channels := congrArg (List.map Prod.fst) told
      rw [List.map_map] at channels
      exact ⟨rfl, followed, kinds, waiting, channels, rack, made.2⟩

end Engine

end LiveFragment
