import LiveFragment.Engine.Basic
import LiveFragment.Proofs.Directive.Declared

namespace LiveFragment

open LiveFragment.Backend LiveFragment.Channel LiveFragment.Directive LiveFragment.Parameter
  LiveFragment.Program LiveFragment.Uniform

variable {σ : Type} [Backend σ]

namespace Program

/-- The parameters of a text fit into a block, and the backend takes what is made of it. -/
def Accepts (backend : σ) (source : String) : Prop :=
  let definitions := (Directives.ofSource source).params
  (Layout.ofDefinitions? definitions).isSome ∧
    ∃ handle next,
      Backend.compileProgram backend (Assembly.ofSource source definitions).text =
        (.ok handle, next)

/-- The text that a backend is given to compile. -/
def assembled (source : String) : String :=
  (Assembly.ofSource source (Directives.ofSource source).params).text

/-- A compilation fails before the backend is asked, or because the backend refuses. -/
theorem compile_error {backend next : σ} {source : String} {error : CompileError}
    (failed : compile backend source = (.error error, next)) :
    next = backend ∨
      ∃ text refusal, Backend.compileProgram backend text = (.error refusal, next) := by
  simp only [compile] at failed
  split at failed
  · exact .inl (Prod.mk.inj failed).2.symm
  · split at failed
    · rename_i refusal after refused
      obtain rfl := (Prod.mk.inj failed).2
      exact .inr ⟨_, refusal, refused⟩
    · cases failed

/-- A compiled text comes with its own directives and the handle that the backend gave. -/
theorem compile_ok {backend next : σ} {source : String} {compiled : Compiled}
    (made : compile backend source = (.ok compiled, next)) :
    compiled.directives = .ofSource source ∧
      (Layout.ofDefinitions? (Directives.ofSource source).params).isSome ∧
      Backend.compileProgram backend
          (Assembly.ofSource source (Directives.ofSource source).params).text =
        (.ok compiled.binding.handle, next) := by
  simp only [compile] at made
  split at made
  · cases made
  · rename_i layout fits
    split at made
    · cases made
    · rename_i handle after taken
      obtain ⟨same, rfl⟩ := Prod.mk.inj made
      obtain rfl := Except.ok.inj same
      exact ⟨rfl, by rw [fits]; rfl, taken⟩

theorem compile_accepted {backend : σ} {source : String} (accepted : Accepts backend source) :
    ∃ compiled next, compile backend source = (.ok compiled, next) := by
  obtain ⟨fits, handle, next, taken⟩ := accepted
  obtain ⟨layout, laid⟩ := Option.isSome_iff_exists.mp fits
  simp only [compile, laid, taken]
  exact ⟨_, _, rfl⟩

end Program

namespace Engine

/-- All that an engine keeps when a program does not compile. Its backend was asked for nothing, or
it refused one program. -/
structure Untouched (before after : Engine σ) : Prop where
  program : after.program = before.program
  store : after.store = before.store
  lastGoodSource : after.lastGoodSource = before.lastGoodSource
  custom : after.custom = before.custom
  clock : after.clock = before.clock
  pointer : after.pointer = before.pointer
  standard : after.standard = before.standard
  width : after.width = before.width
  height : after.height = before.height
  slots : after.rack.slots = before.rack.slots
  events : after.rack.events = before.rack.events
  devices : after.rack.devices = before.rack.devices
  placeholder : after.rack.placeholder = before.rack.placeholder
  options : after.rack.options = before.rack.options
  broken : after.rack.broken = before.rack.broken
  generators : after.rack.generators = before.rack.generators
  /-- A loss that was noticed stays noticed. -/
  deviceLost : before.deviceLost = true → after.deviceLost = true
  backend : after.rack.backend = before.rack.backend ∨
    ∃ text refusal,
      Backend.compileProgram before.rack.backend text = (.error refusal, after.rack.backend)

theorem untouched_noticeLoss (engine : Engine σ) : engine.Untouched engine.noticeLoss := by
  constructor
  case deviceLost => exact fun lost => by simp [noticeLoss, lost]
  case backend => exact .inl rfl
  all_goals rfl

/-- A backend that refused a program, with a loss noticed or not. -/
theorem untouched_refused (engine : Engine σ) {backend : σ}
    (asked : backend = engine.rack.backend ∨ ∃ text refusal,
      Backend.compileProgram engine.rack.backend text = (.error refusal, backend)) :
    engine.Untouched (engine.setBackend backend).noticeLoss := by
  constructor
  case deviceLost => exact fun lost => by simp [noticeLoss, setBackend, lost]
  case backend => exact asked
  all_goals rfl

theorem bind_ok (rack : Channel.Rack σ) {number : Nat} (real : number < channelCount)
    (request : Request) : (rack.bind number request).1 = .ok () := by
  have named : checkIndex number = .ok ⟨number, real⟩ := dif_pos real
  simp only [Rack.bind, named]
  split <;> rfl

theorem bindDirectives_ok (rack : Channel.Rack σ) {directives : List TextureDirective}
    (channels : ∀ directive ∈ directives, directive.channel < channelCount) :
    (bindDirectives rack directives).1 = .ok () := by
  induction directives generalizing rack with
  | nil => rfl
  | cons directive rest ih =>
    have others : ∀ other ∈ rest, other.channel < channelCount :=
      fun other member => channels other (by simp [member])
    have bound := bind_ok rack (channels directive (by simp)) (.ofSource directive.source)
    simp only [bindDirectives]
    split
    · exact ih rack others
    · split
      · rename_i error after refused
        rw [refused] at bound
        cases bound
      · exact ih _ others

/-- What is kept by binding a channel is kept by binding channels to directives. -/
theorem bindDirectives_induction {P : Channel.Rack σ → Prop} {rack : Channel.Rack σ}
    {directives : List TextureDirective}
    (bound : ∀ (rack : Channel.Rack σ) (directive : TextureDirective), P rack →
      P (rack.bind directive.channel (.ofSource directive.source)).2)
    (before : P rack) : P (bindDirectives rack directives).2 := by
  induction directives generalizing rack with
  | nil => exact before
  | cons directive rest ih =>
    have after := bound rack directive before
    simp only [bindDirectives]
    split
    · exact ih before
    · split
      · rename_i refused
        rwa [refused] at after
      · rename_i accepted
        rw [accepted] at after
        exact ih after

/-- The backend once the program that is drawn is given back. -/
def retired (engine : Engine σ) : σ :=
  match engine.program with
  | some previous => Backend.releaseProgram engine.rack.backend previous.binding.handle
  | none => engine.rack.backend

/-- Adopting a compiled text cannot fail, because its channels exist. -/
theorem adopt_eq (engine : Engine σ) {source : String} {compiled : Compiled} (keepValues : Bool)
    (own : compiled.directives = .ofSource source) :
    engine.adopt source keepValues compiled =
      (.ok (),
        let fresh := Store.ofDefinitions (Directives.ofSource source).params
        { engine with
          rack := (bindDirectives { engine.rack with backend := engine.retired }
            (Directives.ofSource source).textures).2
          program := some ⟨compiled.binding, .ofSource source⟩
          store := if keepValues then fresh.carryOver engine.store else fresh
          lastGoodSource := some source
          custom := .zeros compiled.binding.blockSize }) := by
  have channels := (Directives.formed_ofSource source).channels
  have bound := bindDirectives_ok { engine.rack with backend := engine.retired } channels
  cases active : engine.program
  all_goals
    simp only [retired, active] at bound ⊢
    simp only [adopt, active, own, setBackend]
    split
    · rename_i error after refused
      rw [refused] at bound
      cases bound
    · rename_i after accepted
      rw [accepted]

theorem installProgram_error {engine after : Engine σ} {source : String} {keepValues : Bool}
    {error : Error} (failed : engine.installProgram source keepValues = (.error error, after)) :
    engine.Untouched after := by
  simp only [installProgram] at failed
  split at failed
  · rename_i refusal backend refused
    obtain rfl := (Prod.mk.inj failed).2
    exact engine.untouched_refused (compile_error refused)
  · rename_i compiled backend made
    rw [adopt_eq _ keepValues (compile_ok made).1] at failed
    cases failed

theorem installProgram_ok_iff (engine : Engine σ) (source : String) (keepValues : Bool) :
    (engine.installProgram source keepValues).1 = .ok () ↔
      Program.Accepts engine.rack.backend source := by
  constructor
  · intro installed
    simp only [installProgram] at installed
    split at installed
    · cases installed
    · rename_i compiled backend made
      obtain ⟨_, fits, taken⟩ := compile_ok made
      exact ⟨fits, _, _, taken⟩
  · intro accepted
    obtain ⟨compiled, next, made⟩ := compile_accepted accepted
    simp only [installProgram, made, adopt_eq _ keepValues (compile_ok made).1]

/-- A new program has its own parameters, with the values they had or with new ones. -/
theorem store_new {previous : Store} (before : previous.Coherent) (source : String)
    (keepValues : Bool) :
    let fresh := Store.ofDefinitions (Directives.ofSource source).params
    let store := if keepValues then fresh.carryOver previous else fresh
    store.Coherent ∧ store.definitions = (Directives.ofSource source).params := by
  have formed := Directives.formed_ofSource source
  have fresh := Store.coherent_ofDefinitions formed.distinct formed.shaped
  cases keepValues with
  | false => exact ⟨fresh, rfl⟩
  | true => exact ⟨fresh.carryOver before, Store.carryOver_definitions _ _⟩

theorem installProgram_active {engine : Engine σ} {source : String} {keepValues : Bool}
    (installed : (engine.installProgram source keepValues).1 = .ok ()) :
    (engine.installProgram source keepValues).2.program.isSome := by
  simp only [installProgram] at installed ⊢
  split at installed
  · cases installed
  · rename_i compiled backend made
    simp only [adopt_eq _ keepValues (compile_ok made).1, Option.isSome_some]

theorem compile_untouched {engine after : Engine σ} {source : String} {error : Error}
    (failed : engine.compile source = (.error error, after)) : engine.Untouched after := by
  simp only [compile] at failed
  split at failed
  · obtain rfl := (Prod.mk.inj failed).2
    exact engine.untouched_noticeLoss
  · rename_i present
    have untouched := installProgram_error failed
    have noticed : engine.noticeLoss.deviceLost = engine.deviceLost := by
      simp only [noticeLoss, Bool.or_eq_true, not_or, Bool.not_eq_true] at present ⊢
      simp [present]
    exact { untouched with deviceLost := fun lost => untouched.deviceLost (noticed.trans lost) }

theorem compile_ok_iff (engine : Engine σ) (source : String) :
    (engine.compile source).1 = .ok () ↔
      engine.noticeLoss.deviceLost = false ∧ Program.Accepts engine.rack.backend source := by
  cases lost : engine.noticeLoss.deviceLost with
  | true => simp [compile, lost]
  | false =>
    simp only [compile, lost, Bool.false_eq_true, ↓reduceIte, true_and]
    exact installProgram_ok_iff engine.noticeLoss source false

theorem compile_active {engine : Engine σ} {source : String}
    (made : (engine.compile source).1 = .ok ()) : (engine.compile source).2.program.isSome := by
  have present := ((engine.compile_ok_iff source).mp made).1
  simp only [compile, present, Bool.false_eq_true, ↓reduceIte] at made ⊢
  exact installProgram_active made

/-- A compilation either takes hold or leaves the engine alone, and it takes hold exactly when the
device is there and the backend accepts the program. No text names a channel that cannot be
bound. -/
theorem compile_atomic (engine : Engine σ) (source : String) :
    (∀ error after, engine.compile source = (.error error, after) → engine.Untouched after) ∧
      ((engine.compile source).1 = .ok () ↔
        engine.noticeLoss.deviceLost = false ∧ Program.Accepts engine.rack.backend source) ∧
      ∀ directive ∈ (Directives.ofSource source).textures,
        ∀ (rack : Channel.Rack σ) (request : Request),
          (rack.bind directive.channel request).1 = .ok () := by
  refine ⟨fun _ _ => compile_untouched, engine.compile_ok_iff source, ?_⟩
  intro directive member rack request
  exact bind_ok rack ((Directives.formed_ofSource source).channels directive member) request

end Engine

end LiveFragment
