import LiveFragment.Proofs.Backend.Programs
import LiveFragment.Proofs.Channel.Textures
import LiveFragment.Proofs.Engine.Compile

namespace LiveFragment

open LiveFragment.Number LiveFragment.Backend LiveFragment.Channel LiveFragment.Directive
  LiveFragment.Media LiveFragment.Parameter LiveFragment.Program LiveFragment.Uniform

namespace Channel

theorem Request.fits_ofSource (source : TextureSource) : (Request.ofSource source).Fits := by
  cases source <;> trivial

theorem Rack.lost_refresh (rack : Rack Headless) (now : Nat) :
    (rack.refresh now).backend.lost = rack.backend.lost := by
  have closed :=
    Headless.textureClosed rack.backend.judge rack.backend.programs rack.backend.lost
  exact (refresh_backend closed now ⟨rfl, rfl, rfl⟩).lost

/-- A coherent rack whose backend has the given validator and programs. -/
structure Rack.Serves (judge : String → Option String) (programs : List ProgramHandle)
    (rack : Rack Headless) : Prop where
  coherent : ∃ fresh, rack.Coherent fresh
  judge : rack.backend.judge = judge
  programs : rack.backend.programs = programs

namespace Rack.Serves

variable {judge : String → Option String} {programs : List ProgramHandle} {rack : Rack Headless}

theorem valid (serves : rack.Serves judge programs) : Books.Valid rack.backend := by
  obtain ⟨fresh, coherent⟩ := serves.coherent
  exact coherent.valid

theorem withBackend (serves : rack.Serves judge programs) {backend : Headless}
    {others : List ProgramHandle} (valid : backend.Valid)
    (same : backend.texture? = rack.backend.texture?) (judged : backend.judge = judge)
    (holds : backend.programs = others) :
    Rack.Serves judge others { rack with backend } := by
  obtain ⟨fresh, coherent⟩ := serves.coherent
  exact ⟨⟨fresh, coherent.withBackend valid same⟩, judged, holds⟩

theorem step (serves : rack.Serves judge programs) (step : Step) (fits : step.Fits) :
    (rack.step step).Serves judge programs := by
  obtain ⟨fresh, coherent⟩ := serves.coherent
  have watched : Watched.Coherent ⟨rack, fresh⟩ := coherent
  have after := watched.step fits
  rw [Watched.Coherent, Watched.step_rack] at after
  have still := step_backend (Headless.textureClosed judge programs rack.backend.lost) step
    ⟨serves.judge, serves.programs, rfl⟩
  exact ⟨⟨_, after⟩, still.judge, still.programs⟩

theorem bind (serves : rack.Serves judge programs) (index : Nat) {request : Request}
    (fits : request.Fits) : (rack.bind index request).2.Serves judge programs :=
  serves.step (.bind index request) fits

/-- A restored device has no program. -/
theorem rebuild (serves : rack.Serves judge programs) {restored : Headless}
    (back : Backend.restore rack.backend = (.ok (), restored)) :
    ∃ after, Rack.rebuild { rack with backend := restored } = (.ok (), after) ∧
      after.Serves judge [] ∧ after.backend.lost = false := by
  obtain ⟨fresh, coherent⟩ := serves.coherent
  obtain ⟨valid, cleared⟩ := Books.restore_ok serves.valid back
  have empty : restored.Still judge [] false :=
    (Prod.mk.inj back).2 ▸ ⟨serves.judge, rfl, rfl⟩
  obtain ⟨after, rebuilt, made, _⟩ := coherent.rebuild valid empty.lost cleared
  have still : (Rack.rebuild { rack with backend := restored }).2.backend.Still judge [] false :=
    rebuild_backend (Headless.textureClosed judge [] false) empty
  rw [rebuilt] at still
  exact ⟨after, rebuilt, ⟨⟨fresh, made⟩, still.judge, still.programs⟩, still.lost⟩

end Rack.Serves

end Channel

namespace Engine

/-- The handle of the active program, if there is one. -/
def handles (engine : Engine Headless) : List ProgramHandle :=
  (engine.program.map (·.binding.handle)).toList

/-- The parts of an engine agree with each other and with its backend: its parameters are those of
the last text that compiled, its backend has the active program and no other, and what it draws with
is alive. -/
structure Coherent (judge : String → Option String) (engine : Engine Headless) : Prop where
  rack : engine.rack.Serves judge engine.handles
  store : engine.store.Coherent
  declared : ∀ source, engine.lastGoodSource = some source →
    engine.store.definitions = (Directives.ofSource source).params
  fits : ∀ source, engine.lastGoodSource = some source →
    (Layout.ofDefinitions? (Directives.ofSource source).params).isSome
  accepted : ∀ source, engine.lastGoodSource = some source →
    judge (Program.assembled source) = none
  active : ∀ active, engine.program = some active →
    ∃ source, engine.lastGoodSource = some source ∧ active.directives = .ofSource source

/-- With a backend that refuses a program by doing nothing, only the flag of the loss can change. -/
theorem Untouched.headless {engine after : Engine Headless} (untouched : engine.Untouched after) :
    after = { engine with deviceLost := after.deviceLost } := by
  have backend : after.rack.backend = engine.rack.backend := by
    rcases untouched.backend with same | ⟨text, refusal, refused⟩
    · exact same
    · exact Headless.compileProgram_error refused
  have rack : after.rack = engine.rack := by
    rw [Channel.Rack.mk.injEq]
    exact ⟨backend, untouched.devices, untouched.slots, untouched.placeholder, untouched.options,
      untouched.events, untouched.broken, untouched.generators⟩
  rw [Engine.mk.injEq]
  exact ⟨rack, untouched.program, untouched.store, untouched.lastGoodSource, untouched.clock,
    untouched.pointer, untouched.standard, untouched.custom, untouched.width, untouched.height, rfl⟩

theorem retired_keeps {σ : Type} [Backend σ] [Books σ] (engine : Engine σ)
    (valid : Books.Valid engine.rack.backend) :
    Books.Valid engine.retired ∧
      Books.record? engine.retired = Books.record? engine.rack.backend := by
  unfold retired
  split
  · exact Books.releaseProgram _ valid
  · exact ⟨valid, rfl⟩

theorem retired_judge (engine : Engine Headless) :
    engine.retired.judge = engine.rack.backend.judge := by
  unfold retired
  split <;> rfl

/-- An engine as it comes to draw a frame. -/
def framed {σ : Type} [Backend σ] (engine : Engine σ) (now : Nat) : Engine σ :=
  let (tick, clock) := engine.clock.advance now
  let rack := engine.rack.refresh now
  { engine with rack, clock, standard := standardInputs { engine with rack, clock } tick }

@[simp]
theorem framed_rack {σ : Type} [Backend σ] (engine : Engine σ) (now : Nat) :
    (engine.framed now).rack = engine.rack.refresh now := by
  simp only [framed]

@[simp]
theorem framed_program {σ : Type} [Backend σ] (engine : Engine σ) (now : Nat) :
    (engine.framed now).program = engine.program := by
  simp only [framed]

@[simp]
theorem framed_lastGoodSource {σ : Type} [Backend σ] (engine : Engine σ) (now : Nat) :
    (engine.framed now).lastGoodSource = engine.lastGoodSource := by
  simp only [framed]

@[simp]
theorem framed_store {σ : Type} [Backend σ] (engine : Engine σ) (now : Nat) :
    (engine.framed now).store = engine.store := by
  simp only [framed]

@[simp]
theorem framed_custom {σ : Type} [Backend σ] (engine : Engine σ) (now : Nat) :
    (engine.framed now).custom = engine.custom := by
  simp only [framed]

theorem tick_eq {σ : Type} [Backend σ] {engine : Engine σ} (now : Nat) (draw : Bool)
    (present : engine.noticeLoss.deviceLost = false) :
    engine.tick now draw =
      let framed := engine.noticeLoss.framed now
      let tick := (engine.noticeLoss.clock.advance now).1
      let drawing := framed.drawProgram draw
      (⟨tick.time, tick.delta, tick.rate, framed.clock.frames, framed.rack.beat, drawing.1⟩,
        { drawing.2 with clock := drawing.2.clock.completeFrame }) := by
  simp only [Engine.tick, present, Bool.false_eq_true, ↓reduceIte, framed]

/-- A backend without a device takes a text exactly when its parameters fit into a block, the device
is there and the validator takes what is made of it. -/
theorem accepts_headless {backend : Headless} {source : String} :
    Program.Accepts backend source ↔
      (Layout.ofDefinitions? (Directives.ofSource source).params).isSome ∧
        backend.lost = false ∧ backend.judge (Program.assembled source) = none := by
  constructor
  · rintro ⟨fits, handle, next, taken⟩
    obtain ⟨present, accepted⟩ := Headless.compileProgram_some taken
    exact ⟨fits, present, accepted⟩
  · rintro ⟨fits, present, accepted⟩
    exact ⟨fits, Headless.compileProgram_present present accepted⟩

namespace Coherent

variable {judge : String → Option String} {engine : Engine Headless}

theorem withRack (coherent : engine.Coherent judge) {rack : Channel.Rack Headless}
    (serves : rack.Serves judge engine.handles) : Coherent judge { engine with rack } where
  rack := serves
  store := coherent.store
  declared := coherent.declared
  fits := coherent.fits
  accepted := coherent.accepted
  active := coherent.active

/-- A backend that changes neither its programs nor its textures. -/
theorem withBackend (coherent : engine.Coherent judge) {backend : Headless} (valid : backend.Valid)
    (same : backend.texture? = engine.rack.backend.texture?)
    (judged : backend.judge = engine.rack.backend.judge)
    (programs : backend.programs = engine.rack.backend.programs) :
    (engine.setBackend backend).Coherent judge :=
  coherent.withRack
    (coherent.rack.withBackend valid same (judged.trans coherent.rack.judge)
      (programs.trans coherent.rack.programs))

theorem withLoss (coherent : engine.Coherent judge) (deviceLost : Bool) :
    Coherent judge { engine with deviceLost } :=
  { coherent with }

theorem untouched (coherent : engine.Coherent judge) {after : Engine Headless}
    (untouched : engine.Untouched after) : after.Coherent judge := by
  rw [untouched.headless]
  exact coherent.withLoss after.deviceLost

theorem setParameter (coherent : engine.Coherent judge) (name : String) (index : Option Nat)
    (value : Value) :
    (engine.setParameter name index value).2.Coherent judge ∧
      (engine.setParameter name index value).2.lastGoodSource = engine.lastGoodSource := by
  unfold Engine.setParameter
  split
  · exact ⟨coherent, rfl⟩
  · rename_i store written
    obtain ⟨sound, same⟩ := coherent.store.set written
    have whole : Coherent judge { engine with store } :=
      { rack := coherent.rack
        store := sound
        declared := fun source compiled => same.trans (coherent.declared source compiled)
        fits := coherent.fits
        accepted := coherent.accepted
        active := coherent.active }
    exact ⟨whole, rfl⟩

/-- The program before is given back, so that the new one is alone. -/
theorem retired_programs (coherent : engine.Coherent judge) {backend : Headless}
    {handle : ProgramHandle}
    (programs : backend.programs = handle :: engine.rack.backend.programs)
    (new : handle ∉ engine.rack.backend.programs) :
    (engine.setBackend backend).retired.programs = [handle] := by
  have held := coherent.rack.programs
  simp only [handles] at held
  cases active : engine.program with
  | none =>
    rw [active] at held
    simp only [retired, setBackend, active]
    rw [programs, held]
    rfl
  | some previous =>
    rw [active] at held
    simp only [retired, setBackend, active]
    change backend.programs.filter (· ≠ previous.binding.handle) = [handle]
    have other : handle ≠ previous.binding.handle := by
      rintro rfl
      exact new (by simp [held])
    rw [programs, held]
    simp [other]

/-- A new program is the only one, and channels that follow its directives leave it there. -/
theorem serves_new (coherent : engine.Coherent judge) {text : String} {handle : ProgramHandle}
    {backend : Headless}
    (taken : Backend.compileProgram engine.rack.backend text = (.ok handle, backend))
    (directives : List TextureDirective) :
    Channel.Rack.Serves judge [handle]
      (bindDirectives { engine.rack with backend := (engine.setBackend backend).retired }
        directives).2 := by
  obtain ⟨judged, programs, new⟩ := Headless.compileProgram_ok coherent.rack.valid taken
  obtain ⟨valid, same⟩ := Books.compileProgram text coherent.rack.valid
  rw [taken] at valid same
  obtain ⟨kept, records⟩ := retired_keeps (engine.setBackend backend) valid
  have alone := coherent.rack.withBackend kept (records.trans same)
    ((retired_judge (engine.setBackend backend)).trans (judged.trans coherent.rack.judge))
    (coherent.retired_programs programs new)
  apply bindDirectives_induction _ alone
  intro rack directive before
  exact before.bind directive.channel (Request.fits_ofSource directive.source)

/-- A program that is installed is the one that the engine is about. -/
theorem install (coherent : engine.Coherent judge) {source : String} {keepValues : Bool}
    {after : Engine Headless}
    (installed : engine.installProgram source keepValues = (.ok (), after)) :
    after.Coherent judge ∧ after.lastGoodSource = some source := by
  simp only [installProgram] at installed
  split at installed
  · cases installed
  · rename_i compiled backend made
    obtain ⟨own, fits, taken⟩ := compile_ok made
    rw [adopt_eq _ keepValues own] at installed
    obtain ⟨_, rfl⟩ := Prod.mk.inj installed
    obtain ⟨store, definitions⟩ := store_new coherent.store source keepValues
    refine ⟨?_, rfl⟩
    constructor
    case rack => exact coherent.serves_new taken (Directives.ofSource source).textures
    case store => exact store
    case declared =>
      rintro _ ⟨⟩
      exact definitions
    case fits =>
      rintro _ ⟨⟩
      exact fits
    case accepted =>
      rintro _ ⟨⟩
      exact coherent.rack.judge ▸ (Headless.compileProgram_some taken).2
    case active =>
      rintro _ ⟨⟩
      exact ⟨source, rfl, rfl⟩

theorem installProgram (coherent : engine.Coherent judge) (source : String) (keepValues : Bool) :
    (engine.installProgram source keepValues).2.Coherent judge ∧
      (engine.installProgram source keepValues).2.lastGoodSource =
        if (engine.installProgram source keepValues).1.isOk then some source
        else engine.lastGoodSource := by
  cases installed : engine.installProgram source keepValues with
  | mk result after =>
    cases result with
    | error error =>
      have untouched := installProgram_error installed
      exact ⟨coherent.untouched untouched, untouched.lastGoodSource⟩
    | ok => exact coherent.install installed

theorem compile (coherent : engine.Coherent judge) (source : String) :
    (engine.compile source).2.Coherent judge ∧
      (engine.compile source).2.lastGoodSource =
        if (engine.compile source).1.isOk then some source else engine.lastGoodSource := by
  have noticed : engine.noticeLoss.Coherent judge := coherent.withLoss _
  simp only [Engine.compile]
  split
  · exact ⟨noticed, rfl⟩
  · exact noticed.installProgram source false

/-- A restored engine goes on with the last text, whether it compiles again or not. -/
theorem restore (coherent : engine.Coherent judge) :
    engine.notifyDeviceRestored.2.Coherent judge ∧
      engine.notifyDeviceRestored.2.lastGoodSource = engine.lastGoodSource := by
  cases back : Backend.restore engine.rack.backend with
  | mk result restored =>
    obtain ⟨rfl, _⟩ := Prod.mk.inj back
    obtain ⟨rack, rebuilt, serves, _⟩ := coherent.rack.rebuild back
    simp only [notifyDeviceRestored, back, setBackend, rebuilt]
    have bare : Coherent judge { engine with rack, program := none, deviceLost := false } :=
      { rack := serves
        store := coherent.store
        declared := coherent.declared
        fits := coherent.fits
        accepted := coherent.accepted
        active := by simp }
    split
    · exact ⟨bare, rfl⟩
    · rename_i source compiled
      obtain ⟨whole, last⟩ := bare.installProgram source true
      refine ⟨whole, last.trans ?_⟩
      split
      · exact compiled.symm
      · rfl

theorem restore_active (coherent : engine.Coherent judge) {source : String}
    (compiled : engine.lastGoodSource = some source) :
    engine.notifyDeviceRestored.1 = .ok () ∧ engine.notifyDeviceRestored.2.program.isSome := by
  cases back : Backend.restore engine.rack.backend with
  | mk result restored =>
    obtain ⟨rfl, _⟩ := Prod.mk.inj back
    obtain ⟨rack, rebuilt, serves, present⟩ := coherent.rack.rebuild back
    have accepted : Program.Accepts rack.backend source :=
      accepts_headless.mpr ⟨coherent.fits source compiled, present,
        serves.judge ▸ coherent.accepted source compiled⟩
    simp only [notifyDeviceRestored, back, setBackend, rebuilt, compiled]
    have installed := (installProgram_ok_iff
      { engine with rack, program := none, deviceLost := false } source true).mpr accepted
    rw [compiled] at installed
    exact ⟨installed, installProgram_active installed⟩

theorem afterDraw (coherent : engine.Coherent judge) {call : DrawCall}
    {result : Except BackendError Unit} {backend : Headless}
    (drawn : Backend.draw engine.rack.backend call = (result, backend)) :
    (engine.setBackend backend).Coherent judge := by
  obtain ⟨valid, same⟩ := Books.draw call coherent.rack.valid
  have answer : engine.rack.backend.draw call = (result, backend) := drawn
  obtain ⟨judged, programs⟩ := Headless.draw_programs engine.rack.backend call
  rw [drawn] at valid same
  rw [answer] at judged programs
  exact coherent.withBackend valid same judged programs

theorem drawProgram (coherent : engine.Coherent judge) (wanted : Bool) :
    (engine.drawProgram wanted).2.Coherent judge ∧
      (engine.drawProgram wanted).2.lastGoodSource = engine.lastGoodSource := by
  unfold Engine.drawProgram
  split
  · exact ⟨coherent, rfl⟩
  · rename_i program active
    dsimp only
    split
    · exact ⟨{ coherent with }, rfl⟩
    · split
      · rename_i accepted
        exact ⟨{ coherent.afterDraw accepted with }, rfl⟩
      · rename_i lost
        exact ⟨{ coherent.afterDraw lost with }, rfl⟩
      · rename_i refused
        exact ⟨{ coherent.afterDraw refused with }, rfl⟩

theorem drawn (coherent : engine.Coherent judge) (active : engine.program.isSome)
    (present : engine.rack.backend.lost = false) : (engine.drawProgram true).1 = true := by
  obtain ⟨program, running⟩ := Option.isSome_iff_exists.mp active
  obtain ⟨fresh, agreed⟩ := coherent.rack.coherent
  have held : program.binding.handle ∈ engine.rack.backend.programs := by
    rw [coherent.rack.programs, handles, running]
    exact List.mem_singleton.mpr rfl
  have alive : ∀ handle ∈ engine.rack.textures.toList,
      (engine.rack.backend.texture? handle).isSome := by
    intro handle listed
    obtain ⟨index, rfl⟩ := Rack.exists_sampled listed
    rw [agreed.accounted.sampled index]
    exact agreed.ownership.sampled_alive index
  have granted {standard custom : Bytes} {result : Except BackendError Unit} {backend : Headless}
      (answer : Backend.draw engine.rack.backend
        ⟨program.binding.handle, standard, custom, engine.rack.textures⟩ = (result, backend)) :
      result = .ok () :=
    (congrArg Prod.fst answer).symm.trans (Headless.draw_ok present held alive)
  simp only [Engine.drawProgram, running, Bool.not_true, Bool.false_eq_true, ↓reduceIte]
  split
  · rfl
  · rename_i refused
    cases granted refused
  · rename_i refused
    cases granted refused

theorem framed (coherent : engine.Coherent judge) (now : Nat) :
    (engine.framed now).Coherent judge := by
  have refreshed := coherent.rack.step (.refresh now) trivial
  exact { coherent.withRack refreshed with }

theorem tick (coherent : engine.Coherent judge) (now : Nat) (draw : Bool) :
    (engine.tick now draw).2.Coherent judge ∧
      (engine.tick now draw).2.lastGoodSource = engine.lastGoodSource := by
  have noticed : engine.noticeLoss.Coherent judge := coherent.withLoss _
  cases lost : engine.noticeLoss.deviceLost with
  | true =>
    simp only [Engine.tick, lost, ↓reduceIte]
    exact ⟨noticed, rfl⟩
  | false =>
    obtain ⟨after, last⟩ := (noticed.framed now).drawProgram draw
    rw [framed_lastGoodSource] at last
    rw [tick_eq now draw lost]
    exact ⟨{ after with }, last⟩

/-- A frame of an active program is drawn, whatever happened before. -/
theorem render_drawn (coherent : engine.Coherent judge) (active : engine.program.isSome)
    (present : engine.noticeLoss.deviceLost = false) (now : Nat) :
    (engine.render now).1.drawn = true := by
  have noticed : engine.noticeLoss.Coherent judge := coherent.withLoss _
  have here : engine.rack.backend.lost = false := (Bool.or_eq_false_iff.mp present).2
  have still : (engine.noticeLoss.framed now).rack.backend.lost = false := by
    rw [framed_rack, Channel.Rack.lost_refresh]
    exact here
  rw [render, tick_eq now true present]
  apply (noticed.framed now).drawn _ still
  rw [framed_program]
  exact active

theorem loseDevice (coherent : engine.Coherent judge) :
    (engine.setBackend engine.rack.backend.lose).Coherent judge := by
  have valid : engine.rack.backend.Valid := coherent.rack.valid
  exact coherent.withBackend ⟨valid.distinct, valid.textures, valid.programs⟩ rfl rfl rfl

theorem resize (coherent : engine.Coherent judge) (width height : UInt32) :
    (engine.resize width height).2.Coherent judge := by
  obtain ⟨valid, same⟩ := Books.resize width height coherent.rack.valid
  exact { coherent.withBackend valid same rfl rfl with }

theorem readPixels (coherent : engine.Coherent judge) (order : ScanlineOrder) :
    (engine.readPixels order).2.Coherent judge ∧
      (engine.readPixels order).2.lastGoodSource = engine.lastGoodSource := by
  have noticed : engine.noticeLoss.Coherent judge := coherent.withLoss _
  have after {result : Except BackendError Bytes} {backend : Headless}
      (answer : Backend.readPixels engine.rack.backend order = (result, backend)) :
      (engine.noticeLoss.setBackend backend).Coherent judge := by
    have same : backend = engine.rack.backend :=
      (congrArg Prod.snd answer).symm.trans (Headless.readPixels_backend _ order)
    rw [same]
    exact noticed
  unfold Engine.readPixels
  dsimp only
  split
  · exact ⟨noticed, rfl⟩
  · split
    · rename_i read
      exact ⟨after read, rfl⟩
    · rename_i lost
      exact ⟨{ after lost with }, rfl⟩
    · rename_i refused
      exact ⟨after refused, rfl⟩

end Coherent

end Engine

end LiveFragment
