import LiveFragment.Proofs.Engine.Session
import LiveFragment.Proofs.Uniform.Image

namespace LiveFragment

open LiveFragment.Number LiveFragment.Backend LiveFragment.Channel LiveFragment.Directive
  LiveFragment.Media LiveFragment.Parameter LiveFragment.Program LiveFragment.Uniform

variable {σ : Type} [Backend σ]

/-- A compiled text has a slot for each of its parameters, where the rules place it. -/
theorem Program.compile_slots {backend next : σ} {source : String} {compiled : Compiled}
    (made : compile backend source = (.ok compiled, next)) :
    ∃ layout, Std140 ((Directives.ofSource source).params.map .ofDefinition) layout ∧
      compiled.binding.slots = slotsOf (Directives.ofSource source).params layout ∧
      compiled.binding.blockSize = layout.size := by
  simp only [compile] at made
  split at made
  · cases made
  · rename_i layout laid
    split at made
    · cases made
    · obtain rfl := Except.ok.inj (Prod.mk.inj made).1
      exact ⟨layout, Layout.std140_of_ofDefinitions? laid, rfl, rfl⟩

namespace Engine

/-- The engines that a host can come to, whatever the backend answers. -/
inductive Reached : Engine σ → Prop
  | new {backend next : σ} {devices : Devices} {options : Options} {engine : Engine σ}
      (made : Engine.new backend devices options = (.ok engine, next)) : Reached engine
  | compile {engine : Engine σ} (before : Reached engine) (source : String) :
    Reached (engine.compile source).2
  | setParameter {engine : Engine σ} (before : Reached engine) (name : String)
      (index : Option Nat) (value : Value) : Reached (engine.setParameter name index value).2
  | tick {engine : Engine σ} (before : Reached engine) (now : Nat) (draw : Bool) :
    Reached (engine.tick now draw).2
  | notifyDeviceRestored {engine : Engine σ} (before : Reached engine) :
    Reached engine.notifyDeviceRestored.2
  /-- Channels, time, pointer, size and losses are none of the program's or its parameters'
  business. They may become anything. -/
  | around {engine : Engine σ} (before : Reached engine) (rack : Channel.Rack σ)
      (clock : Clock Double Single) (pointer : Pointer) (standard : Standard)
      (width height : UInt32) (deviceLost : Bool) :
    Reached { engine with rack, clock, pointer, standard, width, height, deviceLost }

/-- The program of an engine, its parameters and the block for their values belong together. -/
structure Prepared (engine : Engine σ) : Prop where
  store : engine.store.Coherent
  declared : ∀ source, engine.lastGoodSource = some source →
    engine.store.definitions = (Directives.ofSource source).params
  active : ∀ active, engine.program = some active →
    ∃ source layout, engine.lastGoodSource = some source ∧
      active.directives = .ofSource source ∧
      Std140 (engine.store.definitions.map .ofDefinition) layout ∧
      active.binding.slots = slotsOf engine.store.definitions layout ∧
      Clean engine.store.definitions layout engine.custom

namespace Prepared

variable {engine : Engine σ}

theorem untouched (prepared : engine.Prepared) {after : Engine σ}
    (untouched : engine.Untouched after) : after.Prepared where
  store := untouched.store ▸ prepared.store
  declared := untouched.store ▸ untouched.lastGoodSource ▸ prepared.declared
  active := by
    rw [untouched.store, untouched.lastGoodSource, untouched.program, untouched.custom]
    exact prepared.active

theorem installProgram (prepared : engine.Prepared) (source : String) (keepValues : Bool) :
    (engine.installProgram source keepValues).2.Prepared := by
  cases installed : engine.installProgram source keepValues with
  | mk result after =>
    cases result with
    | error error => exact prepared.untouched (installProgram_error installed)
    | ok =>
      simp only [Engine.installProgram] at installed
      split at installed
      · cases installed
      · rename_i compiled backend made
        rw [adopt_eq _ keepValues (compile_ok made).1] at installed
        obtain ⟨_, rfl⟩ := Prod.mk.inj installed
        obtain ⟨store, definitions⟩ := store_new prepared.store source keepValues
        obtain ⟨layout, rules, slots, size⟩ := compile_slots made
        constructor
        case store => exact store
        case declared =>
          rintro _ ⟨⟩
          exact definitions
        case active =>
          rintro _ ⟨⟩
          refine ⟨source, layout, rfl, rfl, ?_⟩
          dsimp only [setBackend]
          rw [definitions, size]
          exact ⟨rules, slots, clean_zeros _ layout⟩

theorem compile (prepared : engine.Prepared) (source : String) :
    (engine.compile source).2.Prepared := by
  have noticed := prepared.untouched engine.untouched_noticeLoss
  simp only [Engine.compile]
  split
  · exact noticed
  · exact noticed.installProgram source false

omit [Backend σ] in
theorem setParameter (prepared : engine.Prepared) (name : String) (index : Option Nat)
    (value : Value) : (engine.setParameter name index value).2.Prepared := by
  unfold Engine.setParameter
  split
  · exact prepared
  · rename_i store written
    obtain ⟨sound, same⟩ := prepared.store.set written
    constructor
    case store => exact sound
    case declared => exact fun source compiled => same.trans (prepared.declared source compiled)
    case active => exact same ▸ prepared.active

theorem notifyDeviceRestored (prepared : engine.Prepared) :
    engine.notifyDeviceRestored.2.Prepared := by
  unfold Engine.notifyDeviceRestored
  split
  · exact ⟨prepared.store, prepared.declared, prepared.active⟩
  · dsimp only
    split
    · exact ⟨prepared.store, prepared.declared, fun active running => nomatch running⟩
    · rename_i rack rebuilt
      have bare : Prepared { engine with rack, program := none, deviceLost := false } :=
        ⟨prepared.store, prepared.declared, fun active running => nomatch running⟩
      split
      · exact bare
      · exact bare.installProgram _ true

end Prepared

/-- The parameter block of the next frame. -/
def nextBlock (engine : Engine σ) (active : Active) : Block :=
  active.binding.writeValues engine.store.values engine.custom.beginFrame

/-- What the next frame asks the backend to draw. -/
def nextCall (engine : Engine σ) (active : Active) : DrawCall :=
  ⟨active.binding.handle, engine.standard.bytes, (engine.nextBlock active).bytes,
    engine.rack.textures⟩

/-- What drawing an active program comes to. A drawing that is not wanted still writes the block. -/
structure Drawing (active : Active) (wanted : Bool) (before : Engine σ) (drawn : Bool)
    (after : Engine σ) : Prop where
  program : after.program = before.program
  store : after.store = before.store
  lastGoodSource : after.lastGoodSource = before.lastGoodSource
  custom : after.custom = before.nextBlock active
  asked : wanted = true →
    let answer := Backend.draw before.rack.backend (before.nextCall active)
    drawn = answer.1.isOk ∧ after.rack.backend = answer.2
  spared : wanted = false → drawn = false ∧ after.rack.backend = before.rack.backend

theorem drawing_drawProgram {engine : Engine σ} {active : Active}
    (running : engine.program = some active) (wanted : Bool) :
    Drawing active wanted engine (engine.drawProgram wanted).1 (engine.drawProgram wanted).2 := by
  simp only [drawProgram, running]
  cases wanted with
  | false =>
    exact ⟨running.symm, rfl, rfl, rfl, (fun wrong => by cases wrong), fun _ => ⟨rfl, rfl⟩⟩
  | true =>
    simp only [Bool.not_true, Bool.false_eq_true, if_false]
    split
    all_goals
      rename_i answer
      refine ⟨running.symm, rfl, rfl, rfl, fun _ => ?_, fun wrong => by cases wrong⟩
      rw [nextCall, nextBlock, answer]
      exact ⟨rfl, rfl⟩

namespace Prepared

variable {engine : Engine σ}

omit [Backend σ] in
theorem image (prepared : engine.Prepared) {active : Active}
    (running : engine.program = some active) :
    ∃ source layout, engine.lastGoodSource = some source ∧
      active.directives = .ofSource source ∧
      Std140 (engine.store.definitions.map .ofDefinition) layout ∧
      active.binding.slots = slotsOf engine.store.definitions layout ∧
      Image engine.store.definitions layout engine.store.values (engine.nextBlock active) := by
  obtain ⟨source, layout, compiled, own, rules, slots, clean⟩ := prepared.active active running
  have fresh : Clean engine.store.definitions layout engine.custom.beginFrame :=
    ⟨clean.size, clean.blank⟩
  exact ⟨source, layout, compiled, own, rules, slots,
    image_writeValues prepared.store rules slots fresh rfl⟩

theorem drawProgram (prepared : engine.Prepared) (wanted : Bool) :
    (engine.drawProgram wanted).2.Prepared := by
  cases running : engine.program with
  | none =>
    simp only [Engine.drawProgram, running]
    exact prepared
  | some active =>
    have drawing := drawing_drawProgram running wanted
    obtain ⟨source, layout, compiled, own, rules, slots, image⟩ := prepared.image running
    constructor
    case store => exact drawing.store ▸ prepared.store
    case declared => exact drawing.store ▸ drawing.lastGoodSource ▸ prepared.declared
    case active =>
      intro other still
      rw [drawing.program, running] at still
      obtain rfl := Option.some.inj still
      rw [drawing.store, drawing.lastGoodSource, drawing.custom]
      exact ⟨source, layout, compiled, own, rules, slots, image.toClean⟩

theorem framed (prepared : engine.Prepared) (now : Nat) : (engine.framed now).Prepared := by
  constructor
  all_goals simp only [framed_store, framed_lastGoodSource, framed_program, framed_custom]
  case store => exact prepared.store
  case declared => exact prepared.declared
  case active => exact prepared.active

theorem tick (prepared : engine.Prepared) (now : Nat) (draw : Bool) :
    (engine.tick now draw).2.Prepared := by
  have noticed := prepared.untouched engine.untouched_noticeLoss
  cases lost : engine.noticeLoss.deviceLost with
  | true =>
    simp only [Engine.tick, lost, ↓reduceIte]
    exact noticed
  | false =>
    have after := (noticed.framed now).drawProgram draw
    rw [tick_eq now draw lost]
    exact ⟨after.store, after.declared, after.active⟩

end Prepared

theorem Reached.prepared {engine : Engine σ} (reached : engine.Reached) : engine.Prepared := by
  induction reached with
  | @new backend next devices options engine made =>
    have bare : engine.store = .empty ∧ engine.lastGoodSource = none ∧ engine.program = none := by
      unfold Engine.new at made
      split at made
      · cases made
      · split at made
        · cases made
        · obtain rfl := Except.ok.inj (Prod.mk.inj made).1
          exact ⟨rfl, rfl, rfl⟩
    obtain ⟨store, source, program⟩ := bare
    constructor
    case store => exact store ▸ Store.coherent_empty
    case declared => simp [source]
    case active => simp [program]
  | compile _ source ih => exact ih.compile source
  | setParameter _ name index value ih => exact ih.setParameter name index value
  | tick _ now draw ih => exact ih.tick now draw
  | notifyDeviceRestored _ ih => exact ih.notifyDeviceRestored
  | around _ rack clock pointer standard width height deviceLost ih =>
    exact ⟨ih.store, ih.declared, ih.active⟩

/-- All that the host of an engine can do is covered. -/
theorem Reached.perform {engine : Engine Headless} (reached : engine.Reached) (op : Op) :
    (engine.perform op).Reached := by
  cases op with
  | compile source => exact reached.compile source
  | setParameter name index value => exact reached.setParameter name index value
  | render now => exact reached.tick now true
  | advanceTimeOnly now => exact reached.tick now false
  | notifyDeviceRestored => exact reached.notifyDeviceRestored
  | readPixels order =>
    simp only [Engine.perform, Engine.readPixels]
    split
    · exact reached.around ..
    · split <;> exact reached.around ..
  | _ => exact reached.around ..

theorem Reached.run {session : Session} (reached : session.engine.Reached) (ops : List Op) :
    (session.run ops).engine.Reached := by
  induction ops generalizing session with
  | nil => exact reached
  | cons op rest ih => exact @ih (session.perform op) (reached.perform op)

/-- Whatever was done before, a frame of an active program writes the values of the parameters into
the block, all of them and nothing else, and this block is the one that is drawn with. -/
theorem tick_image {engine : Engine σ} (reached : engine.Reached) {active : Active}
    (running : engine.program = some active) (present : engine.noticeLoss.deviceLost = false)
    (now : Nat) (draw : Bool) :
    let after := (engine.tick now draw).2
    (∃ source layout, engine.lastGoodSource = some source ∧
      engine.store.definitions = (Directives.ofSource source).params ∧
      Std140 (engine.store.definitions.map .ofDefinition) layout ∧
      after.store = engine.store ∧
      Image engine.store.definitions layout engine.store.values after.custom) ∧
    (draw = true →
      ∃ standard,
        let answer := Backend.draw (engine.rack.refresh now).backend
          ⟨active.binding.handle, standard, after.custom.bytes, (engine.rack.refresh now).textures⟩
        (engine.tick now draw).1.drawn = answer.1.isOk ∧ after.rack.backend = answer.2) := by
  have prepared := reached.prepared.untouched engine.untouched_noticeLoss
  have still : (engine.noticeLoss.framed now).program = some active := by
    rw [framed_program]
    exact running
  have drawing := drawing_drawProgram still draw
  obtain ⟨source, layout, compiled, own, rules, slots, image⟩ := (prepared.framed now).image still
  rw [← drawing.custom] at image
  simp only [framed_store, framed_lastGoodSource] at compiled rules image
  have store := drawing.store
  rw [framed_store] at store
  rw [tick_eq now draw present]
  refine ⟨⟨source, layout, compiled, prepared.declared source compiled, rules, store, image⟩, ?_⟩
  intro wanted
  have asked := drawing.asked wanted
  rw [nextCall, ← drawing.custom] at asked
  simp only [framed_rack] at asked
  exact ⟨(engine.noticeLoss.framed now).standard.bytes, asked⟩

/-- A vector, a number in the four bytes behind it and an array, and then a write. -/
def imageOps : List Op :=
  [.compile (Session.drawingText
      "// @param tint vec3 [1 2 3]\n// @param gain float 0.5\n// @param taps float[2]\n"),
    .setParameter "taps" (some 1) (.element (.float .one))]

/-- The number is read behind the vector, though it is written before. -/
theorem tick_image_packed :
    ∃ start, Engine.new (Headless.new (fun _ => none) 1 1) Devices.none Session.lossOptions =
        (.ok start, start.rack.backend) ∧
      let before := (Session.run ⟨start, none⟩ imageOps).engine
      let after := (before.tick 16 true).2
      (∃ source layout, before.lastGoodSource = some source ∧
        before.store.definitions = (Directives.ofSource source).params ∧
        Std140 (before.store.definitions.map .ofDefinition) layout ∧
        after.store = before.store ∧
        Image before.store.definitions layout before.store.values after.custom) ∧
      after.custom.writes = 4 ∧ after.rack.backend.drawn = 1 ∧
        after.custom.float? 0 2 = some (.ofNat 3) ∧ after.custom.float? 32 0 = some .one := by
  obtain ⟨start, made, _⟩ := Engine.new_coherent (fun _ => none) 1 1 Session.lossOptions
  have fresh : (Session.mk start none).engine.Reached := .new made
  have reached := fresh.run imageOps
  have seen := Engine.observed_of_new made (fun engine =>
      let before := (Session.run ⟨engine, none⟩ imageOps).engine
      let after := (before.tick 16 true).2
      ((before.program.isSome, before.noticeLoss.deviceLost), after.custom.writes,
        after.rack.backend.drawn, after.custom.float? 0 2, after.custom.float? 32 0))
    ((true, false), 4, 1, some (.ofNat 3), some .one) (by decide +kernel)
  simp only [Prod.mk.injEq] at seen
  obtain ⟨⟨running, present⟩, rest⟩ := seen
  obtain ⟨active, program⟩ := Option.isSome_iff_exists.mp running
  exact ⟨start, made, (tick_image reached program present 16 true).1, rest⟩

end Engine

end LiveFragment
