import LiveFragment.Proofs.Engine.Coherence

namespace LiveFragment

open LiveFragment.Number LiveFragment.Backend LiveFragment.Channel LiveFragment.Directive
  LiveFragment.Media LiveFragment.Parameter LiveFragment.Program LiveFragment.Uniform

namespace Engine

/-- What the host of an engine can do. -/
inductive Op
  | compile (source : String)
  | setParameter (name : String) (index : Option Nat) (value : Value)
  | bind (index : Nat) (request : Request)
  | unbind (index : Nat)
  | takeEvents
  | play (now : Nat)
  | pause (now : Nat)
  | reset (now : Nat)
  | seek (seconds : Double) (now : Nat)
  | setSpeed (speed : Single) (now : Nat)
  | resize (width height : UInt32)
  | movePointer (x y : Single)
  | pointerButton (pressed : Bool)
  | render (now : Nat)
  | advanceTimeOnly (now : Nat)
  | readPixels (order : ScanlineOrder)
  | loseDevice
  | notifyDeviceLost
  | notifyDeviceRestored
  | host (step : HostStep)

def Op.Fits : Op → Prop
  | .bind _ request => request.Fits
  | .host step => step.Fits
  | _ => True

def perform (engine : Engine Headless) : Op → Engine Headless
  | .compile source => (engine.compile source).2
  | .setParameter name index value => (engine.setParameter name index value).2
  | .bind index request => (engine.bindChannel index request).2
  | .unbind index => (engine.unbindChannel index).2
  | .takeEvents => engine.takeEvents.2
  | .play now => engine.play now
  | .pause now => engine.pause now
  | .reset now => engine.reset now
  | .seek seconds now => engine.seek seconds now
  | .setSpeed speed now => engine.setSpeed speed now
  | .resize width height => (engine.resize width height).2
  | .movePointer x y => engine.movePointer x y
  | .pointerButton pressed => engine.pointerButton pressed
  | .render now => (engine.render now).2
  | .advanceTimeOnly now => (engine.advanceTimeOnly now).2
  | .readPixels order => (engine.readPixels order).2
  | .loseDevice => engine.setBackend engine.rack.backend.lose
  | .notifyDeviceLost => engine.notifyDeviceLost
  | .notifyDeviceRestored => engine.notifyDeviceRestored.2
  | .host step => { engine with rack := engine.rack.host step }

/-- The text that an operation makes the last one that compiled. -/
def takes (engine : Engine Headless) : Op → Option String
  | .compile source => if (engine.compile source).1.isOk then some source else none
  | _ => none

/-- Whatever is done, the engine stays coherent, and nothing but a compilation that succeeds changes
the text that it remembers. -/
theorem Coherent.perform {judge : String → Option String} {engine : Engine Headless}
    (coherent : engine.Coherent judge) {op : Op} (fits : op.Fits) :
    (engine.perform op).Coherent judge ∧
      (engine.perform op).lastGoodSource = (engine.takes op).or engine.lastGoodSource := by
  cases op with
  | compile source =>
    obtain ⟨after, last⟩ := coherent.compile source
    refine ⟨after, last.trans ?_⟩
    simp only [takes]
    split <;> rfl
  | setParameter name index value => exact coherent.setParameter name index value
  | bind index request =>
    exact ⟨coherent.withRack (coherent.rack.step (.bind index request) fits), rfl⟩
  | unbind index => exact ⟨coherent.withRack (coherent.rack.step (.unbind index) trivial), rfl⟩
  | takeEvents => exact ⟨coherent.withRack (coherent.rack.step .takeEvents trivial), rfl⟩
  | resize width height => exact ⟨coherent.resize width height, rfl⟩
  | render now => exact coherent.tick now true
  | advanceTimeOnly now => exact coherent.tick now false
  | readPixels order => exact coherent.readPixels order
  | loseDevice => exact ⟨coherent.loseDevice, rfl⟩
  | notifyDeviceRestored => exact coherent.restore
  | host step => exact ⟨coherent.withRack (coherent.rack.step (.host step) fits), rfl⟩
  | _ => exact ⟨{ coherent with }, rfl⟩

theorem new_coherent (judge : String → Option String) (width height : UInt32)
    (options : Options) :
    ∃ start, Engine.new (Headless.new judge width height) Devices.none options =
        (.ok start, start.rack.backend) ∧
      start.Coherent judge ∧ start.lastGoodSource = none := by
  have valid : Books.Valid (Headless.new judge width height) := Headless.valid_new ..
  have queued : Devices.none.Sound := by simp [Devices.Sound, Devices.none]
  cases sized : Backend.resize (Headless.new judge width height) options.width options.height with
  | mk result backend =>
    obtain ⟨rfl, changed⟩ := Prod.mk.inj sized
    obtain ⟨sound, same⟩ := Books.resize options.width options.height valid
    rw [sized] at sound same
    have bare : backend.Still judge [] false := changed ▸ ⟨rfl, rfl, rfl⟩
    obtain ⟨rack, made, coherent, _⟩ :=
      Channel.Rack.new_coherent options.rack sound bare.lost (same.trans rfl) queued
    have still := Channel.Rack.new_backend (Headless.textureClosed judge [] false) Devices.none
      options.rack bare
    rw [made] at still
    refine ⟨⟨rack, none, .empty, none, .new options.speed options.window, .none,
      .ofSize options.width options.height, .empty, options.width, options.height, false⟩, ?_, ?_,
      rfl⟩
    · simp only [Engine.new, sized, made]
    · constructor
      case rack => exact ⟨⟨_, coherent⟩, still.judge, still.programs⟩
      case store => exact Store.coherent_empty
      case declared => exact fun source compiled => by cases compiled
      case fits => exact fun source compiled => by cases compiled
      case accepted => exact fun source compiled => by cases compiled
      case active => exact fun active running => by cases running

/-- What is computed of the engine that is made is so of this one. -/
theorem observed_of_new {β : Type} {judge : String → Option String} {width height : UInt32}
    {options : Options} {start : Engine Headless} {backend : Headless}
    (made : Engine.new (Headless.new judge width height) Devices.none options =
      (.ok start, backend))
    (observe : Engine Headless → β) (found : β)
    (seen : (Engine.new (Headless.new judge width height) Devices.none options).1.toOption.map
      observe = some found) : observe start = found := by
  rw [made] at seen
  exact Option.some.inj seen

/-- What can be relied on in an engine, where `compiled` is the last text that compiled. -/
structure Faithful (judge : String → Option String) (compiled : Option String)
    (engine : Engine Headless) : Prop where
  remembered : engine.lastGoodSource = compiled
  parameters : ∀ source, compiled = some source →
    engine.store.definitions = (Directives.ofSource source).params
  /-- Each definition has one value, and there are no other values. -/
  entries : (engine.store.values.entries.map (·.1)).Perm (engine.store.definitions.map (·.name))
  shaped : ∀ definition ∈ engine.store.definitions,
    ∃ value, engine.store.values.find? definition.name = some value ∧
      value.fits definition.shape definition.length = true
  parsed : ∀ active, engine.program = some active →
    ∃ source, compiled = some source ∧ active.directives = .ofSource source
  /-- The backend has the active program, or none at all. -/
  live : engine.rack.backend.programs = engine.handles
  sampled : ∀ index : Fin 4, engine.rack.sampled index ∈ engine.rack.backend.live
  drawn : engine.program.isSome → engine.noticeLoss.deviceLost = false →
    ∀ now, (engine.render now).1.drawn = true
  /-- A text compiles on a device that is there when its parameters fit into a block and the
  validator takes what is made of it; otherwise it leaves the engine as it was. -/
  compiles : ∀ source, (engine.compile source).1 = .ok () ↔
    engine.noticeLoss.deviceLost = false ∧
      (Layout.ofDefinitions? (Directives.ofSource source).params).isSome ∧
      judge (Program.assembled source) = none
  activates : ∀ source, (engine.compile source).1 = .ok () →
    (engine.compile source).2.program.isSome
  refused : ∀ source, (engine.compile source).1 ≠ .ok () →
    engine.Untouched (engine.compile source).2
  /-- A device that is restored has the last program again. -/
  restores : compiled.isSome →
    engine.notifyDeviceRestored.1 = .ok () ∧ engine.notifyDeviceRestored.2.program.isSome
  intact : engine.rack.broken = false

theorem Coherent.faithful {judge : String → Option String} {engine : Engine Headless}
    (coherent : engine.Coherent judge) : engine.Faithful judge engine.lastGoodSource := by
  obtain ⟨fresh, agreed⟩ := coherent.rack.coherent
  constructor
  case remembered => rfl
  case parameters => exact coherent.declared
  case entries => exact coherent.store.perm
  case shaped => exact fun definition declared => coherent.store.find? declared
  case parsed => exact coherent.active
  case live => exact coherent.rack.programs
  case sampled =>
    intro index
    rw [agreed.accounted.sampled index, Headless.mem_live_iff]
    exact agreed.ownership.sampled_alive index
  case drawn => exact fun active present now => coherent.render_drawn active present now
  case compiles =>
    intro source
    have present (here : engine.noticeLoss.deviceLost = false) : engine.rack.backend.lost = false :=
      (Bool.or_eq_false_iff.mp here).2
    rw [compile_ok_iff, accepts_headless, coherent.rack.judge]
    exact ⟨fun ⟨here, fits, _, taken⟩ => ⟨here, fits, taken⟩,
      fun ⟨here, fits, taken⟩ => ⟨here, fits, present here, taken⟩⟩
  case activates => exact fun source made => compile_active made
  case refused =>
    intro source failed
    cases made : engine.compile source with
    | mk result after =>
      rw [made] at failed
      cases result with
      | ok => exact absurd rfl failed
      | error error => exact compile_untouched made
  case restores =>
    intro before
    obtain ⟨source, compiled⟩ := Option.isSome_iff_exists.mp before
    exact coherent.restore_active compiled
  case intact => exact agreed.intact

end Engine

/-- An engine and the last text that compiled so far. -/
structure Session where
  engine : Engine Headless
  compiled : Option String

namespace Session

def perform (session : Session) (op : Engine.Op) : Session :=
  ⟨session.engine.perform op, (session.engine.takes op).or session.compiled⟩

def run (session : Session) (ops : List Engine.Op) : Session := ops.foldl perform session

/-- The engine is coherent and remembers the text. -/
structure Coherent (judge : String → Option String) (session : Session) : Prop where
  engine : session.engine.Coherent judge
  remembered : session.engine.lastGoodSource = session.compiled

variable {judge : String → Option String} {session : Session}

theorem Coherent.perform (coherent : session.Coherent judge) {op : Engine.Op} (fits : op.Fits) :
    (session.perform op).Coherent judge := by
  obtain ⟨after, last⟩ := coherent.engine.perform fits
  rw [coherent.remembered] at last
  exact ⟨after, last⟩

theorem Coherent.run (coherent : session.Coherent judge) {ops : List Engine.Op}
    (fits : ∀ op ∈ ops, op.Fits) : (session.run ops).Coherent judge := by
  induction ops generalizing session with
  | nil => exact coherent
  | cons op rest ih =>
    have others : ∀ other ∈ rest, other.Fits := fun other member => fits other (by simp [member])
    exact ih (coherent.perform (fits op (by simp))) others

/-- After any operations, an engine can be relied on. -/
theorem run_faithful (judge : String → Option String) (width height : UInt32)
    (options : Engine.Options) {ops : List Engine.Op} (fits : ∀ op ∈ ops, op.Fits) :
    ∃ start, Engine.new (Headless.new judge width height) Devices.none options =
        (.ok start, start.rack.backend) ∧
      let after := Session.run ⟨start, none⟩ ops
      after.engine.Faithful judge after.compiled := by
  obtain ⟨start, made, coherent, bare⟩ := Engine.new_coherent judge width height options
  have session : Coherent judge ⟨start, none⟩ := ⟨coherent, bare⟩
  have after := session.run fits
  refine ⟨start, made, ?_⟩
  dsimp only
  rw [← after.remembered]
  exact after.engine.faithful

def lossOptions : Engine.Options := ⟨64, 32, .one, 1000000000, .bare⟩

/-- A text that draws something, below its directives. -/
def drawingText (directives : String) : String :=
  directives ++ "void mainImage(out vec4 c, in vec2 p) \x7b c = vec4(1.0); \x7d"

/-- A validator that misses what is to be drawn in one text, and takes all others. -/
def misses (source text : String) : Option String :=
  if text = Program.assembled source then some "ERROR: 0:1: no function mainImage\n" else none

/-- A text is refused while a program is drawn, and the device goes and comes back. -/
def lossOps : List Engine.Op :=
  [.compile (drawingText "// @param gain float 0.5\n"), .bind 1 (.pixels ⟨1, 1, opaqueBlack⟩),
    .render 0, .compile "float x;", .loseDevice, .render 16,
    .setParameter "gain" none (.element (.float .one)), .notifyDeviceRestored, .render 32]

/-- The frames before and after the loss are drawn, the one in between is not. -/
theorem run_faithful_loss :
    ∃ start, Engine.new (Headless.new (misses "float x;") 1 1) Devices.none lossOptions =
        (.ok start, start.rack.backend) ∧
      let after := Session.run ⟨start, none⟩ lossOps
      after.engine.Faithful (misses "float x;") after.compiled ∧
        after.compiled = some (drawingText "// @param gain float 0.5\n") ∧
        after.engine.program.isSome ∧ after.engine.rack.backend.drawn = 2 := by
  obtain ⟨start, made, faithful⟩ := run_faithful (misses "float x;") 1 1 lossOptions
    (show ∀ op ∈ lossOps, op.Fits by
      simp [lossOps, Engine.Op.Fits, Request.Fits, Frame.byteCount, UInt64.size])
  have seen := Engine.observed_of_new made (fun engine =>
      let after := Session.run ⟨engine, none⟩ lossOps
      (after.compiled, after.engine.program.isSome, after.engine.rack.backend.drawn))
    (some (drawingText "// @param gain float 0.5\n"), true, 2) (by decide +kernel)
  simp only [Prod.mk.injEq] at seen
  obtain ⟨compiled, active, drawn⟩ := seen
  exact ⟨start, made, faithful, compiled, active, drawn⟩

end Session

end LiveFragment
