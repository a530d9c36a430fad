import LiveFragment.Channel.Rack
import LiveFragment.Engine.Clock
import LiveFragment.Engine.Pointer
import LiveFragment.Parameter.Store
import LiveFragment.Program.Compile

namespace LiveFragment

open LiveFragment.Number LiveFragment.Backend LiveFragment.Channel LiveFragment.Directive
  LiveFragment.Media LiveFragment.Parameter LiveFragment.Program LiveFragment.Uniform

namespace Engine

structure Options where
  width : UInt32
  height : UInt32
  speed : Single
  /-- The time over which the frame rate is measured. -/
  window : Nat
  rack : RackOptions
deriving Inhabited

inductive Error
  | deviceLost
  | backend (error : BackendError)
  | compile (error : CompileError)
  | channel (error : ChannelError)
deriving DecidableEq, Repr

def Error.text : Error → String
  | deviceLost => "GPU device lost; waiting for restoration"
  | backend error => error.text
  | compile error => error.text
  | channel error => error.text

/-- The program that is drawn. -/
structure Active where
  binding : Binding
  directives : Directives
deriving Repr

/-- What one frame reports. -/
structure FrameStats where
  time : Single
  delta : Single
  rate : Single
  frame : UInt64
  beat : Single
  drawn : Bool
deriving DecidableEq, Repr, Inhabited

end Engine

structure Engine (σ : Type) where
  rack : Channel.Rack σ
  program : Option Engine.Active
  store : Store
  lastGoodSource : Option String
  clock : Clock Double Single
  pointer : Pointer
  standard : Standard
  custom : Block
  width : UInt32
  height : UInt32
  deviceLost : Bool

namespace Engine

variable {σ : Type} [Backend σ]

/-- An engine on a backend that takes its size. -/
def new (backend : σ) (devices : Devices) (options : Options) : Except Error (Engine σ) × σ :=
  match Backend.resize backend options.width options.height with
  | (.error error, backend) => (.error (.backend error), backend)
  | (.ok (), backend) =>
    match Channel.Rack.new backend devices options.rack with
    | (.error error, backend) => (.error (.backend error), backend)
    | (.ok rack, backend) =>
      (.ok {
        rack
        program := none
        store := .empty
        lastGoodSource := none
        clock := .new options.speed options.window
        pointer := .none
        standard := .ofSize options.width options.height
        custom := .empty
        width := options.width
        height := options.height
        deviceLost := false }, backend)

def setBackend (engine : Engine σ) (backend : σ) : Engine σ :=
  { engine with rack := { engine.rack with backend } }

/-- Notices a loss of the device. It stays noticed until the device is restored. -/
def noticeLoss (engine : Engine σ) : Engine σ :=
  { engine with deviceLost := engine.deviceLost || Backend.isLost engine.rack.backend }

/-- Binds the channels that directives name, but those that have the same request already. -/
def bindDirectives (rack : Channel.Rack σ) :
    List TextureDirective → Except ChannelError Unit × Channel.Rack σ
  | [] => (.ok (), rack)
  | directive :: rest =>
    let request := Request.ofSource directive.source
    if rack.request? directive.channel = some request then bindDirectives rack rest
    else
      match rack.bind directive.channel request with
      | (.error error, rack) => (.error error, rack)
      | (.ok (), rack) => bindDirectives rack rest

/-- Makes a compiled program the active one. The program before it is released, parameters start
anew or carry their values over, and channels follow the directives. -/
def adopt (engine : Engine σ) (source : String) (keepValues : Bool) (compiled : Compiled) :
    Except Error Unit × Engine σ :=
  let engine :=
    match engine.program with
    | some previous =>
      { engine.setBackend (Backend.releaseProgram engine.rack.backend previous.binding.handle) with
        program := none }
    | none => engine
  let fresh := Store.ofDefinitions compiled.directives.params
  let store := if keepValues then fresh.carryOver engine.store else fresh
  let engine := { engine with store, custom := .zeros compiled.binding.blockSize }
  match bindDirectives engine.rack compiled.directives.textures with
  | (.error error, rack) => (.error (.channel error), { engine with rack })
  | (.ok (), rack) =>
    (.ok (),
      { engine with
        rack
        program := some ⟨compiled.binding, compiled.directives⟩
        lastGoodSource := some source })

/-- Compiles a program and makes it the active one if it compiles. -/
def installProgram (engine : Engine σ) (source : String) (keepValues : Bool) :
    Except Error Unit × Engine σ :=
  match Program.compile engine.rack.backend source with
  | (.error error, backend) =>
    let engine := (engine.setBackend backend).noticeLoss
    (.error (if engine.deviceLost then .deviceLost else .compile error), engine)
  | (.ok compiled, backend) => (engine.setBackend backend).adopt source keepValues compiled

/-- Compiles a program for a device that is there. -/
def compile (engine : Engine σ) (source : String) : Except Error Unit × Engine σ :=
  let engine := engine.noticeLoss
  if engine.deviceLost then (.error .deviceLost, engine)
  else engine.installProgram source false

/-- Writes a parameter; the next frame shows it. -/
def setParameter (engine : Engine σ) (name : String) (index : Option Nat) (value : Value) :
    Except WriteError Unit × Engine σ :=
  match engine.store.set name index value with
  | .error error => (.error error, engine)
  | .ok store => (.ok (), { engine with store })

def bindChannel (engine : Engine σ) (index : Nat) (request : Request) :
    Except ChannelError Unit × Engine σ :=
  let (result, rack) := engine.rack.bind index request
  (result, { engine with rack })

def unbindChannel (engine : Engine σ) (index : Nat) : Except ChannelError Unit × Engine σ :=
  let (result, rack) := engine.rack.unbind index
  (result, { engine with rack })

def takeEvents (engine : Engine σ) : List Event × Engine σ :=
  let (events, rack) := engine.rack.takeEvents
  (events, { engine with rack })

def play (engine : Engine σ) (now : Nat) : Engine σ :=
  { engine with clock := engine.clock.play now }

def pause (engine : Engine σ) (now : Nat) : Engine σ :=
  { engine with clock := engine.clock.pause now }

def reset (engine : Engine σ) (now : Nat) : Engine σ :=
  { engine with clock := engine.clock.reset now }

def seek (engine : Engine σ) (seconds : Double) (now : Nat) : Engine σ :=
  { engine with clock := engine.clock.seek seconds now }

def setSpeed (engine : Engine σ) (speed : Single) (now : Nat) : Engine σ :=
  { engine with clock := engine.clock.setSpeed speed now }

def movePointer (engine : Engine σ) (x y : Single) : Engine σ :=
  { engine with pointer := engine.pointer.move x y }

def pointerButton (engine : Engine σ) (pressed : Bool) : Engine σ :=
  { engine with pointer := engine.pointer.button pressed }

/-- Changes the size of the viewport, if the backend takes it. -/
def resize (engine : Engine σ) (width height : UInt32) : Except Error Unit × Engine σ :=
  match Backend.resize engine.rack.backend width height with
  | (.error error, backend) => (.error (.backend error), engine.setBackend backend)
  | (.ok (), backend) => (.ok (), { engine.setBackend backend with width, height })

/-- The standard inputs of a frame. The date is set from outside. -/
def standardInputs (engine : Engine σ) (tick : Clock.Tick Single) : Standard :=
  { engine.standard.setResolution engine.width engine.height with
    time := tick.time
    delta := tick.delta
    frame := engine.clock.frames.toUInt32
    rate := tick.rate
    beat := engine.rack.beat
    pointer := engine.pointer.uniform (.ofNat engine.height.toNat)
    channels := engine.rack.slots.map (·.resolution) }

/-- Draws the active program, if it is asked for; tells whether something was drawn. -/
def drawProgram (engine : Engine σ) (wanted : Bool) : Bool × Engine σ :=
  match engine.program with
  | none => (false, engine)
  | some program =>
    let custom := program.binding.writeValues engine.store.values engine.custom.beginFrame
    let engine := { engine with custom }
    if !wanted then (false, engine)
    else
      let call : DrawCall :=
        ⟨program.binding.handle, engine.standard.bytes, custom.bytes, engine.rack.textures⟩
      match Backend.draw engine.rack.backend call with
      | (.ok (), backend) => (true, engine.setBackend backend)
      | (.error .deviceLost, backend) =>
        (false, { engine.setBackend backend with deviceLost := true })
      | (.error _, backend) => (false, engine.setBackend backend)

/-- Runs a frame: channels, clock, inputs, drawing. Nothing moves while the device is lost. -/
def tick (engine : Engine σ) (now : Nat) (draw : Bool) : FrameStats × Engine σ :=
  let engine := engine.noticeLoss
  if engine.deviceLost then
    (⟨(engine.clock.timeAt now).toSingle, .zero, engine.clock.rate, engine.clock.frames, .zero,
      false⟩, engine)
  else
    let engine := { engine with rack := engine.rack.refresh now }
    let (tick, clock) := engine.clock.advance now
    let engine := { engine with clock }
    let engine := { engine with standard := engine.standardInputs tick }
    let frame := engine.clock.frames
    let beat := engine.rack.beat
    let (drawn, engine) := engine.drawProgram draw
    (⟨tick.time, tick.delta, tick.rate, frame, beat, drawn⟩,
      { engine with clock := engine.clock.completeFrame })

def render (engine : Engine σ) (now : Nat) : FrameStats × Engine σ := engine.tick now true

/-- Runs a frame without drawing it. -/
def advanceTimeOnly (engine : Engine σ) (now : Nat) : FrameStats × Engine σ :=
  engine.tick now false

/-- Whether something was asked of the engine that ends the program. -/
def isBroken (engine : Engine σ) : Bool :=
  engine.rack.broken || Backend.isBroken engine.rack.backend

/-- Reads back what was drawn last. -/
def readPixels (engine : Engine σ) (order : ScanlineOrder) : Except Error Bytes × Engine σ :=
  let engine := engine.noticeLoss
  if engine.deviceLost then (.error .deviceLost, engine)
  else
    match Backend.readPixels engine.rack.backend order with
    | (.ok pixels, backend) => (.ok pixels, engine.setBackend backend)
    | (.error .deviceLost, backend) =>
      (.error .deviceLost, { engine.setBackend backend with deviceLost := true })
    | (.error error, backend) => (.error (.backend error), engine.setBackend backend)

def notifyDeviceLost (engine : Engine σ) : Engine σ := { engine with deviceLost := true }

/-- Restores the device: its textures, and then the last program that compiled. Parameters keep
their values when its definitions agree with the ones they belong to. -/
def notifyDeviceRestored (engine : Engine σ) : Except Error Unit × Engine σ :=
  match Backend.restore engine.rack.backend with
  | (.error error, backend) => (.error (.backend error), engine.setBackend backend)
  | (.ok (), backend) =>
    let engine := { engine.setBackend backend with program := none }
    match engine.rack.rebuild with
    | (.error error, rack) => (.error (.backend error), { engine with rack })
    | (.ok (), rack) =>
      let engine := { engine with rack, deviceLost := false }
      match engine.lastGoodSource with
      | none => (.ok (), engine)
      | some source => engine.installProgram source true

/-- Gives everything back to the backend. -/
def close (engine : Engine σ) : Engine σ :=
  let engine :=
    match engine.program with
    | some program =>
      { engine.setBackend (Backend.releaseProgram engine.rack.backend program.binding.handle) with
        program := none }
    | none => engine
  { engine with rack := engine.rack.teardownAll }

end Engine

end LiveFragment
