import LiveFragment.CommandLine.Failure
import LiveFragment.CommandLine.Invocation
import LiveFragment.CommandLine.Schedule

namespace LiveFragment.CommandLine

open LiveFragment.Backend LiveFragment.Channel LiveFragment.Files LiveFragment.Media
  LiveFragment.Number

namespace RenderJob

/-- What is wrong with a job before anything is read. -/
def fault? (job : RenderJob) : Option Failure :=
  if job.frames = 0 then some .noFrames
  else if !isRate job.rate then some (.rate job.rate)
  else (job.speed.filter fun speed => !Config.isSpeed speed).map .speed

/-- The options of the engine: what the job says goes before the configuration. -/
def engineOptions (job : RenderJob) (config : Config) (pictures : Disk)
    (services : Services) : Engine.Options :=
  let size := job.size.getD ⟨config.viewport.width, config.viewport.height⟩
  { width := size.width
    height := size.height
    speed := job.speed.getD config.timing.speed
    window := config.timing.window.nanos
    rack := {
      library := config.channels.library.map Library.mk
      noiseSize := config.channels.noiseSize
      noiseSeed := config.channels.noiseSeed
      services := services
      files := pictures } }

end RenderJob

variable {σ : Type} [Backend σ]

/-- An engine with a compiled program. -/
def startEngine (backend : σ) (options : Engine.Options) (file source : String) :
    Except Failure (Engine σ) :=
  match (Engine.new backend .none options).1 with
  | .error error => .error (.engine error)
  | .ok engine =>
    match engine.compile source with
    | (.error error, _) => .error (.program file error)
    | (.ok (), engine) => .ok engine

/-- Applies assignments in order; the first that does not fit ends it. -/
def assignAll (engine : Engine σ) : List Assignment → Except Failure (Engine σ)
  | [] => .ok engine
  | assignment :: rest =>
    match assignment.apply engine.store with
    | .error fault => .error (.assignment fault)
    | .ok store => assignAll { engine with store } rest

/-- Draws some frames from an index on, in a rendering that started at some instant. -/
def drawFrames (start : Nat) (interval : Duration) (engine : Engine σ) (index : Nat) :
    Nat → Except Failure (Engine σ)
  | 0 => .ok engine
  | count + 1 =>
    match Schedule.instant? start interval index with
    | none => .error .unscheduled
    | some now =>
      let (stats, engine) := engine.render now
      if stats.drawn then drawFrames start interval engine.takeEvents.2 (index + 1) count
      else .error (.undrawn stats.frame)

/-- The picture that a backend has drawn last. -/
def capture (engine : Engine σ) (width height : UInt32) : Except Failure Frame :=
  match engine.readPixels .topDown with
  | (.error error, _) => .error (.engine error)
  | (.ok pixels, engine) =>
    if engine.isBroken then .error .uncopied
    else
      let frame : Frame := ⟨width, height, pixels⟩
      if frame.isWhole then .ok frame else .error .truncated

/-- Renders a job on a backend, the first frame at some instant of the clock. -/
def renderOn (backend : σ) (options : Engine.Options) (start : Nat) (job : RenderJob)
    (source : String) : Except Failure Frame := do
  let engine ← startEngine backend options job.file source
  let engine ← assignAll engine job.assignments
  match Schedule.interval? job.rate with
  | none => .error .unscheduled
  | some interval =>
    let engine ← drawFrames start interval engine 0 job.frames.toNat
    capture engine options.width options.height

end LiveFragment.CommandLine
