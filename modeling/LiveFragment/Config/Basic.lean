import LiveFragment.Duration.Text
import LiveFragment.Number.Style

namespace LiveFragment

open LiveFragment.Number

namespace Config

structure Viewport where
  width : UInt32
  height : UInt32
deriving DecidableEq, Repr, Inhabited

structure Timing where
  speed : Single
  /-- The time over which the frame rate is measured. -/
  window : Duration
deriving DecidableEq, Repr, Inhabited

structure Channels where
  /-- The directory of the texture library. -/
  library : Option String
  noiseSize : UInt32
  noiseSeed : Option UInt64
deriving DecidableEq, Repr, Inhabited

inductive Power
  | low
  | high
deriving DecidableEq, Repr, Inhabited

inductive MemoryUse
  | balanced
  | performance
deriving DecidableEq, Repr, Inhabited

structure Gpu where
  power : Power
  memory : MemoryUse
deriving DecidableEq, Repr, Inhabited

def Power.name : Power → String
  | low => "low"
  | high => "high"

def Power.ofName? (word : String) : Option Power := [low, high].find? fun p => p.name == word

def MemoryUse.name : MemoryUse → String
  | balanced => "balanced"
  | performance => "performance"

def MemoryUse.ofName? (word : String) : Option MemoryUse :=
  [balanced, performance].find? fun m => m.name == word

end Config

structure Config where
  version : UInt32
  viewport : Config.Viewport
  timing : Config.Timing
  channels : Config.Channels
  gpu : Config.Gpu
deriving DecidableEq, Repr, Inhabited

namespace Config

/-- The only version there is. -/
def currentVersion : UInt32 := 1

def maxEdge : UInt32 := 16384

def maxNoiseSize : UInt32 := 4096

def standard : Config where
  version := currentVersion
  viewport := ⟨800, 450⟩
  timing := ⟨.one, .ofWholeSeconds 1⟩
  channels := ⟨none, 256, none⟩
  gpu := ⟨.high, .balanced⟩

/-- Why a configuration is not usable. -/
inductive Invalid
  | version (found : UInt32)
  | emptyViewport (width height : UInt32)
  | largeViewport (width height : UInt32)
  | speed (found : Single)
  | window
  | noiseSize (found : UInt32)
  | library
deriving DecidableEq, Repr

def Invalid.reason : Invalid → String
  | version found =>
    "unsupported config version " ++ toString found ++ "; expected " ++ toString currentVersion
  | emptyViewport width height =>
    "viewport must be non-empty, got " ++ toString width ++ "x" ++ toString height
  | largeViewport width height =>
    "viewport " ++ toString width ++ "x" ++ toString height ++ " exceeds " ++ toString maxEdge ++
      " pixels per edge"
  | speed found =>
    "timing.speed must be a finite value >= 0, got " ++ found.write .message
  | window => "timing.fps_window must be greater than zero"
  | noiseSize found =>
    "channels.noise_size must be within 1..=" ++ toString maxNoiseSize ++ ", got " ++
      toString found
  | library => "channels.texture_dir may not be empty"

def Invalid.message (fault : Invalid) : String := "invalid configuration: " ++ fault.reason

/-- A speed that a clock accepts. -/
def isSpeed (speed : Single) : Bool := speed.isFinite && !speed.isNegative

/-- What is wrong with a configuration, if anything; the first fault counts. -/
def fault? (config : Config) : Option Invalid :=
  let ⟨width, height⟩ := config.viewport
  if config.version ≠ currentVersion then some (.version config.version)
  else if width = 0 ∨ height = 0 then some (.emptyViewport width height)
  else if maxEdge < width ∨ maxEdge < height then some (.largeViewport width height)
  else if !isSpeed config.timing.speed then some (.speed config.timing.speed)
  else if config.timing.window.nanos = 0 then some .window
  else if config.channels.noiseSize = 0 ∨ maxNoiseSize < config.channels.noiseSize then
    some (.noiseSize config.channels.noiseSize)
  else if config.channels.library = some "" then some .library
  else none

/-- Whether two configurations say the same; the two zeros are one speed. -/
def same (left right : Config) : Bool :=
  left.timing.speed.sameNumber right.timing.speed &&
    left = { right with timing := ⟨left.timing.speed, right.timing.window⟩ }

end Config

end LiveFragment
