import LiveFragment.Config.Decode
import LiveFragment.Json.Reader
import LiveFragment.Toml.Printer
import LiveFragment.Toml.Reader

namespace LiveFragment.Config

open LiveFragment.Number

/-- Why a text gives no usable configuration. -/
inductive Error
  | unreadable (fault : ReadFault)
  | invalid (fault : Invalid)
deriving DecidableEq, Repr

/-- The words for an error, but for texts that are no configurations at all. -/
def Error.message? : Error → Option String
  | unreadable .malformed => none
  | unreadable (.duration fault) => fault.message?
  | invalid fault => some fault.message

/-- A configuration that was read, when it is usable. -/
def check (read : Except ReadFault Config) : Except Error Config :=
  match read with
  | .error fault => .error (.unreadable fault)
  | .ok config =>
    match config.fault? with
    | some fault => .error (.invalid fault)
    | none => .ok config

def readToml (text : String) : Except ReadFault Config :=
  match Toml.read? text with
  | none => .error .malformed
  | some document => ofDocument .toml document

def ofToml (text : String) : Except Error Config := check (readToml text)

/-- A JSON text holds a configuration and nothing else; what is wrong first counts. -/
def readJson (text : String) : Except ReadFault Config :=
  let (document, complete) := Json.read text
  match ofDocument .json document with
  | .error fault => .error fault
  | .ok config => if complete then .ok config else .error .malformed

def ofJson (text : String) : Except Error Config := check (readJson text)

/-- The fields of a configuration, the speed in the given form. -/
def toFields (config : Config) (speed : Document) : List (String × Document) := [
  ("version", .integer config.version.toNat),
  ("viewport", .table [
    ("width", .integer config.viewport.width.toNat),
    ("height", .integer config.viewport.height.toNat)]),
  ("timing", .table [
    ("speed", speed),
    ("fps_window", .text config.timing.window.write)]),
  ("channels", .table [
    ("texture_dir", (config.channels.library.map Document.text).getD .null),
    ("noise_size", .integer config.channels.noiseSize.toNat),
    ("noise_seed", (config.channels.noiseSeed.map fun n => Document.integer n.toNat).getD .null)]),
  ("gpu", .table [
    ("power", .text config.gpu.power.name),
    ("memory", .text config.gpu.memory.name)])]

/-- The text of a configuration file. A seed of `2 ^ 63` or more cannot be written. -/
def toToml? (config : Config) : Option String :=
  if config.channels.noiseSeed.any fun seed => 0x8000000000000000 ≤ seed.toNat then none
  else some (Toml.print (config.toFields (.ofDouble config.timing.speed.toDouble)))

def toJson (config : Config) : String :=
  Json.compact (.table (config.toFields (.ofSingle config.timing.speed)))

end LiveFragment.Config
