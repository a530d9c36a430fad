import LiveFragment.CommandLine.Failure
import LiveFragment.CommandLine.Host

namespace LiveFragment.CommandLine

open LiveFragment.Files

/-- A file that may hold the configuration. -/
structure ConfigPlace where
  path : String
  required : Bool
deriving DecidableEq, Repr

namespace ConfigPlace

def fileName : String := "shaderdeck.toml"

/-- The directory for configurations when none is named. -/
def directoryIn (home : String) : String := join (join home ".config") "shaderdeck"

def find (explicit configDirectory home : Option String) : Except Failure ConfigPlace :=
  match explicit, configDirectory.filter (· ≠ ""), home with
  | some path, _, _ => .ok ⟨path, true⟩
  | none, some directory, _ => .ok ⟨join directory fileName, false⟩
  | none, none, some home => .ok ⟨join (directoryIn home) fileName, false⟩
  | none, none, none => .error .noDirectory

/-- The configuration that a place holds, by what its file reads as. -/
def config (place : ConfigPlace) : Except FileError String → Except Failure Config
  | .ok text =>
    match Config.ofToml text with
    | .ok config => .ok config
    | .error error => .error (.config place.path error)
  | .error error =>
    if !place.required && (error = .notFound || error = .notDirectory) then .ok .standard
    else .error (.configUnread place.path error)

end ConfigPlace

/-- Loads the configuration of a stage. -/
def loadConfig {m : Type → Type} [Monad m] (host : Host γ m) (explicit : Option String) :
    m (Except Failure Config) :=
  match ConfigPlace.find explicit host.configDirectory host.home with
  | .error failure => return .error failure
  | .ok place => return place.config (← host.read place.path)

end LiveFragment.CommandLine
