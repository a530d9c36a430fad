import LiveFragment.Backend.Graphics
import LiveFragment.Channel.Services
import LiveFragment.Files.Tree
import LiveFragment.Picture.Decode

namespace LiveFragment.CommandLine

open LiveFragment.Channel LiveFragment.Files LiveFragment.Media

/-- What a task needs from the machine it runs on: files, places for configurations and a graphics
library. Tasks are written for any monad, so that they run on a machine as well as on a snapshot of
its files. -/
structure Host (γ : Type) (m : Type → Type) where
  /-- Reads a file as text. -/
  read : String → m (Except FileError String)
  /-- Saves a picture, and tells whether it could. -/
  save : String → Frame → m Bool
  /-- The files that channels may show. -/
  pictures : m Disk
  /-- A directory that is named for configurations. -/
  configDirectory : Option String
  home : Option String
  /-- The validator of programs: its log when it does not take a text. -/
  judge : String → Option String
  gpu : γ
  services : Services
  /-- The instant at which frames begin, in nanoseconds of the clock. -/
  start : Nat

/-- Files as they stood at one moment, and the pictures saved since. -/
structure Snapshot where
  files : Tree
  saved : List (List String × Frame)
deriving Repr, Inhabited

namespace Snapshot

/-- Saves a picture under a path whose extension names a format. -/
def save (snapshot : Snapshot) (path : String) (frame : Frame) : Option Snapshot :=
  match Picture.Format.ofPath? path, snapshot.files.place path with
  | some format, .ok names =>
    if format.holds frame then some { snapshot with saved := (names, frame) :: snapshot.saved }
    else none
  | _, _ => none

/-- The picture under a path. -/
def picture? (snapshot : Snapshot) (path : String) : Option Frame :=
  match snapshot.files.place path with
  | .error _ => none
  | .ok names =>
    match snapshot.saved.lookup names, snapshot.files.read path with
    | some frame, _ => some frame
    | none, .ok content => Picture.decode? path content
    | none, .error _ => none

end Snapshot

/-- A machine that is a snapshot. Its files are named relative to the home directory, its programs
were validated before, and its clock stands at zero. -/
def Host.ofSnapshot {γ : Type} (home : String) (configDirectory : Option String) (gpu : γ)
    (services : Services) : Host γ (StateM Snapshot) where
  read path := return (← get).files.readText ((path.dropPrefix (home ++ "/")).toString)
  save path frame := do
    match (← get).save path frame with
    | some snapshot =>
      set snapshot
      return true
    | none => return false
  pictures := return (← get).files.disk
  configDirectory := configDirectory
  home := some home
  judge _ := none
  gpu := gpu
  services := services
  start := 0

end LiveFragment.CommandLine
