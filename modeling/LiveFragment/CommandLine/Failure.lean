import LiveFragment.Backend.Device
import LiveFragment.CommandLine.Assignment
import LiveFragment.Config.Encode
import LiveFragment.Engine.Basic
import LiveFragment.Files.Tree

namespace LiveFragment.CommandLine

open LiveFragment.Backend LiveFragment.Files LiveFragment.Number

inductive Failure
  | noFrames
  | rate (found : Single)
  | speed (found : Single)
  /-- There is no directory in which a configuration could be looked for. -/
  | noDirectory
  | configUnread (path : String) (error : FileError)
  | config (path : String) (error : Config.Error)
  | sourceUnread (path : String) (error : FileError)
  /-- A program that did not compile; the diagnostic was written before. -/
  | uncompiled (path : String)
  | device (error : Device.OpenError)
  | engine (error : Engine.Error)
  | program (path : String) (error : Engine.Error)
  | assignment (fault : FitFault)
  /-- The instant of a frame lies beyond what the clock can count. -/
  | unscheduled
  | undrawn (frame : UInt64)
  /-- The rows of the picture are too long to be copied out of the device. -/
  | uncopied
  | truncated
  | unwritten (path : String)
deriving DecidableEq, Repr

namespace Failure

/-- The messages, outermost first. What is said about a configuration without a message of its own
is left to the reader of the file. -/
def messages : Failure → List String
  | noFrames => ["--frames must be at least 1"]
  | rate found => ["--fps must be a positive number, got " ++ found.write .message]
  | speed found => ["--speed must be a finite value >= 0, got " ++ found.write .message]
  | noDirectory => ["failed to determine user directories"]
  | configUnread path error => ["failed to read config " ++ path, error.text]
  | config path error => ("failed to load config " ++ path) :: error.message?.toList
  | sourceUnread path error => ["failed to read " ++ path, error.text]
  | uncompiled path => [path ++ " failed to compile"]
  | device error => ["failed to initialise GPU backend", error.text]
  | engine error => [error.text]
  | program path error => [path ++ " failed to compile", error.text]
  | assignment fault => [fault.text]
  | unscheduled => ["the frame rate is too low for the clock"]
  | undrawn frame => ["frame " ++ toString frame ++ " was not drawn"]
  | uncopied => ["the picture is too large to be read back"]
  | truncated => ["read-back returned a truncated frame"]
  | unwritten path => ["failed to write " ++ path]

end Failure

end LiveFragment.CommandLine
