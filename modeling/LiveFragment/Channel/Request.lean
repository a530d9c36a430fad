import LiveFragment.Channel.Library
import LiveFragment.Directive.Texture
import LiveFragment.Media.Frame

namespace LiveFragment.Channel

open LiveFragment.Directive LiveFragment.Media

/-- What feeds a channel. -/
inductive Kind
  | empty
  | image
  | video
  | camera
  | microphone
  | stream
  | noise
deriving DecidableEq, Repr, Inhabited

namespace Kind

def label : Kind → String
  | empty => "empty"
  | image => "image"
  | video => "video"
  | camera => "camera"
  | microphone => "microphone"
  | stream => "stream"
  | noise => "noise"

end Kind

inductive Request
  | image (path : String)
  /-- A name of the texture library. -/
  | library (name : String)
  | video (path : String)
  | pixels (frame : Frame)
  | camera (device : Option String)
  | microphone (size : Nat)
  | stream (source : String)
  | noise (pattern : Pattern)
deriving DecidableEq, Repr, Inhabited

namespace Request

def ofSource : TextureSource → Request
  | .builtin pattern => .noise pattern
  | .file name => .library name
  | .microphone size => .microphone size

/-- The kind a channel has once the request is granted. -/
def kind : Request → Kind
  | image _ | pixels _ => .image
  | library name => if isVideo name then .video else .image
  | video _ => .video
  | camera _ => .camera
  | microphone _ => .microphone
  | stream _ => .stream
  | noise _ => .noise

end Request

/-- The outcome of an acquisition. -/
structure Event where
  channel : Nat
  kind : Kind
  outcome : Except AcquireError Unit

/-- What is wrong with a call that names a channel. -/
inductive ChannelError
  | invalidIndex (index : Nat)
  | backend (error : Backend.BackendError)
deriving DecidableEq, Repr

def ChannelError.text : ChannelError → String
  | invalidIndex index => "channel index " ++ toString index ++ " is out of range"
  | backend error => error.text

end LiveFragment.Channel
