import LiveFragment.Backend.Basic
import LiveFragment.Channel.Playback
import LiveFragment.Channel.Request
import LiveFragment.Channel.Spectrum
import LiveFragment.Media.Devices
import LiveFragment.Uniform.Standard

namespace LiveFragment.Channel

open LiveFragment.Number LiveFragment.Backend LiveFragment.Media LiveFragment.Uniform

/-- The source of a channel. A stream keeps the newest frame that was pushed and not shown. -/
inductive Source
  | empty
  | image
  | video (playback : Playback)
  | camera (id : Nat)
  | microphone (id : Nat) (analyser : Analyser Single)
  | stream (id : Nat) (latest : Option Frame)
  | noise
deriving Inhabited

namespace Source

def kind : Source → Kind
  | empty => .empty
  | image => .image
  | video _ => .video
  | camera _ => .camera
  | microphone .. => .microphone
  | stream .. => .stream
  | noise => .noise

/-- Stops what feeds the channel from outside. -/
def stop (devices : Devices) : Source → Devices
  | camera id | microphone id _ | stream id _ => devices.stop id
  | empty | image | video _ | noise => devices

end Source

/-- An acquisition in flight. -/
inductive Pending
  | camera (id : Nat)
  | microphone (id : Nat) (size : Nat)
  | stream (id : Nat) (latest : Option Frame)
deriving Inhabited

namespace Pending

def id : Pending → Nat
  | camera id | microphone id _ | stream id _ => id

def kind : Pending → Kind
  | camera _ => .camera
  | microphone .. => .microphone
  | stream .. => .stream

/-- The source that an acquired resource becomes. -/
def source (resource : Nat) : Pending → Source
  | camera _ => .camera resource
  | microphone _ size => .microphone resource (.ofSize .zero size)
  | stream _ latest => .stream resource latest

end Pending

structure Slot where
  source : Source
  pending : Option Pending
  request : Option Request
  texture : Option TextureHandle
  /-- The last upload, from which the texture can be made again. -/
  uploaded : Option (TextureDesc × Bytes)
  resolution : Resolution
deriving Inhabited

namespace Slot

def empty : Slot := ⟨.empty, none, none, none, none, .empty⟩

/-- The slot after an upload. -/
def shows (slot : Slot) (texture : TextureHandle) (desc : TextureDesc) (pixels : Bytes) : Slot :=
  { slot with
    texture := some texture
    uploaded := some (desc, pixels)
    resolution := .ofSize desc.width desc.height }

/-- Shows pixels in a new texture; the old one is released once the new one exists. -/
def allocate {σ : Type} [Backend σ] (slot : Slot) (backend : σ) (desc : TextureDesc)
    (pixels : Bytes) : Except BackendError Unit × Slot × σ :=
  match Backend.createTexture backend desc pixels with
  | (.error error, backend) => (.error error, slot, backend)
  | (.ok texture, backend) =>
    let backend :=
      match slot.texture with
      | some old => Backend.releaseTexture backend old
      | none => backend
    (.ok (), slot.shows texture desc pixels, backend)

/-- Shows pixels. The texture is kept when the pixels have the shape of the last upload. -/
def upload {σ : Type} [Backend σ] (slot : Slot) (backend : σ) (desc : TextureDesc)
    (pixels : Bytes) : Except BackendError Unit × Slot × σ :=
  match slot.texture with
  | none => slot.allocate backend desc pixels
  | some texture =>
    if slot.uploaded.map (·.1) = some desc then
      match Backend.updateTexture backend texture desc pixels with
      | (.error error, backend) => (.error error, slot, backend)
      | (.ok (), backend) => (.ok (), slot.shows texture desc pixels, backend)
    else slot.allocate backend desc pixels

/-- Shows a frame, its bottom row first. -/
def uploadFrame {σ : Type} [Backend σ] (slot : Slot) (backend : σ) (frame : Frame) :
    Except BackendError Unit × Slot × σ :=
  slot.upload backend (.rgba frame.width frame.height)
    (flipRows frame.pixels frame.width.toNat frame.height.toNat)

end Slot

end LiveFragment.Channel
