import LiveFragment.Channel.Fourier
import LiveFragment.Channel.Noise
import LiveFragment.Channel.Slot

namespace LiveFragment.Channel

open LiveFragment.Number LiveFragment.Backend LiveFragment.Directive LiveFragment.Files
  LiveFragment.Media LiveFragment.Uniform

structure RackOptions where
  library : Option Library
  noiseSize : UInt32
  noiseSeed : Option UInt64
  services : Services
  files : Disk
deriving Inhabited

/-- The four channels of a program. Binding a channel first takes down what it had, so a request
that fails leaves it empty. Acquisitions that take time are picked up by `refresh`, and every
outcome is queued as an event. -/
structure Rack (σ : Type) where
  backend : σ
  devices : Devices
  slots : Vector Slot 4
  /-- The black texture of a channel that has none. -/
  placeholder : TextureHandle
  options : RackOptions
  events : List Event
  /-- A frame had rows outside its bytes; nothing holds after that. -/
  broken : Bool
  /-- The random generators so far. One without a seed shares no entropy with the others. -/
  generators : Nat

def opaqueBlack : Bytes := #[0, 0, 0, 255]

def checkIndex (index : Nat) : Except ChannelError (Fin 4) :=
  if h : index < 4 then .ok ⟨index, h⟩ else .error (.invalidIndex index)

/-- Why a file cannot be shown when it cannot be read. -/
def unread (path : String) : FileError → AcquireError
  | .notFound => .notFound path
  | .permissionDenied => .permissionDenied path
  | _ => .undecodable path

/-- The pixels of a picture file, for a texture. -/
def loadImage (options : RackOptions) (path : String) : Except AcquireError Frame :=
  match options.files.read path with
  | .error error => .error (unread path error)
  | .ok content =>
    match options.services.picture? path content with
    | some frame => .ok frame
    | none => .error (.undecodable path)

/-- The pictures of a file that is played; it has at least one. -/
def loadVideo (options : RackOptions) (path : String) : Except AcquireError Playback :=
  match options.files.read path with
  | .error error => .error (unread path error)
  | .ok content =>
    match options.services.pictures? content with
    | none | some [] => .error (.undecodable path)
    | some frames =>
      .ok (.ofFrames (frames.map fun (frame, delay) => (frame, Playback.delayOf delay)))

/-- The request that a request for a file of the library stands for. -/
def resolveRequest (options : RackOptions) : Request → Except AcquireError Request
  | .library name =>
    match options.library with
    | none => .error (.notFound ("no texture library for '" ++ name ++ "'"))
    | some library =>
      match library.locate options.files.isFile name with
      | .error error => .error error
      | .ok path => .ok (if isVideo path then .video path else .image path)
  | request => .ok request

namespace Rack

variable {σ : Type} [Backend σ]

def new (backend : σ) (devices : Devices) (options : RackOptions) :
    Except BackendError (Rack σ) × σ :=
  match Backend.createTexture backend (.rgba 1 1) opaqueBlack with
  | (.error error, backend) => (.error error, backend)
  | (.ok placeholder, backend) =>
    (.ok ⟨backend, devices, .replicate 4 .empty, placeholder, options, [], false, 0⟩, backend)

abbrev slot (rack : Rack σ) (index : Fin 4) : Slot := rack.slots[index]

def setSlot (rack : Rack σ) (index : Fin 4) (slot : Slot) : Rack σ :=
  { rack with slots := rack.slots.set index slot }

/-- Changes a slot by a step that uses the backend. -/
def onSlot {α : Type} (rack : Rack σ) (index : Fin 4) (step : Slot → σ → α × Slot × σ) :
    α × Rack σ :=
  let (result, slot, backend) := step (rack.slot index) rack.backend
  (result, { rack.setSlot index slot with backend })

def report (rack : Rack σ) (index : Fin 4) (kind : Kind) (outcome : Except AcquireError Unit) :
    Rack σ :=
  { rack with events := rack.events ++ [⟨index.val, kind, outcome⟩] }

/-- Takes a channel down: its source, what is in flight, and its texture. -/
def teardown (rack : Rack σ) (index : Fin 4) : Rack σ :=
  let slot := rack.slot index
  let devices := slot.source.stop rack.devices
  let devices :=
    match slot.pending with
    | some pending => devices.cancel pending.id
    | none => devices
  let backend :=
    match slot.texture with
    | some texture => Backend.releaseTexture rack.backend texture
    | none => rack.backend
  { rack.setSlot index .empty with devices, backend }

def setSource (rack : Rack σ) (index : Fin 4) (source : Source) : Rack σ :=
  rack.setSlot index { rack.slot index with source }

def setPending (rack : Rack σ) (index : Fin 4) (pending : Option Pending) : Rack σ :=
  rack.setSlot index { rack.slot index with pending }

/-- Shows pixels in a channel and makes something its source once they are there. -/
def showing (rack : Rack σ) (index : Fin 4) (source : Source) (desc : TextureDesc)
    (pixels : Bytes) : Except BackendError Unit × Rack σ :=
  match rack.onSlot index fun slot backend => slot.upload backend desc pixels with
  | (.error error, rack) => (.error error, rack)
  | (.ok (), rack) => (.ok (), rack.setSource index source)

/-- Puts a live source into a channel, with a first texture where it needs one. -/
def install (rack : Rack σ) (index : Fin 4) (source : Source) :
    Except BackendError Unit × Rack σ :=
  match source with
  | .microphone _ analyser => rack.showing index source analyser.desc analyser.buffer
  | .stream .. =>
    match rack.showing index source (.rgba 1 1) opaqueBlack with
    | (.error error, rack) => (.error error, rack)
    | (.ok (), rack) =>
      (.ok (), rack.setSlot index { rack.slot index with resolution := .empty })
  | _ => (.ok (), rack.setSource index source)

/-- Shows a frame. Its rows are reversed, for which they have to lie within its bytes. -/
def showFrame (rack : Rack σ) (index : Fin 4) (frame : Frame) :
    Except BackendError Unit × Rack σ :=
  if frame.isWhole then rack.onSlot index fun slot backend => slot.uploadFrame backend frame
  else (.ok (), { rack with broken := true })

def ofBackend (step : Except BackendError Unit × Rack σ) :
    Except AcquireError Unit × Rack σ :=
  (step.1.mapError AcquireError.ofBackend, step.2)

/-- Opens a live input. A resource that is there at once is installed. -/
def openLive (rack : Rack σ) (index : Fin 4) (wanted : Wanted) (pending : Nat → Pending) :
    Except AcquireError Unit × Rack σ :=
  match rack.devices.acquire wanted with
  | (.ready (.error error), devices) => (.error error, { rack with devices })
  | (.ready (.ok id), devices) =>
    ofBackend (install { rack with devices } index ((pending id).source id))
  | (.inFlight id, devices) =>
    (.ok (), setPending { rack with devices } index (some (pending id)))

/-- The generator for the noise of a channel: seeded for the channel where there is a seed, and by
the machine otherwise. -/
def random (rack : Rack σ) (index : Fin 4) : Random :=
  match rack.options.noiseSeed with
  | some seed => rack.options.services.seeded (seed + .ofNat index.val)
  | none => rack.options.services.fresh rack.generators

/-- Starts to acquire what a request asks for. -/
def acquire (rack : Rack σ) (index : Fin 4) (request : Request) :
    Except AcquireError Unit × Rack σ :=
  match resolveRequest rack.options request with
  | .error error => (.error error, rack)
  | .ok (.image path) =>
    match loadImage rack.options path with
    | .error error => (.error error, rack)
    | .ok frame =>
      match rack.showFrame index frame with
      | (.error error, rack) => (.error (.ofBackend error), rack)
      | (.ok (), rack) => (.ok (), rack.setSource index .image)
  | .ok (.video path) =>
    match loadVideo rack.options path with
    | .error error => (.error error, rack)
    | .ok playback => (.ok (), rack.setSource index (.video playback))
  | .ok (.pixels frame) =>
    if !frame.isWellFormed then
      (.error (.decode (toString frame.width ++ "x" ++ toString frame.height ++ " frame with " ++
        toString frame.pixels.size ++ " bytes")), rack)
    else
      match rack.showFrame index frame with
      | (.error error, rack) => (.error (.ofBackend error), rack)
      | (.ok (), rack) => (.ok (), rack.setSource index .image)
  | .ok (.camera device) => rack.openLive index (.camera device) .camera
  | .ok (.microphone size) =>
    if analysisSizes.contains size then rack.openLive index .microphone (.microphone · size)
    else (.error (.deviceUnavailable ("unsupported FFT size " ++ toString size)), rack)
  | .ok (.stream source) => rack.openLive index (.stream source) (.stream · none)
  | .ok (.noise pattern) =>
    let frame := Noise.picture (rack.random index) pattern rack.options.noiseSize
    ofBackend
      (showing { rack with generators := rack.generators + 1 } index .noise
        (.rgba frame.width frame.height) frame.pixels)
  | .ok (.library _) => (.ok (), rack)

/-- Takes a channel down and starts to acquire a request for it. Only a wrong index is an error;
how the acquisition ends is an event. -/
def bind (rack : Rack σ) (index : Nat) (request : Request) :
    Except ChannelError Unit × Rack σ :=
  match checkIndex index with
  | .error error => (.error error, rack)
  | .ok index =>
    match (rack.teardown index).acquire index request with
    | (.ok (), rack) =>
      let rack := rack.setSlot index { rack.slot index with request := some request }
      (.ok (),
        if (rack.slot index).pending.isNone then rack.report index request.kind (.ok ()) else rack)
    | (.error error, rack) =>
      (.ok (), (rack.teardown index).report index request.kind (.error error))

def unbind (rack : Rack σ) (index : Nat) : Except ChannelError Unit × Rack σ :=
  match checkIndex index with
  | .error error => (.error error, rack)
  | .ok index => (.ok (), rack.teardown index)

/-- Picks up the outcome of an acquisition in flight. -/
def pollPending (rack : Rack σ) (index : Fin 4) : Rack σ :=
  match (rack.slot index).pending with
  | none => rack
  | some pending =>
    match rack.devices.poll pending.id with
    | (none, devices) => { rack with devices }
    | (some outcome, devices) =>
      let rack := setPending { rack with devices } index none
      match outcome with
      | .error error => (rack.teardown index).report index pending.kind (.error error)
      | .ok resource =>
        match rack.install index (pending.source resource) with
        | (.ok (), rack) => rack.report index pending.kind (.ok ())
        | (.error error, rack) =>
          (rack.teardown index).report index pending.kind (.error (.ofBackend error))

/-- The new frame of a source that has one, and the source without it. -/
def takeFrame (devices : Devices) (now : Nat) : Source → Option Frame × Source × Devices
  | .video playback =>
    let (frame, playback) := playback.poll now
    (frame, .video playback, devices)
  | .camera id =>
    let (frame, devices) := devices.takeFrame id
    (frame, .camera id, devices)
  | .stream id latest => (latest, .stream id none, devices)
  | source => (none, source, devices)

/-- Shows what a source has to show now. An upload that fails is passed over, and so is a frame that
is not well formed. -/
def refreshSlot (rack : Rack σ) (index : Fin 4) (now : Nat) : Rack σ :=
  match (rack.slot index).source with
  | .microphone id analyser =>
    let (samples, devices) := rack.devices.drain id
    let analyser := analyser.process (Fourier.sound rack.options.services.transform) samples
    let rack := setSource { rack with devices } index (.microphone id analyser)
    (rack.onSlot index fun slot backend =>
      slot.upload backend analyser.desc analyser.buffer).2
  | source =>
    let (frame, source, devices) := takeFrame rack.devices now source
    let rack := setSource { rack with devices } index source
    match frame with
    | none => rack
    | some frame => if frame.isWellFormed then (rack.showFrame index frame).2 else rack

/-- Picks up finished acquisitions and new data of the sources, channel by channel. -/
def refresh (rack : Rack σ) (now : Nat) : Rack σ :=
  (List.finRange 4).foldl (fun rack index => (rack.pollPending index).refreshSlot index now) rack

def takeEvents (rack : Rack σ) : List Event × Rack σ := (rack.events, { rack with events := [] })

/-- Makes the textures of channels again, in order, up to one that the backend refuses. -/
def rebuildSlots (rack : Rack σ) : List (Fin 4) → Except BackendError Unit × Rack σ
  | [] => (.ok (), rack)
  | index :: rest =>
    let slot := { rack.slot index with texture := none }
    match slot.uploaded with
    | none => rebuildSlots (rack.setSlot index slot) rest
    | some (desc, pixels) =>
      match Backend.createTexture rack.backend desc pixels with
      | (.error error, backend) => (.error error, { rack.setSlot index slot with backend })
      | (.ok texture, backend) =>
        let slot := { slot with texture := some texture }
        rebuildSlots { rack.setSlot index slot with backend } rest

/-- Makes all textures again after the backend was restored; the old handles are gone. -/
def rebuild (rack : Rack σ) : Except BackendError Unit × Rack σ :=
  match Backend.createTexture rack.backend (.rgba 1 1) opaqueBlack with
  | (.error error, backend) => (.error error, { rack with backend })
  | (.ok placeholder, backend) =>
    rebuildSlots { rack with backend, placeholder } (List.finRange 4)

/-- Takes all channels down and releases the placeholder. -/
def teardownAll (rack : Rack σ) : Rack σ :=
  let rack := (List.finRange 4).foldl teardown rack
  { rack with backend := Backend.releaseTexture rack.backend rack.placeholder }

/-- Pushes a frame into a stream. It is taken as long as a channel waits for the stream or shows it;
there is no answer for a number that is no stream. -/
def pushStream (rack : Rack σ) (id : Nat) (frame : Frame) : Option Bool × Rack σ :=
  let holds (slot : Slot) : Bool :=
    match slot.source, slot.pending with
    | .stream held _, _ => held == id
    | _, some (.stream held _) => held == id
    | _, _ => false
  let put (slot : Slot) : Slot :=
    match slot.source, slot.pending with
    | .stream .., _ => { slot with source := .stream id (some frame) }
    | _, _ => { slot with pending := some (.stream id (some frame)) }
  match rack.devices.opened[id]? with
  | some (.stream _) =>
    if rack.slots.toList.any holds then
      let slots := rack.slots.map fun slot => if holds slot then put slot else slot
      (some true, { rack with slots })
    else (some false, rack)
  | _ => (none, rack)

/-- The textures of the channels, the placeholder where there is none. -/
def textures (rack : Rack σ) : Vector TextureHandle 4 :=
  rack.slots.map fun slot => slot.texture.getD rack.placeholder

/-- What a program samples in a channel. -/
abbrev sampled (rack : Rack σ) (index : Fin 4) : TextureHandle := rack.textures[index]

def slot? (rack : Rack σ) (index : Nat) : Option Slot := rack.slots.toList[index]?

def request? (rack : Rack σ) (index : Nat) : Option Request := (rack.slot? index).bind (·.request)

/-- The beat of the first channel with a microphone. -/
def beat (rack : Rack σ) : Single :=
  (rack.slots.toList.findSome? fun slot =>
    match slot.source with
    | .microphone _ analyser => some analyser.beat
    | _ => none).getD .zero

end Rack

end LiveFragment.Channel
