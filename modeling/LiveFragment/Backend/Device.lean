import LiveFragment.Backend.Basic
import LiveFragment.Backend.Graphics

namespace LiveFragment

open Backend

namespace Backend

/-- A row of pixels in bytes, counted in a word of 32 bits. -/
def rowBytes (width : UInt32) : UInt32 := width * 4

/-- A row as the device copies it, a multiple of 256 bytes. -/
def paddedRowBytes (width : UInt32) : UInt32 :=
  let row := rowBytes width
  (row / 256 + (if row % 256 = 0 then 0 else 1)) * 256

/-- Whether rows can be copied: what they are padded to holds their pixels. Beyond that both numbers
have run over, and copying ends the program. -/
def copiesRows (width : UInt32) : Bool := width.toNat * 4 ≤ (paddedRowBytes width).toNat

/-- The room that is kept for a picture before its rows are put in, counted in a word of 32 bits. A
picture that needs more grows out of it; where overflow is checked, the program ends instead. -/
def pictureRoom (width height : UInt32) : UInt32 := rowBytes width * height

/-- A picture out of the device's copy: of every padded row its pixels. -/
def unpad (copy : Bytes) (width height : UInt32) : Bytes :=
  let padded := (paddedRowBytes width).toNat
  let row := (rowBytes width).toNat
  ((List.range height.toNat).map fun r => copy.extract (r * padded) (r * padded + row)).foldl
    (· ++ ·) (.emptyWithCapacity (pictureRoom width height).toNat)

/-- The device's copy of a picture as it is given out, its rows in the order that was asked for. -/
def readBack (copy : Bytes) (width height : UInt32) (order : ScanlineOrder) : Bytes :=
  let pixels := unpad copy width height
  match order with
  | .topDown => pixels
  | .bottomUp => flipRows pixels width.toNat height.toNat

/-- The bytes of the buffer for the standard inputs. -/
def standardRoom : Nat := 128

/-- The bytes of the smallest parameter buffer. -/
def leastRoom : Nat := 16

/-- The parameter buffer after a block of some size: it grows with the block, by sixteen bytes at a
time, and never shrinks. -/
def grownRoom (room size : Nat) : Nat :=
  let needed := max size leastRoom
  if room < needed then (needed + 15) / 16 * 16 else room

/-- A backend over a graphics library. -/
structure Device (γ : Type) where
  /-- The validator of programs: its log when it does not take a text. -/
  judge : String → Option String
  gpu : γ
  /-- The longest edge of a texture or render target. -/
  limit : UInt32
  width : UInt32
  height : UInt32
  lastId : Nat
  /-- The programs with the texts that they were built from. -/
  programs : List (ProgramHandle × String)
  textures : List (TextureHandle × TextureDesc)
  /-- The bytes of the parameter buffer. -/
  room : Nat
  /-- An error was handled by nobody, or rows were read that cannot be copied; nothing holds after
  that. -/
  broken : Bool
deriving Inhabited

namespace Device

/-- Why a device cannot be opened. -/
inductive OpenError
  | unconnected (fault : ConnectFault)
  | targetRange (width height limit : UInt32)
deriving DecidableEq, Repr

def OpenError.text : OpenError → String
  | unconnected fault => fault.text
  | targetRange width height limit => targetRangeText width height limit

/-- Whether a device offers a render target of some size. -/
def offers (limit width height : UInt32) : Bool :=
  width ≠ 0 && height ≠ 0 && width ≤ limit && height ≤ limit

variable {γ : Type} [Graphics γ]

def execute (device : Device γ) (command : Command) : Device γ :=
  let (done, gpu) := Graphics.execute device.gpu command
  { device with gpu, broken := device.broken || !done }

/-- Sets up what is needed on a device that was just connected: a render target and the smallest
buffers. -/
def setUp (device : Device γ) : Device γ :=
  ({ device with programs := [], textures := [], room := leastRoom }.execute
    (.target device.width device.height)).execute (.buffers leastRoom)

/-- Opens a device. The adapter is looked for before the size is checked. -/
def new (judge : String → Option String) (gpu : γ) (width height : UInt32) :
    Except OpenError (Device γ) :=
  match Graphics.connect gpu with
  | (.error fault, _) => .error (.unconnected fault)
  | (.ok limit, gpu) =>
    if !offers limit width height then .error (.targetRange width height limit)
    else .ok (setUp ⟨judge, gpu, limit, width, height, 0, [], [], leastRoom, false⟩)

def compileProgram (device : Device γ) (text : String) :
    Except BackendError ProgramHandle × Device γ :=
  if Graphics.isLost device.gpu then (.error .deviceLost, device)
  else
    match device.judge text with
    | some log => (.error (.shaderCompile log), device)
    | none =>
      match Graphics.link device.gpu text with
      | (.error message, gpu) =>
        (.error (.shaderCompile ("ERROR: 0:0: " ++ message ++ "\n")), { device with gpu })
      | (.ok (), gpu) =>
        let handle : ProgramHandle := ⟨device.lastId + 1⟩
        (.ok handle,
          { device with
            gpu
            lastId := device.lastId + 1
            programs := (handle, text) :: device.programs })

def releaseProgram (device : Device γ) (handle : ProgramHandle) : Device γ :=
  { device with programs := device.programs.filter (·.1 ≠ handle) }

def createTexture (device : Device γ) (desc : TextureDesc) (pixels : Bytes) :
    Except BackendError TextureHandle × Device γ :=
  if Graphics.isLost device.gpu then (.error .deviceLost, device)
  else
    match desc.checkPixels pixels with
    | .error error => (.error error, device)
    | .ok () =>
      if device.limit < desc.width ∨ device.limit < desc.height then
        (.error (.texture (.beyondLimit desc.width desc.height device.limit)), device)
      else
        let handle : TextureHandle := ⟨device.lastId + 1⟩
        (.ok handle,
          { device with
            lastId := device.lastId + 1
            textures := (handle, desc) :: device.textures }.execute (.texture handle desc pixels))

def updateTexture (device : Device γ) (handle : TextureHandle) (desc : TextureDesc)
    (pixels : Bytes) : Except BackendError Unit × Device γ :=
  if Graphics.isLost device.gpu then (.error .deviceLost, device)
  else
    match desc.checkPixels pixels with
    | .error error => (.error error, device)
    | .ok () =>
      match device.textures.lookup handle with
      | none => (.error (.texture (.unknown handle)), device)
      | some held =>
        if held ≠ desc then (.error (.texture (.mismatch desc held)), device)
        else (.ok (), device.execute (.update handle desc pixels))

def releaseTexture (device : Device γ) (handle : TextureHandle) : Device γ :=
  match device.textures.lookup handle with
  | none => device
  | some _ =>
    { device with textures := device.textures.filter (·.1 ≠ handle) }.execute (.destroy handle)

/-- Changes the size of the render target; a size that it has already changes nothing. -/
def resize (device : Device γ) (width height : UInt32) : Except BackendError Unit × Device γ :=
  if !offers device.limit width height then
    (.error (.texture (.targetRange width height device.limit)), device)
  else if (width, height) = (device.width, device.height) then (.ok (), device)
  else (.ok (), { device with width, height }.execute (.target width height))

/-- Writes the blocks of a drawing, into larger buffers where the parameters need them. -/
def writeBlocks (device : Device γ) (standard custom : Bytes) : Device γ :=
  let room := grownRoom device.room custom.size
  let device :=
    if device.room < room then { device with room }.execute (.buffers room) else device
  let device := device.execute (.standard standard)
  if custom.isEmpty then device else device.execute (.custom room custom)

/-- Draws. The blocks are written before the program and the textures are looked up. -/
def draw (device : Device γ) (call : DrawCall) : Except BackendError Unit × Device γ :=
  if Graphics.isLost device.gpu then (.error .deviceLost, device)
  else
    let device := device.writeBlocks call.standard call.custom
    match device.programs.lookup call.program with
    | none => (.error (.draw (.unknownProgram call.program)), device)
    | some text =>
      match call.channels.toList.find? fun handle => (device.textures.lookup handle).isNone with
      | some handle => (.error (.draw (.unknownTexture handle)), device)
      | none => (.ok (), device.execute (.draw text device.room call.channels))

/-- Reads the target back, out of the copy that the device makes of it. -/
def readPixels (device : Device γ) (order : ScanlineOrder) :
    Except BackendError Bytes × Device γ :=
  if Graphics.isLost device.gpu then (.error .deviceLost, device)
  else if copiesRows device.width then
    match Graphics.copy device.gpu device.width device.height with
    | (none, gpu) => (.ok #[], { device with gpu, broken := true })
    | (some (.error message), gpu) => (.error (.readback message), { device with gpu })
    | (some (.ok copy), gpu) =>
      (.ok (readBack copy device.width device.height order), { device with gpu })
  else (.ok #[], { device with broken := true })

/-- Opens the device again. Ids go on, and the target keeps its size. -/
def restore (device : Device γ) : Except BackendError Unit × Device γ :=
  match Graphics.connect device.gpu with
  | (.error _, gpu) => (.error .deviceLost, { device with gpu })
  | (.ok limit, gpu) => (.ok (), setUp { device with gpu, limit })

end Device

end Backend

instance {γ : Type} [Graphics γ] : Backend (Device γ) where
  compileProgram := Device.compileProgram
  releaseProgram := Device.releaseProgram
  createTexture := Device.createTexture
  updateTexture := Device.updateTexture
  releaseTexture := Device.releaseTexture
  resize := Device.resize
  draw := Device.draw
  readPixels := Device.readPixels
  restore := Device.restore
  isLost device := Graphics.isLost device.gpu
  isBroken := Device.broken

end LiveFragment
