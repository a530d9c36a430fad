import LiveFragment.Backend.Basic

namespace LiveFragment

open Backend

namespace Backend

structure TextureRecord where
  desc : TextureDesc
  pixels : Bytes
  /-- The number of updates since the texture was created. -/
  updates : Nat
deriving DecidableEq, Repr, Inhabited

/-- A backend without a device. It has programs validated, keeps textures and the last drawing for
inspection, and reads back a black picture. -/
structure Headless where
  /-- The validator of programs: its log when it does not take a text. -/
  judge : String → Option String
  /-- The last id given out; programs and textures share the ids. -/
  lastId : Nat
  width : UInt32
  height : UInt32
  programs : List ProgramHandle
  textures : List (TextureHandle × TextureRecord)
  /-- The number of drawings so far. -/
  drawn : Nat
  lastDraw : Option DrawCall
  /-- The number of textures ever created. -/
  allocations : Nat
  lost : Bool
deriving Inhabited

namespace Headless

def new (judge : String → Option String) (width height : UInt32) : Headless where
  judge := judge
  lastId := 0
  width := width
  height := height
  programs := []
  textures := []
  drawn := 0
  lastDraw := none
  allocations := 0
  lost := false

def lose (backend : Headless) : Headless := { backend with lost := true }

def texture? (backend : Headless) (handle : TextureHandle) : Option TextureRecord :=
  backend.textures.lookup handle

def compileProgram (backend : Headless) (text : String) :
    Except BackendError ProgramHandle × Headless :=
  if backend.lost then (.error .deviceLost, backend)
  else
    match backend.judge text with
    | some log => (.error (.shaderCompile log), backend)
    | none =>
      let handle : ProgramHandle := ⟨backend.lastId + 1⟩
      (.ok handle,
        { backend with lastId := backend.lastId + 1, programs := handle :: backend.programs })

def releaseProgram (backend : Headless) (handle : ProgramHandle) : Headless :=
  { backend with programs := backend.programs.filter (· ≠ handle) }

def createTexture (backend : Headless) (desc : TextureDesc) (pixels : Bytes) :
    Except BackendError TextureHandle × Headless :=
  if backend.lost then (.error .deviceLost, backend)
  else
    match desc.checkPixels pixels with
    | .error error => (.error error, backend)
    | .ok () =>
      let handle : TextureHandle := ⟨backend.lastId + 1⟩
      (.ok handle,
        { backend with
          lastId := backend.lastId + 1
          textures := (handle, ⟨desc, pixels, 0⟩) :: backend.textures
          allocations := backend.allocations + 1 })

/-- Replaces the record of a texture. -/
def setTexture (backend : Headless) (handle : TextureHandle) (record : TextureRecord) : Headless :=
  { backend with
    textures := backend.textures.map fun entry =>
      if entry.1 = handle then (handle, record) else entry }

def updateTexture (backend : Headless) (handle : TextureHandle) (desc : TextureDesc)
    (pixels : Bytes) : Except BackendError Unit × Headless :=
  if backend.lost then (.error .deviceLost, backend)
  else
    match desc.checkPixels pixels with
    | .error error => (.error error, backend)
    | .ok () =>
      match backend.texture? handle with
      | none => (.error (.texture (.unknown handle)), backend)
      | some record =>
        if record.desc ≠ desc then (.error (.texture (.mismatch desc record.desc)), backend)
        else (.ok (), backend.setTexture handle ⟨desc, pixels, record.updates + 1⟩)

def releaseTexture (backend : Headless) (handle : TextureHandle) : Headless :=
  { backend with textures := backend.textures.filter (·.1 ≠ handle) }

def resize (backend : Headless) (width height : UInt32) : Except BackendError Unit × Headless :=
  (.ok (), { backend with width, height })

def draw (backend : Headless) (call : DrawCall) : Except BackendError Unit × Headless :=
  if backend.lost then (.error .deviceLost, backend)
  else if !backend.programs.contains call.program then
    (.error (.draw (.unknownProgram call.program)), backend)
  else
    match call.channels.toList.find? fun handle => (backend.texture? handle).isNone with
    | some handle => (.error (.draw (.unknownTexture handle)), backend)
    | none => (.ok (), { backend with drawn := backend.drawn + 1, lastDraw := some call })

def readPixels (backend : Headless) (_ : ScanlineOrder) : Except BackendError Bytes × Headless :=
  if backend.lost then (.error .deviceLost, backend)
  else (.ok (.fill 0 (backend.width.toNat * backend.height.toNat * 4)), backend)

def restore (backend : Headless) : Except BackendError Unit × Headless :=
  (.ok (), { backend with programs := [], textures := [], lost := false })

end Headless

end Backend

instance : Backend Headless where
  compileProgram := Headless.compileProgram
  releaseProgram := Headless.releaseProgram
  createTexture := Headless.createTexture
  updateTexture := Headless.updateTexture
  releaseTexture := Headless.releaseTexture
  resize := Headless.resize
  draw := Headless.draw
  readPixels := Headless.readPixels
  restore := Headless.restore
  isLost := Headless.lost
  isBroken _ := false

end LiveFragment
