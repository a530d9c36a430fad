import LiveFragment.Backend.Texture

namespace LiveFragment.Backend

inductive TextureFault
  | empty (width height : UInt32)
  | wrongLength (desc : TextureDesc) (given : Nat)
  | unknown (handle : TextureHandle)
  | mismatch (given held : TextureDesc)
  /-- A texture larger than the device allows. -/
  | beyondLimit (width height limit : UInt32)
  /-- A render target that the device does not offer. -/
  | targetRange (width height limit : UInt32)
  | other (message : String)
deriving DecidableEq, Repr

inductive DrawFault
  | unknownProgram (handle : ProgramHandle)
  | unknownTexture (handle : TextureHandle)
  | other (message : String)
deriving DecidableEq, Repr

inductive BackendError
  | shaderCompile (log : String)
  | texture (fault : TextureFault)
  | draw (fault : DrawFault)
  | readback (message : String)
  | deviceLost
deriving DecidableEq, Repr

private def sizeText (width height : UInt32) : String := toString width ++ "x" ++ toString height

/-- The words for a render target that the device does not offer. -/
def targetRangeText (width height limit : UInt32) : String :=
  "render target " ++ sizeText width height ++ " is outside the supported range 1..=" ++
    toString limit

namespace TextureFault

def text : TextureFault → String
  | empty width height => "texture must be non-empty, got " ++ sizeText width height
  | wrongLength desc given =>
    "expected " ++ toString desc.byteLength ++ " bytes for " ++ sizeText desc.width desc.height ++
      " " ++ desc.format.name ++ ", got " ++ toString given
  | unknown handle => "unknown texture " ++ handle.text
  | mismatch given held => "update of " ++ given.text ++ " does not match allocation " ++ held.text
  | beyondLimit width height limit =>
    sizeText width height ++ " exceeds the device limit of " ++ toString limit
  | targetRange width height limit => targetRangeText width height limit
  | other message => message

end TextureFault

namespace DrawFault

def text : DrawFault → String
  | unknownProgram handle => "unknown program " ++ handle.text
  | unknownTexture handle => "unknown texture " ++ handle.text
  | other message => message

end DrawFault

namespace BackendError

def text : BackendError → String
  | shaderCompile log => "shader compilation failed:\n" ++ log
  | texture fault => "texture operation failed: " ++ fault.text
  | draw fault => "draw failed: " ++ fault.text
  | readback message => "pixel read-back failed: " ++ message
  | deviceLost => "GPU device lost"

end BackendError

/-- Pixels fit a description when it is not empty and their number is right. -/
def TextureDesc.checkPixels (desc : TextureDesc) (pixels : Bytes) : Except BackendError Unit :=
  if desc.width = 0 ∨ desc.height = 0 then .error (.texture (.empty desc.width desc.height))
  else if pixels.size ≠ desc.byteLength then
    .error (.texture (.wrongLength desc pixels.size))
  else .ok ()

end LiveFragment.Backend
