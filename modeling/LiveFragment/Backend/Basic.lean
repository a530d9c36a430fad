import LiveFragment.Backend.Error

namespace LiveFragment

namespace Backend

/-- All that one drawing of the whole target needs. -/
structure DrawCall where
  program : ProgramHandle
  standard : Bytes
  custom : Bytes
  channels : Vector TextureHandle 4
deriving Repr, Inhabited

end Backend

open Backend

class Backend (σ : Type) where
  compileProgram : σ → String → Except BackendError ProgramHandle × σ
  releaseProgram : σ → ProgramHandle → σ
  createTexture : σ → TextureDesc → Bytes → Except BackendError TextureHandle × σ
  /-- Replaces the pixels of a texture; the description is the one it was created with. -/
  updateTexture : σ → TextureHandle → TextureDesc → Bytes → Except BackendError Unit × σ
  releaseTexture : σ → TextureHandle → σ
  resize : σ → UInt32 → UInt32 → Except BackendError Unit × σ
  draw : σ → DrawCall → Except BackendError Unit × σ
  readPixels : σ → ScanlineOrder → Except BackendError Bytes × σ
  /-- Builds the device anew after a loss; all handles are invalid then. -/
  restore : σ → Except BackendError Unit × σ
  isLost : σ → Bool
  /-- Whether something was asked of the backend that ends the program. -/
  isBroken : σ → Bool

end LiveFragment
