import LiveFragment.Backend.Texture

namespace LiveFragment

namespace Backend

/-- Why a graphics device cannot be had. -/
inductive ConnectFault
  | noAdapter
  | noDevice
deriving DecidableEq, Repr

def ConnectFault.text : ConnectFault → String
  | noAdapter => "failed to find a suitable GPU adapter"
  | noDevice => "failed to create GPU device"

/-- What a graphics device is told to do. -/
inductive Command
  /-- Makes the render target. -/
  | target (width height : UInt32)
  | texture (handle : TextureHandle) (desc : TextureDesc) (pixels : Bytes)
  | update (handle : TextureHandle) (desc : TextureDesc) (pixels : Bytes)
  | destroy (handle : TextureHandle)
  /-- Makes the buffers for both blocks and binds them, the one for parameters with so many bytes. -/
  | buffers (room : Nat)
  /-- Writes the standard inputs. -/
  | standard (block : Bytes)
  /-- Writes the parameters into a buffer of so many bytes. -/
  | custom (room : Nat) (block : Bytes)
  /-- Draws with the program of a text while a parameter buffer of so many bytes is bound. -/
  | draw (text : String) (room : Nat) (channels : Vector TextureHandle 4)
deriving DecidableEq, Repr

end Backend

open Backend

/-- A graphics library, with what it is in the middle of. -/
class Graphics (γ : Type) where
  /-- Finds an adapter and opens a device on it; tells the longest edge of what it draws. -/
  connect : γ → Except ConnectFault UInt32 × γ
  isLost : γ → Bool
  /-- Builds the pipeline of a program that was validated. -/
  link : γ → String → Except String Unit × γ
  /-- Tells whether a command was carried out. An error of one that was not is handled by nobody and
  ends the program. -/
  execute : γ → Command → Bool × γ
  /-- Copies the render target out in padded rows. There is nothing when this ends the program. -/
  copy : γ → UInt32 → UInt32 → Option (Except String Bytes) × γ

end LiveFragment
