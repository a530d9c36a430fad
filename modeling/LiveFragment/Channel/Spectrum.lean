import LiveFragment.Backend.Texture
import LiveFragment.Number.Single

namespace LiveFragment.Channel

open LiveFragment.Number LiveFragment.Backend

/-- The arithmetic of sound. -/
structure Sound (R : Type) where
  /-- Silence, and the strength of a frequency that was never heard. -/
  silence : R
  /-- The strengths of the lower half of the frequencies of a block, unless the transform fails. -/
  strengths : List R → Option (List R)
  length_strengths : ∀ {block found}, strengths block = some found →
    found.length = block.length / 2
  /-- A strength carried on from the last block, moved towards the one of this block. -/
  blend : R → R → R
  /-- A strength on the scale of the texture. -/
  loudness : R → UInt8
  /-- A sample on the scale of the texture. -/
  amplitude : R → UInt8

/-- The texture of a microphone: two rows of bytes, the smoothed loudness of each frequency and the
waveform. -/
structure Analyser (R : Type) where
  /-- The number of samples in a block. -/
  size : Nat
  history : List R
  smoothed : List R
  buffer : Bytes
  lowEnergy : Single
  /-- The strength of the last onset in the low frequencies, between zero and one. -/
  beat : Single
deriving Inhabited

namespace Analyser

variable {R : Type}

/-- An analyser that has heard nothing. A block has at least two samples. -/
def ofSize (silence : R) (size : Nat) : Analyser R :=
  let size := max size 2
  let bins := size / 2
  { size
    history := List.replicate size silence
    smoothed := List.replicate bins silence
    buffer := .fill 0 bins ++ Bytes.fill 128 bins
    lowEnergy := .zero
    beat := .zero }

def bins (analyser : Analyser R) : Nat := analyser.size / 2

def desc (analyser : Analyser R) : TextureDesc := .r8 (.ofNat analyser.bins) 2

/-- The last samples of a stream that goes on. A block shorter than the history moves it up. -/
def slide (size : Nat) (history samples : List R) : List R :=
  if size ≤ samples.length then samples.drop (samples.length - size)
  else (history.rotateLeft samples.length).take (size - samples.length) ++ samples

/-- A byte as a part of the largest byte. -/
def share (byte : UInt8) : Single :=
  Single.ofNat byte.toNat / Single.ofNat 255

/-- The mean loudness of the low frequencies. -/
def energy (levels : List UInt8) : Single :=
  (levels.foldl (fun sum level => sum + share level) .zero) / Single.ofNat levels.length

/-- How much of a beat a rise of the energy is: a twelfth of the scale is a whole one. -/
def onset (before now : Single) : Single :=
  let rise := if before.less now then now - before else .zero
  let gained := rise * Single.ofNat 12
  if Single.one.less gained then .one else gained

/-- An onset of this strength is a beat. -/
def threshold : Single := .ofDecimal false ⟨6, -1⟩

/-- The part of a beat that is left one block later. -/
def decay : Single := .ofDecimal false ⟨9, -1⟩

/-- A strong onset is a beat; without one the beat fades. -/
def follow (beat onset : Single) : Single := if onset.less threshold then beat * decay else onset

/-- Hears some samples and draws both rows anew. When the transform fails, the samples are kept and
the rows stay. -/
def process (sound : Sound R) (analyser : Analyser R) (samples : List R) : Analyser R :=
  let history := slide analyser.size analyser.history samples
  match sound.strengths history with
  | none => { analyser with history }
  | some strengths =>
    let smoothed := analyser.smoothed.zipWith sound.blend strengths
    let levels := smoothed.map sound.loudness
    let wave := (history.drop (analyser.size - analyser.bins)).map sound.amplitude
    let low := energy (levels.take (max (analyser.bins / 16) 1))
    { analyser with
      history
      smoothed
      buffer := (levels ++ wave).toArray
      lowEnergy := low
      beat := follow analyser.beat (onset analyser.lowEnergy low) }

end Analyser

end LiveFragment.Channel
