import Mathlib.Data.List.DropRight
import LiveFragment.Channel.Fourier
import LiveFragment.Channel.Plain

namespace LiveFragment.Channel

open LiveFragment.Number LiveFragment.Backend

section Ends

variable {α : Type} {list more : List α} {count fewer : Nat}

theorem length_rtake (enough : count ≤ list.length) : (list.rtake count).length = count := by
  rw [List.rtake, List.length_drop]
  omega

theorem rtake_rtake (le : fewer ≤ count) : (list.rtake count).rtake fewer = list.rtake fewer := by
  rw [List.rtake, List.rtake, List.rtake, List.length_drop, List.drop_drop]
  congr 1
  omega

/-- What is cut off at the front does not matter to the end of what goes on. -/
theorem rtake_append_rtake :
    (list.rtake count ++ more).rtake count = (list ++ more).rtake count := by
  have cut : list.rtake count ++ more = (list ++ more).drop (list.length - count) := by
    rw [List.rtake, List.drop_append_of_le_length (Nat.sub_le ..)]
  rw [cut, List.rtake, List.rtake, List.length_drop, List.length_append, List.drop_drop]
  congr 1
  omega

theorem rtake_replicate (le : fewer ≤ count) (value : α) :
    (List.replicate count value).rtake fewer = List.replicate fewer value := by
  rw [List.rtake, List.drop_replicate, List.length_replicate]
  congr 1
  omega

end Ends

/-- The transform does not fail. -/
def Transform.Total (transform : Transform) : Prop :=
  ∀ block : List Single, block ≠ [] → (transform.magnitudes block).isSome

/-- The transform of a block does not fail, and silence is in the middle of the scale. -/
structure Sound.Lawful {R : Type} (sound : Sound R) : Prop where
  succeeds : ∀ block : List R, block ≠ [] → (sound.strengths block).isSome
  silent : sound.amplitude sound.silence = 128

theorem Fourier.lawful {transform : Transform} (total : transform.Total) :
    (Fourier.sound transform).Lawful where
  succeeds block filled := by
    have heard : weighted block ≠ [] := by
      rw [← List.length_pos_iff, weighted, List.length_mapIdx]
      exact List.length_pos_iff.mpr filled
    exact (Option.isSome_map ..).trans (total _ heard)
  silent := by
    simp only [Fourier.sound]
    decide +kernel

theorem Halving.total : discrete.Total := by
  intro block filled
  have some' : block.isEmpty = false := by simpa using filled
  simp [discrete, magnitudes, some']

namespace Analyser

variable {R : Type} (sound : Sound R)

/-- An analyser that has heard some blocks. -/
def heard (size : Nat) (blocks : List (List R)) : Analyser R :=
  blocks.foldl (process sound) (ofSize sound.silence size)

theorem heard_concat (size : Nat) (blocks : List (List R)) (block : List R) :
    heard sound size (blocks ++ [block]) = (heard sound size blocks).process sound block := by
  rw [heard, List.foldl_append]
  rfl

/-- All the sound up to now, with as much silence before it as fills the history. -/
def stream (size : Nat) (blocks : List (List R)) : List R :=
  List.replicate size sound.silence ++ blocks.flatten

/-- A block that fills the history replaces it, and a shorter one moves it up. -/
theorem slide_eq {size : Nat} {history : List R} (full : history.length = size)
    (samples : List R) : slide size history samples = (history ++ samples).rtake size := by
  unfold slide
  split
  · rename_i long
    have cut : (history ++ samples).length - size = history.length + (samples.length - size) := by
      rw [List.length_append]
      omega
    rw [List.rtake, cut, List.drop_length_add_append]
  · rename_i short
    have moved : (history.rotateLeft samples.length).take (size - samples.length) =
        history.drop samples.length := by
      simp only [List.rotateLeft]
      split
      · have nothing : samples.length = 0 := by omega
        rw [nothing, Nat.sub_zero, List.drop_zero, ← full, List.take_length]
      · rw [Nat.mod_eq_of_lt (by omega), List.take_append_of_le_length, List.take_of_length_le]
        all_goals
          rw [List.length_drop]
          omega
    have cut : (history ++ samples).length - size = samples.length := by
      rw [List.length_append]
      omega
    rw [moved, List.rtake, cut, List.drop_append_of_le_length (by omega)]

variable {sound}

theorem process_desc (analyser : Analyser R) (samples : List R) :
    (analyser.process sound samples).desc = analyser.desc := by
  simp only [process]
  split <;> rfl

/-- What an analyser of some size keeps of a stream, whether or not its transforms fail. -/
structure Keeps (size : Nat) (stream : List R) (analyser : Analyser R) : Prop where
  enough : size ≤ stream.length
  sized : analyser.size = size
  history : analyser.history = stream.rtake size
  smoothed : analyser.smoothed.length = size / 2
  buffer : analyser.buffer.size = 2 * (size / 2)

theorem keeps_ofSize {size : Nat} (least : 2 ≤ size) :
    Keeps size (stream sound size []) (ofSize sound.silence size) := by
  have silent : stream sound size [] = List.replicate size sound.silence := by
    rw [stream, List.flatten_nil, List.append_nil]
  rw [silent, ofSize, Nat.max_eq_left least]
  constructor
  case enough => exact Nat.le_of_eq List.length_replicate.symm
  case sized => rfl
  case history => rw [rtake_replicate (Nat.le_refl size)]
  case smoothed => exact List.length_replicate
  case buffer =>
    rw [Array.size_append, Bytes.fill, Bytes.fill, Array.size_replicate, Array.size_replicate,
      Nat.two_mul]

namespace Keeps

variable {size : Nat} {stream : List R} {analyser : Analyser R}

theorem byteLength (keeps : Keeps size stream analyser) (narrow : size / 2 < UInt32.size) :
    analyser.desc.byteLength = analyser.buffer.size := by
  have width : (UInt32.ofNat (size / 2)).toNat = size / 2 := UInt32.toNat_ofNat_of_lt narrow
  have small : size / 2 * 2 * 1 < UInt64.size := by
    have bound : UInt32.size * 2 < UInt64.size := by decide
    omega
  rw [keeps.buffer, desc, bins, keeps.sized, TextureDesc.r8, TextureDesc.byteLength]
  simp only [width, PixelFormat.bytesPerPixel]
  rw [show (2 : UInt32).toNat = 2 from rfl, Nat.mod_eq_of_lt small]
  omega

theorem enough_append (keeps : Keeps size stream analyser) (samples : List R) :
    size ≤ (stream ++ samples).length := by
  rw [List.length_append]
  exact Nat.le_add_right_of_le keeps.enough

theorem slid (keeps : Keeps size stream analyser) (samples : List R) :
    slide analyser.size analyser.history samples = (stream ++ samples).rtake size := by
  have full : analyser.history.length = size := by
    rw [keeps.history, length_rtake keeps.enough]
  rw [keeps.sized, slide_eq full, keeps.history, rtake_append_rtake]

theorem drawn (keeps : Keeps size stream analyser) (samples : List R) :
    ((stream ++ samples).rtake size).drop (analyser.size - analyser.bins) =
      (stream ++ samples).rtake (size / 2) := by
  have whole := length_rtake (keeps.enough_append samples)
  rw [← rtake_rtake (Nat.div_le_self size 2), bins, keeps.sized]
  generalize (stream ++ samples).rtake size = history at whole ⊢
  rw [List.rtake, whole]

theorem process (sound : Sound R) (keeps : Keeps size stream analyser) (samples : List R) :
    Keeps size (stream ++ samples) (analyser.process sound samples) := by
  have enough := keeps.enough_append samples
  rw [Analyser.process, keeps.slid samples]
  dsimp only
  cases heard : sound.strengths ((stream ++ samples).rtake size) with
  | none => exact ⟨enough, keeps.sized, rfl, keeps.smoothed, keeps.buffer⟩
  | some strengths =>
    have length : strengths.length = size / 2 := by
      rw [sound.length_strengths heard, length_rtake enough]
    have wave : ((stream ++ samples).rtake (size / 2)).length = size / 2 :=
      length_rtake ((Nat.div_le_self size 2).trans enough)
    have smoothed : (analyser.smoothed.zipWith sound.blend strengths).length = size / 2 := by
      rw [List.length_zipWith, keeps.smoothed, length, Nat.min_self]
    refine ⟨enough, keeps.sized, rfl, smoothed, ?_⟩
    dsimp only
    rw [List.size_toArray, List.length_append, List.length_map, smoothed, List.length_map,
      keeps.drawn, wave, Nat.two_mul]

theorem waveform (keeps : Keeps size stream analyser) {samples strengths : List R}
    (heard : sound.strengths ((stream ++ samples).rtake size) = some strengths) :
    (analyser.process sound samples).buffer.toList.drop (size / 2) =
      ((stream ++ samples).rtake (size / 2)).map sound.amplitude := by
  have length : strengths.length = size / 2 := by
    rw [sound.length_strengths heard, length_rtake (keeps.enough_append samples)]
  have row : ((analyser.smoothed.zipWith sound.blend strengths).map sound.loudness).length =
      size / 2 := by
    rw [List.length_map, List.length_zipWith, keeps.smoothed, length, Nat.min_self]
  rw [Analyser.process, keeps.slid samples]
  simp only [heard, keeps.drawn]
  exact List.drop_left' row

end Keeps

variable (sound)

/-- All blocks together move it on by what they hold. -/
theorem keeps_heard {size : Nat} (least : 2 ≤ size) (blocks : List (List R)) :
    Keeps size (stream sound size blocks) (heard sound size blocks) := by
  induction blocks using List.reverseRecOn with
  | nil => exact keeps_ofSize least
  | append_singleton blocks block ih =>
    have next := ih.process sound block
    rwa [stream, List.append_assoc, ← List.flatten_concat, ← heard_concat] at next

theorem waveform_heard {sound : Sound R} (lawful : sound.Lawful) {size : Nat} (least : 2 ≤ size)
    (blocks : List (List R)) :
    (heard sound size blocks).buffer.toList.drop (size / 2) =
      ((stream sound size blocks).rtake (size / 2)).map sound.amplitude := by
  rcases List.eq_nil_or_concat blocks with rfl | ⟨before, block, rfl⟩
  · rw [heard, List.foldl_nil, stream, List.flatten_nil, List.append_nil,
      rtake_replicate (Nat.div_le_self size 2), List.map_replicate, lawful.silent, ofSize,
      Nat.max_eq_left least]
    dsimp only
    rw [Array.toList_append, Bytes.fill, Bytes.fill, Array.toList_replicate,
      Array.toList_replicate, List.drop_left' List.length_replicate]
  · have keeps := keeps_heard sound least before
    have filled : (stream sound size before ++ block).rtake size ≠ [] := by
      rw [← List.length_pos_iff, length_rtake (keeps.enough_append block)]
      omega
    obtain ⟨strengths, heard⟩ := Option.isSome_iff_exists.mp (lawful.succeeds _ filled)
    rw [List.concat_eq_append, heard_concat, keeps.waveform heard, stream, stream,
      List.append_assoc, List.flatten_concat]

end Analyser

end LiveFragment.Channel
