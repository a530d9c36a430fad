import LiveFragment.Channel.Rack

namespace LiveFragment

open LiveFragment.Media

namespace Media.Frame

/-- Counted in a word of 64 bits, the right number of bytes is the true one when it fits. -/
theorem isWhole_of_fits {frame : Frame} (fits : frame.byteCount < UInt64.size)
    (formed : frame.isWellFormed = true) : frame.isWhole = true := by
  simp only [isWellFormed, Bool.and_eq_true, decide_eq_true_eq] at formed
  simp only [isWhole, decide_eq_true_eq]
  exact Nat.le_of_eq (formed.2.trans (Nat.mod_eq_of_lt fits)).symm

/-- A frame that passes for well formed has all its rows. -/
def Sound (frame : Frame) : Prop := frame.isWellFormed = true → frame.isWhole = true

theorem sound_of_fits {frame : Frame} (fits : frame.byteCount < UInt64.size) : frame.Sound :=
  isWhole_of_fits fits

end Media.Frame

namespace Channel

variable {options : RackOptions} {path : String}

theorem loadImage_whole {frame : Frame} (loaded : loadImage options path = .ok frame) :
    frame.isWhole = true := by
  unfold loadImage at loaded
  split at loaded
  · cases loaded
  · split at loaded
    · rename_i decoded
      obtain rfl := Except.ok.inj loaded
      exact options.services.picture_whole decoded
    · cases loaded

theorem loadVideo_whole {playback : Playback} (loaded : loadVideo options path = .ok playback) :
    ∀ entry ∈ playback.frames, entry.1.isWhole = true := by
  unfold loadVideo at loaded
  split at loaded
  · cases loaded
  · split at loaded
    · cases loaded
    · cases loaded
    · rename_i decoded
      obtain rfl := Except.ok.inj loaded
      intro entry member
      obtain ⟨⟨frame, delay⟩, present, rfl⟩ := List.mem_map.mp member
      exact options.services.pictures_whole decoded (frame, delay) present

end Channel

end LiveFragment
