import LiveFragment.Proofs.Backend.Pixels
import LiveFragment.Proofs.Channel.Coherence
import LiveFragment.Proofs.Channel.Resources

/-! The frames that sources report. A frame passes for well formed when it has the right number of
bytes, and also when that number does not fit the word it is counted in and wraps to the number that
the frame has. The rows of such a frame lie outside its bytes. -/

namespace LiveFragment

open LiveFragment.Number LiveFragment.Backend LiveFragment.Media

namespace Media.Frame

def desc (frame : Frame) : TextureDesc := .rgba frame.width frame.height

/-- A frame passes for well formed just when its pixels pass for those of its texture. -/
theorem isWellFormed_iff {frame : Frame} :
    frame.isWellFormed = true ↔ frame.desc.checkPixels frame.pixels = .ok () := by
  rw [TextureDesc.checkPixels_eq_ok]
  simp only [isWellFormed, Bool.and_eq_true, decide_eq_true_eq, desc, TextureDesc.rgba,
    TextureDesc.toNat_pos, and_assoc]
  rfl

theorem isWellFormed_iff_exact (frame : Frame) :
    frame.isWellFormed = true ↔
      (frame.desc.Exact frame.pixels ∧ frame.pixels.size < UInt64.size) ∨
        frame.desc.Wraps frame.pixels :=
  isWellFormed_iff.trans TextureDesc.checkPixels_eq_ok_iff

/-- The rows of a frame that passes lie within its bytes unless their number wraps. -/
theorem isWhole_iff {frame : Frame} (formed : frame.isWellFormed = true) :
    frame.isWhole = true ↔ ¬ frame.desc.Wraps frame.pixels := by
  have lengths : frame.byteCount = frame.desc.trueLength := rfl
  simp only [isWhole, decide_eq_true_eq, lengths]
  rcases frame.isWellFormed_iff_exact.mp formed with ⟨⟨_, _, size⟩, fits⟩ | wraps
  · apply iff_of_true (Nat.le_of_eq size.symm)
    rintro ⟨large, _⟩
    exact Nat.not_lt_of_le large (size ▸ fits)
  · refine iff_of_false (Nat.not_le_of_lt ?_) (not_not.mpr wraps)
    have kept : frame.pixels.size < UInt64.size := wraps.2 ▸ Nat.mod_lt _ (by decide)
    exact Nat.lt_of_lt_of_le kept wraps.1

theorem size_of_whole {frame : Frame} (formed : frame.isWellFormed = true)
    (whole : frame.isWhole = true) :
    frame.pixels.size = frame.height.toNat * (frame.width.toNat * 4) := by
  rcases frame.isWellFormed_iff_exact.mp formed with ⟨⟨_, _, size⟩, _⟩ | wraps
  · rw [size]
    simp only [TextureDesc.trueLength, desc, TextureDesc.rgba, PixelFormat.bytesPerPixel]
    rw [Nat.mul_comm frame.width.toNat, Nat.mul_assoc]
  · exact absurd wraps ((isWhole_iff formed).mp whole)

end Media.Frame

namespace Channel.Rack

variable {σ : Type}

/-- The frame that the source of a channel reports. -/
def due (rack : Rack σ) (index : Fin 4) (now : Nat) : Option Frame :=
  (takeFrame rack.devices now (rack.slot index).source).1

/-- The rack once that frame was taken from the source. -/
def spent (rack : Rack σ) (index : Fin 4) (now : Nat) : Rack σ :=
  let (_, source, devices) := takeFrame rack.devices now (rack.slot index).source
  setSource { rack with devices } index source

variable [Backend σ]

theorem refreshSlot_due {rack : Rack σ} {index : Fin 4} {now : Nat} {frame : Frame}
    (due : rack.due index now = some frame) :
    rack.refreshSlot index now =
      if frame.isWellFormed then ((rack.spent index now).showFrame index frame).2
      else rack.spent index now := by
  have other : (rack.slot index).source.kind ≠ .microphone := by
    intro kind
    unfold Rack.due at due
    cases held : (rack.slot index).source <;> rw [held] at kind due <;> cases kind
    cases due
  rw [Coherent.refreshSlot_eq other]
  unfold Rack.due at due
  unfold spent
  cases taken : takeFrame rack.devices now (rack.slot index).source with
  | mk reported rest =>
    rw [taken] at due
    obtain rfl : reported = some frame := due
    rfl

/-- What becomes of a reported frame: it is uploaded when it is exact and dropped when it is
malformed, but one whose number of bytes wraps breaks the rack. -/
theorem refreshSlot_frame {rack : Rack σ} {index : Fin 4} {now : Nat} {frame : Frame}
    (due : rack.due index now = some frame) :
    rack.refreshSlot index now =
      if frame.desc.Wraps frame.pixels then { rack.spent index now with broken := true }
      else if frame.desc.Exact frame.pixels ∧ frame.pixels.size < UInt64.size then
        ((rack.spent index now).onSlot index fun slot backend => slot.uploadFrame backend frame).2
      else rack.spent index now := by
  have passes := frame.isWellFormed_iff_exact
  rw [refreshSlot_due due]
  split
  · rename_i formed
    unfold showFrame
    by_cases wraps : frame.desc.Wraps frame.pixels
    · have torn : ¬ frame.isWhole = true := fun whole => (Frame.isWhole_iff formed).mp whole wraps
      rw [if_neg torn, if_pos wraps]
    · rw [if_pos ((Frame.isWhole_iff formed).mpr wraps), if_neg wraps,
        if_pos ((passes.mp formed).resolve_right wraps)]
  · rename_i malformed
    have neither := not_or.mp (mt passes.mpr malformed)
    rw [if_neg neither.2, if_neg neither.1]

omit [Backend σ] in
theorem Installed.broken {before : Rack σ} {index : Fin 4} {source : Source}
    {step : Except BackendError Unit × Rack σ} (installed : Installed before index source step) :
    step.2.broken = before.broken := by
  cases installed
  rfl

theorem pollPending_broken (rack : Rack σ) (index : Fin 4) :
    (rack.pollPending index).broken = rack.broken := by
  unfold pollPending
  split
  · rfl
  · rename_i pending _
    split
    · rfl
    · rename_i outcome devices _
      dsimp only
      split
      · rfl
      · rename_i resource _
        have installed := (install_installed (setPending { rack with devices } index none) index
          (pending.source resource)).broken
        split
        · rename_i accepted
          rwa [accepted] at installed
        · rename_i refused
          rwa [refused] at installed

theorem refreshSlot_broken (rack : Rack σ) (index : Fin 4) (now : Nat) :
    (rack.refreshSlot index now).broken = true ↔
      rack.broken = true ∨ ∃ frame ∈ rack.due index now, frame.desc.Wraps frame.pixels := by
  cases due : rack.due index now with
  | some frame =>
    simp only [refreshSlot_frame due, Option.mem_some_iff, exists_eq_left']
    split
    · rename_i wraps
      exact iff_of_true rfl (.inr wraps)
    · rename_i fits
      rw [or_iff_left fits]
      split <;> rfl
  | none =>
    simp only [Option.not_mem_none, false_and, exists_false, or_false]
    unfold Rack.due at due
    unfold Rack.refreshSlot
    split
    · rfl
    · cases taken : takeFrame rack.devices now (rack.slot index).source with
      | mk reported rest =>
        rw [taken] at due
        obtain rfl : reported = none := due
        simp only [*]
        rfl

/-- The frames that the sources report while the channels are refreshed one after the other. -/
def reported (now : Nat) : List (Fin 4) → Rack σ → List Frame
  | [], _ => []
  | index :: rest, rack =>
    let polled := rack.pollPending index
    (polled.due index now).toList ++ reported now rest (polled.refreshSlot index now)

theorem refresh_broken (rack : Rack σ) (now : Nat) :
    (rack.refresh now).broken = true ↔
      rack.broken = true ∨
        ∃ frame ∈ reported now (List.finRange 4) rack, frame.desc.Wraps frame.pixels := by
  unfold refresh
  generalize List.finRange 4 = indices
  induction indices generalizing rack with
  | nil => simp [reported]
  | cons index rest ih =>
    rw [List.foldl_cons, ih, refreshSlot_broken, pollPending_broken]
    simp only [reported, List.mem_append, Option.mem_toList, Option.mem_def, or_and_right,
      exists_or, or_assoc]

/-- Frames and textures are checked by a count that wraps. So every reported frame is uploaded when
it is exact and dropped when it is malformed, except that one whose count wraps is let through, and
a refresh breaks the rack just when a source reports such a frame. -/
theorem refresh_reported (rack : Rack σ) (now : Nat) :
    (∀ frame : Frame, frame.isWellFormed = true ↔
      (frame.desc.Exact frame.pixels ∧ frame.pixels.size < UInt64.size) ∨
        frame.desc.Wraps frame.pixels) ∧
    (∀ (desc : TextureDesc) (pixels : Bytes), desc.checkPixels pixels = .ok () ↔
      (desc.Exact pixels ∧ pixels.size < UInt64.size) ∨ desc.Wraps pixels) ∧
    (∀ (index : Fin 4) (frame : Frame), rack.due index now = some frame →
      rack.refreshSlot index now =
        if frame.desc.Wraps frame.pixels then { rack.spent index now with broken := true }
        else if frame.desc.Exact frame.pixels ∧ frame.pixels.size < UInt64.size then
          ((rack.spent index now).onSlot index fun slot backend =>
            slot.uploadFrame backend frame).2
        else rack.spent index now) ∧
    ((rack.refresh now).broken = true ↔
      rack.broken = true ∨
        ∃ frame ∈ reported now (List.finRange 4) rack, frame.desc.Wraps frame.pixels) :=
  ⟨Frame.isWellFormed_iff_exact,
    fun _ _ => TextureDesc.checkPixels_eq_ok_iff,
    fun _ _ => refreshSlot_frame,
    refresh_broken rack now⟩

/-- A camera is there at once and reports a frame without bytes, whose number of bytes is the first
that the count cannot hold. -/
def wrappedMoves : List (Move Headless) :=
  [.call (.host (.plan [.ready])), .call (.bind 0 (.camera none)),
    .call (.host (.pushFrame 0 ⟨0x80000000, 0x80000000, #[]⟩))]

/-- The frame passes for well formed, and the next refresh breaks the rack. -/
theorem refresh_reported_wrapped :
    ∃ start next,
      Rack.new (Headless.new (fun _ => none) 4 4) Devices.none .bare = (.ok start, next) ∧
      let rack := wrappedMoves.foldl Rack.move start
      rack.broken = false ∧ rack.due 0 0 = some ⟨0x80000000, 0x80000000, #[]⟩ ∧
        (⟨0x80000000, 0x80000000, #[]⟩ : Frame).isWellFormed = true ∧
        (rack.refresh 0).broken = true := by
  have made : Rack.new (Headless.new (fun _ => none) 4 4) Devices.none .bare =
    (.ok _, _) := rfl
  let frame : Frame := ⟨0x80000000, 0x80000000, #[]⟩
  have wraps : frame.desc.Wraps frame.pixels := by decide
  refine ⟨_, _, made, ?_⟩
  intro rack
  obtain ⟨passes, _, _, broken⟩ := refresh_reported rack 0
  have due : (rack.pollPending 0).due 0 0 = some frame := rfl
  have first : frame ∈ reported 0 (0 :: [1, 2, 3]) rack :=
    List.mem_append_left _ (Option.mem_toList.mpr due)
  exact ⟨rfl, rfl, (passes frame).mpr (.inr wraps), broken.mpr (.inr ⟨frame, first, wraps⟩)⟩

end Channel.Rack

end LiveFragment
