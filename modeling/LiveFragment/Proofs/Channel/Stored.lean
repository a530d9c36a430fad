import LiveFragment.Proofs.Channel.Chronicle
import LiveFragment.Proofs.Picture.Flipped
import LiveFragment.Proofs.Picture.Whole

namespace LiveFragment

open LiveFragment.Backend LiveFragment.Media

theorem Media.Frame.flipped_content {frame : Frame} (formed : frame.isWellFormed = true)
    (whole : frame.isWhole = true) :
    Flipped frame.pixels frame.width.toNat frame.height.toNat frame.content.2 :=
  (flipped_flipRows (frame.size_of_whole formed whole)).2

namespace Channel

/-- A slot shows the pixels that were asked for. -/
structure Slot.Portrays (frame : Frame) (slot : Slot) : Prop where
  source : slot.source.kind = .image
  idle : slot.pending = none
  formed : frame.isWellFormed = true
  uploaded : frame.isWhole = true → slot.uploaded = some frame.content

/-- Whatever pixels a slot was asked for, it shows them. -/
def Slot.Portrait (slot : Slot) : Prop :=
  ∀ frame, slot.request = some (.pixels frame) → slot.Portrays frame

theorem Slot.portrait_empty : Slot.empty.Portrait := by
  intro frame asked
  cases asked

namespace Rack

variable {σ : Type} [Backend σ] {rack : Rack σ} {index : Fin 4}

theorem onSlot_request (rack : Rack σ) (index : Fin 4) (desc : TextureDesc) (pixels : Bytes) :
    ((rack.onSlot index fun slot backend => slot.upload backend desc pixels).2.slot index).request =
      (rack.slot index).request := by
  obtain ⟨handle, slot⟩ := rack.onSlot_shows index desc pixels
  rw [slot]
  split <;> rfl

theorem showing_request (rack : Rack σ) (index : Fin 4) (source : Source) (desc : TextureDesc)
    (pixels : Bytes) : ((rack.showing index source desc pixels).2.slot index).request =
      (rack.slot index).request := by
  have kept := rack.onSlot_request index desc pixels
  unfold showing
  split
  · rename_i refused
    rwa [refused] at kept
  · rename_i accepted
    rw [accepted] at kept
    rw [setSource, slot_setSlot_self]
    exact kept

theorem install_request (rack : Rack σ) (index : Fin 4) (source : Source) :
    ((rack.install index source).2.slot index).request = (rack.slot index).request := by
  unfold install
  split
  · exact rack.showing_request ..
  · rename_i id latest
    have kept := rack.showing_request index (.stream id latest) (.rgba 1 1) opaqueBlack
    split
    · rename_i refused
      rwa [refused] at kept
    · rename_i accepted
      rw [accepted] at kept
      rw [slot_setSlot_self]
      exact kept
  · rw [setSource, slot_setSlot_self]

theorem pollPending_request (rack : Rack σ) (index : Fin 4) :
    (rack.pollPending index).slot index = .empty ∨
      ((rack.pollPending index).slot index).request = (rack.slot index).request := by
  unfold pollPending
  split
  · exact .inr rfl
  · rename_i pending _
    split
    · exact .inr rfl
    · rename_i outcome devices _
      dsimp only
      split
      · rw [slot_report, teardown_slot]
        exact .inl rfl
      · rename_i resource _
        have settled : ((setPending { rack with devices } index none).slot index).request =
            (rack.slot index).request := by
          rw [setPending, slot_setSlot_self]
        have kept := (install_request _ index (pending.source resource)).trans settled
        split
        · rename_i accepted
          rw [accepted] at kept
          rw [slot_report]
          exact .inr kept
        · rw [slot_report, teardown_slot]
          exact .inl rfl

theorem showFrame_request (rack : Rack σ) (index : Fin 4) (frame : Frame) :
    ((rack.showFrame index frame).2.slot index).request = (rack.slot index).request := by
  unfold showFrame
  split
  · exact rack.onSlot_request index frame.content.1 frame.content.2
  · rfl

theorem refreshSlot_request (rack : Rack σ) (index : Fin 4) (now : Nat) :
    ((rack.refreshSlot index now).slot index).request = (rack.slot index).request := by
  have placed (devices : Devices) (source : Source) :
      ((setSource { rack with devices } index source).slot index).request =
        (rack.slot index).request := by
    rw [setSource, slot_setSlot_self]
  unfold refreshSlot
  split
  · exact (onSlot_request _ index _ _).trans (placed ..)
  · split
    dsimp only
    split
    · exact placed ..
    · split
      · exact (showFrame_request ..).trans (placed ..)
      · exact placed ..

theorem showFrame_accepted {next : Rack σ} {frame : Frame}
    (shown : rack.showFrame index frame = (.ok (), next)) :
    (next.slot index).pending = (rack.slot index).pending ∧
      (frame.isWhole = true → (next.slot index).uploaded = some frame.content) := by
  unfold showFrame at shown
  split at shown
  · obtain ⟨handle, slot⟩ := rack.onSlot_shows index frame.content.1 frame.content.2
    have same : (rack.onSlot index fun slot backend =>
        slot.upload backend frame.content.1 frame.content.2) = (.ok (), next) := shown
    rw [same] at slot
    have here : next.slot index = (rack.slot index).shows handle frame.content.1 frame.content.2 :=
      slot
    rw [here]
    exact ⟨rfl, fun _ => rfl⟩
  · rename_i torn
    obtain rfl := (Prod.mk.inj shown).2
    exact ⟨rfl, fun whole => absurd whole torn⟩

theorem acquire_pixels {after : Rack σ} {frame : Frame} (idle : (rack.slot index).pending = none)
    (acquired : rack.acquire index (.pixels frame) = (.ok (), after)) :
    (after.slot index).Portrays frame := by
  simp only [acquire, resolveRequest] at acquired
  split at acquired
  · cases acquired
  · rename_i formed
    split at acquired
    · cases acquired
    · rename_i next shown
      obtain ⟨pending, uploaded⟩ := showFrame_accepted shown
      obtain rfl := (Prod.mk.inj acquired).2
      rw [setSource, slot_setSlot_self]
      exact ⟨rfl, pending.trans idle, by simpa using formed, uploaded⟩

theorem bind_portrait (rack : Rack σ) (index : Fin 4) (request : Request) :
    ((rack.bind index.val request).2.slot index).Portrait := by
  have empty := teardown_slot rack index
  rw [bind_eq rack (dif_pos index.isLt)]
  intro frame asked
  cases acquired : (rack.teardown index).acquire index request with
  | mk result after =>
    cases result with
    | ok =>
      rw [(supply_accepted acquired).1] at asked ⊢
      obtain rfl := Option.some.inj asked
      have portrays := acquire_pixels (by rw [empty]; rfl) acquired
      exact ⟨portrays.source, portrays.idle, portrays.formed, portrays.uploaded⟩
    | error error =>
      rw [(supply_refused acquired).1] at asked
      cases asked

theorem pollPending_portrait (portrait : (rack.slot index).Portrait) :
    ((rack.pollPending index).slot index).Portrait := by
  intro frame asked
  rcases rack.pollPending_request index with empty | same
  · rw [empty] at asked
    cases asked
  · have portrays := portrait frame (same ▸ asked)
    rw [pollPending_idle portrays.idle]
    exact portrays

theorem refreshSlot_portrait (portrait : (rack.slot index).Portrait) (now : Nat) :
    ((rack.refreshSlot index now).slot index).Portrait := by
  intro frame asked
  rw [refreshSlot_request] at asked
  have portrays := portrait frame asked
  -- A picture reports nothing.
  have still : (rack.refreshSlot index now).slot index = rack.slot index := by
    cases held : (rack.slot index).source with
    | image =>
      simp only [refreshSlot, held, takeFrame]
      rw [setSource, slot_setSlot_self, ← held]
    | _ =>
      have source := portrays.source
      rw [held] at source
      cases source
  rw [still]
  exact portrays

theorem slotClosed_portrait (options : RackOptions) :
    SlotClosed σ options fun _ slot => slot.Portrait where
  empty _ := Slot.portrait_empty
  bind rack index request _ := bind_portrait rack index request
  poll _ _ _ := pollPending_portrait
  refresh _ _ now _ portrait := refreshSlot_portrait portrait now
  push := by
    intro index id frame slot next pushed portrait other asked
    cases pushed with
    | shown held =>
      have source := (portrait other asked).source
      rw [held] at source
      cases source
    | waiting held =>
      have idle := (portrait other asked).idle
      rw [held] at idle
      cases idle
    | other => exact portrait other asked

/-- The texture of a channel holds a frame: its rows with the last one first, and nothing else. -/
def Stores [Books σ] (rack : Rack σ) (index : Fin 4) (frame : Frame) : Prop :=
  ∃ stored, rack.content? index = some (.rgba frame.width frame.height, stored) ∧
    Flipped frame.pixels frame.width.toNat frame.height.toNat stored

theorem stores_of_content [Books σ] {frame : Frame} (formed : frame.isWellFormed = true)
    (whole : frame.isWhole = true) (content : rack.content? index = some frame.content) :
    rack.Stores index frame :=
  ⟨frame.content.2, content, frame.flipped_content formed whole⟩

end Rack

/-- Of the frames that a source reports, only whole ones are uploaded. -/
def Report.Sound (report : Report) : Prop :=
  report.uploaded = true → report.frame.isWellFormed = true ∧ report.frame.isWhole = true

namespace Chronicle

variable {σ : Type} [Backend σ] {chronicle : Chronicle σ}

/-- Every report on a channel is sound. -/
def Sound (chronicle : Chronicle σ) : Prop :=
  ∀ index, ∀ report ∈ chronicle.reports index, report.Sound

theorem sound_noted {rack : Rack σ} {index : Fin 4} {now : Nat} {report : Report}
    (noted : rack.noted index now = some report) : report.Sound := by
  obtain ⟨frame, -, passed⟩ := Option.bind_eq_some_iff.mp noted
  split at passed
  · rename_i formed
    obtain rfl := Option.some.inj passed
    intro uploaded
    exact ⟨formed, (Bool.and_eq_true_iff.mp uploaded).1⟩
  · cases passed

namespace Sound

omit [Backend σ] in
theorem update (sound : chronicle.Sound) {index : Fin 4} {reports : List Report}
    (here : ∀ report ∈ reports, report.Sound) (rack : Rack σ) :
    Sound ⟨rack, Function.update chronicle.reports index reports⟩ := by
  intro other
  dsimp only
  by_cases same : other = index
  · subst same
    rw [Function.update_self]
    exact here
  · rw [Function.update_of_ne same]
    exact sound other

theorem poll (sound : chronicle.Sound) (index : Fin 4) : (chronicle.poll index).Sound := by
  unfold Chronicle.poll
  split
  · exact sound
  · exact sound.update (by simp) _

theorem refreshSlot (sound : chronicle.Sound) (index : Fin 4) (now : Nat) :
    (chronicle.refreshSlot index now).Sound := by
  apply sound.update
  intro report member
  rcases List.mem_append.mp member with before | noted
  · exact sound index report before
  · exact sound_noted (Option.mem_toList.mp noted)

omit [Backend σ] in
theorem change (sound : chronicle.Sound) (number : Nat) (after : Rack σ) :
    (chronicle.change number after).Sound := by
  unfold Chronicle.change
  split
  · exact sound
  · exact sound.update (by simp) _

theorem step (sound : chronicle.Sound) (step : Step) : (chronicle.step step).Sound := by
  cases step with
  | bind number request => exact sound.change number _
  | unbind number => exact sound.change number _
  | refresh now =>
    unfold Chronicle.step Chronicle.refresh
    generalize List.finRange 4 = indices
    induction indices generalizing chronicle with
    | nil => exact sound
    | cons index rest ih => exact ih ((sound.poll index).refreshSlot index now)
  | _ => exact sound

theorem run (sound : chronicle.Sound) (steps : List Step) : (chronicle.run steps).Sound := by
  induction steps generalizing chronicle with
  | nil => exact sound
  | cons step rest ih => exact ih (sound.step step)

end Sound

/-- The frame that was uploaded for a channel last, by a source that reports frames or with the
pixels that were asked for. Those are uploaded unless their number wraps. -/
inductive Uploads (chronicle : Chronicle σ) (index : Fin 4) (frame : Frame) : Prop
  | reported (source : (chronicle.rack.slot index).source.kind.reports = true)
    (last : ((chronicle.reports index).filter (·.uploaded)).getLast?.map (·.frame) = some frame)
  | asked (request : (chronicle.rack.slot index).request = some (.pixels frame))
    (fits : frame.byteCount < UInt64.size)

/-- A picture with all its bytes is reversed in place, row by row, without going past its end, and
reversed again it is as before. In every run over any backend, the frame that was uploaded for a
channel last is stored so: a video, a camera or a stream reported it, or it came with the request. -/
theorem run_stored :
    (∀ (width height : UInt32) (pixels : Bytes), pixels.size = 4 * width.toNat * height.toNat →
      ∃ flipped, flipRows? pixels width.toNat height.toNat = some flipped ∧
        Flipped pixels width.toNat height.toNat flipped) ∧
    ∀ (σ : Type) [Backend σ] [Books σ] (backend next : σ) (options : RackOptions) (start : Rack σ),
      Books.Valid backend → (Books.record? backend = fun _ => none) →
      Rack.new backend Devices.none options = (.ok start, next) →
      ∀ steps : List Step,
        let chronicle := Chronicle.run ⟨start, fun _ => []⟩ steps
        chronicle.rack = steps.foldl Rack.step start ∧
        ∀ index frame, chronicle.Uploads index frame → chronicle.rack.Stores index frame := by
  refine ⟨fun width height pixels size => ?_, ?_⟩
  · have whole : pixels.size = height.toNat * (width.toNat * 4) := by
      rw [size, Nat.mul_comm 4, Nat.mul_comm]
    exact ⟨_, flipped_flipRows whole⟩
  · intro σ _ _ backend next options start valid cleared made steps chronicle
    obtain ⟨owned, empty⟩ := Rack.new_owned valid cleared made
    have initial : Faithful ⟨start, fun _ => []⟩ :=
      ⟨owned, fun index => by rw [empty]; exact Slot.follows_empty []⟩
    have faithful := initial.run steps
    have same : chronicle.rack = steps.foldl Rack.step start := run_rack _ steps
    refine ⟨same, fun index frame uploads => ?_⟩
    have shown := faithful.owned.content? (faithful.follows index).retained
    cases uploads with
    | reported moving last =>
      have sound : chronicle.Sound := Sound.run (fun _ => by simp) steps
      obtain ⟨report, final, rfl⟩ := Option.map_eq_some_iff.mp last
      obtain ⟨member, uploaded⟩ := List.mem_filter.mp (List.mem_of_getLast? final)
      obtain ⟨formed, whole⟩ := sound index report member uploaded
      refine Rack.stores_of_content formed whole (shown.trans ?_)
      rw [(faithful.follows index).shows moving, Kind.shows, final]
      rfl
    | asked request fits =>
      have portrait : (chronicle.rack.slot index).Portrait := by
        rw [same]
        have bare : Rack.Throughout start.options (fun _ slot => slot.Portrait) start :=
          ⟨rfl, fun index => empty index ▸ Slot.portrait_empty⟩
        exact ((Rack.slotClosed_portrait start.options).run bare steps).slots index
      have portrays := portrait frame request
      have whole := Frame.isWhole_of_fits fits portrays.formed
      exact Rack.stores_of_content portrays.formed whole (shown.trans (portrays.uploaded whole))

/-- A camera with a frame of three rows, and a picture of two rows that comes with its request. -/
def storedSteps : List Step :=
  [.host (.plan [.ready]), .bind 0 (.camera none),
    .host (.pushFrame 0 ⟨1, 3, #[0, 1, 2, 3, 4, 5, 6, 7, 8, 9, 10, 11]⟩), .refresh 0,
    .bind 1 (.pixels ⟨1, 2, #[9, 8, 7, 6, 5, 4, 3, 2]⟩), .refresh 10]

theorem run_stored_camera :
    (∃ flipped, flipRows? #[9, 8, 7, 6, 5, 4, 3, 2] 1 2 = some flipped ∧
      Flipped #[9, 8, 7, 6, 5, 4, 3, 2] 1 2 flipped) ∧
    ∃ start next, Rack.new (Headless.new (fun _ => none) 4 4) Devices.none .bare =
        (.ok start, next) ∧
      let rack := storedSteps.foldl Rack.step start
      rack.Stores 0 ⟨1, 3, #[0, 1, 2, 3, 4, 5, 6, 7, 8, 9, 10, 11]⟩ ∧
        rack.Stores 1 ⟨1, 2, #[9, 8, 7, 6, 5, 4, 3, 2]⟩ := by
  obtain ⟨flips, runs⟩ := run_stored
  have made : Rack.new (Headless.new (fun _ => none) 4 4) Devices.none .bare =
      (.ok _, _) := rfl
  obtain ⟨same, stored⟩ := runs Headless _ _ _ _ (Headless.valid_new _ 4 4) rfl made storedSteps
  refine ⟨flips 1 2 _ rfl, _, _, made, ?_⟩
  rw [← same]
  exact ⟨stored 0 _ (.reported rfl rfl), stored 1 _ (.asked rfl (by decide))⟩

end Chronicle

end Channel

end LiveFragment
