import LiveFragment.Proofs.Channel.Apart
import LiveFragment.Proofs.Channel.Moved
import LiveFragment.Proofs.Channel.Reported
import LiveFragment.Proofs.Channel.Told

namespace LiveFragment

open LiveFragment.Number LiveFragment.Backend LiveFragment.Media

/-- What a texture holds of a frame: its bottom row first. -/
def Media.Frame.content (frame : Frame) : TextureDesc × Bytes :=
  (frame.desc, flipRows frame.pixels frame.width.toNat frame.height.toNat)

namespace Channel

/-- The kinds of the sources that report frames. -/
def Kind.reports : Kind → Bool
  | .video | .camera | .stream => true
  | _ => false

/-- What a channel shows before its first frame. A stream begins with a texture. -/
def Kind.initial : Kind → Option (TextureDesc × Bytes)
  | .stream => some placeholderContent
  | _ => none

/-- A well-formed frame that a source reported, and whether it was uploaded. -/
structure Report where
  frame : Frame
  uploaded : Bool

/-- What a channel shows after its source has reported frames. -/
def Kind.shows (kind : Kind) (reports : List Report) : Option (TextureDesc × Bytes) :=
  ((reports.filter (·.uploaded)).getLast?.map (·.frame.content)).or kind.initial

theorem Kind.shows_concat (kind : Kind) (reports : List Report) (report : Report) :
    kind.shows (reports ++ [report]) =
      if report.uploaded then some report.frame.content else kind.shows reports := by
  unfold shows
  cases uploaded : report.uploaded <;> simp [List.filter_append, uploaded]

/-- What is known of a slot from the reports of its source. -/
structure Slot.Follows (reports : List Report) (slot : Slot) : Prop where
  retained : slot.texture = none ↔ slot.uploaded = none
  vacant : slot.source.kind = .empty → slot.uploaded = none
  waiting : slot.pending ≠ none → slot.source.kind = .empty
  shows : slot.source.kind.reports = true → slot.uploaded = slot.source.kind.shows reports

namespace Slot

theorem follows_empty (reports : List Report) : Slot.empty.Follows reports where
  retained := by simp [empty]
  vacant := by simp [empty]
  waiting := by simp [empty]
  shows := nofun

/-- An upload leaves all but the texture alone, and a refused one that too. -/
theorem upload_shows {σ : Type} [Backend σ] (slot : Slot) (backend : σ) (desc : TextureDesc)
    (pixels : Bytes) :
    ∃ handle, (slot.upload backend desc pixels).2.1 =
      if (slot.upload backend desc pixels).1.isOk then slot.shows handle desc pixels else slot := by
  have allocated : ∃ handle, (slot.allocate backend desc pixels).2.1 =
      if (slot.allocate backend desc pixels).1.isOk then slot.shows handle desc pixels
      else slot := by
    unfold allocate
    split
    · exact ⟨⟨0⟩, rfl⟩
    · rename_i texture _ _
      exact ⟨texture, rfl⟩
  unfold upload
  split
  · exact allocated
  · rename_i texture _
    split
    · split
      · exact ⟨texture, rfl⟩
      · exact ⟨texture, rfl⟩
    · exact allocated

namespace Follows

variable {reports : List Report} {slot : Slot}

theorem withSource (follows : slot.Follows reports) {source : Source}
    (same : source.kind = slot.source.kind) : Slot.Follows reports { slot with source } where
  retained := follows.retained
  vacant empty := follows.vacant (same ▸ empty)
  waiting waiting := same.trans (follows.waiting waiting)
  shows moving := by
    dsimp only at moving ⊢
    rw [same] at moving ⊢
    exact follows.shows moving

/-- The acquisition and the request do not matter to a slot whose source is empty. -/
theorem withPending (follows : slot.Follows reports) (vacant : slot.source.kind = .empty)
    (pending : Option Pending) (other : List Report) :
    Slot.Follows other { slot with pending } where
  retained := follows.retained
  vacant := follows.vacant
  waiting _ := vacant
  shows moving := by
    rw [show ({ slot with pending } : Slot).source.kind = .empty from vacant] at moving
    cases moving

theorem idle (follows : slot.Follows reports) (busy : slot.source.kind ≠ .empty) :
    slot.pending = none := by
  by_contra waits
  exact busy (follows.waiting waits)

theorem withRequest (follows : slot.Follows reports) (request : Option Request) :
    Slot.Follows reports { slot with request } :=
  { follows with }

theorem starts (follows : slot.Follows reports) (vacant : slot.source.kind = .empty)
    (idle : slot.pending = none) {source : Source} (bare : source.kind.initial = none) :
    Slot.Follows [] { slot with source } where
  retained := follows.retained
  vacant _ := follows.vacant vacant
  waiting waiting := absurd idle waiting
  shows _ := by
    rw [Kind.shows, bare]
    exact follows.vacant vacant

theorem uploads (idle : slot.pending = none) (handle : TextureHandle) {desc : TextureDesc}
    {pixels : Bytes} {source : Source} (busy : source.kind ≠ .empty)
    (last : source.kind.reports = true → source.kind.shows reports = some (desc, pixels)) :
    Slot.Follows reports { slot.shows handle desc pixels with source } where
  retained := by simp [Slot.shows]
  vacant empty := absurd empty busy
  waiting waiting := absurd idle waiting
  shows moving := (last moving).symm

theorem silent (idle : slot.pending = none) (handle : TextureHandle) {desc : TextureDesc}
    {pixels : Bytes} {source : Source} (busy : source.kind ≠ .empty)
    (quiet : source.kind.reports = false) :
    Slot.Follows reports { slot.shows handle desc pixels with source } :=
  .uploads idle handle busy fun moving => absurd (quiet.symm.trans moving) Bool.false_ne_true

theorem refused (follows : slot.Follows reports) (frame : Frame) :
    slot.Follows (reports ++ [⟨frame, false⟩]) where
  retained := follows.retained
  vacant := follows.vacant
  waiting := follows.waiting
  shows moving := by
    rw [Kind.shows_concat]
    exact follows.shows moving

theorem withResolution (follows : slot.Follows reports) (resolution : Uniform.Resolution) :
    Slot.Follows reports { slot with resolution } :=
  { follows with }

theorem pushed (follows : slot.Follows reports) {id : Nat} {frame : Frame} {next : Slot}
    (change : Pushed id frame slot next) : next.Follows reports := by
  cases change with
  | shown held => exact follows.withSource (by rw [held]; rfl)
  | waiting held => exact follows.withPending (follows.waiting (by simp [held])) _ _
  | other => exact follows

end Follows

end Slot

namespace Rack

variable {σ : Type} [Backend σ]

theorem onSlot_shows (rack : Rack σ) (index : Fin 4) (desc : TextureDesc) (pixels : Bytes) :
    let step := rack.onSlot index fun slot backend => slot.upload backend desc pixels
    ∃ handle, step.2.slot index =
      if step.1.isOk then (rack.slot index).shows handle desc pixels else rack.slot index := by
  obtain ⟨handle, slot⟩ := (rack.slot index).upload_shows rack.backend desc pixels
  exact ⟨handle, (slot_setSlot_self ..).trans slot⟩

theorem showing_ok {rack after : Rack σ} {index : Fin 4} {source : Source} {desc : TextureDesc}
    {pixels : Bytes} (shown : rack.showing index source desc pixels = (.ok (), after)) :
    ∃ handle, after.slot index = { (rack.slot index).shows handle desc pixels with source } := by
  obtain ⟨handle, slot⟩ := rack.onSlot_shows index desc pixels
  unfold showing at shown
  split at shown
  · cases shown
  · rename_i next accepted
    rw [accepted] at slot
    obtain rfl := (Prod.mk.inj shown).2
    refine ⟨handle, ?_⟩
    rw [setSource, slot_setSlot_self]
    exact congrArg (fun slot => { slot with source }) slot

theorem install_stream {rack after : Rack σ} {index : Fin 4} {id : Nat} {latest : Option Frame}
    (installed : rack.install index (.stream id latest) = (.ok (), after)) :
    ∃ handle, after.slot index = { (rack.slot index).shows handle (.rgba 1 1) opaqueBlack with
      source := .stream id latest, resolution := .empty } := by
  simp only [install] at installed
  split at installed
  · cases installed
  · rename_i before shown
    obtain ⟨handle, slot⟩ := showing_ok shown
    obtain rfl := (Prod.mk.inj installed).2
    refine ⟨handle, ?_⟩
    rw [slot_setSlot_self, slot]

theorem install_follows {rack after : Rack σ} {index : Fin 4} {reports : List Report}
    (follows : (rack.slot index).Follows reports)
    (vacant : (rack.slot index).source.kind = .empty) (idle : (rack.slot index).pending = none)
    {pending : Pending} {id : Nat}
    (installed : rack.install index (pending.source id) = (.ok (), after)) :
    (after.slot index).Follows [] := by
  cases pending with
  | camera number =>
    obtain rfl := (Prod.mk.inj installed).2
    rw [setSource, slot_setSlot_self]
    exact follows.starts vacant idle rfl
  | microphone number size =>
    obtain ⟨handle, slot⟩ := showing_ok installed
    rw [slot]
    exact .silent idle handle (by decide : Kind.microphone ≠ .empty) rfl
  | stream number latest =>
    obtain ⟨handle, slot⟩ := install_stream installed
    have first : Slot.Follows [] { (rack.slot index).shows handle (.rgba 1 1) opaqueBlack with
        source := .stream id latest } :=
      .uploads idle handle (by decide : Kind.stream ≠ .empty) fun _ => rfl
    rw [slot]
    exact first.withResolution _

/-- A picture may be the source of a channel whether it was uploaded or the rack broke. -/
theorem showImage_follows {rack : Rack σ} {index : Fin 4} {reports : List Report}
    (follows : (rack.slot index).Follows reports)
    (vacant : (rack.slot index).source.kind = .empty) (idle : (rack.slot index).pending = none)
    (frame : Frame) :
    ((rack.showFrame index frame).2.setSource index .image |>.slot index).Follows [] := by
  rw [setSource, slot_setSlot_self]
  unfold showFrame
  split
  · obtain ⟨handle, slot⟩ := rack.onSlot_shows index frame.content.1 frame.content.2
    split at slot
    · have shown : Slot.Follows []
          { (rack.slot index).shows handle frame.content.1 frame.content.2 with source := .image } :=
        .silent idle handle (by decide : Kind.image ≠ .empty) rfl
      rw [← slot] at shown
      exact shown
    · have still : Slot.Follows [] { rack.slot index with source := .image } :=
        follows.starts vacant idle rfl
      rw [← slot] at still
      exact still
  · exact follows.starts vacant idle rfl

theorem openLive_follows {rack after : Rack σ} {index : Fin 4} {reports : List Report}
    (follows : (rack.slot index).Follows reports)
    (vacant : (rack.slot index).source.kind = .empty) (idle : (rack.slot index).pending = none)
    {wanted : Wanted} {pending : Nat → Pending}
    (opened : rack.openLive index wanted pending = (.ok (), after)) :
    (after.slot index).Follows [] := by
  unfold openLive at opened
  split at opened
  · cases opened
  · rename_i id devices _
    cases installed : install { rack with devices } index ((pending id).source id) with
    | mk result next =>
      rw [installed, ofBackend] at opened
      cases result with
      | error error => cases opened
      | ok =>
        obtain rfl := (Prod.mk.inj opened).2
        exact @install_follows σ _ { rack with devices } _ _ _ follows vacant idle _ _ installed
  · obtain rfl := (Prod.mk.inj opened).2
    rw [setPending, slot_setSlot_self]
    exact follows.withPending vacant _ _

theorem acquire_follows {rack after : Rack σ} {index : Fin 4} {reports : List Report}
    (follows : (rack.slot index).Follows reports)
    (vacant : (rack.slot index).source.kind = .empty) (idle : (rack.slot index).pending = none)
    {request : Request} (acquired : rack.acquire index request = (.ok (), after)) :
    (after.slot index).Follows [] := by
  have image := showImage_follows follows vacant idle
  unfold acquire at acquired
  split at acquired
  · cases acquired
  · split at acquired
    · cases acquired
    · rename_i frame _
      split at acquired
      · cases acquired
      · rename_i next shown
        obtain rfl := (Prod.mk.inj acquired).2
        have here := image frame
        rwa [shown] at here
  · split at acquired
    · cases acquired
    · obtain rfl := (Prod.mk.inj acquired).2
      rw [setSource, slot_setSlot_self]
      exact follows.starts vacant idle rfl
  · rename_i frame _
    split at acquired
    · cases acquired
    · split at acquired
      · cases acquired
      · rename_i next shown
        obtain rfl := (Prod.mk.inj acquired).2
        have here := image frame
        rwa [shown] at here
  · exact openLive_follows follows vacant idle acquired
  · split at acquired
    · exact openLive_follows follows vacant idle acquired
    · cases acquired
  · exact openLive_follows follows vacant idle acquired
  · rename_i pattern _
    dsimp only at acquired
    generalize Noise.picture (rack.random index) pattern rack.options.noiseSize = frame at acquired
    cases shown : Rack.showing { rack with generators := rack.generators + 1 } index .noise
        (.rgba frame.width frame.height) frame.pixels with
    | mk result next =>
      rw [shown, ofBackend] at acquired
      cases result with
      | error error => cases acquired
      | ok =>
        obtain rfl := (Prod.mk.inj acquired).2
        obtain ⟨handle, slot⟩ := showing_ok shown
        rw [slot]
        exact .silent idle handle (by decide : Kind.noise ≠ .empty) rfl
  · rename_i name resolved
    exact absurd resolved resolveRequest_ne_library

theorem bind_follows {rack : Rack σ} {number : Nat} {index : Fin 4}
    (named : checkIndex number = .ok index) (request : Request) :
    ((rack.bind number request).2.slot index).Follows [] := by
  have empty : (rack.teardown index).slot index = .empty := teardown_slot rack index
  rw [bind_eq rack named]
  cases acquired : (rack.teardown index).acquire index request with
  | mk result after =>
    cases result with
    | ok =>
      have follows := acquire_follows (empty ▸ Slot.follows_empty []) (by rw [empty]; rfl)
        (by rw [empty]; rfl) acquired
      rw [(supply_accepted acquired).1]
      exact follows.withRequest _
    | error error =>
      rw [(supply_refused acquired).1]
      exact Slot.follows_empty []

theorem pollPending_follows {rack : Rack σ} {index : Fin 4} {reports : List Report}
    (follows : (rack.slot index).Follows reports)
    (waits : (rack.slot index).pending ≠ none) :
    ((rack.pollPending index).slot index).Follows [] := by
  have vacant := follows.waiting waits
  unfold pollPending
  split
  · contradiction
  · rename_i pending _
    split
    · exact follows.withPending vacant (rack.slot index).pending []
    · rename_i outcome devices _
      have settled : (setPending { rack with devices } index none).slot index =
          { rack.slot index with pending := none } := slot_setSlot_self ..
      dsimp only
      split
      · rw [slot_report, teardown_slot]
        exact Slot.follows_empty []
      · rename_i resource _
        split
        · rename_i after accepted
          have ready := follows.withPending vacant none []
          rw [← settled] at ready
          rw [slot_report]
          exact install_follows ready (by rw [settled]; exact vacant) (by rw [settled]) accepted
        · rw [slot_report, teardown_slot]
          exact Slot.follows_empty []

/-- What a channel notes in a refresh: the well-formed frame that its source reports, and whether it
is uploaded. -/
def noted (rack : Rack σ) (index : Fin 4) (now : Nat) : Option Report :=
  (rack.due index now).bind fun frame =>
    if frame.isWellFormed then
      some ⟨frame, frame.isWhole && ((rack.slot index).uploadFrame rack.backend frame).1.isOk⟩
    else none

omit [Backend σ] in
theorem takeFrame_kind (devices : Devices) (now : Nat) (source : Source) :
    (takeFrame devices now source).2.1.kind = source.kind := by
  cases source <;> rfl

omit [Backend σ] in
theorem spent_slot (rack : Rack σ) (index : Fin 4) (now : Nat) :
    ∃ source, (rack.spent index now).slot index = { rack.slot index with source } ∧
      source.kind = (rack.slot index).source.kind := by
  exact ⟨_, slot_setSlot_self .., takeFrame_kind ..⟩

omit [Backend σ] in
theorem busy_of_due {rack : Rack σ} {index : Fin 4} {now : Nat} {frame : Frame}
    (due : rack.due index now = some frame) : (rack.slot index).source.kind.reports = true := by
  unfold Rack.due at due
  cases source : (rack.slot index).source <;> rw [source] at due <;> first | rfl | cases due

theorem refreshSlot_microphone {rack : Rack σ} {index : Fin 4} {reports : List Report}
    (follows : (rack.slot index).Follows reports) (now : Nat) {id : Nat}
    {analyser : Analyser Single} (held : (rack.slot index).source = .microphone id analyser) :
    ((rack.refreshSlot index now).slot index).Follows reports := by
  simp only [refreshSlot, held]
  generalize analyser.process _ (rack.devices.drain id).1 = heard
  have kind : (rack.slot index).source.kind = .microphone := congrArg Source.kind held
  have idle := follows.idle (by rw [kind]; decide)
  have ready : (setSource { rack with devices := (rack.devices.drain id).2 } index
      (.microphone id heard)).slot index = { rack.slot index with source := .microphone id heard } :=
    slot_setSlot_self ..
  obtain ⟨handle, slot⟩ := onSlot_shows (setSource { rack with devices := (rack.devices.drain id).2 }
    index (.microphone id heard)) index heard.desc heard.buffer
  rw [slot, ready]
  split
  · exact .silent idle handle (by decide : Kind.microphone ≠ .empty) rfl
  · exact follows.withSource kind.symm

theorem refreshSlot_idle {rack : Rack σ} {index : Fin 4} {now : Nat}
    (other : (rack.slot index).source.kind ≠ .microphone) (idle : rack.due index now = none) :
    rack.refreshSlot index now = rack.spent index now := by
  rw [Coherent.refreshSlot_eq other]
  unfold Rack.due at idle
  unfold spent
  cases taken : takeFrame rack.devices now (rack.slot index).source with
  | mk reported rest =>
    rw [taken] at idle
    obtain rfl : reported = none := idle
    rfl

/-- A frame is shown when it is uploaded, and it makes no difference otherwise. -/
theorem showFrame_follows {rack : Rack σ} {index : Fin 4} {reports : List Report}
    (follows : (rack.slot index).Follows reports)
    (moving : (rack.slot index).source.kind.reports = true) (frame : Frame) :
    ((rack.showFrame index frame).2.slot index).Follows
      (reports ++ [⟨frame, frame.isWhole &&
        ((rack.slot index).uploadFrame rack.backend frame).1.isOk⟩]) := by
  have busy : (rack.slot index).source.kind ≠ .empty := by
    intro empty
    rw [empty] at moving
    cases moving
  obtain ⟨handle, slot⟩ := rack.onSlot_shows index frame.content.1 frame.content.2
  have shown : (rack.onSlot index fun slot backend => slot.uploadFrame backend frame).2.slot index =
      if ((rack.slot index).uploadFrame rack.backend frame).1.isOk then
        (rack.slot index).shows handle frame.content.1 frame.content.2
      else rack.slot index := slot
  unfold showFrame
  cases whole : frame.isWhole with
  | false => exact follows.refused frame
  | true =>
    rw [if_pos rfl, shown]
    cases accepted : ((rack.slot index).uploadFrame rack.backend frame).1.isOk with
    | false => exact follows.refused frame
    | true =>
      refine .uploads (follows.idle busy) handle busy fun _ => ?_
      rw [Kind.shows_concat]
      rfl

theorem refreshSlot_follows {rack : Rack σ} {index : Fin 4} {reports : List Report}
    (follows : (rack.slot index).Follows reports) (now : Nat) :
    ((rack.refreshSlot index now).slot index).Follows
      (reports ++ (rack.noted index now).toList) := by
  obtain ⟨source, slot, kind⟩ := rack.spent_slot index now
  have spent : ((rack.spent index now).slot index).Follows reports :=
    slot ▸ follows.withSource kind
  cases due : rack.due index now with
  | none =>
    simp only [noted, due, Option.bind_none, Option.toList_none, List.append_nil]
    by_cases microphone : (rack.slot index).source.kind = .microphone
    · cases held : (rack.slot index).source with
      | microphone id analyser => exact refreshSlot_microphone follows now held
      | _ =>
        rw [held] at microphone
        cases microphone
    · rw [refreshSlot_idle microphone due]
      exact spent
  | some frame =>
    have moving : ((rack.spent index now).slot index).source.kind.reports = true := by
      rw [slot]
      exact kind ▸ busy_of_due due
    have shown := showFrame_follows spent moving frame
    have answer : (((rack.spent index now).slot index).uploadFrame
          (rack.spent index now).backend frame).1 =
        ((rack.slot index).uploadFrame rack.backend frame).1 := by
      rw [slot, Slot.uploadFrame, Coherent.upload_withSource]
      rfl
    rw [answer] at shown
    rw [refreshSlot_due due]
    simp only [noted, due, Option.bind_some]
    split
    · exact shown
    · rw [Option.toList_none, List.append_nil]
      exact spent

variable [Books σ]

/-- What the host does leaves the textures to their owners. -/
theorem Owned.host {rack : Rack σ} (owned : rack.Owned) (step : HostStep) :
    (rack.host step).Owned := by
  cases step with
  | pushStream id frame =>
    obtain ⟨change, pushed, after⟩ := pushStream_eq rack id frame
    have texture (slot : Slot) := (pushed slot).texture
    have uploaded (slot : Slot) := (pushed slot).uploaded
    simp only [Rack.host, after]
    refine ⟨owned.valid, ?_⟩
    simpa only [slot_mapSlots, texture, uploaded] using owned.ownership
  | _ => exact ⟨owned.valid, owned.ownership⟩

theorem new_owned {backend next : σ} {devices : Devices} {options : RackOptions} {start : Rack σ}
    (valid : Books.Valid backend) (cleared : Books.record? backend = fun _ => none)
    (made : Rack.new backend devices options = (.ok start, next)) :
    start.Owned ∧ ∀ index : Fin 4, start.slot index = .empty := by
  unfold Rack.new at made
  split at made
  · cases made
  · rename_i placeholder after created
    obtain ⟨validNext, _, _, records⟩ := Books.create_ok valid created
    obtain rfl := Except.ok.inj (Prod.mk.inj made).1
    have empty (index : Fin 4) : (Vector.replicate 4 Slot.empty)[index] = Slot.empty := by
      simp only [Fin.getElem_fin, Vector.getElem_replicate]
    refine ⟨⟨validNext, ?_⟩, empty⟩
    simp only [empty]
    rw [records, cleared]
    exact Ownership.initial _ placeholder ⟨.rgba 1 1, opaqueBlack, 0⟩ rfl

/-- What the texture of a channel holds. -/
def content? (rack : Rack σ) (index : Fin 4) : Option (TextureDesc × Bytes) :=
  ((rack.slot index).texture.bind (Books.record? rack.backend)).map TextureRecord.content

theorem Owned.content? {rack : Rack σ} (owned : rack.Owned) {index : Fin 4}
    (retained : (rack.slot index).texture = none ↔ (rack.slot index).uploaded = none) :
    rack.content? index = (rack.slot index).uploaded := by
  unfold Rack.content?
  cases held : (rack.slot index).texture with
  | none => exact (retained.mp held).symm
  | some handle =>
    obtain ⟨_, record, alive, shown⟩ := owned.ownership.owned index handle held
    rw [shown, Option.bind_some, alive]
    rfl

end Rack

/-- A rack with what the source of each channel has reported since it came. -/
structure Chronicle (σ : Type) where
  rack : Rack σ
  reports : Fin 4 → List Report

namespace Chronicle

open Channel.Rack

variable {σ : Type} [Backend σ]

/-- An acquisition that arrives brings a source that has not reported anything. -/
def poll (chronicle : Chronicle σ) (index : Fin 4) : Chronicle σ :=
  ⟨chronicle.rack.pollPending index,
    if (chronicle.rack.slot index).pending = none then chronicle.reports
    else Function.update chronicle.reports index []⟩

def refreshSlot (chronicle : Chronicle σ) (index : Fin 4) (now : Nat) : Chronicle σ :=
  ⟨chronicle.rack.refreshSlot index now,
    Function.update chronicle.reports index
      (chronicle.reports index ++ (chronicle.rack.noted index now).toList)⟩

def refresh (chronicle : Chronicle σ) (now : Nat) : Chronicle σ :=
  (List.finRange 4).foldl (fun chronicle index => (chronicle.poll index).refreshSlot index now)
    chronicle

/-- A channel is given something else. -/
def change (chronicle : Chronicle σ) (number : Nat) (after : Rack σ) : Chronicle σ :=
  match checkIndex number with
  | .error _ => ⟨after, chronicle.reports⟩
  | .ok index => ⟨after, Function.update chronicle.reports index []⟩

def step (chronicle : Chronicle σ) : Step → Chronicle σ
  | .bind number request => chronicle.change number (chronicle.rack.bind number request).2
  | .unbind number => chronicle.change number (chronicle.rack.unbind number).2
  | .refresh now => chronicle.refresh now
  | other => ⟨chronicle.rack.step other, chronicle.reports⟩

def run (chronicle : Chronicle σ) (steps : List Step) : Chronicle σ := steps.foldl step chronicle

theorem step_rack (chronicle : Chronicle σ) (step : Step) :
    (chronicle.step step).rack = chronicle.rack.step step := by
  cases step with
  | bind number request =>
    simp only [Chronicle.step, change]
    split <;> rfl
  | unbind number =>
    simp only [Chronicle.step, change]
    split <;> rfl
  | refresh now =>
    simp only [Chronicle.step, Rack.step, refresh, Rack.refresh]
    generalize List.finRange 4 = indices
    induction indices generalizing chronicle with
    | nil => rfl
    | cons index rest ih => exact ih ((chronicle.poll index).refreshSlot index now)
  | _ => rfl

theorem run_rack (chronicle : Chronicle σ) (steps : List Step) :
    (chronicle.run steps).rack = steps.foldl Rack.step chronicle.rack := by
  induction steps generalizing chronicle with
  | nil => rfl
  | cons step rest ih =>
    rw [run, List.foldl_cons, List.foldl_cons, ← step_rack]
    exact ih (chronicle.step step)

variable [Books σ]

/-- The textures have their owners, and each slot shows what its reports tell. -/
structure Faithful (chronicle : Chronicle σ) : Prop where
  owned : chronicle.rack.Owned
  follows : ∀ index, (chronicle.rack.slot index).Follows (chronicle.reports index)

namespace Faithful

variable {chronicle : Chronicle σ}

theorem replace (faithful : chronicle.Faithful) {index : Fin 4} {after : Rack σ}
    {reports : List Report} (owned : after.Owned)
    (others : ∀ other, other ≠ index → after.slot other = chronicle.rack.slot other)
    (follows : (after.slot index).Follows reports) :
    Faithful ⟨after, Function.update chronicle.reports index reports⟩ where
  owned := owned
  follows other := by
    dsimp only
    by_cases same : other = index
    · subst same
      rw [Function.update_self]
      exact follows
    · rw [Function.update_of_ne same, others other same]
      exact faithful.follows other

theorem poll (faithful : chronicle.Faithful) (index : Fin 4) : (chronicle.poll index).Faithful := by
  have owned := (closedAt_owned index).pollPending faithful.owned
  unfold Chronicle.poll
  split
  · rename_i idle
    rw [pollPending_idle idle]
    exact faithful
  · rename_i waits
    exact faithful.replace owned (fun _ apart => (closedAt_slot apart _).pollPending rfl)
      (pollPending_follows (faithful.follows index) waits)

theorem refreshSlot (faithful : chronicle.Faithful) (index : Fin 4) (now : Nat) :
    (chronicle.refreshSlot index now).Faithful :=
  faithful.replace ((closedAt_owned index).refreshSlot now faithful.owned)
    (fun _ apart => (closedAt_slot apart _).refreshSlot now rfl)
    (refreshSlot_follows (faithful.follows index) now)

theorem refresh (faithful : chronicle.Faithful) (now : Nat) :
    (chronicle.refresh now).Faithful := by
  unfold Chronicle.refresh
  generalize List.finRange 4 = indices
  induction indices generalizing chronicle with
  | nil => exact faithful
  | cons index rest ih => exact ih ((faithful.poll index).refreshSlot index now)

theorem step (faithful : chronicle.Faithful) (step : Step) : (chronicle.step step).Faithful := by
  have follows := faithful.follows
  cases step with
  | bind number request =>
    have owned : (chronicle.rack.bind number request).2.Owned :=
      ClosedAt.bind (fun index _ => closedAt_owned index) request faithful.owned
    simp only [Chronicle.step, change]
    split
    · rename_i wrong
      simp only [Rack.bind, wrong]
      exact faithful
    · rename_i index named
      obtain rfl := checkIndex_ok named
      refine faithful.replace owned (fun other apart => ?_) (bind_follows named request)
      exact bind_apart chronicle.rack (fun same => apart (Fin.ext same)) request
  | unbind number =>
    have owned : (chronicle.rack.unbind number).2.Owned :=
      ClosedAt.unbind (fun index _ => closedAt_owned index) faithful.owned
    simp only [Chronicle.step, change]
    split
    · rename_i wrong
      simp only [Rack.unbind, wrong]
      exact faithful
    · rename_i index named
      have down : (chronicle.rack.unbind number).2 = chronicle.rack.teardown index := by
        simp only [Rack.unbind, named]
      rw [down] at owned ⊢
      refine faithful.replace owned (fun _ apart => (closedAt_slot apart _).teardown _ rfl) ?_
      rw [teardown_slot]
      exact Slot.follows_empty []
  | refresh now => exact faithful.refresh now
  | takeEvents => exact ⟨⟨faithful.owned.valid, faithful.owned.ownership⟩, follows⟩
  | host step =>
    refine ⟨faithful.owned.host step, fun index => ?_⟩
    cases step with
    | pushStream id frame =>
      obtain ⟨change, pushed, after⟩ := pushStream_eq chronicle.rack id frame
      simp only [Chronicle.step, Rack.step, Rack.host, after, slot_mapSlots]
      exact (follows index).pushed (pushed _)
    | _ => exact follows index

theorem run (faithful : chronicle.Faithful) (steps : List Step) :
    (chronicle.run steps).Faithful := by
  induction steps generalizing chronicle with
  | nil => exact faithful
  | cons step rest ih => exact ih (faithful.step step)

end Faithful

/-- In every run over any backend, the texture of a channel holds the last frame that was uploaded,
and until there is one what its source begins with. So it holds the newest frame that the source
reported if and only if that was uploaded, or shows the same as the one before it. -/
theorem run_shows {backend next : σ} {options : RackOptions} {start : Rack σ}
    (valid : Books.Valid backend) (cleared : Books.record? backend = fun _ => none)
    (made : Rack.new backend Devices.none options = (.ok start, next)) (steps : List Step) :
    let chronicle := Chronicle.run ⟨start, fun _ => []⟩ steps
    chronicle.rack = steps.foldl Rack.step start ∧
    ∀ index : Fin 4,
      let kind := (chronicle.rack.slot index).source.kind
      kind.reports = true →
        chronicle.rack.content? index = kind.shows (chronicle.reports index) ∧
        ∀ earlier report, chronicle.reports index = earlier ++ [report] →
          (chronicle.rack.content? index = some report.frame.content ↔
            report.uploaded = true ∨ kind.shows earlier = some report.frame.content) := by
  obtain ⟨owned, empty⟩ := new_owned valid cleared made
  have initial : Faithful ⟨start, fun _ => []⟩ :=
    ⟨owned, fun index => by rw [empty]; exact Slot.follows_empty []⟩
  have faithful := initial.run steps
  intro chronicle
  refine ⟨run_rack _ steps, ?_⟩
  intro index kind moving
  have follows := faithful.follows index
  have shown : chronicle.rack.content? index = kind.shows (chronicle.reports index) :=
    (faithful.owned.content? follows.retained).trans (follows.shows moving)
  refine ⟨shown, fun earlier report reported => ?_⟩
  rw [shown, reported, Kind.shows_concat]
  cases report.uploaded <;> simp

/-- A camera reports its only frame when the backend refuses the texture for it, and the backend
takes everything afterwards. -/
def refusedSteps : List Step :=
  [.host (.plan [.ready]), .bind 0 (.camera none), .host (.pushFrame 0 ⟨1, 1, #[10, 20, 30, 255]⟩),
    .refresh 0, .refresh 10]

/-- The frame is reported once and never shown. -/
theorem run_shows_refused :
    ∃ start next, Rack.new refusing Devices.none .bare = (.ok start, next) ∧
      let chronicle := Chronicle.run ⟨start, fun _ => []⟩ refusedSteps
      (chronicle.rack.slot 0).source.kind = .camera ∧
        (chronicle.reports 0).map (·.frame) = [⟨1, 1, #[10, 20, 30, 255]⟩] ∧
        chronicle.rack.content? 0 = none := by
  have made : Rack.new refusing Devices.none .bare = (.ok _, _) := rfl
  have cleared : Books.record? refusing = fun _ => none := rfl
  obtain ⟨_, shows⟩ := run_shows (Headless.valid_new _ 4 4) cleared made refusedSteps
  obtain ⟨shown, _⟩ := shows 0 rfl
  exact ⟨_, _, made, rfl, rfl, shown⟩

end Chronicle

end Channel

end LiveFragment
