import LiveFragment.Proofs.Channel.Owned

namespace LiveFragment.Channel

open LiveFragment.Number LiveFragment.Backend LiveFragment.Media LiveFragment.Uniform

theorem Slot.upload_others {σ : Type} [Backend σ] [Books σ] {slot : Slot} {backend : σ}
    (valid : Books.Valid backend) {handle : TextureHandle} (other : slot.texture ≠ some handle)
    (alive : Books.record? backend handle ≠ none) (desc : TextureDesc) (pixels : Bytes) :
    Books.record? (slot.upload backend desc pixels).2.2 handle = Books.record? backend handle := by
  have allocated : Books.record? (slot.allocate backend desc pixels).2.2 handle =
      Books.record? backend handle := by
    unfold allocate
    split
    · rename_i refused
      rw [(Books.create_error valid refused).2]
    · rename_i texture next created
      obtain ⟨validNext, _, unused, records⟩ := Books.create_ok valid created
      have apart : handle ≠ texture := fun same => alive (same ▸ unused)
      have kept : Books.record? next handle = Books.record? backend handle := by
        rw [records, Function.update_of_ne apart]
      cases held : slot.texture with
      | none => exact kept
      | some old =>
        have different : handle ≠ old := fun same => other (same ▸ held)
        rw [← kept, (Books.release old validNext).2, Function.update_of_ne different]
  unfold upload
  split
  · exact allocated
  · rename_i texture held
    split
    · have different : handle ≠ texture := fun same => other (same ▸ held)
      split
      · rename_i refused
        rw [(Books.update_error valid refused).2]
      · rename_i updated
        obtain ⟨_, _, record, _, _, records⟩ := Books.update_ok valid updated
        rw [records, Function.update_of_ne different]
    · exact allocated

namespace Rack

variable {σ : Type}

theorem request?_eq (rack : Rack σ) (index : Fin 4) :
    rack.request? index.val = (rack.slot index).request := by
  simp [request?, slot?]

theorem request?_congr {rack other : Rack σ} {number : Nat}
    (same : ∀ index : Fin 4, index.val = number →
      (other.slot index).request = (rack.slot index).request) :
    other.request? number = rack.request? number := by
  by_cases real : number < 4
  · have here := same ⟨number, real⟩ rfl
    rwa [← request?_eq, ← request?_eq] at here
  · have outside (rack : Rack σ) : rack.request? number = none := by
      simp [request?, slot?, Nat.le_of_not_lt real]
    rw [outside, outside]

variable [Backend σ]

theorem closedAt_slot {index other : Fin 4} (apart : other ≠ index) (slot : Slot) :
    ClosedAt index fun rack : Rack σ => rack.slot other = slot := by
  have placed (rack : Rack σ) (next : Slot) :
      (rack.setSlot index next).slot other = rack.slot other := by
    rw [slot_setSlot, if_neg apart]
  constructor
  case setSlot => exact fun rack next _ _ before => (placed rack next).trans before
  case upload => exact fun rack _ _ before => (placed rack _).trans before
  case teardown => exact fun rack before => (placed rack _).trans before
  all_goals exact fun _ => by simp [report]

theorem closedAt_options (index : Fin 4) (options : RackOptions) :
    ClosedAt index fun rack : Rack σ => rack.options = options where
  setSlot _ _ _ _ same := same
  upload _ _ _ same := same
  teardown _ same := same
  devices _ _ same := same
  generators _ _ same := same
  broken _ same := same
  report _ _ _ same := same

theorem options_step (rack : Rack σ) (step : Step) : (rack.step step).options = rack.options := by
  cases step with
  | bind number request =>
    exact ClosedAt.bind (fun index _ => closedAt_options index _) request rfl
  | unbind number => exact ClosedAt.unbind (fun index _ => closedAt_options index _) rfl
  | refresh now => exact ClosedAt.refresh (fun index => closedAt_options index _) now rfl
  | takeEvents => rfl
  | host step =>
    cases step with
    | pushStream id frame =>
      obtain ⟨_, _, after⟩ := pushStream_eq rack id frame
      rw [Rack.step, host, after]
    | _ => rfl

/-- The news so far stays, and more of it is about the channel. -/
def Tells (channels : List Nat) (before : List Event) (rack : Rack σ) : Prop :=
  ∃ news, rack.events = before ++ news ∧ ∀ event ∈ news, event.channel ∈ channels

theorem closedAt_tells {index : Fin 4} {channels : List Nat} (own : index.val ∈ channels)
    (before : List Event) : ClosedAt index (Tells channels before : Rack σ → Prop) := by
  constructor
  case report =>
    rintro rack kind outcome ⟨news, told, about⟩
    refine ⟨news ++ [⟨index.val, kind, outcome⟩], ?_, ?_⟩
    · rw [report, told, List.append_assoc]
    · intro event member
      rcases List.mem_append.mp member with old | last
      · exact about event old
      · exact List.mem_singleton.mp last ▸ own
  case setSlot => exact fun _ _ _ _ told => told
  case upload => exact fun _ _ _ told => told
  case teardown => exact fun _ told => told
  case devices => exact fun _ _ told => told
  case generators => exact fun _ _ told => told
  case broken => exact fun _ told => told

theorem closedAt_owned [Books σ] (index : Fin 4) : ClosedAt index (Owned : Rack σ → Prop) where
  setSlot _ _ texture uploaded owned := owned.setSlot texture uploaded
  upload _ desc pixels owned := owned.onSlot index desc pixels
  teardown _ owned := owned.teardown index
  devices _ _ owned := ⟨owned.valid, owned.ownership⟩
  generators _ _ owned := ⟨owned.valid, owned.ownership⟩
  broken _ owned := ⟨owned.valid, owned.ownership⟩
  report _ _ _ owned := ⟨owned.valid, owned.ownership⟩

/-- The texture of another channel stays, with what it shows and how often that was replaced. -/
theorem closedAt_texture [Books σ] {index other : Fin 4} (apart : other ≠ index)
    (handle : TextureHandle) (record : Option TextureRecord) :
    ClosedAt index fun rack : Rack σ => rack.Owned ∧ (rack.slot other).texture = some handle ∧
      Books.record? rack.backend handle = record := by
  have slot {rack : Rack σ} (next : Slot) :
      (rack.setSlot index next).slot other = rack.slot other := by
    rw [slot_setSlot, if_neg apart]
  have free {rack : Rack σ} (owned : rack.Owned) (held : (rack.slot other).texture = some handle) :
      (rack.slot index).texture ≠ some handle :=
    fun both => apart (owned.ownership.distinct other index handle held both)
  constructor
  case setSlot =>
    rintro rack next texture uploaded ⟨owned, held, same⟩
    exact ⟨owned.setSlot texture uploaded, (congrArg Slot.texture (slot next)).trans held, same⟩
  case upload =>
    rintro rack desc pixels ⟨owned, held, same⟩
    obtain ⟨_, found, alive, _⟩ := owned.ownership.owned other handle held
    have kept := Slot.upload_others owned.valid (free owned held) (by simp [alive]) desc pixels
    exact ⟨owned.onSlot index desc pixels, (congrArg Slot.texture (slot _)).trans held,
      kept.trans same⟩
  case teardown =>
    rintro rack ⟨owned, held, same⟩
    refine ⟨owned.teardown index, (congrArg Slot.texture (slot _)).trans held, ?_⟩
    simp only [Rack.teardown]
    split
    · rename_i texture mine
      have different : handle ≠ texture := fun equal => free owned held (equal ▸ mine)
      rw [(Books.release texture owned.valid).2, Function.update_of_ne different, same]
    · exact same
  case devices => exact fun _ _ before => ⟨⟨before.1.valid, before.1.ownership⟩, before.2⟩
  case generators => exact fun _ _ before => ⟨⟨before.1.valid, before.1.ownership⟩, before.2⟩
  case broken => exact fun _ before => ⟨⟨before.1.valid, before.1.ownership⟩, before.2⟩
  case report => exact fun _ _ _ before => ⟨⟨before.1.valid, before.1.ownership⟩, before.2⟩

theorem bind_apart (rack : Rack σ) {number : Nat} {other : Fin 4} (apart : other.val ≠ number)
    (request : Request) : (rack.bind number request).2.slot other = rack.slot other := by
  apply ClosedAt.bind (P := fun after => after.slot other = rack.slot other) _ request rfl
  intro index named
  have different : other ≠ index := by
    rintro rfl
    exact apart named
  exact closedAt_slot different _

theorem bind_tells (rack : Rack σ) {number : Nat} {channels : List Nat} (own : number ∈ channels)
    (request : Request) : Tells channels rack.events (rack.bind number request).2 :=
  ClosedAt.bind (fun _ named => closedAt_tells (named ▸ own) rack.events) request
    ⟨[], by simp, by simp⟩

/-- A property of slots that an empty one has, and that a channel keeps through all that happens to
it in a rack with some options. -/
structure SlotClosed (σ : Type) [Backend σ] (options : RackOptions) (P : Fin 4 → Slot → Prop) :
    Prop where
  empty : ∀ index, P index .empty
  bind : ∀ (rack : Rack σ) (index : Fin 4) (request : Request), rack.options = options →
    P index ((rack.bind index.val request).2.slot index)
  poll : ∀ (rack : Rack σ) (index : Fin 4), rack.options = options → P index (rack.slot index) →
    P index ((rack.pollPending index).slot index)
  refresh : ∀ (rack : Rack σ) (index : Fin 4) (now : Nat), rack.options = options →
    P index (rack.slot index) → P index ((rack.refreshSlot index now).slot index)
  push : ∀ index id frame slot next, Pushed id frame slot next → P index slot → P index next

/-- Every channel of a rack with some options has a property. -/
structure Throughout (options : RackOptions) (P : Fin 4 → Slot → Prop) (rack : Rack σ) : Prop where
  options : rack.options = options
  slots : ∀ index, P index (rack.slot index)

namespace SlotClosed

variable {options : RackOptions} {P : Fin 4 → Slot → Prop} {rack : Rack σ}

omit [Backend σ] in
theorem replace (before : Throughout options P rack) {index : Fin 4} {after : Rack σ}
    (same : after.options = options)
    (others : ∀ other, other ≠ index → after.slot other = rack.slot other)
    (here : P index (after.slot index)) : Throughout options P after := by
  refine ⟨same, fun other => ?_⟩
  by_cases same : other = index
  · rw [same]
    exact here
  · rw [others other same]
    exact before.slots other

theorem teardown (closed : SlotClosed σ options P) (before : Throughout options P rack)
    (index : Fin 4) : Throughout options P (rack.teardown index) := by
  refine replace before ((closedAt_options index _).teardown rack before.options)
    (fun _ apart => (closedAt_slot apart _).teardown rack rfl) ?_
  rw [teardown_slot]
  exact closed.empty index

theorem pollPending (closed : SlotClosed σ options P) (before : Throughout options P rack)
    (index : Fin 4) : Throughout options P (rack.pollPending index) :=
  replace before ((closedAt_options index _).pollPending before.options)
    (fun _ apart => (closedAt_slot apart _).pollPending rfl)
    (closed.poll rack index before.options (before.slots index))

theorem refreshSlot (closed : SlotClosed σ options P) (before : Throughout options P rack)
    (now : Nat) (index : Fin 4) : Throughout options P (rack.refreshSlot index now) :=
  replace before ((closedAt_options index _).refreshSlot now before.options)
    (fun _ apart => (closedAt_slot apart _).refreshSlot now rfl)
    (closed.refresh rack index now before.options (before.slots index))

/-- No step of a rack harms any of its channels. -/
theorem step (closed : SlotClosed σ options P) (before : Throughout options P rack)
    (step : Step) : Throughout options P (rack.step step) := by
  have same := (options_step rack step).trans before.options
  cases step with
  | bind number request =>
    by_cases real : number < 4
    · refine replace before same (fun other apart => ?_)
        (closed.bind rack ⟨number, real⟩ request before.options)
      exact bind_apart rack (fun same => apart (Fin.ext same)) request
    · have wrong : checkIndex number = .error (.invalidIndex number) := dif_neg real
      simp only [Rack.step, Rack.bind, wrong]
      exact before
  | unbind number =>
    simp only [Rack.step, Rack.unbind]
    split
    · exact before
    · exact closed.teardown before _
  | refresh now =>
    exact refresh_induction (P := Throughout options P)
      (fun _ index kept => closed.pollPending kept index)
      (fun _ index kept => closed.refreshSlot kept now index) before
  | takeEvents => exact ⟨before.options, before.slots⟩
  | host step =>
    refine ⟨same, fun index => ?_⟩
    cases step with
    | pushStream id frame =>
      obtain ⟨change, pushed, after⟩ := pushStream_eq rack id frame
      rw [Rack.step, Rack.host, after, slot_mapSlots]
      exact closed.push index id frame _ _ (pushed _) (before.slots index)
    | _ => exact before.slots index

theorem run (closed : SlotClosed σ options P) (before : Throughout options P rack)
    (steps : List Step) : Throughout options P (steps.foldl Rack.step rack) := by
  induction steps generalizing rack with
  | nil => exact before
  | cons step rest ih => exact ih (closed.step before step)

end SlotClosed

/-- A channel has what was asked for, or it is empty and there is news of a failure. -/
def Settled (index : Fin 4) (request : Request) (before : List Event) (rack : Rack σ) : Prop :=
  (rack.slot index).request = some request ∨
    rack.slot index = .empty ∧ ∃ news error, rack.events = before ++ news ∧
      ⟨index.val, request.kind, .error error⟩ ∈ news

namespace Settled

variable {index : Fin 4} {request : Request} {channels : List Nat} {before : List Event}
  {rack after : Rack σ}

omit [Backend σ] in
theorem later (settled : Settled index request before rack)
    (slot : after.slot index = rack.slot index) (told : Tells channels rack.events after) :
    Settled index request before after := by
  unfold Settled at settled ⊢
  rw [slot]
  refine settled.imp_right fun ⟨empty, news, error, queued, failed⟩ => ?_
  obtain ⟨more, told, _⟩ := told
  refine ⟨empty, news ++ more, error, ?_, List.mem_append_left _ failed⟩
  rw [told, queued, List.append_assoc]

omit [Backend σ] in
theorem earlier (settled : Settled index request rack.events after)
    (told : Tells channels before rack) : Settled index request before after := by
  refine settled.imp_right fun ⟨empty, news, error, queued, failed⟩ => ?_
  obtain ⟨first, told, _⟩ := told
  refine ⟨empty, first ++ news, error, ?_, List.mem_append_right _ failed⟩
  rw [queued, told, List.append_assoc]

end Settled

theorem bind_settled (rack : Rack σ) (index : Fin 4) (request : Request) :
    Settled index request rack.events (rack.bind index.val request).2 := by
  have named : checkIndex index.val = .ok index := dif_pos index.isLt
  have closed : ClosedAt index (Tells [index.val] rack.events : Rack σ → Prop) :=
    closedAt_tells (List.mem_singleton.mpr rfl) rack.events
  have told : Tells [index.val] rack.events ((rack.teardown index).acquire index request).2 :=
    closed.acquire request (closed.teardown rack ⟨[], by simp, by simp⟩)
  simp only [Rack.bind, named]
  cases acquired : (rack.teardown index).acquire index request with
  | mk result after =>
    rw [acquired] at told
    cases result with
    | ok =>
      left
      dsimp only
      split
      · rw [slot_report, slot_setSlot_self]
      · rw [slot_setSlot_self]
    | error error =>
      obtain ⟨news, queued, _⟩ := told
      refine .inr ⟨teardown_slot after index, news ++ [⟨index.val, request.kind, .error error⟩],
        error, ?_, by simp⟩
      rw [← List.append_assoc, ← queued]
      rfl

end Rack

end LiveFragment.Channel
