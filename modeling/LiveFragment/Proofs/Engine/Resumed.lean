import LiveFragment.Proofs.Channel.Apart
import LiveFragment.Proofs.Engine.Session

namespace LiveFragment

open LiveFragment.Number LiveFragment.Backend LiveFragment.Channel LiveFragment.Directive
  LiveFragment.Media LiveFragment.Parameter LiveFragment.Program LiveFragment.Uniform

namespace Channel.Rack

variable {σ : Type}

/-- The directives that name a channel with another request, or with none. -/
def unmet (rack : Rack σ) (directives : List TextureDirective) : List TextureDirective :=
  directives.filter fun directive =>
    rack.request? directive.channel ≠ some (.ofSource directive.source)

theorem unmet_congr {rack other : Rack σ} {directives : List TextureDirective}
    (same : ∀ directive ∈ directives,
      other.request? directive.channel = rack.request? directive.channel) :
    other.unmet directives = rack.unmet directives := by
  apply List.filter_congr
  intro directive member
  rw [same directive member]

/-- A channel of a restored rack that goes on: it has its source, its request, its resolution and
what it waits for, and its texture shows what was uploaded last. -/
structure Resumes [Backend σ] [Books σ] (before after : Rack σ) (index : Fin 4) : Prop where
  slot : after.slot index =
    { before.slot index with texture := (after.slot index).texture }
  shown : ∀ content, (before.slot index).uploaded = some content →
    (Books.record? after.backend (after.sampled index)).map TextureRecord.content = some content
  dark : (before.slot index).uploaded = none → after.sampled index = after.placeholder

variable [Backend σ]

theorem Owned.resumes [Books σ] {before after : Rack σ} (owned : after.Owned) {index : Fin 4}
    (slot : after.slot index =
      { before.slot index with texture := (after.slot index).texture })
    (again : (after.slot index).texture = none ↔ (before.slot index).uploaded = none) :
    before.Resumes after index where
  slot := slot
  shown := by
    intro content uploaded
    cases held : (after.slot index).texture with
    | none =>
      rw [again.mp held] at uploaded
      cases uploaded
    | some handle =>
      obtain ⟨_, record, alive, shows⟩ := owned.ownership.owned index handle held
      have same : (after.slot index).uploaded = some content :=
        (congrArg Slot.uploaded slot).trans uploaded
      have sampled : after.sampled index = handle := by
        rw [sampled_eq, held]
        rfl
      rw [sampled, alive]
      exact shows.symm.trans same
  dark := by
    intro nothing
    have missing := again.mpr nothing
    rw [sampled_eq, missing]
    rfl

theorem request?_bind_apart (rack : Rack σ) {number other : Nat} (apart : other ≠ number)
    (request : Request) : (rack.bind number request).2.request? other = rack.request? other := by
  apply request?_congr
  rintro index rfl
  rw [bind_apart rack apart]

/-- Binds a channel to what a directive asks for. -/
def follow (rack : Rack σ) (directive : TextureDirective) : Rack σ :=
  (rack.bind directive.channel (.ofSource directive.source)).2

/-- With one directive for each channel, the ones to follow are known beforehand. -/
theorem bindDirectives_eq {rack : Rack σ} {directives : List TextureDirective}
    (channels : ∀ directive ∈ directives, directive.channel < channelCount)
    (ordered : directives.Pairwise (·.channel < ·.channel)) :
    (Engine.bindDirectives rack directives).2 = (rack.unmet directives).foldl follow rack := by
  induction directives generalizing rack with
  | nil => rfl
  | cons directive rest ih =>
    obtain ⟨real, others⟩ := List.forall_mem_cons.mp channels
    obtain ⟨above, ordered⟩ := List.pairwise_cons.mp ordered
    have bound := Engine.bind_ok rack real (.ofSource directive.source)
    by_cases met : rack.request? directive.channel = some (.ofSource directive.source)
    · have first : rack.unmet (directive :: rest) = rack.unmet rest :=
        List.filter_cons_of_neg (by simpa using met)
      simp only [Engine.bindDirectives, met, ↓reduceIte, first]
      exact ih others ordered
    · have first : rack.unmet (directive :: rest) = directive :: rack.unmet rest :=
        List.filter_cons_of_pos (by simpa using met)
      -- The rest names other channels, whose requests this one does not change.
      have still : (rack.follow directive).unmet rest = rack.unmet rest :=
        unmet_congr fun other member =>
          request?_bind_apart rack (Nat.ne_of_gt (above other member)) _
      simp only [Engine.bindDirectives, met, ↓reduceIte, first, List.foldl_cons]
      split
      · rename_i refused
        rw [refused] at bound
        cases bound
      · rename_i after accepted
        have next : rack.follow directive = after := congrArg Prod.snd accepted
        rw [next] at still ⊢
        rw [← still]
        exact ih others ordered

variable {directives : List TextureDirective}

theorem follow_closed {P : Rack σ → Prop} {rack : Rack σ}
    (closed : ∀ directive ∈ directives, ∀ index : Fin 4, index.val = directive.channel →
      ClosedAt index P) (before : P rack) : P (directives.foldl follow rack) := by
  induction directives generalizing rack with
  | nil => exact before
  | cons directive rest ih =>
    obtain ⟨first, others⟩ := List.forall_mem_cons.mp closed
    exact ih others (ClosedAt.bind first _ before)

theorem follow_owned [Books σ] {rack : Rack σ} (owned : rack.Owned) :
    (directives.foldl follow rack).Owned :=
  follow_closed (fun _ _ index _ => closedAt_owned index) owned

theorem follow_slot {rack : Rack σ} {index : Fin 4}
    (apart : ∀ directive ∈ directives, directive.channel ≠ index.val) :
    (directives.foldl follow rack).slot index = rack.slot index := by
  apply follow_closed (P := fun after => after.slot index = rack.slot index) _ rfl
  intro directive member named here
  refine closedAt_slot ?_ _
  rintro rfl
  exact apart directive member here.symm

/-- A channel that is not named keeps its texture, and nothing is uploaded to it. -/
theorem follow_texture [Books σ] {rack : Rack σ} {index : Fin 4}
    (apart : ∀ directive ∈ directives, directive.channel ≠ index.val) (owned : rack.Owned)
    {handle : TextureHandle} (held : (rack.slot index).texture = some handle) :
    Books.record? (directives.foldl follow rack).backend handle =
      Books.record? rack.backend handle := by
  have closed : ∀ directive ∈ directives, ∀ other : Fin 4, other.val = directive.channel →
      ClosedAt other fun after : Rack σ => after.Owned ∧
        (after.slot index).texture = some handle ∧
        Books.record? after.backend handle = Books.record? rack.backend handle := by
    intro directive member named here
    refine closedAt_texture ?_ handle _
    rintro rfl
    exact apart directive member here.symm
  exact (follow_closed closed ⟨owned, held, rfl⟩).2.2

theorem follow_tells {rack : Rack σ} {channels : List Nat} {before : List Event}
    (own : ∀ directive ∈ directives, directive.channel ∈ channels)
    (told : Tells channels before rack) : Tells channels before (directives.foldl follow rack) :=
  follow_closed
    (fun directive member _ here => closedAt_tells (here ▸ own directive member) before) told

theorem follow_settled {rack : Rack σ} (ordered : directives.Pairwise (·.channel < ·.channel))
    {directive : TextureDirective} (member : directive ∈ directives) {index : Fin 4}
    (named : directive.channel = index.val) :
    (directives.foldl follow rack).Settled index (.ofSource directive.source) rack.events := by
  induction directives generalizing rack with
  | nil => cases member
  | cons first rest ih =>
    obtain ⟨above, ordered⟩ := List.pairwise_cons.mp ordered
    rcases List.mem_cons.mp member with rfl | later
    -- Once a channel is bound, no other directive comes back to it.
    · have settled := bind_settled rack index (.ofSource directive.source)
      rw [← named] at settled
      have apart : ∀ other ∈ rest, other.channel ≠ index.val :=
        fun other member => named ▸ Nat.ne_of_gt (above other member)
      have told : Tells (rest.map (·.channel)) (rack.follow directive).events
          (rest.foldl follow (rack.follow directive)) :=
        follow_tells (fun other member => List.mem_map_of_mem member) ⟨[], by simp, by simp⟩
      exact settled.later (follow_slot apart) told
    · have told : Tells [first.channel] rack.events (rack.follow first) :=
        bind_tells rack (List.mem_singleton.mpr rfl) _
      exact (ih ordered later).earlier told

end Channel.Rack

namespace Engine

open Channel.Rack

/-- The directives of the last text that compiled, as far as their channels have been given
something else, or nothing came of them. -/
def unmet {σ : Type} (engine : Engine σ) : List TextureDirective :=
  match engine.lastGoodSource with
  | none => []
  | some source => engine.rack.unmet (Directives.ofSource source).textures

theorem unmet_ordered {σ : Type} (engine : Engine σ) :
    engine.unmet.Pairwise (·.channel < ·.channel) := by
  unfold unmet
  split
  · exact .nil
  · exact (Directives.ordered_ofSource _).filter _

theorem of_mem_unmet {σ : Type} {engine : Engine σ} {directive : TextureDirective}
    (member : directive ∈ engine.unmet) :
    directive.channel < channelCount ∧
      engine.rack.request? directive.channel ≠ some (.ofSource directive.source) := by
  unfold unmet at member
  split at member
  · cases member
  · rename_i source _
    obtain ⟨declared, unmet⟩ := List.mem_filter.mp member
    exact ⟨(Directives.formed_ofSource source).channels directive declared, by simpa using unmet⟩

/-- A program that is installed takes one call of the backend, and one more if a program goes. Then
the channels follow the directives that are unmet. -/
theorem installProgram_ok {σ : Type} [Backend σ] {engine after : Engine σ} {source : String}
    {keepValues : Bool} (installed : engine.installProgram source keepValues = (.ok (), after)) :
    ∃ handle backend,
      Backend.compileProgram engine.rack.backend
          (Assembly.ofSource source (Directives.ofSource source).params).text =
        (.ok handle, backend) ∧
      after.rack = (engine.rack.unmet (Directives.ofSource source).textures).foldl follow
        { engine.rack with backend := (engine.setBackend backend).retired } := by
  simp only [installProgram] at installed
  split at installed
  · cases installed
  · rename_i compiled backend made
    obtain ⟨own, _, taken⟩ := compile_ok made
    rw [adopt_eq _ keepValues own] at installed
    obtain rfl := (Prod.mk.inj installed).2
    refine ⟨compiled.binding.handle, backend, taken, ?_⟩
    exact bindDirectives_eq (Directives.formed_ofSource source).channels
      (Directives.ordered_ofSource source)

/-- An engine without a program gets one. Its backend keeps the textures, and its channels follow
the directives that are unmet. -/
theorem installProgram_rack {σ : Type} [Backend σ] [Books σ] {engine after : Engine σ}
    {source : String} {keepValues : Bool} (bare : engine.program = none)
    (owned : engine.rack.Owned)
    (installed : engine.installProgram source keepValues = (.ok (), after)) :
    ∃ backend, Owned { engine.rack with backend } ∧
      after.rack = (engine.rack.unmet (Directives.ofSource source).textures).foldl follow
        { engine.rack with backend } := by
  obtain ⟨_, backend, taken, followed⟩ := installProgram_ok installed
  obtain ⟨valid, same⟩ := Books.compileProgram
    (Assembly.ofSource source (Directives.ofSource source).params).text owned.valid
  rw [taken] at valid same
  refine ⟨backend, ⟨valid, same ▸ owned.ownership⟩, ?_⟩
  simpa only [retired, setBackend, bare] using followed

/-- Restoring makes the textures again and then follows the directives that are unmet. -/
theorem notifyDeviceRestored_ok {engine after : Engine Headless}
    (restored : engine.notifyDeviceRestored = (.ok (), after)) :
    ∃ remade : Channel.Rack Headless, remade.Owned ∧
      Remade (List.finRange 4) engine.rack remade ∧
      after.rack = engine.unmet.foldl follow remade := by
  unfold notifyDeviceRestored at restored
  split at restored
  · cases restored
  · rename_i backend back
    obtain ⟨valid, cleared⟩ := Headless.restore_ok back
    dsimp only at restored
    split at restored
    · cases restored
    · rename_i rack rebuilt
      obtain ⟨owned, remade⟩ := rebuild_ok valid cleared rebuilt
      have again : Remade (List.finRange 4) engine.rack rack := { remade with }
      unfold unmet
      split at restored
      · rename_i never
        obtain rfl := (Prod.mk.inj restored).2
        rw [show engine.lastGoodSource = none from never]
        exact ⟨rack, owned, again, rfl⟩
      · rename_i source last
        obtain ⟨backend, served, followed⟩ := installProgram_rack rfl owned restored
        have still : rack.unmet (Directives.ofSource source).textures =
            engine.rack.unmet (Directives.ofSource source).textures := by
          apply unmet_congr
          intro directive _
          apply request?_congr
          intro index _
          rw [again.slots index]
        rw [show engine.lastGoodSource = some source from last]
        exact ⟨{ rack with backend }, served, { again with }, followed.trans (by rw [still])⟩

/-- A device that was restored leaves the channels alone that no directive of the last text takes
back, and queues no events for them. A channel that is taken back has the request of the directive,
or is empty after a failure that was queued; so restoring shows in no channel and in no event if and
only if each directive finds its request where it was. -/
theorem restored_channels {engine after : Engine Headless}
    (restored : engine.notifyDeviceRestored = (.ok (), after)) :
    (∀ index : Fin 4, (∀ directive ∈ engine.unmet, directive.channel ≠ index.val) →
      engine.rack.Resumes after.rack index) ∧
    (∀ (index : Fin 4) (directive : TextureDirective), directive ∈ engine.unmet →
      directive.channel = index.val →
        after.rack.Settled index (.ofSource directive.source) engine.rack.events) ∧
    Tells (engine.unmet.map (·.channel)) engine.rack.events after.rack ∧
    (((∀ index : Fin 4, engine.rack.Resumes after.rack index) ∧
      after.rack.events = engine.rack.events) ↔ engine.unmet = []) := by
  obtain ⟨remade, owned, again, rack⟩ := notifyDeviceRestored_ok restored
  have whole : after.rack.Owned := rack ▸ follow_owned owned
  have resumes (index : Fin 4) (apart : ∀ directive ∈ engine.unmet,
      directive.channel ≠ index.val) : engine.rack.Resumes after.rack index := by
    have still : after.rack.slot index = remade.slot index := rack ▸ follow_slot apart
    apply whole.resumes
    · rw [still]
      exact again.slots index
    · rw [still]
      exact again.again index (List.mem_finRange index)
  have settled (index : Fin 4) (directive : TextureDirective) (member : directive ∈ engine.unmet)
      (named : directive.channel = index.val) :
      after.rack.Settled index (.ofSource directive.source) engine.rack.events := by
    rw [rack, ← again.events]
    exact follow_settled engine.unmet_ordered member named
  have told : Tells (engine.unmet.map (·.channel)) engine.rack.events after.rack := by
    rw [rack]
    exact follow_tells (fun directive member => List.mem_map_of_mem member)
      ⟨[], by simp [again.events], by simp⟩
  refine ⟨resumes, settled, told, ?_, ?_⟩
  · rintro ⟨all, silent⟩
    -- An unmet directive either changed the request of its channel or left word of a failure.
    apply List.eq_nil_iff_forall_not_mem.mpr
    intro directive member
    obtain ⟨real, unmet⟩ := of_mem_unmet member
    obtain taken | ⟨_, news, _, queued, failed⟩ :=
      settled ⟨directive.channel, real⟩ directive member rfl
    · have same := congrArg Slot.request (all ⟨directive.channel, real⟩).slot
      have before := engine.rack.request?_eq ⟨directive.channel, real⟩
      exact unmet (before.trans (same.symm.trans taken))
    · rw [List.self_eq_append_right.mp (silent.symm.trans queued)] at failed
      cases failed
  · intro met
    obtain ⟨news, queued, about⟩ := told
    have none : news = [] := List.eq_nil_iff_forall_not_mem.mpr fun event member => by
      simpa [met] using about event member
    refine ⟨fun index => resumes index (by simp [met]), ?_⟩
    rw [queued, none, List.append_nil]

/-- A picture takes the place of the noise that the text asks for, another one is bound beside it,
and the device goes. -/
def reboundOps : List Op :=
  [.compile (Session.drawingText "// @texture 0 noise\n"), .bind 0 (.pixels ⟨1, 1, opaqueBlack⟩),
    .bind 1 (.pixels ⟨1, 1, opaqueBlack⟩), .takeEvents, .loseDevice]

/-- The noise is back in place of the first picture, and the second picture is still there. -/
theorem restored_channels_rebound :
    ∃ start, Engine.new (Headless.new (fun _ => none) 1 1) Devices.none Session.lossOptions =
        (.ok start, start.rack.backend) ∧
      let before := (Session.run ⟨start, none⟩ reboundOps).engine
      let after := before.notifyDeviceRestored.2
      before.notifyDeviceRestored.1 = .ok () ∧ before.unmet = [⟨0, .builtin .noise⟩] ∧
        before.rack.Resumes after.rack 1 ∧
        before.rack.slots.toList.map (·.source.kind) = [.image, .image, .empty, .empty] ∧
        after.rack.slots.toList.map (·.source.kind) = [.noise, .image, .empty, .empty] ∧
        after.rack.events.map (·.channel) = [0] := by
  obtain ⟨start, made, _⟩ := Engine.new_coherent (fun _ => none) 1 1 Session.lossOptions
  have seen := Engine.observed_of_new made (fun engine =>
      let before := (Session.run ⟨engine, none⟩ reboundOps).engine
      let after := before.notifyDeviceRestored.2
      ((before.notifyDeviceRestored.1.isOk, before.unmet),
        (before.rack.slots.toList.map (·.source.kind),
          after.rack.slots.toList.map (·.source.kind)),
        after.rack.events.map (·.channel)))
    ((true, [⟨0, .builtin .noise⟩]),
      ([.image, .image, .empty, .empty], [.noise, .image, .empty, .empty]), [0])
    (by decide +kernel)
  simp only [Prod.mk.injEq] at seen
  refine ⟨start, made, ?_⟩
  dsimp only
  generalize (Session.run ⟨start, none⟩ reboundOps).engine = before at seen ⊢
  obtain ⟨⟨accepted, unmet⟩, ⟨kindsBefore, kindsAfter⟩, told⟩ := seen
  cases answer : before.notifyDeviceRestored with
  | mk result after =>
    rw [answer] at accepted kindsAfter told
    cases result with
    | error error => cases accepted
    | ok =>
      have apart : ∀ directive ∈ before.unmet, directive.channel ≠ (1 : Fin 4).val := by
        simp [unmet]
      obtain ⟨resumes, _⟩ := restored_channels answer
      exact ⟨rfl, unmet, resumes 1 apart, kindsBefore, kindsAfter, told⟩

end Engine

end LiveFragment
