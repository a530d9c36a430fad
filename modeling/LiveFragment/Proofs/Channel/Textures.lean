import LiveFragment.Proofs.Channel.Coherence

namespace LiveFragment.Channel

open LiveFragment.Backend LiveFragment.Media

/-- A call of a rack or a step of its host, a loss of the device, or its return. -/
inductive Turn
  | call (step : Step)
  | lose
  /-- The device is restored, and the textures are made again at once. -/
  | restore

def Turn.Fits : Turn → Prop
  | .call step => step.Fits
  | _ => True

namespace Rack

def turn (rack : Rack Headless) : Turn → Rack Headless
  | .call step => rack.step step
  | .lose => { rack with backend := rack.backend.lose }
  | .restore => (Rack.rebuild { rack with backend := (Backend.restore rack.backend).2 }).2

def run (rack : Rack Headless) (turns : List Turn) : Rack Headless := turns.foldl turn rack

end Rack

/-- A rack, watched for the streams that have not shown a frame of their own yet. -/
structure Watched (σ : Type) where
  rack : Rack σ
  fresh : Fin 4 → Bool

namespace Watched

section Steps

variable {σ : Type} [Backend σ]

/-- What was in flight to a channel may come as a stream. -/
def poll (watched : Watched σ) (index : Fin 4) : Watched σ :=
  let after := watched.rack.pollPending index
  ⟨after,
    if (watched.rack.slot index).pending = none then watched.fresh
    else after.renewed watched.fresh index⟩

/-- A stream that shows a frame is no longer fresh. -/
def refreshSlot (watched : Watched σ) (index : Fin 4) (now : Nat) : Watched σ :=
  ⟨watched.rack.refreshSlot index now,
    if watched.rack.showsFrame index now then Function.update watched.fresh index false
    else watched.fresh⟩

def refresh (watched : Watched σ) (now : Nat) : Watched σ :=
  (List.finRange 4).foldl (fun watched index => (watched.poll index).refreshSlot index now) watched

/-- A rack after a channel was given something else. -/
def change (watched : Watched σ) (number : Nat) (after : Rack σ) : Watched σ :=
  match checkIndex number with
  | .error _ => ⟨after, watched.fresh⟩
  | .ok index => ⟨after, after.renewed watched.fresh index⟩

def step (watched : Watched σ) : Step → Watched σ
  | .bind number request => watched.change number (watched.rack.bind number request).2
  | .unbind number => watched.change number (watched.rack.unbind number).2
  | .refresh now => watched.refresh now
  | .takeEvents => ⟨watched.rack.takeEvents.2, watched.fresh⟩
  | .host step => ⟨watched.rack.host step, watched.fresh⟩

theorem refresh_rack (watched : Watched σ) (now : Nat) :
    (watched.refresh now).rack = watched.rack.refresh now := by
  unfold refresh Rack.refresh
  generalize List.finRange 4 = indices
  induction indices generalizing watched with
  | nil => rfl
  | cons index rest ih =>
    rw [List.foldl_cons, List.foldl_cons, ih]
    rfl

omit [Backend σ] in
theorem change_rack (watched : Watched σ) (number : Nat) (after : Rack σ) :
    (watched.change number after).rack = after := by
  unfold change
  split <;> rfl

theorem step_rack (watched : Watched σ) (step : Step) :
    (watched.step step).rack = watched.rack.step step := by
  cases step with
  | bind number request => exact change_rack ..
  | unbind number => exact change_rack ..
  | refresh now => exact refresh_rack ..
  | takeEvents => rfl
  | host step => rfl

variable [Books σ]

/-- The watched streams are the fresh ones of a coherent rack. -/
def Coherent (watched : Watched σ) : Prop := watched.rack.Coherent watched.fresh

theorem Coherent.poll {watched : Watched σ} (coherent : watched.Coherent) (index : Fin 4) :
    (watched.poll index).Coherent := by
  simp only [Watched.poll, Watched.Coherent]
  split
  · rename_i idle
    rw [Rack.pollPending_idle idle]
    exact coherent
  · rename_i waiting
    exact Rack.Coherent.pollPending coherent waiting

theorem Coherent.refresh {watched : Watched σ} (coherent : watched.Coherent) (now : Nat) :
    (watched.refresh now).Coherent := by
  unfold Watched.refresh
  generalize List.finRange 4 = indices
  induction indices generalizing watched with
  | nil => exact coherent
  | cons index rest ih =>
    have polled : (watched.poll index).Coherent := coherent.poll index
    exact ih (Rack.Coherent.refreshSlot polled index now)

theorem Coherent.step {watched : Watched σ} (coherent : watched.Coherent) {step : Step}
    (fits : step.Fits) : (watched.step step).Coherent := by
  cases step with
  | bind number request =>
    simp only [Watched.step, change]
    split
    · rename_i error wrong
      simp only [Watched.Coherent, Rack.bind, wrong]
      exact coherent
    · rename_i index named
      exact Rack.Coherent.bind coherent named fits
  | unbind number =>
    simp only [Watched.step, change]
    split
    · rename_i error wrong
      simp only [Watched.Coherent, Rack.unbind, wrong]
      exact coherent
    · rename_i index named
      exact Rack.Coherent.unbind coherent named
  | refresh now => exact coherent.refresh now
  | takeEvents => exact { coherent with }
  | host step => exact Rack.Coherent.host coherent fits

end Steps

def turn (watched : Watched Headless) : Turn → Watched Headless
  | .call step => watched.step step
  | other => ⟨watched.rack.turn other, watched.fresh⟩

def run (watched : Watched Headless) (turns : List Turn) : Watched Headless :=
  turns.foldl turn watched

theorem run_rack (watched : Watched Headless) (turns : List Turn) :
    (watched.run turns).rack = watched.rack.run turns := by
  induction turns generalizing watched with
  | nil => rfl
  | cons turn rest ih =>
    have one : (watched.turn turn).rack = watched.rack.turn turn := by
      cases turn with
      | call step => exact step_rack watched step
      | lose => rfl
      | restore => rfl
    simp only [run, Rack.run, List.foldl_cons] at ih ⊢
    rw [ih, one]

theorem Coherent.turn {watched : Watched Headless} (coherent : watched.Coherent) {turn : Turn}
    (fits : turn.Fits) : (watched.turn turn).Coherent := by
  cases turn with
  | call step => exact Coherent.step coherent fits
  | lose =>
    have valid : Books.Valid watched.rack.backend.lose :=
      ⟨coherent.valid.distinct, coherent.valid.textures, coherent.valid.programs⟩
    exact Rack.Coherent.withBackend coherent valid rfl
  | restore =>
    simp only [Watched.turn, Rack.turn, Watched.Coherent]
    cases restored : Backend.restore watched.rack.backend with
    | mk result next =>
      obtain ⟨rfl, rfl⟩ := Prod.mk.inj restored
      obtain ⟨valid, cleared⟩ := Books.restore_ok coherent.valid restored
      obtain ⟨after, rebuilt, made, _⟩ := Rack.Coherent.rebuild coherent valid rfl cleared
      rw [rebuilt]
      exact made

theorem Coherent.run {watched : Watched Headless} (coherent : watched.Coherent)
    {turns : List Turn} (fits : ∀ turn ∈ turns, turn.Fits) : (watched.run turns).Coherent := by
  induction turns generalizing watched with
  | nil => exact coherent
  | cons turn rest ih =>
    exact ih (coherent.turn (fits turn (by simp))) fun turn member => fits turn (by simp [member])

end Watched

/-- Every live texture has its owner, and every owner tells what it owns. -/
structure Rack.Accounted (fresh : Fin 4 → Bool) (rack : Rack Headless) : Prop where
  live : ∀ handle, handle ∈ rack.backend.live ↔
    handle = rack.placeholder ∨ ∃ index : Fin 4, (rack.slot index).texture = some handle
  once : rack.backend.live.Nodup
  distinct : ∀ (first second : Fin 4) (handle : TextureHandle),
    (rack.slot first).texture = some handle → (rack.slot second).texture = some handle →
      first = second
  apart : ∀ index : Fin 4, (rack.slot index).texture ≠ some rack.placeholder
  black : (rack.backend.texture? rack.placeholder).map TextureRecord.content =
    some (.rgba 1 1, opaqueBlack)
  faithful : ∀ (index : Fin 4) (handle : TextureHandle),
    (rack.slot index).texture = some handle →
      ∃ record, rack.backend.texture? handle = some record ∧
        (rack.slot index).uploaded = some (record.desc, record.pixels)
  sampled : ∀ index : Fin 4,
    rack.sampled index = (rack.slot index).texture.getD rack.placeholder
  empty : ∀ index : Fin 4, (rack.slot index).source.kind = .empty →
    (rack.slot index).texture = none
  waiting : ∀ index : Fin 4, (rack.slot index).pending ≠ none →
    (rack.slot index).source.kind = .empty
  dark : ∀ index : Fin 4, (rack.slot index).texture = none →
    (rack.slot index).resolution = .empty
  /-- A texture gives its channel the resolution, but not a stream its initial one. -/
  sized : ∀ (index : Fin 4) (handle : TextureHandle) (record : TextureRecord),
    (rack.slot index).texture = some handle → rack.backend.texture? handle = some record →
      (rack.slot index).resolution =
        if fresh index then .empty else .ofSize record.desc.width record.desc.height
  initial : ∀ index : Fin 4, fresh index = true →
    (rack.slot index).source.kind = .stream ∧
      ∃ handle record, (rack.slot index).texture = some handle ∧
        rack.backend.texture? handle = some record ∧ record.desc = .rgba 1 1
  intact : rack.broken = false

theorem Rack.Coherent.accounted {fresh : Fin 4 → Bool} {rack : Rack Headless}
    (coherent : rack.Coherent fresh) : rack.Accounted fresh := by
  have ownership := coherent.ownership
  constructor
  case live =>
    intro handle
    rw [Headless.mem_live_iff]
    constructor
    · intro alive
      obtain ⟨record, found⟩ := Option.isSome_iff_exists.mp alive
      exact ownership.live handle record found
    · rintro (rfl | ⟨index, held⟩)
      · obtain ⟨record, alive, _⟩ := ownership.placeholder_alive
        exact Option.isSome_iff_exists.mpr ⟨record, alive⟩
      · obtain ⟨_, record, alive, _⟩ := ownership.owned index handle held
        exact Option.isSome_iff_exists.mpr ⟨record, alive⟩
  case once => exact coherent.valid.distinct
  case distinct => exact ownership.distinct
  case apart =>
    intro index held
    exact (ownership.owned index _ held).1 rfl
  case black => exact ownership.placeholder_black
  case faithful =>
    intro index handle held
    exact (ownership.owned index handle held).2
  case sampled => exact rack.sampled_eq
  case empty => exact fun index => (coherent.slots index).bare
  case waiting => exact fun index => (coherent.slots index).waiting
  case dark => exact fun index => (coherent.slots index).dark
  case sized =>
    intro index handle record held found
    obtain ⟨_, owned, alive, uploaded⟩ := ownership.owned index handle held
    obtain rfl := Option.some.inj (found.symm.trans alive)
    exact (coherent.slots index).sized _ _ uploaded
  case initial =>
    intro index isFresh
    obtain ⟨stream, uploaded⟩ := (coherent.slots index).initial isFresh
    cases held : (rack.slot index).texture with
    | none =>
      have bare := (coherent.slots index).retained.mp held
      rw [bare] at uploaded
      cases uploaded
    | some handle =>
      obtain ⟨_, record, alive, shown⟩ := ownership.owned index handle held
      have same := Option.some.inj (uploaded.symm.trans shown)
      exact ⟨stream, handle, record, rfl, alive, (Prod.mk.inj same).1.symm⟩
  case intact => exact coherent.intact

/-- After any turns, the live textures are the placeholder and those of the channels. -/
theorem Rack.run_accounted (judge : String → Option String) (width height : UInt32)
    (options : RackOptions) {turns : List Turn} (fits : ∀ turn ∈ turns, turn.Fits) :
    ∃ start, Rack.new (Headless.new judge width height) Devices.none options =
        (.ok start, start.backend) ∧
      (start.run turns).Accounted (Watched.run ⟨start, fun _ => false⟩ turns).fresh := by
  have queued : Devices.none.Sound := by simp [Devices.Sound, Devices.none]
  have valid := Headless.valid_new judge width height
  have cleared : Books.record? (Headless.new judge width height) = fun _ => none := rfl
  obtain ⟨start, made, coherent, _⟩ := new_coherent options valid rfl cleared queued
  refine ⟨start, made, ?_⟩
  have watched : Watched.Coherent ⟨start, fun _ => false⟩ := coherent
  have after := watched.run fits
  rw [Watched.Coherent, Watched.run_rack] at after
  exact after.accounted

/-- A frame is pushed to a stream that is still to come; then the device goes and comes back. -/
def streamTurns : List Turn :=
  [.call (.host (.plan [.pending])), .call (.bind 2 (.stream "feed")),
    .call (.host (.pushStream 0 ⟨1, 1, opaqueBlack⟩)), .call (.host (.complete 0 none)),
    .call (.refresh 5), .lose, .call (.bind 0 (.pixels ⟨1, 1, opaqueBlack⟩)), .restore]

theorem Rack.run_accounted_stream :
    ∃ start, Rack.new (Headless.new (fun _ => none) 4 4) Devices.none .bare =
        (.ok start, start.backend) ∧
      (start.run streamTurns).Accounted (Watched.run ⟨start, fun _ => false⟩ streamTurns).fresh :=
  run_accounted _ 4 4 .bare (by
    simp [streamTurns, Turn.Fits, Step.Fits, Request.Fits, HostStep.Fits, Frame.byteCount,
      UInt64.size])

end LiveFragment.Channel
