import Mathlib.Data.List.DropRight
import LiveFragment.Proofs.Engine.Image
import LiveFragment.Proofs.Uniform.Standard

namespace LiveFragment

open LiveFragment.Number LiveFragment.Backend LiveFragment.Channel LiveFragment.Media
  LiveFragment.Program LiveFragment.Uniform

theorem Backend.Headless.lastDraw_draw {backend : Headless} {call : DrawCall}
    (granted : (backend.draw call).1.isOk = true) :
    (backend.draw call).2.lastDraw = some call := by
  unfold draw at granted ⊢
  split
  · rename_i lost
    rw [if_pos lost] at granted
    cases granted
  · rename_i present
    rw [if_neg present] at granted
    split
    · rename_i unknown
      rw [if_pos unknown] at granted
      cases granted
    · rename_i known
      rw [if_neg known] at granted
      split
      · rename_i missing
        rw [missing] at granted
        cases granted
      · rfl

namespace Clock

variable {S R : Type}

theorem advance_frames [Timescale S R] (clock : Clock S R) (now : Nat) :
    (clock.advance now).2.frames = clock.frames := by
  simp only [advance, measure]
  split <;> rfl

theorem completeFrame_playing (clock : Clock S R) :
    clock.completeFrame.playing = clock.playing := by
  unfold completeFrame
  split <;> rfl

theorem completeFrame_frames (clock : Clock S R) :
    clock.completeFrame.frames = if clock.playing then clock.frames + 1 else clock.frames := by
  unfold completeFrame
  split <;> rfl

end Clock

namespace Engine

section Drawn

variable {σ : Type} [Backend σ] (engine : Engine σ)

/-- A drawing concerns the backend and the parameter block, and it can notice a loss. -/
theorem drawProgram_around (wanted : Bool) :
    (engine.drawProgram wanted).2 =
      { engine with
        rack := { engine.rack with backend := (engine.drawProgram wanted).2.rack.backend }
        custom := (engine.drawProgram wanted).2.custom
        deviceLost := (engine.drawProgram wanted).2.deviceLost } := by
  unfold drawProgram
  split
  · rfl
  · dsimp only
    split
    · rfl
    · split <;> rfl

theorem framed_clock (now : Nat) :
    (engine.framed now).clock = (engine.clock.advance now).2 := by
  simp only [framed]

theorem tick_clock (now : Nat) (draw : Bool) :
    (engine.tick now draw).2.clock =
      if engine.noticeLoss.deviceLost then engine.clock
      else (engine.clock.advance now).2.completeFrame := by
  cases lost : engine.noticeLoss.deviceLost with
  | true =>
    simp only [tick, lost, if_true]
    rfl
  | false =>
    have drawn := congrArg Engine.clock ((engine.noticeLoss.framed now).drawProgram_around draw)
    have noticed : engine.noticeLoss.clock = engine.clock := rfl
    rw [framed_clock, noticed] at drawn
    rw [tick_eq now draw lost]
    exact congrArg Clock.completeFrame drawn

theorem installProgram_clock (source : String) (keepValues : Bool) :
    (engine.installProgram source keepValues).2.clock = engine.clock := by
  cases installed : engine.installProgram source keepValues with
  | mk result after =>
    cases result with
    | error error => exact (installProgram_error installed).clock
    | ok =>
      simp only [installProgram] at installed
      split at installed
      · cases installed
      · rename_i compiled backend made
        rw [adopt_eq _ keepValues (compile_ok made).1] at installed
        obtain ⟨_, rfl⟩ := Prod.mk.inj installed
        rfl

theorem compile_clock (source : String) : (engine.compile source).2.clock = engine.clock := by
  simp only [compile]
  split
  · rfl
  · exact engine.noticeLoss.installProgram_clock source false

theorem notifyDeviceRestored_clock : engine.notifyDeviceRestored.2.clock = engine.clock := by
  simp only [notifyDeviceRestored]
  split
  · rfl
  · split
    · rfl
    · split
      · rfl
      · exact installProgram_clock _ _ true

end Drawn

/-- The engine runs a frame, drawn or not. -/
def Op.ticks : Op → Bool
  | .render _ | .advanceTimeOnly _ => true
  | _ => false

def Op.resets : Op → Bool
  | .reset _ => true
  | _ => false

/-- An operation counts as a frame: it is a tick that finds the device there, and the clock plays
when it is over. -/
def counts (engine : Engine Headless) (op : Op) : Bool :=
  op.ticks && !engine.noticeLoss.deviceLost && (engine.perform op).clock.playing

theorem tick_frame (engine : Engine Headless) (now : Nat) (draw : Bool) :
    (engine.tick now draw).1.frame = engine.clock.frames := by
  cases lost : engine.noticeLoss.deviceLost with
  | true =>
    simp only [tick, lost, if_true]
    rfl
  | false =>
    have noticed : engine.noticeLoss.clock = engine.clock := rfl
    rw [tick_eq now draw lost]
    dsimp only
    rw [framed_clock, noticed, Clock.advance_frames]

theorem tick_frames (engine : Engine Headless) (now : Nat) (draw : Bool) :
    (engine.tick now draw).2.clock.frames =
      if !engine.noticeLoss.deviceLost && (engine.tick now draw).2.clock.playing then
        engine.clock.frames + 1
      else engine.clock.frames := by
  rw [tick_clock]
  cases engine.noticeLoss.deviceLost with
  | true => rfl
  | false =>
    simp only [Bool.false_eq_true, if_false, Clock.completeFrame_playing,
      Clock.completeFrame_frames, Clock.advance_frames]
    rfl

theorem new_frames {backend next : Headless} {devices : Devices} {options : Options}
    {start : Engine Headless} (made : Engine.new backend devices options = (.ok start, next)) :
    start.clock.frames = 0 := by
  unfold Engine.new at made
  split at made
  · cases made
  · split at made
    · cases made
    · obtain rfl := Except.ok.inj (Prod.mk.inj made).1
      rfl

theorem perform_frames (engine : Engine Headless) (op : Op) :
    (engine.perform op).clock.frames =
      if op.resets then 0
      else if engine.counts op then engine.clock.frames + 1
      else engine.clock.frames := by
  cases op with
  | compile source => exact congrArg Clock.frames (engine.compile_clock source)
  | notifyDeviceRestored => exact congrArg Clock.frames engine.notifyDeviceRestored_clock
  | render now => exact engine.tick_frames now true
  | advanceTimeOnly now => exact engine.tick_frames now false
  | setParameter name index value =>
    simp only [Engine.perform, setParameter]
    split <;> rfl
  | play now =>
    simp only [Engine.perform, Engine.play, Clock.play]
    split <;> rfl
  | pause now =>
    simp only [Engine.perform, Engine.pause, Clock.pause]
    split <;> rfl
  | resize width height =>
    simp only [Engine.perform, resize]
    split <;> rfl
  | readPixels order =>
    simp only [Engine.perform, readPixels]
    split
    · rfl
    · split <;> rfl
  | _ => rfl

/-- What a frame is drawn with and what it reports. The rack is the one that the frame refreshed;
the date is not told. -/
structure Shows (engine : Engine Headless) (rack : Channel.Rack Headless) (stats : FrameStats)
    (call : DrawCall) (inputs : Standard) : Prop where
  read : Block.standard? ⟨call.standard, 0⟩ = some inputs
  resolution : inputs.resolution =
    ⟨.ofNat engine.width.toNat, .ofNat engine.height.toNat, .one⟩
  time : inputs.time = stats.time
  delta : inputs.delta = stats.delta
  rate : inputs.rate = stats.rate
  beat : inputs.beat = stats.beat
  frame : inputs.frame.toNat = stats.frame.toNat % 2 ^ 32
  pointer : inputs.pointer = engine.pointer.uniform (.ofNat engine.height.toNat)
  channels : ∀ index : Fin 4, inputs.channels[index] = rack.slots[index].resolution
  textures : call.channels = rack.textures

/-- Viewport and pointer do not depend on whether a loss was noticed. -/
theorem Shows.of_noticeLoss {engine : Engine Headless} {rack : Channel.Rack Headless}
    {stats : FrameStats} {call : DrawCall} {inputs : Standard}
    (shows : Shows engine.noticeLoss rack stats call inputs) :
    Shows engine rack stats call inputs :=
  { shows with }

theorem framed_shows (engine : Engine Headless) (now : Nat) (active : Active) (drawn : Bool) :
    let framed := engine.framed now
    let tick := (engine.clock.advance now).1
    Shows engine (engine.rack.refresh now)
      ⟨tick.time, tick.delta, tick.rate, framed.clock.frames, framed.rack.beat, drawn⟩
      (framed.nextCall active) framed.standard := by
  have read := Block.standard?_bytes (engine.framed now).standard 0
  simp only [framed] at read ⊢
  generalize engine.clock.advance now = ticked at read ⊢
  generalize engine.rack.refresh now = rack at read ⊢
  constructor
  case read => exact read
  case frame => exact UInt64.toNat_toUInt32 _
  case channels => exact fun index => Vector.getElem_map ..
  all_goals rfl

/-- Something was drawn when an active program asked for it and the backend granted it. -/
theorem drawProgram_asks {engine : Engine Headless} {wanted : Bool}
    (drawn : (engine.drawProgram wanted).1 = true) :
    ∃ active, (engine.drawProgram wanted).2.rack.backend.lastDraw =
      some (engine.nextCall active) := by
  cases running : engine.program with
  | none =>
    simp only [drawProgram, running] at drawn
    cases drawn
  | some active =>
    have drawing := drawing_drawProgram running wanted
    have asked : wanted = true := by
      by_contra idle
      rw [Bool.not_eq_true] at idle
      rw [(drawing.spared idle).1] at drawn
      cases drawn
    obtain ⟨granted, after⟩ := drawing.asked asked
    refine ⟨active, ?_⟩
    rw [after]
    exact Headless.lastDraw_draw (granted.symm.trans drawn)

/-- What a tick draws is what it reports. -/
theorem tick_shows {engine : Engine Headless} {now : Nat} {draw : Bool}
    (drawn : (engine.tick now draw).1.drawn = true) :
    ∃ call inputs, (engine.tick now draw).2.rack.backend.lastDraw = some call ∧
      Shows engine (engine.rack.refresh now) (engine.tick now draw).1 call inputs := by
  cases lost : engine.noticeLoss.deviceLost with
  | true =>
    simp only [tick, lost, if_true] at drawn
    cases drawn
  | false =>
    rw [tick_eq now draw lost] at drawn ⊢
    obtain ⟨active, asked⟩ := drawProgram_asks drawn
    have shows := engine.noticeLoss.framed_shows now active
      ((engine.noticeLoss.framed now).drawProgram draw).1
    exact ⟨_, _, asked, shows.of_noticeLoss⟩

end Engine

namespace Session

open LiveFragment.Engine

/-- The operations of a run, each with the engine that it is done to. -/
def history (session : Session) : List Op → List (Engine Headless × Op)
  | [] => []
  | op :: rest => (session.engine, op) :: (session.perform op).history rest

/-- The number of frames since the clock was last reset. -/
def frames (session : Session) (ops : List Op) : Nat :=
  ((session.history ops).rtakeWhile fun event => !event.2.resets).countP fun event =>
    event.1.counts event.2

theorem run_append_singleton (session : Session) (ops : List Op) (op : Op) :
    session.run (ops ++ [op]) = (session.run ops).perform op :=
  List.foldl_append ..

theorem history_append_singleton (session : Session) (ops : List Op) (op : Op) :
    session.history (ops ++ [op]) = session.history ops ++ [((session.run ops).engine, op)] := by
  induction ops generalizing session with
  | nil => rfl
  | cons first rest ih => exact congrArg (_ :: ·) (ih (session.perform first))

theorem frames_append_singleton (session : Session) (ops : List Op) (op : Op) :
    session.frames (ops ++ [op]) =
      if op.resets then 0
      else if (session.run ops).engine.counts op then session.frames ops + 1
      else session.frames ops := by
  rw [frames, history_append_singleton, List.rtakeWhile_concat]
  cases resets : op.resets with
  | true => rfl
  | false =>
    simp only [Bool.not_false, if_true, Bool.false_eq_true, if_false, List.countP_append,
      List.countP_singleton]
    split <;> rfl

/-- The clock counts the frames since it was last reset. -/
theorem run_frames {session : Session} (start : session.engine.clock.frames = 0)
    (ops : List Op) :
    (session.run ops).engine.clock.frames = .ofNat (session.frames ops) := by
  induction ops using List.reverseRecOn with
  | nil => exact start
  | append_singleton rest op ih =>
    rw [run_append_singleton, frames_append_singleton]
    refine (perform_frames _ op).trans ?_
    rw [ih]
    split
    · rfl
    · split
      · rw [UInt64.ofNat_add]
        rfl
      · rfl

/-- A frame that is drawn after any operations shows what it reports, and reports the number of
frames before it, whatever texts the validator of the backend refused. -/
theorem tick_reported {backend next : Headless} {devices : Devices} {options : Options}
    {start : Engine Headless} (made : Engine.new backend devices options = (.ok start, next))
    (ops : List Op) {now : Nat} {draw : Bool}
    (drawn : ((run ⟨start, none⟩ ops).engine.tick now draw).1.drawn = true) :
    let before := (run ⟨start, none⟩ ops).engine
    let stats := (before.tick now draw).1
    let after := (before.tick now draw).2
    (∃ call inputs, after.rack.backend.lastDraw = some call ∧
      Shows before (before.rack.refresh now) stats call inputs) ∧
    stats.frame = .ofNat (frames ⟨start, none⟩ ops) := by
  refine ⟨tick_shows drawn, ?_⟩
  rw [tick_frame]
  exact run_frames (new_frames made) ops

/-- Frames with the clock paused or the device away do not count, and neither do those before the
reset. -/
def countedOps : List Op :=
  [.compile (drawingText ""), .render 0, .compile "float x;", .render 16, .pause 20, .reset 24,
    .render 32, .play 40, .movePointer .one .one, .render 48, .loseDevice, .render 64,
    .notifyDeviceRestored, .resize 3 2, .advanceTimeOnly 80]

theorem tick_reported_counted :
    ∃ start, Engine.new (Headless.new (misses "float x;") 1 1) Devices.none lossOptions =
        (.ok start, start.rack.backend) ∧
      let before := (run ⟨start, none⟩ countedOps).engine
      let stats := (before.tick 96 true).1
      let after := (before.tick 96 true).2
      (∃ call inputs, after.rack.backend.lastDraw = some call ∧
        Shows before (before.rack.refresh 96) stats call inputs) ∧
      stats.frame = .ofNat (frames ⟨start, none⟩ countedOps) ∧
      frames ⟨start, none⟩ countedOps = 2 := by
  obtain ⟨start, made, _⟩ := Engine.new_coherent (misses "float x;") 1 1 lossOptions
  have seen := Engine.observed_of_new made (fun engine =>
      (((run ⟨engine, none⟩ countedOps).engine.tick 96 true).1.drawn,
        frames ⟨engine, none⟩ countedOps))
    (true, 2) (by decide +kernel)
  obtain ⟨drawn, counted⟩ := Prod.mk.inj seen
  obtain ⟨shows, frame⟩ := tick_reported made countedOps drawn
  exact ⟨start, made, shows, frame, counted⟩

end Session

end LiveFragment
