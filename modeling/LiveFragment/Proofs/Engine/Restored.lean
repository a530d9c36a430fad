import LiveFragment.Proofs.Directive.Numeric
import LiveFragment.Proofs.Engine.Image

namespace LiveFragment

open LiveFragment.Number LiveFragment.Backend LiveFragment.Channel LiveFragment.Directive
  LiveFragment.Media LiveFragment.Parameter LiveFragment.Program LiveFragment.Uniform

theorem Parameter.Store.carryOver_self {store previous : Store}
    (same : previous.definitions = store.definitions)
    (agree : Definition.agreeAll previous.definitions store.definitions = true) :
    store.carryOver previous = previous := by
  obtain ⟨definitions, values⟩ := previous
  obtain rfl := same
  rw [carryOver, if_pos agree]

namespace Engine

variable {σ : Type} [Backend σ]

omit [Backend σ] in
/-- The definitions of an engine agree with those that its last text is read as again. -/
theorem Prepared.agree {engine : Engine σ} (prepared : engine.Prepared) {source : String}
    (compiled : engine.lastGoodSource = some source) :
    (∀ definition ∈ engine.store.definitions, definition.Numeric) ∧
      Definition.agreeAll engine.store.definitions (Directives.ofSource source).params = true := by
  rw [prepared.declared source compiled]
  have numeric := Directives.numeric_ofSource source
  exact ⟨numeric, Definition.agreeAll_self numeric⟩

theorem installProgram_lastGoodSource (engine : Engine σ) (source : String) (keepValues : Bool) :
    (engine.installProgram source keepValues).2.lastGoodSource =
      if (engine.installProgram source keepValues).1.isOk then some source
      else engine.lastGoodSource := by
  cases installed : engine.installProgram source keepValues with
  | mk result after =>
    cases result with
    | error error => exact (installProgram_error installed).lastGoodSource
    | ok =>
      simp only [Engine.installProgram] at installed
      split at installed
      · cases installed
      · rename_i compiled backend made
        rw [adopt_eq _ keepValues (compile_ok made).1] at installed
        obtain ⟨_, rfl⟩ := Prod.mk.inj installed
        rfl

/-- Installing the text that an engine remembers changes none of its values. -/
theorem Prepared.installProgram_store {engine : Engine σ} (prepared : engine.Prepared)
    {source : String} (compiled : engine.lastGoodSource = some source) :
    (engine.installProgram source true).2.store = engine.store := by
  cases installed : engine.installProgram source true with
  | mk result after =>
    cases result with
    | error error => exact (installProgram_error installed).store
    | ok =>
      simp only [Engine.installProgram] at installed
      split at installed
      · cases installed
      · rename_i compiled backend made
        rw [adopt_eq _ true (compile_ok made).1] at installed
        obtain ⟨_, rfl⟩ := Prod.mk.inj installed
        exact Store.carryOver_self (prepared.declared source ‹_›) (prepared.agree ‹_›).2

/-- A device that is restored leaves the values and the text alone, whether the program compiles
again or not. -/
theorem Prepared.restored_store {engine : Engine σ} (prepared : engine.Prepared) :
    engine.notifyDeviceRestored.2.store = engine.store ∧
      engine.notifyDeviceRestored.2.lastGoodSource = engine.lastGoodSource := by
  unfold Engine.notifyDeviceRestored
  split
  · exact ⟨rfl, rfl⟩
  · dsimp only
    split
    · exact ⟨rfl, rfl⟩
    · rename_i rack rebuilt
      have bare : Prepared { engine with rack, program := none, deviceLost := false } :=
        ⟨prepared.store, prepared.declared, fun active running => nomatch running⟩
      split
      · exact ⟨rfl, rfl⟩
      · rename_i source compiled
        refine ⟨bare.installProgram_store compiled, ?_⟩
        rw [installProgram_lastGoodSource]
        split
        · exact compiled.symm
        · rfl

theorem tick_store (engine : Engine σ) (now : Nat) (draw : Bool) :
    (engine.tick now draw).2.store = engine.store ∧
      (engine.tick now draw).2.lastGoodSource = engine.lastGoodSource := by
  cases lost : engine.noticeLoss.deviceLost with
  | true =>
    simp only [Engine.tick, lost, ↓reduceIte]
    exact ⟨rfl, rfl⟩
  | false =>
    rw [tick_eq now draw lost]
    dsimp only
    cases running : (engine.noticeLoss.framed now).program with
    | none =>
      simp only [drawProgram, running, framed_store, framed_lastGoodSource]
      exact ⟨rfl, rfl⟩
    | some active =>
      have drawing := drawing_drawProgram running draw
      rw [drawing.store, drawing.lastGoodSource, framed_store, framed_lastGoodSource]
      exact ⟨rfl, rfl⟩

theorem readPixels_store (engine : Engine σ) (order : ScanlineOrder) :
    (engine.readPixels order).2.store = engine.store ∧
      (engine.readPixels order).2.lastGoodSource = engine.lastGoodSource := by
  unfold readPixels
  dsimp only
  split
  · exact ⟨rfl, rfl⟩
  · split <;> exact ⟨rfl, rfl⟩

/-- Operations that neither compile nor write a parameter. -/
def Op.Keeps : Op → Prop
  | .compile _ => False
  | .setParameter .. => False
  | _ => True

theorem Reached.perform_store {engine : Engine Headless} (reached : engine.Reached) {op : Op}
    (keeps : op.Keeps) : (engine.perform op).store = engine.store := by
  cases op with
  | compile source => cases keeps
  | setParameter name index value => cases keeps
  | render now => exact (engine.tick_store now true).1
  | advanceTimeOnly now => exact (engine.tick_store now false).1
  | readPixels order => exact (engine.readPixels_store order).1
  | notifyDeviceRestored => exact reached.prepared.restored_store.1
  | _ => rfl

/-- Nothing but a compilation that succeeds changes the text that is remembered. -/
theorem Reached.perform_lastGoodSource {engine : Engine Headless} (reached : engine.Reached)
    (op : Op) :
    (engine.perform op).lastGoodSource = (engine.takes op).or engine.lastGoodSource := by
  cases op with
  | compile source =>
    simp only [Engine.perform, takes, Engine.compile]
    split
    · rfl
    · rw [installProgram_lastGoodSource]
      split <;> rfl
  | setParameter name index value =>
    simp only [Engine.perform, Engine.setParameter]
    split <;> rfl
  | render now => exact (engine.tick_store now true).2
  | advanceTimeOnly now => exact (engine.tick_store now false).2
  | readPixels order => exact (engine.readPixels_store order).2
  | notifyDeviceRestored => exact reached.prepared.restored_store.2
  | _ => rfl

end Engine

namespace Session

open Engine

theorem run_store {session : Session} (reached : session.engine.Reached) {turns : List Op}
    (keeps : ∀ op ∈ turns, op.Keeps) : (session.run turns).engine.store = session.engine.store := by
  induction turns generalizing session with
  | nil => rfl
  | cons op rest ih =>
    obtain ⟨one, further⟩ := List.forall_mem_cons.mp keeps
    have later := @ih (session.perform op) (reached.perform op) further
    exact later.trans (reached.perform_store one)

theorem run_remembered {session : Session} (reached : session.engine.Reached)
    (remembered : session.engine.lastGoodSource = session.compiled) (ops : List Op) :
    (session.run ops).engine.lastGoodSource = (session.run ops).compiled := by
  induction ops generalizing session with
  | nil => exact remembered
  | cons op rest ih =>
    have next := reached.perform_lastGoodSource op
    rw [remembered] at next
    exact @ih (session.perform op) (reached.perform op) next

/-- Once a text has compiled, the definitions that it is read as agree with the ones that its values
belong to, so that losses and restorations leave all values as they were. -/
theorem run_keeps_values (judge : String → Option String) (width height : UInt32)
    (options : Engine.Options) (ops : List Op) {turns : List Op}
    (keeps : ∀ op ∈ turns, op.Keeps) :
    (∀ text, ∀ definition ∈ (Directives.ofSource text).params, definition.Numeric) ∧
      ∃ start, Engine.new (Headless.new judge width height) Devices.none options =
          (.ok start, start.rack.backend) ∧
        let before := Session.run ⟨start, none⟩ ops
        ∀ source, before.compiled = some source →
          before.engine.lastGoodSource = some source ∧
          (∀ definition ∈ before.engine.store.definitions, definition.Numeric) ∧
          Definition.agreeAll before.engine.store.definitions
            (Directives.ofSource source).params = true ∧
          (before.run turns).engine.store = before.engine.store := by
  refine ⟨Directives.numeric_ofSource, ?_⟩
  obtain ⟨start, made, _, bare⟩ := Engine.new_coherent judge width height options
  have reached : (Session.mk start none).engine.Reached := .new made
  refine ⟨start, made, ?_⟩
  intro before source compiled
  have last : before.engine.lastGoodSource = some source :=
    (run_remembered reached bare ops).trans compiled
  have after : before.engine.Reached := reached.run ops
  obtain ⟨numeric, agree⟩ := after.prepared.agree last
  exact ⟨last, numeric, agree, run_store after keeps⟩

/-- A value that was written, a write that was refused, and a text that was. -/
def writtenOps : List Op :=
  [.compile (drawingText "// @param gain float 0.5 [0 1e99]\n"),
    .setParameter "gain" none (.element (.float .one)),
    .setParameter "tint" none (.element (.float .zero)),
    .compile "// @param gain float 2"]

/-- The device goes twice and comes back twice. -/
def lossTurns : List Op :=
  [.loseDevice, .render 0, .notifyDeviceRestored, .render 16, .loseDevice, .notifyDeviceLost,
    .notifyDeviceRestored, .render 32]

/-- The value is still there, and it is drawn with. -/
theorem run_keeps_values_loss :
    let judge := misses "// @param gain float 2"
    ∃ start, Engine.new (Headless.new judge 1 1) Devices.none lossOptions =
        (.ok start, start.rack.backend) ∧
      let before := Session.run ⟨start, none⟩ writtenOps
      let after := before.run lossTurns
      after.engine.store = before.engine.store ∧ after.engine.rack.backend.drawn = 2 ∧
        after.engine.custom.float? 0 0 = some .one := by
  intro judge
  have keeps : ∀ op ∈ lossTurns, op.Keeps := by simp [lossTurns, Op.Keeps]
  obtain ⟨_, start, made, kept⟩ := run_keeps_values judge 1 1 lossOptions writtenOps keeps
  have seen := Engine.observed_of_new made (fun engine =>
      let before := Session.run ⟨engine, none⟩ writtenOps
      let after := before.run lossTurns
      (before.compiled.isSome, after.engine.rack.backend.drawn,
        after.engine.custom.float? 0 0))
    (true, 2, some .one) (by decide +kernel)
  simp only [Prod.mk.injEq] at seen
  obtain ⟨before, drawn⟩ := seen
  obtain ⟨source, compiled⟩ := Option.isSome_iff_exists.mp before
  exact ⟨start, made, (kept source compiled).2.2.2, drawn⟩

end Session

end LiveFragment
