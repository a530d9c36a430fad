import LiveFragment.Config.Encode
import LiveFragment.Proofs.Duration.Written
import LiveFragment.Proofs.Number.Exact
import LiveFragment.Proofs.Toml.Printed

namespace LiveFragment.Config

open LiveFragment.Number

namespace Field

variable {σ α : Type} {origin : Document.Origin} {fields : List (Field σ)}
  {pairs : List (String × Document)} {group filled : σ}

/-- Pairs stand in the order of the fields that read them, some fields have none, and what is read
turns one group into the other. -/
inductive Fills (origin : Document.Origin) :
    List (Field σ) → List (String × Document) → σ → σ → Prop
  | nil {group : σ} : Fills origin [] [] group group
  | absent {field : Field σ} {fields : List (Field σ)} {pairs : List (String × Document)}
    {group filled : σ} (rest : Fills origin fields pairs group filled) :
    Fills origin (field :: fields) pairs group filled
  | given {field : Field σ} {fields : List (Field σ)} {document : Document}
    {pairs : List (String × Document)} {group next filled : σ}
    (read : field.read origin group document = .ok next)
    (rest : Fills origin fields pairs next filled) :
    Fills origin (field :: fields) ((field.name, document) :: pairs) group filled

theorem Fills.set {name : String} {set : σ → α → σ}
    {read : Document.Origin → Document → Except ReadFault α} {document : Document} {value : α}
    (found : read origin document = .ok value)
    (rest : Fills origin fields pairs (set group value) filled) :
    Fills origin (.of name set read :: fields) ((name, document) :: pairs) group filled := by
  have put : (of name set read).read origin group document = .ok (set group value) := by
    simp only [of, found, Except.map]
  exact .given put rest

/-- Pairs that fill a group are read into it, and all of them count as given. -/
theorem Fills.readTable (fills : Fills origin fields pairs group filled) {known : List (Field σ)}
    (distinct : (known.map (·.name)).Nodup) (sublist : fields.Sublist known) {seen : List String}
    (fresh : ∀ field ∈ fields, field.name ∉ seen) :
    Field.readTable origin known seen group pairs =
      .ok (filled, (pairs.map (·.1)).reverse ++ seen) := by
  induction fills generalizing seen with
  | nil => rfl
  | absent rest ih =>
    exact ih ((List.sublist_cons_self ..).trans sublist) (List.forall_mem_cons.mp fresh).2
  | @given field fields document pairs group next filled read rest ih =>
    obtain ⟨first, later⟩ := List.forall_mem_cons.mp fresh
    obtain ⟨apart, -⟩ := List.nodup_cons.mp (distinct.sublist (sublist.map _))
    have behind : ∀ other ∈ fields, other.name ∉ field.name :: seen := by
      intro other member
      rw [List.mem_cons, not_or]
      exact ⟨fun same => apart (same ▸ List.mem_map_of_mem member), later other member⟩
    have found := Text.find?_of_distinct distinct (sublist.subset List.mem_cons_self)
    rw [Field.readTable, found]
    simp only [List.contains_iff_mem, first, if_false, read]
    rw [ih ((List.sublist_cons_self ..).trans sublist) behind, List.map_cons, List.reverse_cons,
      List.append_assoc, List.singleton_append]

end Field

theorem group_of_fills {σ : Type} {origin : Document.Origin} {known : List (Field σ)}
    {start filled : σ} {pairs : List (String × Document)}
    (fills : Field.Fills origin known pairs start filled)
    (distinct : (known.map (·.name)).Nodup) :
    group known start origin (.table pairs) = .ok filled := by
  rw [group, Field.readGroup, fills.readTable distinct (.refl _) (by simp)]
  rfl

/-- A speed is written so that a number of the same value is read, which is rounded to the speed. -/
theorem restated_speed {speed : Single} (finite : speed.isFinite = true) :
    Toml.Writable (.ofDouble speed.toDouble) ∧
      ∃ literal, Toml.restated (.ofDouble speed.toDouble) = some (.real literal) ∧
        literal.toDouble.toSingle = speed := by
  cases read : speed.reading with
  | nan => simp [Single.isFinite, read] at finite
  | infinite => simp [Single.isFinite, read] at finite
  | finite negative mantissa exponent =>
    obtain ⟨mantissa, exponent, wide, -⟩ := Single.reading_toDouble read
    have back := Double.ofDecimal_written wide (Decimal.value_pointed
      (if mantissa = 0 then ⟨0, 0⟩ else Format.double.shortest mantissa exponent))
    rw [Document.ofDouble, wide]
    refine ⟨?_, _, rfl, ?_⟩
    · show (Double.ofDecimal _ _).isFinite = true
      rw [back, Double.isFinite, wide]
    · show (Double.ofDecimal _ _).toSingle = speed
      rw [back, Single.toSingle_toDouble finite]

theorem wordOf?_natCast {bits n : Nat} (fits : n < 2 ^ bits) :
    Document.wordOf? bits (.integer n) = some n := by
  have within : (0 : Int) ≤ n ∧ (n : Int) ≤ (Nat.pow 2 bits - 1 : Nat) := by
    rw [Nat.pow_eq]
    omega
  rw [Document.wordOf?, Document.integerWithin?, if_pos within, Option.map_some, Int.toNat_natCast]

theorem word32_toNat (origin : Document.Origin) (n : UInt32) :
    word32 origin (.integer n.toNat) = .ok n := by
  rw [word32, wordOf?_natCast n.toNat_lt, require, Except.map, UInt32.ofNat_toNat]

theorem noiseSeed_toNat (origin : Document.Origin) (n : UInt64) :
    nullable (fun document => (document.wordOf? 64).map UInt64.ofNat) origin
      (.integer n.toNat) = .ok (some n) := by
  simp only [nullable, wordOf?_natCast n.toNat_lt, Option.map_some, UInt64.ofNat_toNat]
  rfl

theorem duration_write (origin : Document.Origin) (window : Duration) :
    duration origin (.text window.write) = .ok window := by
  rw [duration, Duration.parse_write]
  rfl

theorem viewport_restated (viewport start : Viewport) :
    group viewportFields start .toml (.table (Toml.restatedFields [
      ("width", .integer viewport.width.toNat), ("height", .integer viewport.height.toNat)])) =
      .ok viewport :=
  group_of_fills (.set (word32_toNat ..) (.set (word32_toNat ..) .nil)) (by decide)

theorem timing_restated {timing : Timing} (finite : timing.speed.isFinite = true) (start : Timing) :
    group timingFields start .toml (.table (Toml.restatedFields [
      ("speed", .ofDouble timing.speed.toDouble), ("fps_window", .text timing.window.write)])) =
      .ok timing := by
  obtain ⟨-, literal, written, read⟩ := restated_speed finite
  have speed : require ((Document.real literal).single? .toml) = .ok timing.speed := by
    rw [Document.single?, if_neg (by decide), read, require]
  rw [Toml.restatedFields_cons, written, Option.map_some]
  exact group_of_fills (.set speed (.set (duration_write ..) .nil)) (by decide)

theorem channels_restated (channels : Channels) (noiseSize : UInt32) :
    group channelsFields ⟨none, noiseSize, none⟩ .toml (.table (Toml.restatedFields [
      ("texture_dir", (channels.library.map Document.text).getD .null),
      ("noise_size", .integer channels.noiseSize.toNat),
      ("noise_seed", (channels.noiseSeed.map fun n => Document.integer n.toNat).getD .null)])) =
      .ok channels := by
  obtain ⟨library, noiseSize, noiseSeed⟩ := channels
  refine group_of_fills ?_ (by decide)
  cases library <;> cases noiseSeed
  · exact .absent (.set (word32_toNat ..) (.absent .nil))
  · exact .absent (.set (word32_toNat ..) (.set (noiseSeed_toNat ..) .nil))
  · exact .set rfl (.set (word32_toNat ..) (.absent .nil))
  · exact .set rfl (.set (word32_toNat ..) (.set (noiseSeed_toNat ..) .nil))

theorem gpu_restated (gpu start : Gpu) :
    group gpuFields start .toml (.table (Toml.restatedFields [
      ("power", .text gpu.power.name), ("memory", .text gpu.memory.name)])) = .ok gpu := by
  obtain ⟨power, memory⟩ := gpu
  cases power <;> cases memory <;> rfl

/-- The tables of a configuration file. -/
def tables (config : Config) : List (String × List (String × Document)) := [
  ("viewport", [
    ("width", .integer config.viewport.width.toNat),
    ("height", .integer config.viewport.height.toNat)]),
  ("timing", [
    ("speed", .ofDouble config.timing.speed.toDouble),
    ("fps_window", .text config.timing.window.write)]),
  ("channels", [
    ("texture_dir", (config.channels.library.map Document.text).getD .null),
    ("noise_size", .integer config.channels.noiseSize.toNat),
    ("noise_seed", (config.channels.noiseSeed.map fun n => Document.integer n.toNat).getD .null)]),
  ("gpu", [
    ("power", .text config.gpu.power.name),
    ("memory", .text config.gpu.memory.name)])]

theorem toFields_eq (config : Config) :
    config.toFields (.ofDouble config.timing.speed.toDouble) =
      [("version", .integer config.version.toNat)] ++
        config.tables.map fun table => (table.1, .table table.2) := rfl

theorem writable_word32 (n : UInt32) : Toml.Writable (.integer n.toNat) := by
  have below := n.toNat_lt
  constructor <;> omega

theorem writable_text (content : String) : Toml.Writable (.text content) := trivial

/-- All that a configuration says can be written, when its seed can. -/
theorem printable_tables {config : Config} (finite : config.timing.speed.isFinite = true)
    (small : ∀ seed ∈ config.channels.noiseSeed, seed.toNat < 0x8000000000000000) :
    ∀ table ∈ config.tables, Toml.Printable table.2 := by
  have speed := (restated_speed finite).1
  have library : Toml.Writable ((config.channels.library.map Document.text).getD .null) := by
    cases config.channels.library <;> trivial
  have seed : Toml.Writable
      ((config.channels.noiseSeed.map fun n => Document.integer n.toNat).getD .null) := by
    cases given : config.channels.noiseSeed with
    | none => trivial
    | some seed =>
      have below := small seed given
      constructor <;> omega
  simp only [tables, List.forall_mem_cons, List.not_mem_nil, false_implies, implies_true, and_true]
  refine ⟨.of_keys ["width", "height"] rfl (by decide) (by decide) ?_,
    .of_keys ["speed", "fps_window"] rfl (by decide) (by decide) ?_,
    .of_keys ["texture_dir", "noise_size", "noise_seed"] rfl (by decide) (by decide) ?_,
    .of_keys ["power", "memory"] rfl (by decide) (by decide) ?_⟩
  · simp [writable_word32]
  · simp [speed, writable_text]
  · simp [library, seed, writable_word32]
  · simp [writable_text]

/-- What is read of a configuration file is the configuration that it was written for. -/
theorem readToml_print {config : Config} (finite : config.timing.speed.isFinite = true)
    (small : ∀ seed ∈ config.channels.noiseSeed, seed.toNat < 0x8000000000000000) :
    readToml (Toml.print (config.toFields (.ofDouble config.timing.speed.toDouble))) =
      .ok config := by
  have named : config.tables.map (·.1) = ["viewport", "timing", "channels", "gpu"] := rfl
  have bare : ∀ table ∈ config.tables, Toml.BareKey table.1 := by
    rw [← List.forall_mem_map (P := Toml.BareKey), named]
    decide
  have apart : ∀ table ∈ config.tables, table.1 ∉ ["version"] := by
    rw [← List.forall_mem_map (P := (· ∉ ["version"])), named]
    decide
  have version : Toml.Printable [("version", .integer config.version.toNat)] :=
    .of_keys ["version"] rfl (by decide) (by decide) (by simp [writable_word32])
  have read := Toml.read?_print version bare (printable_tables finite small) (by rw [named]; decide)
    apart
  have filled : Field.Fills .toml fields
      (Toml.restatedFields [("version", .integer config.version.toNat)] ++
        config.tables.map fun table => (table.1, .table (Toml.restatedFields table.2)))
      standard config :=
    .set (word32_toNat ..) <| .set (viewport_restated ..) <| .set (timing_restated finite _) <|
      .set (channels_restated ..) <| .set (gpu_restated ..) .nil
  rw [readToml, toFields_eq, read]
  dsimp only
  rw [ofDocument, Field.readGroup, filled.readTable (by decide) (.refl _) (by simp)]
  rfl

theorem isFinite_of_fault?_eq_none {config : Config} (usable : config.fault? = none) :
    config.timing.speed.isFinite = true := by
  by_contra infinite
  have refused : isSpeed config.timing.speed = false := by
    rw [isSpeed, Bool.eq_false_of_not_eq_true infinite, Bool.false_and]
  simp only [fault?, refused, Bool.not_false, if_true] at usable
  repeat' split at usable
  all_goals cases usable

/-- A usable configuration is written unless its seed is too large for the file, and what is written
reads back as the configuration. -/
theorem ofToml_toToml? (config : Config) (usable : config.fault? = none) :
    (config.toToml? = none ↔
      ∃ seed, config.channels.noiseSeed = some seed ∧ 0x8000000000000000 ≤ seed.toNat) ∧
      ∀ text, config.toToml? = some text → ofToml text = .ok config := by
  have large : (config.channels.noiseSeed.any fun seed => 0x8000000000000000 ≤ seed.toNat) = true ↔
      ∃ seed, config.channels.noiseSeed = some seed ∧ 0x8000000000000000 ≤ seed.toNat := by
    simp [Option.any_eq_true]
  unfold toToml?
  split
  · rename_i held
    exact ⟨iff_of_true rfl (large.mp held), fun _ none => by cases none⟩
  · rename_i small
    refine ⟨iff_of_false (by simp) (fun held => small (large.mpr held)), ?_⟩
    rintro _ ⟨⟩
    have read := readToml_print (isFinite_of_fault?_eq_none usable) fun seed given =>
      Nat.not_le.mp fun held => small (large.mpr ⟨seed, given, held⟩)
    rw [ofToml, read, check, usable]

/-- A library whose name takes quotes and control characters, a window of the largest length and the
largest seed of a file. -/
theorem ofToml_toToml?_quoted :
    let config := { standard with
      timing := ⟨⟨0x3dcccccd⟩, ⟨UInt64.size * nanosPerSecond - 1, by decide⟩⟩
      channels := ⟨some "a\"'\\\n\x01", 256, some 0x7fffffffffffffff⟩ }
    config.fault? = none ∧ ∃ text, config.toToml? = some text ∧ ofToml text = .ok config := by
  intro config
  have usable : config.fault? = none := by decide +kernel
  obtain ⟨refused, read⟩ := ofToml_toToml? config usable
  have written : config.toToml? ≠ none := by
    rw [Ne, refused]
    rintro ⟨seed, ⟨⟩, large⟩
    exact absurd large (by decide)
  obtain ⟨text, printed⟩ := Option.ne_none_iff_exists'.mp written
  exact ⟨usable, text, printed, read text printed⟩

end LiveFragment.Config
