import LiveFragment.Config.Encode
import LiveFragment.Proofs.Duration.Limit

namespace LiveFragment.Config

open LiveFragment.Number

deriving instance DecidableEq for Except

variable {σ : Type}

theorem map_error {α β : Type} {f : α → β} {result : Except ReadFault α}
    {fault : ReadFault} :
    result.map f = .error fault ↔ result = .error fault := by
  cases result <;> simp [Except.map]

namespace Field

/-- Reading a group comes to a value: all that stands before it has been read, and it is the turn of
a field that the value is for. -/
inductive Meets (origin : Document.Origin) (known : List (Field σ)) (start : σ) :
    Document → Field σ → σ → Document → Prop
  | named {front back : List (String × Document)} {given : List String} {name : String}
    {field : Field σ} {reached : σ} {value : Document}
    (before : readTable origin known [] start front = .ok (reached, given))
    (found : known.find? (·.name == name) = some field) (fresh : given.contains name = false) :
    Meets origin known start (.table (front ++ (name, value) :: back)) field reached value
  | placed {front back : List Document} {given : List String} {field : Field σ} {reached : σ}
    {value : Document} (before : readList origin known [] start front = .ok (reached, given))
    (found : known[front.length]? = some field) :
    Meets origin known start (.list (front ++ value :: back)) field reached value

variable {origin : Document.Origin} {known : List (Field σ)} {start : σ} {document : Document}

theorem Meets.mem {field : Field σ} {reached : σ} {value : Document}
    (meets : Meets origin known start document field reached value) : field ∈ known := by
  cases meets with
  | named _ found _ => exact List.mem_of_find?_eq_some found
  | placed _ found => exact List.mem_of_getElem? found

/-- Reads the value of one name into a group. -/
def readNamed (origin : Document.Origin) (known : List (Field σ)) (seen : List String) (group : σ)
    (name : String) (value : Document) : Except ReadFault (σ × List String) :=
  match known.find? (·.name == name) with
  | none => if value.isReadable then .ok (group, seen) else .error .malformed
  | some field =>
    if seen.contains name then .error .malformed
    else (field.read origin group value).map (·, name :: seen)

theorem readTable_cons {seen : List String} {group : σ} (name : String) (value : Document)
    (rest : List (String × Document)) :
    readTable origin known seen group ((name, value) :: rest) =
      readNamed origin known seen group name value >>= fun (group, seen) =>
        readTable origin known seen group rest := by
  rw [readTable, readNamed]
  cases known.find? (·.name == name) with
  | none => cases value.isReadable <;> rfl
  | some field =>
    dsimp only
    split
    · rfl
    · cases field.read origin group value <;> rfl

theorem readTable_append {seen : List String} {group : σ} (front back : List (String × Document)) :
    readTable origin known seen group (front ++ back) =
      readTable origin known seen group front >>= fun (group, seen) =>
        readTable origin known seen group back := by
  induction front generalizing seen group with
  | nil => rfl
  | cons first front ih =>
    obtain ⟨name, value⟩ := first
    rw [List.cons_append, readTable_cons, readTable_cons, bind_assoc]
    simp only [ih]

theorem readList_cons {seen : List String} {group : σ} (field : Field σ) (known : List (Field σ))
    (value : Document) (rest : List Document) :
    readList origin (field :: known) seen group (value :: rest) =
      field.read origin group value >>= fun group =>
        readList origin known (field.name :: seen) group rest := by
  rw [readList]
  cases field.read origin group value <;> rfl

/-- The values behind others are read by the fields that these leave. -/
theorem readList_append {known : List (Field σ)} {seen : List String} {group : σ}
    (front back : List Document) :
    readList origin known seen group (front ++ back) =
      readList origin known seen group front >>= fun (group, seen) =>
        readList origin (known.drop front.length) seen group back := by
  induction front generalizing known seen group with
  | nil => cases known <;> rfl
  | cons first front ih =>
    cases known with
    | nil => cases origin <;> cases back <;> rfl
    | cons field known =>
      rw [List.cons_append, readList_cons, readList_cons, bind_assoc]
      simp only [ih, List.length_cons, List.drop_succ_cons]

variable {fault : ReadFault}

theorem readNamed_error {seen : List String} {group : σ} {name : String} {value : Document}
    (other : fault ≠ .malformed) :
    readNamed origin known seen group name value = .error fault ↔
      ∃ field, known.find? (·.name == name) = some field ∧ seen.contains name = false ∧
        field.read origin group value = .error fault := by
  unfold readNamed
  split
  · rename_i unknown
    split <;> simp [other.symm, unknown]
  · rename_i field found
    rw [found]
    split
    · rename_i given
      simp only [given, Except.error.injEq, other.symm, reduceCtorEq, false_and, and_false,
        exists_false]
    · rename_i fresh
      simp only [Option.some.injEq, exists_eq_left', map_error, fresh, true_and]

theorem readTable_error {fields : List (String × Document)} {seen : List String} {group : σ}
    (other : fault ≠ .malformed) :
    readTable origin known seen group fields = .error fault ↔
      ∃ front name value back reached given field, fields = front ++ (name, value) :: back ∧
        readTable origin known seen group front = .ok (reached, given) ∧
        known.find? (·.name == name) = some field ∧ given.contains name = false ∧
        field.read origin reached value = .error fault := by
  constructor
  · intro broken
    induction fields generalizing seen group with
    | nil => cases broken
    | cons first rest ih =>
      obtain ⟨name, value⟩ := first
      rw [readTable_cons, bind_eq_error] at broken
      rcases broken with failed | ⟨⟨next, given⟩, read, broken⟩
      · obtain ⟨field, found, fresh, failed⟩ := (readNamed_error other).mp failed
        exact ⟨[], name, value, rest, group, seen, field, rfl, rfl, found, fresh, failed⟩
      · obtain ⟨front, later, value', back, reached, given, field, rfl, before, more⟩ := ih broken
        refine ⟨(name, value) :: front, later, value', back, reached, given, field, rfl, ?_, more⟩
        rw [readTable_cons, read]
        exact before
  · rintro ⟨front, name, value, back, reached, given, field, rfl, before, found, fresh, failed⟩
    have failed := (readNamed_error other).mpr ⟨field, found, fresh, failed⟩
    rw [readTable_append, before, bind_eq_error]
    refine .inr ⟨_, rfl, ?_⟩
    dsimp only
    rw [readTable_cons, failed]
    rfl

theorem readList_error {known : List (Field σ)} {items : List Document} {seen : List String}
    {group : σ} (other : fault ≠ .malformed) :
    readList origin known seen group items = .error fault ↔
      ∃ front value back reached given field, items = front ++ value :: back ∧
        readList origin known seen group front = .ok (reached, given) ∧
        known[front.length]? = some field ∧ field.read origin reached value = .error fault := by
  constructor
  · intro broken
    induction items generalizing known seen group with
    | nil => cases known <;> cases broken
    | cons first rest ih =>
      cases known with
      | nil => cases origin <;> cases broken <;> exact absurd rfl other
      | cons field known =>
        rw [readList_cons, bind_eq_error] at broken
        rcases broken with failed | ⟨next, read, broken⟩
        · exact ⟨[], first, rest, group, seen, field, rfl, rfl, rfl, failed⟩
        · obtain ⟨front, value, back, reached, given, field', rfl, before, placed, failed⟩ :=
            ih broken
          refine ⟨first :: front, value, back, reached, given, field', rfl, ?_, placed, failed⟩
          rw [readList_cons, read]
          exact before
  · rintro ⟨front, value, back, reached, given, field, rfl, before, placed, failed⟩
    obtain ⟨within, rfl⟩ := List.getElem?_eq_some_iff.mp placed
    rw [readList_append, before, bind_eq_error]
    refine .inr ⟨_, rfl, ?_⟩
    dsimp only
    rw [List.drop_eq_getElem_cons within, readList_cons, failed]
    rfl

/-- Reading a group fails with more than a malformed text exactly where it comes to a value that its
field fails on in that way. -/
theorem readGroup_error {fault : ReadFault} (other : fault ≠ .malformed) :
    readGroup origin known start document = .error fault ↔
      ∃ field reached value, Meets origin known start document field reached value ∧
        field.read origin reached value = .error fault := by
  constructor
  · intro broken
    cases document with
    | table fields =>
      obtain ⟨_, _, _, _, _, _, _, rfl, before, found, fresh, failed⟩ :=
        (readTable_error other).mp broken
      exact ⟨_, _, _, .named before found fresh, failed⟩
    | list items =>
      obtain ⟨_, _, _, _, _, _, rfl, before, placed, failed⟩ := (readList_error other).mp broken
      exact ⟨_, _, _, .placed before placed, failed⟩
    | moment => cases broken
    | _ =>
      cases broken
      exact absurd rfl other
  · rintro ⟨field, reached, value, meets, failed⟩
    cases meets with
    | named before found fresh =>
      exact (readTable_error other).mpr ⟨_, _, _, _, _, _, _, rfl, before, found, fresh, failed⟩
    | placed before found =>
      exact (readList_error other).mpr ⟨_, _, _, _, _, _, rfl, before, found, failed⟩

theorem of_error {α : Type} {name : String} {set : σ → α → σ}
    {read : Document.Origin → Document → Except ReadFault α} {reached : σ} {value : Document}
    {fault : ReadFault} :
    (Field.of name set read).read origin reached value = .error fault ↔
      read origin value = .error fault := by
  cases found : read origin value <;> simp [Field.of, found, Except.map]

/-- Reading a group comes to a value under a name. -/
def Reaches (origin : Document.Origin) (known : List (Field σ)) (start : σ) (document : Document)
    (name : String) (value : Document) : Prop :=
  ∃ field reached, Meets origin known start document field reached value ∧ field.name = name

end Field

variable {origin : Document.Origin} {document : Document} {fault : ReadFault}

theorem require_error {α : Type} {value : Option α} (other : fault ≠ .malformed) :
    require value ≠ .error fault := by
  cases value with
  | some => nofun
  | none =>
    rintro ⟨⟩
    exact other rfl

theorem word32_error (other : fault ≠ .malformed) : word32 origin document ≠ .error fault := by
  rw [word32, Ne, map_error]
  exact require_error other

theorem nullable_error {α : Type} {read : Document → Option α} (other : fault ≠ .malformed) :
    nullable read origin document ≠ .error fault := by
  unfold nullable
  split
  · nofun
  · rw [Ne, map_error]
    exact require_error other

theorem group_error {σ : Type} {known : List (Field σ)} {start : σ} (other : fault ≠ .malformed) :
    group known start origin document = .error fault ↔
      ∃ field reached value, Field.Meets origin known start document field reached value ∧
        field.read origin reached value = .error fault := by
  rw [group, map_error, Field.readGroup_error other]

/-- A group whose fields are only ever malformed is only ever malformed itself. -/
theorem group_ne_error {σ : Type} {known : List (Field σ)} {start : σ} (other : fault ≠ .malformed)
    (plain : ∀ field ∈ known, ∀ reached value, field.read origin reached value ≠ .error fault) :
    group known start origin document ≠ .error fault := by
  rw [Ne, group_error other]
  rintro ⟨field, reached, value, meets, failed⟩
  exact plain field meets.mem reached value failed

theorem viewport_error (other : fault ≠ .malformed) :
    group viewportFields standard.viewport origin document ≠ .error fault := by
  refine group_ne_error other ?_
  simp [viewportFields, Field.of_error, word32_error other]

theorem channels_error (other : fault ≠ .malformed) :
    group channelsFields standard.channels origin document ≠ .error fault := by
  refine group_ne_error other ?_
  simp [channelsFields, Field.of_error, word32_error other, nullable_error other]

theorem gpu_error (other : fault ≠ .malformed) :
    group gpuFields standard.gpu origin document ≠ .error fault := by
  refine group_ne_error other ?_
  simp [gpuFields, Field.of_error, require_error other]

/-- The timing fails, but for a malformed text, exactly at the window it comes to. -/
theorem timing_error (other : fault ≠ .malformed) :
    group timingFields standard.timing origin document = .error fault ↔
      ∃ window, Field.Reaches origin timingFields standard.timing document "fps_window" window ∧
        duration origin window = .error fault := by
  rw [group_error other]
  constructor
  · rintro ⟨field, reached, window, meets, failed⟩
    have member := meets.mem
    simp only [timingFields, List.mem_cons, List.not_mem_nil, or_false] at member
    rcases member with rfl | rfl
    · exact absurd (Field.of_error.mp failed) (require_error other)
    · exact ⟨window, ⟨_, reached, meets, rfl⟩, Field.of_error.mp failed⟩
  · rintro ⟨window, ⟨field, reached, meets, named⟩, failed⟩
    have member := meets.mem
    simp only [timingFields, List.mem_cons, List.not_mem_nil, or_false] at member
    rcases member with rfl | rfl
    · exact absurd named (by decide)
    · exact ⟨_, reached, window, meets, Field.of_error.mpr failed⟩

/-- A configuration fails, but for a malformed text, exactly at the window that its timing comes
to. -/
theorem ofDocument_error (other : fault ≠ .malformed) :
    ofDocument origin document = .error fault ↔
      ∃ timing window, Field.Reaches origin fields standard document "timing" timing ∧
        Field.Reaches origin timingFields standard.timing timing "fps_window" window ∧
        duration origin window = .error fault := by
  have outer : ofDocument origin document = .error fault ↔
      Field.readGroup origin fields standard document = .error fault := by
    unfold ofDocument
    split
    · rename_i failed
      simp [failed]
    · rename_i read
      rw [read]
      split <;> simp [other.symm]
  rw [outer, Field.readGroup_error other]
  constructor
  · rintro ⟨field, reached, value, meets, failed⟩
    have member := meets.mem
    simp only [fields, List.mem_cons, List.not_mem_nil, or_false] at member
    rcases member with rfl | rfl | rfl | rfl | rfl <;> rw [Field.of_error] at failed
    · exact absurd failed (word32_error other)
    · exact absurd failed (viewport_error other)
    · obtain ⟨window, reaches, failed⟩ := (timing_error other).mp failed
      exact ⟨value, window, ⟨_, reached, meets, rfl⟩, reaches, failed⟩
    · exact absurd failed (channels_error other)
    · exact absurd failed (gpu_error other)
  · rintro ⟨timing, window, ⟨field, reached, meets, named⟩, reaches, failed⟩
    have failed := (timing_error other).mpr ⟨window, reaches, failed⟩
    have member := meets.mem
    simp only [fields, List.mem_cons, List.not_mem_nil, or_false] at member
    rcases member with rfl | rfl | rfl | rfl | rfl
    all_goals first | exact absurd named (by decide) | skip
    exact ⟨_, reached, timing, meets, Field.of_error.mpr failed⟩

/-- A value that no duration is made of, and that is not refused either: a finite number from
`2 ^ 64` on, or words that brim over that many seconds. -/
def Overflows : Document → Prop
  | .real literal => literal.toDouble.reading.AtLeast UInt64.size
  | .text content =>
    content ≠ "0" ∧ ∃ reached amount,
      Duration.Comes .zero (Duration.spans content.toList) reached amount ∧
        Duration.Brims reached amount
  | _ => False

theorem duration_tooLong : duration .toml document = .error (.duration .tooLong) ↔
    Overflows document := by
  cases document with
  | text content =>
    rw [Overflows, ← Duration.parse_tooLong, duration]
    cases Duration.parse content with
    | ok => exact iff_of_false nofun nofun
    | error fault =>
      show Except.error (ReadFault.duration fault) = _ ↔ _
      simp
  | integer seconds =>
    simp only [duration, Overflows]
    split <;> simp
  | real literal =>
    simp only [duration, ne_eq, not_true_eq_false, false_and, if_false, Overflows]
    split
    · rename_i refused
      simp only [Except.error.injEq, ReadFault.duration.injEq, reduceCtorEq, false_iff]
      intro large
      obtain ⟨finite, positive⟩ := large.isFinite
      simp [finite, positive] at refused
    · rename_i passed
      obtain ⟨finite, positive⟩ : literal.toDouble.isFinite = true ∧
          literal.toDouble.signBit = false := by simpa using passed
      rw [← Duration.ofSeconds?_eq_none finite positive]
      cases Duration.ofSeconds? literal.toDouble <;> simp
  | _ => simp [duration, Overflows]

/-- Reading a configuration file breaks off exactly where it comes to a window that overflows. -/
theorem ofToml_breaks_iff (text : String) :
    ofToml text = .error (.unreadable (.duration .tooLong)) ↔
      ∃ document timing window, Toml.read? text = some document ∧
        Field.Reaches .toml fields standard document "timing" timing ∧
        Field.Reaches .toml timingFields standard.timing timing "fps_window" window ∧
        Overflows window := by
  have other : ReadFault.duration .tooLong ≠ .malformed := by nofun
  have unchecked (read : Except ReadFault Config) :
      check read = .error (.unreadable (.duration .tooLong)) ↔
        read = .error (.duration .tooLong) := by
    unfold check
    split
    · simp
    · split <;> simp
  rw [ofToml, unchecked, readToml]
  cases found : Toml.read? text with
  | none => simp
  | some document => simp [ofDocument_error other, duration_tooLong]

/-- A window that is finite and not negative, but that no duration holds. -/
theorem ofToml_breaks_long_window :
    ofToml "version = 1\n[timing]\nfps_window = 1e300\n" =
      .error (.unreadable (.duration .tooLong)) := by
  decide +kernel

end LiveFragment.Config
