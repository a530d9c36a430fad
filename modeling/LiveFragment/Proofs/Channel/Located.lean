import LiveFragment.Channel.Plain
import LiveFragment.Proofs.Channel.Superseded
import LiveFragment.Proofs.Channel.Told
import LiveFragment.Proofs.Files.Extension

namespace LiveFragment

open LiveFragment.Backend LiveFragment.Files LiveFragment.Media LiveFragment.Text

namespace Files

theorem trim_eq_nil {text : List Char} : trim text = [] ↔ Blanks text := by
  constructor
  · intro empty
    obtain ⟨front, back, blankFront, blankBack, whole⟩ := exists_trim text
    rw [whole, empty]
    exact fun c member => (List.mem_append.mp member).elim (blankFront c) (blankBack c)
  · intro blank
    rw [trim, trimStart_blanks blank, trimEnd_blanks (List.forall_mem_nil _)]

/-- A path whose first part is empty starts with a slash, unless it is empty itself. -/
theorem first_eq_empty {path first : String} {rest : List String} (named : path ≠ "")
    (parts : pathParts path = first :: rest) : first = "" ↔ path.toList.head? = some '/' := by
  cases text : path.toList with
  | nil => exact absurd (String.toList_eq_nil_iff.mp text) named
  | cons c others =>
    rw [pathParts, text, splitAll] at parts
    by_cases slash : c = '/'
    · subst slash
      simp only [beq_self_eq_true, if_true, List.map_cons, List.cons.injEq] at parts
      simp [← parts.1]
    · rw [if_neg (by simpa using slash)] at parts
      cases more : splitAll (· == '/') others with
      | nil => exact absurd more (splitAll_ne_nil _ others)
      | cons part later =>
        simp only [more, List.map_cons, List.cons.injEq] at parts
        simp [← parts.1, slash]

theorem isNormal_firstComponent {part : String} :
    Channel.isNormal (firstComponent part) = true ↔ part ≠ "" ∧ part ≠ "." ∧ part ≠ ".." := by
  unfold firstComponent
  by_cases empty : part = ""
  · simp [empty, Channel.isNormal]
  · by_cases here : part = "."
    · simp [here, Channel.isNormal]
    · by_cases up : part = ".." <;> simp [empty, here, up, Channel.isNormal]

/-- What a part gives that does not come first is a plain name, unless the part leads upwards. -/
theorem laterComponent_eq_some {part : String} {component : Component} :
    laterComponent part = some component ↔
      part ≠ "" ∧ part ≠ "." ∧
        component = if part = ".." then .parent else .normal part := by
  unfold laterComponent
  by_cases empty : part = ""
  · simp [empty]
  · by_cases here : part = "."
    · simp [here]
    · by_cases up : part = ".."
      · simpa [up] using eq_comm
      · simpa [empty, here, up] using eq_comm

theorem all_isNormal_filterMap {parts : List String} :
    (parts.filterMap laterComponent).all Channel.isNormal = true ↔ ".." ∉ parts := by
  simp only [List.all_eq_true, List.mem_filterMap, laterComponent_eq_some]
  constructor
  · intro normal up
    exact absurd (normal .parent ⟨"..", up, by decide, by decide, by simp⟩) (by decide)
  · rintro down component ⟨part, member, -, -, rfl⟩
    have other : part ≠ ".." := fun up => down (up ▸ member)
    simp [other, Channel.isNormal]

end Files

namespace Channel

/-- What keeps a name from leading downwards, as it stands in the text: there is nothing in it but
white space; it starts with a slash, or with a point alone; or two points stand alone in it. -/
inductive Improper (name : String) : Prop
  | blank (white : Blanks name.toList)
  | absolute (rooted : name.toList.head? = some '/')
  | here (first : (pathParts name).head? = some ".")
  | upwards (up : ".." ∈ pathParts name)

/-- The components of a name are all plain exactly if none of this is so. -/
theorem isPlainName_iff {name : String} : isPlainName name = true ↔ ¬ Improper name := by
  rw [isPlainName, Bool.and_eq_true, Bool.not_eq_true', List.isEmpty_eq_false_iff, ne_eq,
    trim_eq_nil]
  by_cases empty : name = ""
  · subst empty
    have white : Blanks "".toList := List.forall_mem_nil _
    exact iff_of_false (fun plain => plain.1 white) fun proper => proper (.blank white)
  · cases parts : pathParts name with
    | nil => exact absurd parts (pathParts_ne_nil name)
    | cons first rest =>
      rw [components_of_parts empty parts, List.all_cons, Bool.and_eq_true,
        isNormal_firstComponent, all_isNormal_filterMap, ne_eq, first_eq_empty empty parts]
      constructor
      · rintro ⟨visible, ⟨relative, inner, down⟩, later⟩ improper
        cases improper with
        | blank white => exact visible white
        | absolute rooted => exact relative rooted
        | here stays =>
          rw [parts] at stays
          exact inner (Option.some.inj stays)
        | upwards up =>
          rw [parts] at up
          exact (List.mem_cons.mp up).elim (fun same => down same.symm) later
      · intro proper
        refine ⟨fun white => proper (.blank white), ⟨fun rooted => proper (.absolute rooted),
          fun same => proper (.here ?_), fun same => proper (.upwards ?_)⟩,
          fun up => proper (.upwards ?_)⟩
        · rw [parts, same, List.head?_cons]
        · rw [parts, same]
          exact List.mem_cons_self
        · rw [parts]
          exact List.mem_cons_of_mem _ up

/-- A path lies strictly below a directory, by the name that leads there. -/
structure LiesBelow (directory name path : String) : Prop where
  whole : components path = components directory ++ components name
  strictly : components name ≠ []
  plain : ∀ component ∈ components name, ∃ part ∈ pathParts name, component = .normal part ∧
    part ≠ "" ∧ part ≠ "." ∧ part ≠ ".." ∧ '/' ∉ part.toList

theorem slash_not_mem_pathParts {path part : String} (member : part ∈ pathParts path) :
    '/' ∉ part.toList := by
  obtain ⟨text, inside, rfl⟩ := List.mem_map.mp member
  rw [String.toList_ofList]
  exact (splitAll_eq_iff.mp rfl).2.1 text inside

theorem LiesBelow.of_plain {name : String} (plain : isPlainName name = true)
    (directory : String) : LiesBelow directory name (join directory name) := by
  have named : name ≠ "" := by
    rintro rfl
    revert plain
    decide
  have normal : (components name).all isNormal = true := by
    rw [isPlainName, Bool.and_eq_true] at plain
    exact plain.2
  refine ⟨components_join normal directory, components_ne_nil named, fun component member => ?_⟩
  have parts := components_of_plain normal
  rw [parts] at normal member
  obtain ⟨part, inside, named⟩ := List.mem_filterMap.mp member
  obtain ⟨some, inner, rfl⟩ := laterComponent_eq_some.mp named
  have down : part ≠ ".." := fun up => all_isNormal_filterMap.mp normal (up ▸ inside)
  exact ⟨part, inside, if_neg down, some, inner, down, slash_not_mem_pathParts inside⟩

variable {σ : Type} [Backend σ]

/-- A file that is found in the library is shown or played, as its path says, or refused; nothing is
waited for. -/
theorem Rack.acquire_located (rack : Rack σ) {library : Library} {name path : String}
    (kept : rack.options.library = some library)
    (located : library.locate rack.options.files.isFile name = .ok path) (index : Fin 4) :
    Fills rack index (if isVideo path then .video else .image)
      (rack.acquire index (.library name)) := by
  have resolved : resolveRequest rack.options (.library name) =
      .ok (if isVideo path then .video path else .image path) := by
    simp only [resolveRequest, kept, located]
  unfold Rack.acquire
  by_cases video : isVideo path = true
  · simp only [resolved, if_pos video]
    split
    · exact ⟨.refl rack, fun granted => by cases granted⟩
    · rename_i playback _
      exact setSource_fills (.refl rack) index (.video playback)
  · simp only [resolved, if_neg video]
    split
    · exact ⟨.refl rack, fun granted => by cases granted⟩
    · exact showImage_fills ..

/-- What a channel tells of a file of the library, and what it has then. -/
theorem Rack.bind_library {rack : Rack σ} {library : Library}
    (kept : rack.options.library = some library) (index : Fin 4) (name : String) :
    ∃ outcome, (rack.bind index.val (.library name)).2.events =
        rack.events ++ [⟨index.val, (Request.library name).kind, outcome⟩] ∧
      (outcome = .ok () → ∃ path, library.locate rack.options.files.isFile name = .ok path ∧
        ((rack.bind index.val (.library name)).2.slot index).source.kind =
          if isVideo path then .video else .image) := by
  simp only [Rack.bind, checkIndex_val]
  cases located : library.locate rack.options.files.isFile name with
  | error error =>
    have refused : (rack.teardown index).acquire index (.library name) =
        (.error error, rack.teardown index) := by
      have same : (rack.teardown index).options = rack.options := rfl
      simp only [Rack.acquire, resolveRequest, same, kept, located]
    rw [refused]
    exact ⟨.error error, rfl, fun granted => by cases granted⟩
  | ok path =>
    have fills := (rack.teardown index).acquire_located kept located index
    cases acquired : (rack.teardown index).acquire index (.library name) with
    | mk result after =>
      rw [acquired] at fills
      have events : after.events = rack.events := fills.quiet.events
      cases result with
      | error error =>
        refine ⟨.error error, ?_, fun granted => by cases granted⟩
        rw [← events]
        rfl
      | ok =>
        have idle : (after.slot index).pending = none := by
          rw [← inFlight_eq_none, fills.quiet.inFlight, inFlight_eq_none, teardown_slot]
          rfl
        dsimp only
        rw [slot_setSlot_self, idle, Option.isNone_none, if_pos rfl]
        refine ⟨.ok (), ?_, fun _ => ⟨path, rfl, ?_⟩⟩
        · rw [← events]
          rfl
        · refine Eq.trans ?_ (fills.source rfl)
          exact congrArg (·.source.kind) (slot_setSlot_self ..)

/-- Whatever files there are: what the library finds for a name lies strictly below its directory,
by the plain components of the name, and is played just when the name says so; a name that could
lead elsewhere is told to be missing, and all other names find their file. The kind that is
announced for the file is the kind that the channel has then. -/
theorem Library.locate_below (library : Library) (name : String) :
    (∀ isFile path, library.locate isFile name = .ok path →
      LiesBelow library.root name path ∧ isVideo path = isVideo name) ∧
    (Improper name → ∀ isFile, ∃ message,
      library.locate isFile name = .error (.notFound message)) ∧
    (∀ isFile, library.locate isFile name = .ok (join library.root name) ↔
      ¬ Improper name ∧ isFile (join library.root name) = true) ∧
    ∀ (rack : Rack σ) (index : Fin 4), rack.options.library = some library →
      ∃ outcome, (rack.bind index.val (.library name)).2.events =
          rack.events ++ [⟨index.val, (Request.library name).kind, outcome⟩] ∧
        (outcome = .ok () → ((rack.bind index.val (.library name)).2.slot index).source.kind =
          (Request.library name).kind) := by
  refine ⟨fun isFile path located => ?_, fun improper isFile => ?_, fun isFile => ?_,
    fun rack index kept => ?_⟩
  · obtain ⟨plain, rfl, -⟩ := locate_eq_ok.mp located
    exact ⟨.of_plain plain library.root, hasExtension_join plain library.root "gif"⟩
  · have rejected : isPlainName name = false := by
      rw [← Bool.not_eq_true, isPlainName_iff, not_not]
      exact improper
    exact ⟨_, by rw [locate, rejected, Bool.not_false, if_pos rfl]⟩
  · rw [locate_eq_ok, isPlainName_iff]
    simp only [true_and]
  · obtain ⟨outcome, events, shown⟩ := Rack.bind_library kept index name
    refine ⟨outcome, events, fun granted => ?_⟩
    obtain ⟨path, located, kind⟩ := shown granted
    rw [kind, isVideo_of_located located]
    rfl

/-- A moving picture of one pixel. -/
def pixelGif : Bytes :=
  #[0x47, 0x49, 0x46, 0x38, 0x39, 0x61, 1, 0, 1, 0, 0x80, 0, 0, 0, 0, 0, 0xff, 0xff, 0xff, 0x2c,
    0, 0, 0, 0, 1, 0, 1, 0, 0, 2, 2, 0x44, 1, 0, 0x3b]

/-- A library with one file, and a file beside the library. -/
def shelf : Tree :=
  (Tree.empty.insert "secret.png" (.file #[])).insert "lib/wood/oak 1.GIF" (.file pixelGif)

def shelfRack : Rack Headless where
  backend := .new (fun _ => none) 4 4
  devices := .none
  slots := .replicate 4 .empty
  placeholder := ⟨1⟩
  options := ⟨some ⟨"lib/"⟩, 2, some 0, .plain, shelf.disk⟩
  events := []
  broken := false
  generators := 0

theorem shelf_below :
    (⟨"lib/"⟩ : Library).locate shelf.isFile "wood//./oak 1.GIF" = .ok "lib/wood//./oak 1.GIF" ∧
    LiesBelow "lib/" "wood//./oak 1.GIF" "lib/wood//./oak 1.GIF" ∧
    shelf.isFile "lib/../secret.png" = true ∧
    (∃ message,
      (⟨"lib/"⟩ : Library).locate shelf.isFile "../secret.png" = .error (.notFound message)) ∧
    ((shelfRack.bind 0 (.library "wood//./oak 1.GIF")).2.slot 0).source.kind = .video := by
  have found : (⟨"lib/"⟩ : Library).locate shelf.isFile "wood//./oak 1.GIF" =
    .ok "lib/wood//./oak 1.GIF" := by decide +kernel
  obtain ⟨below, -, -, bound⟩ := Library.locate_below (σ := Headless) ⟨"lib/"⟩ "wood//./oak 1.GIF"
  obtain ⟨-, missing, -⟩ := Library.locate_below (σ := Headless) ⟨"lib/"⟩ "../secret.png"
  obtain ⟨outcome, events, shown⟩ := bound shelfRack 0 rfl
  have granted : outcome = .ok () := by
    have told : (shelfRack.bind 0 (.library "wood//./oak 1.GIF")).2.events.map
      (·.outcome.isOk) = [true] := by decide +kernel
    rw [show (0 : Fin 4).val = 0 from rfl] at events
    rw [events] at told
    cases outcome with
    | error => cases told
    | ok => rfl
  refine ⟨found, (below _ _ found).1, by decide +kernel, missing (.upwards (by decide +kernel)) _,
    (shown granted).trans (by decide +kernel)⟩

end Channel

end LiveFragment
