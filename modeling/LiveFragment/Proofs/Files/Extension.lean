import LiveFragment.Channel.Library
import LiveFragment.Proofs.Text.Reading

namespace LiveFragment

open LiveFragment.Files LiveFragment.Text

namespace Files

theorem pathParts_ne_nil (path : String) : pathParts path ≠ [] := by
  simp [pathParts, splitAll_ne_nil]

theorem pathParts_slash (front rest : String) :
    pathParts (front ++ "/" ++ rest) = pathParts front ++ pathParts rest := by
  simp [pathParts, splitAll_append]

/-- What a part of a path that does not come first is a component of, if it is one. -/
def laterComponent (part : String) : Option Component :=
  if part = "" ∨ part = "." then none
  else if part = ".." then some .parent
  else some (.normal part)

/-- The component that a path starts with. -/
def firstComponent (part : String) : Component :=
  if part = "" then .root
  else if part = "." then .current
  else if part = ".." then .parent
  else .normal part

theorem components_of_parts {path first : String} {rest : List String} (named : path ≠ "")
    (parts : pathParts path = first :: rest) :
    components path = firstComponent first :: rest.filterMap laterComponent := by
  have equation : components path =
      if first = "" ∧ path ≠ "" then .root :: rest.filterMap laterComponent
      else if first = "." then .current :: rest.filterMap laterComponent
      else (first :: rest).filterMap laterComponent := by
    unfold components
    rw [parts]
    rfl
  rw [equation]
  unfold firstComponent
  by_cases rooted : first = ""
  · simp [rooted, named]
  · by_cases here : first = "."
    · simp [here]
    · by_cases up : first = ".." <;> simp [rooted, here, up, laterComponent]

theorem components_ne_nil {path : String} (named : path ≠ "") : components path ≠ [] := by
  cases parts : pathParts path with
  | nil => exact absurd parts (pathParts_ne_nil path)
  | cons first rest =>
    rw [components_of_parts named parts]
    exact List.cons_ne_nil _ _

/-- A path that starts with a plain name has its parts for components, but for those that are
dropped. -/
theorem components_of_plain {path : String}
    (plain : (components path).all Channel.isNormal = true) :
    components path = (pathParts path).filterMap laterComponent := by
  by_cases named : path = ""
  · subst named
    rfl
  · cases parts : pathParts path with
    | nil => exact absurd parts (pathParts_ne_nil path)
    | cons first rest =>
      rw [components_of_parts named parts] at plain ⊢
      have normal : Channel.isNormal (firstComponent first) = true := by
        rw [List.all_cons, Bool.and_eq_true] at plain
        exact plain.1
      revert normal
      unfold firstComponent laterComponent
      by_cases rooted : first = ""
      · simp [rooted, Channel.isNormal]
      · by_cases here : first = "."
        · simp [here, Channel.isNormal]
        · by_cases up : first = ".." <;> simp [rooted, here, up, Channel.isNormal]

/-- Behind a slash a path has the components of the parts there, and before it those that it would
have without them. -/
theorem components_slash (front rest : String) :
    components (front ++ "/" ++ rest) =
      components (front ++ "/") ++ (pathParts rest).filterMap laterComponent := by
  cases parts : pathParts front with
  | nil => exact absurd parts (pathParts_ne_nil front)
  | cons first others =>
    have below (rest : String) : components (front ++ "/" ++ rest) =
        firstComponent first :: (others ++ pathParts rest).filterMap laterComponent := by
      apply components_of_parts (by simp)
      rw [pathParts_slash, parts, List.cons_append]
    have ended : components (front ++ "/") =
        firstComponent first :: others.filterMap laterComponent := by
      have empty := below ""
      rw [String.append_empty] at empty
      rw [empty, List.filterMap_append]
      exact congrArg (firstComponent first :: ·) (List.append_nil _)
    rw [below, ended, List.filterMap_append, List.cons_append]

theorem components_append_slash {directory : String} (named : directory ≠ "") :
    components (directory ++ "/") = components directory := by
  cases parts : pathParts directory with
  | nil => exact absurd parts (pathParts_ne_nil directory)
  | cons first others =>
    have ended : pathParts (directory ++ "/") = first :: (others ++ [""]) := by
      have whole := pathParts_slash directory ""
      rwa [String.append_empty, parts] at whole
    rw [components_of_parts named parts, components_of_parts (by simp) ended,
      List.filterMap_append]
    exact congrArg (firstComponent first :: ·) (List.append_nil _)

theorem components_of_slash {path : String} (rooted : path.startsWith "/" = true) :
    ∃ rest, components path = .root :: rest := by
  obtain ⟨rest, whole⟩ := String.startsWith_string_iff.mp rooted
  obtain rfl : "" ++ "/" ++ String.ofList rest = path := by
    rw [← String.toList_inj, ← whole]
    simp
  exact ⟨_, components_of_parts (by simp) (pathParts_slash "" _)⟩

/-- Below a directory a plain name adds its components to those of the directory. -/
theorem components_join {name : String} (plain : (components name).all Channel.isNormal = true)
    (directory : String) :
    components (join directory name) = components directory ++ components name := by
  unfold join
  split
  · rename_i alone
    have relative : ¬ name.startsWith "/" = true := by
      intro rooted
      obtain ⟨rest, parts⟩ := components_of_slash rooted
      simp [parts, Channel.isNormal] at plain
    obtain rfl : directory = "" := alone.resolve_left relative
    rfl
  · rename_i below
    have named : directory ≠ "" := fun empty => below (.inr empty)
    have parts := components_of_plain plain
    split
    · rename_i ends
      have last : "/".toList <:+ directory.toList := by
        rw [← String.endsWith_toSlice, String.Slice.endsWith_string_iff] at ends
        rwa [String.copy_toSlice] at ends
      obtain ⟨front, whole⟩ := last
      obtain rfl : String.ofList front ++ "/" = directory := by
        rw [← String.toList_inj, ← whole]
        simp
      rw [components_slash, parts]
    · rw [components_slash, components_append_slash named, parts]

/-- A plain name is the last name of its path below any directory. -/
theorem fileName?_join {name : String} (plain : Channel.isPlainName name = true)
    (directory : String) : fileName? (join directory name) = fileName? name := by
  have named : name ≠ "" := by
    rintro rfl
    revert plain
    decide
  have normal : (components name).all Channel.isNormal = true := by
    simp only [Channel.isPlainName, Bool.and_eq_true] at plain
    exact plain.2
  rw [fileName?, components_join normal,
    List.getLast?_append_of_ne_nil _ (components_ne_nil named), fileName?]

theorem hasExtension_join {name : String} (plain : Channel.isPlainName name = true)
    (directory word : String) :
    hasExtension (join directory name) word = hasExtension name word := by
  simp only [hasExtension, extension?, fileName?_join plain]

end Files

namespace Channel

/-- What is found of the library is the path of a plain name below its directory. -/
theorem Library.locate_eq_ok {library : Library} {isFile : String → Bool} {name path : String} :
    library.locate isFile name = .ok path ↔
      isPlainName name = true ∧ path = join library.root name ∧ isFile path = true := by
  unfold locate
  by_cases plain : isPlainName name = true
  · by_cases found : isFile (join library.root name) = true
    · simp only [plain, found, Bool.not_true, Bool.false_eq_true, if_false, if_true, true_and,
        Except.ok.injEq]
      constructor
      · rintro rfl
        exact ⟨rfl, found⟩
      · rintro ⟨rfl, -⟩
        rfl
    · simp only [plain, found, Bool.not_true, Bool.false_eq_true, if_false, true_and, reduceCtorEq,
        false_iff, not_and]
      rintro rfl
      exact found
  · simp [plain]

/-- A file of the library is played just when its name says so. -/
theorem Library.isVideo_of_located {library : Library} {isFile : String → Bool}
    {name path : String} (located : library.locate isFile name = .ok path) :
    isVideo path = isVideo name := by
  obtain ⟨plain, rfl, -⟩ := locate_eq_ok.mp located
  exact hasExtension_join plain library.root "gif"

end Channel

end LiveFragment
