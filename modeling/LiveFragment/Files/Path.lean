import LiveFragment.Text.Split

namespace LiveFragment.Files

open LiveFragment.Text

/-- The parts between slashes; empty where slashes meet or end the path. -/
def pathParts (path : String) : List String :=
  (splitAll (· == '/') path.toList).map String.ofList

/-- A part of a path as a reader of names sees it. -/
inductive Component
  | root
  | current
  | parent
  | normal (name : String)
deriving DecidableEq, Repr

/-- The components of a path. A slash in front is the root; further slashes and single points are
dropped, but a point in front of a relative path stays. -/
def components (path : String) : List Component :=
  let inner (part : String) : Option Component :=
    if part = "" ∨ part = "." then none
    else if part = ".." then some .parent
    else some (.normal part)
  match pathParts path with
  | [] => []
  | first :: rest =>
    if first = "" ∧ path ≠ "" then .root :: rest.filterMap inner
    else if first = "." then .current :: rest.filterMap inner
    else (first :: rest).filterMap inner

/-- A path below a directory. An absolute path stays as it is. -/
def join (directory name : String) : String :=
  if name.startsWith "/" ∨ directory = "" then name
  else if directory.endsWith "/" then directory ++ name
  else directory ++ "/" ++ name

/-- The last name of a path, if it does not lead upwards. -/
def fileName? (path : String) : Option String :=
  match (components path).getLast? with
  | some (.normal name) => some name
  | _ => none

/-- What follows the last point of a path's last name. A point in front starts no extension. -/
def extension? (path : String) : Option String := do
  let name ← fileName? path
  let (stem, extension) ← cutAtLast? (· == '.') name.toList
  if stem.isEmpty then none else some (String.ofList extension)

/-- Whether a path's extension is a given word, in any case. -/
def hasExtension (path word : String) : Bool :=
  match extension? path with
  | some extension => extension.toList.map Char.toLower == word.toList
  | none => false

end LiveFragment.Files
