import LiveFragment.Bytes
import LiveFragment.Files.Path

namespace LiveFragment.Files

inductive Entry
  | file (content : Bytes)
  | directory
deriving DecidableEq, Repr, Inhabited

/-- Why a path leads to nothing, or its content cannot be read. -/
inductive FileError
  | notFound
  | notDirectory
  | isDirectory
  | permissionDenied
  | invalidText
  | other (reason : String)
deriving DecidableEq, Repr

def FileError.text : FileError → String
  | notFound => "No such file or directory (os error 2)"
  | notDirectory => "Not a directory (os error 20)"
  | isDirectory => "Is a directory (os error 21)"
  | permissionDenied => "Permission denied (os error 13)"
  | invalidText => "stream did not contain valid UTF-8"
  | other reason => reason

/-- The files of a machine, by their paths. -/
structure Disk where
  isFile : String → Bool
  /-- The content of a file. -/
  read : String → Except FileError Bytes

instance : Inhabited Disk := ⟨fun _ => false, fun _ => .error .notFound⟩

/-- The entries of a tree under the names that lead to them; the top is a directory. -/
structure Tree where
  entries : List (List String × Entry)
deriving Repr, Inhabited

namespace Tree

def empty : Tree := ⟨[]⟩

/-- The directories above an entry, from the top down. -/
def ancestors (names : List String) : List (List String) :=
  (List.range names.length).map names.take

/-- Puts an entry into a tree, with the directories above it. -/
def insert (tree : Tree) (path : String) (entry : Entry) : Tree :=
  let names := (pathParts path).filter (· ≠ "")
  ⟨(names, entry) :: (ancestors names).map (·, Entry.directory) ++ tree.entries⟩

def entry? (tree : Tree) (names : List String) : Option Entry :=
  if names = [] then some .directory else tree.entries.lookup names

/-- Follows the parts of a path from an entry. An empty part or a point stays there, two points go
up; all three need a directory to stand in. -/
def follow (tree : Tree) : List String → List String → Except FileError (List String)
  | here, [] => .ok here
  | here, part :: rest =>
    if tree.entry? here ≠ some .directory then .error .notDirectory
    else if part = "" ∨ part = "." then follow tree here rest
    else if part = ".." then
      if here = [] then .error .notFound else follow tree here.dropLast rest
    else if (tree.entry? (here ++ [part])).isSome then follow tree (here ++ [part]) rest
    else .error .notFound

/-- The names of the file that a path leads to, or that would be made there. -/
def place (tree : Tree) (path : String) : Except FileError (List String) :=
  let parts := pathParts path
  let last := parts.getLastD ""
  if path = "" ∨ path.startsWith "/" then .error .notFound
  else
    match tree.follow [] parts.dropLast with
    | .error error => .error error
    | .ok above =>
      if tree.entry? above ≠ some .directory then .error .notDirectory
      else if last = "" ∨ last = "." ∨ last = ".." then .error .isDirectory
      else if tree.entry? (above ++ [last]) = some .directory then .error .isDirectory
      else .ok (above ++ [last])

/-- The entry that a path leads to. -/
def find (tree : Tree) (path : String) : Except FileError Entry :=
  if path = "" ∨ path.startsWith "/" then .error .notFound
  else
    match tree.follow [] (pathParts path) with
    | .error error => .error error
    | .ok names =>
      match tree.entry? names with
      | some entry => .ok entry
      | none => .error .notFound

def isFile (tree : Tree) (path : String) : Bool :=
  match tree.find path with
  | .ok (.file _) => true
  | _ => false

def exists? (tree : Tree) (path : String) : Bool :=
  match tree.find path with
  | .ok _ => true
  | .error _ => false

/-- The content of a file. -/
def read (tree : Tree) (path : String) : Except FileError Bytes :=
  match tree.find path with
  | .error error => .error error
  | .ok .directory => .error .isDirectory
  | .ok (.file content) => .ok content

/-- The content of a file as text. -/
def readText (tree : Tree) (path : String) : Except FileError String :=
  match tree.read path with
  | .error error => .error error
  | .ok content =>
    match String.fromUTF8? ⟨content⟩ with
    | some text => .ok text
    | none => .error .invalidText

/-- A disk with these files and no others. -/
def disk (tree : Tree) : Disk := ⟨tree.isFile, tree.read⟩

end Tree

end LiveFragment.Files
