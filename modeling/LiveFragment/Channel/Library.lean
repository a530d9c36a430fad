import LiveFragment.Files.Tree
import LiveFragment.Media.Error
import LiveFragment.Text.Blank

namespace LiveFragment.Channel

open LiveFragment.Files LiveFragment.Media LiveFragment.Text

structure Library where
  root : String
deriving DecidableEq, Repr, Inhabited

def isNormal : Component → Bool
  | .normal _ => true
  | _ => false

/-- A name that is not blank and whose components are all plain names. -/
def isPlainName (name : String) : Bool :=
  !(trim name.toList).isEmpty && (components name).all isNormal

namespace Library

/-- The path of a file of the library, where it is known which paths are files. -/
def locate (library : Library) (isFile : String → Bool) (name : String) :
    Except AcquireError String :=
  if !isPlainName name then .error (.notFound ("'" ++ name ++ "' is not a valid texture name"))
  else
    let path := join library.root name
    if isFile path then .ok path
    else .error (.notFound ("texture '" ++ name ++ "' not found in " ++ library.root))

end Library

/-- Files that are played rather than shown. -/
def isVideo (path : String) : Bool := hasExtension path "gif"

end LiveFragment.Channel
