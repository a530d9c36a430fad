import LiveFragment.Backend.Error

namespace LiveFragment.Media

inductive AcquireError
  | permissionDenied (what : String)
  | deviceUnavailable (why : String)
  | notFound (what : String)
  | decode (why : String)
  /-- A file that holds no picture of its kind. -/
  | undecodable (path : String)
  | backend (why : String)
deriving DecidableEq, Repr, Inhabited

namespace AcquireError

def ofBackend (error : Backend.BackendError) : AcquireError := .backend error.text

/-- The words for an error, as far as they do not depend on how a file is decoded. -/
def text : AcquireError → String
  | permissionDenied what => "permission denied: " ++ what
  | deviceUnavailable why => "device unavailable: " ++ why
  | notFound what => "not found: " ++ what
  | decode why => "decode failed: " ++ why
  | undecodable path => "decode failed: " ++ path
  | backend why => "backend failure: " ++ why

end AcquireError

end LiveFragment.Media
