import LiveFragment.Text.Blank
import LiveFragment.Text.Split

namespace LiveFragment.Directive

open LiveFragment.Text

def slashes : List Char := ['/', '/']

/-- The text after the comment mark and the keyword. The keyword ends the line or is followed by
white space. -/
def body? (keyword line : List Char) : Option (List Char) := do
  let comment ← slashes.isPrefixOf? (trimStart line)
  let rest ← keyword.isPrefixOf? (trimStart comment)
  match rest with
  | [] => some []
  | c :: _ => if isBlank c then some (trim rest) else none

/-- Takes the first quoted text out of a body. The quotation leaves a space behind; one that is not
closed runs to the end. -/
def takeDescription (body : List Char) : List Char × Option (List Char) :=
  match cutAt? (· == '"') body with
  | none => (body, none)
  | some (before, after) =>
    match cutAt? (· == '"') after with
    | none => (before, some after)
    | some (quoted, behind) => (before ++ ' ' :: behind, some quoted)

def isLetter (c : Char) : Bool := ('a' ≤ c && c ≤ 'z') || ('A' ≤ c && c ≤ 'Z')

/-- An ASCII letter or underscore, then letters, digits and underscores. -/
def isIdentifier : List Char → Bool
  | [] => false
  | c :: rest =>
    (isLetter c || c == '_') &&
      rest.all fun c => isLetter c || ('0' ≤ c && c ≤ '9') || c == '_'

end LiveFragment.Directive
