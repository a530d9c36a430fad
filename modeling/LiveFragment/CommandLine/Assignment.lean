import LiveFragment.Number.Literal
import LiveFragment.Parameter.Store
import LiveFragment.Text.Blank
import LiveFragment.Text.Split

namespace LiveFragment.CommandLine

open LiveFragment.Number LiveFragment.Parameter LiveFragment.Text

structure Assignment where
  name : String
  /-- The element of an array that is meant. -/
  index : Option Nat
  components : List Double
deriving DecidableEq, Repr, Inhabited

/-- Why a text is not an assignment. -/
inductive AssignmentFault
  | separator
  | unterminated (target : String)
  | index (digits : String)
  | name
  | number (text : String)
deriving DecidableEq, Repr

def AssignmentFault.text : AssignmentFault → String
  | separator => "expected NAME=VALUE"
  | unterminated target => "unterminated index in '" ++ target ++ "'"
  | index digits => "invalid index '" ++ digits ++ "'"
  | name => "parameter name must not be empty"
  | number text => "invalid number '" ++ text ++ "'"

/-- Why an assignment does not fit a program. -/
inductive FitFault
  | undeclared (name : String)
  | wholeArray (name : String)
  | components (name : String) (shape : Shape) (found : Nat)
  | write (error : WriteError)
deriving DecidableEq, Repr

def FitFault.text : FitFault → String
  | undeclared name => "program has no parameter named '" ++ name ++ "'"
  | wholeArray name =>
    "'" ++ name ++ "' is an array; set one element with " ++ name ++ "[INDEX]=..."
  | components name shape found =>
    "'" ++ name ++ "' is a " ++ shape.keyword ++ " and takes " ++ toString shape.components ++
      " component(s), got " ++ toString found
  | write error => error.text

namespace Assignment

/-- What stands in front of the bracket that ends a text. -/
def beforeBracket? (text : List Char) : Option (List Char) :=
  if text.getLast? = some ']' then some text.dropLast else none

/-- The name and the index on the left of an assignment. -/
def target (text : List Char) : Except AssignmentFault (List Char × Option Nat) :=
  let text := trim text
  match cutAt? (· == '[') text with
  | none => .ok (text, none)
  | some (name, rest) =>
    match beforeBracket? rest with
    | none => .error (.unterminated (String.ofList text))
    | some digits =>
      match index? (trim digits) with
      | none => .error (.index (String.ofList digits))
      | some index => .ok (trim name, some index)

def component (text : List Char) : Except AssignmentFault Double :=
  match finiteDouble? (trim text) with
  | some x => .ok x
  | none => .error (.number (String.ofList (trim text)))

def ofText (text : String) : Except AssignmentFault Assignment := do
  match cutAt? (· == '=') text.toList with
  | none => .error .separator
  | some (left, right) =>
    let (name, index) ← target left
    if name = [] then .error .name
    else return ⟨String.ofList name, index, ← (splitAll (· == ',') right).mapM component⟩

/-- Writes the value into a store. It has to have the components that the definition declares. -/
def apply (assignment : Assignment) (store : Store) : Except FitFault Store :=
  match store.definition? assignment.name with
  | none => .error (.undeclared assignment.name)
  | some definition =>
    if definition.isArray ∧ assignment.index = none then .error (.wholeArray assignment.name)
    else if assignment.components.length ≠ definition.shape.components then
      .error (.components assignment.name definition.shape assignment.components.length)
    else
      match store.set assignment.name assignment.index
          (.ofComponents definition.shape assignment.components) with
      | .error error => .error (.write error)
      | .ok store => .ok store

end Assignment

end LiveFragment.CommandLine
