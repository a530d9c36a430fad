import LiveFragment.Text.Blank
import LiveFragment.Text.Numeral
import LiveFragment.Text.Split

namespace LiveFragment.CommandLine

open LiveFragment.Text

structure Size where
  width : UInt32
  height : UInt32
deriving DecidableEq, Repr, Inhabited

/-- Why a text is not a size. Each edge is reported as it stands. -/
inductive SizeFault
  | separator
  | width (edge : String)
  | height (edge : String)
  | empty
deriving DecidableEq, Repr

def SizeFault.text : SizeFault → String
  | separator => "expected WIDTHxHEIGHT"
  | width edge => "invalid width '" ++ edge ++ "'"
  | height edge => "invalid height '" ++ edge ++ "'"
  | empty => "size must be greater than zero"

/-- One edge; blanks around it do not count. -/
def edge? (text : List Char) : Option UInt32 :=
  (naturalBelow? UInt32.size (trim text)).map .ofNat

namespace Size

def ofText (text : String) : Except SizeFault Size :=
  match cutAt? (fun c => c == 'x' || c == 'X') (trim text.toList) with
  | none => .error .separator
  | some (left, right) =>
    match edge? left, edge? right with
    | none, _ => .error (.width (String.ofList left))
    | some _, none => .error (.height (String.ofList right))
    | some width, some height =>
      if width = 0 ∨ height = 0 then .error .empty else .ok ⟨width, height⟩

end Size

end LiveFragment.CommandLine
