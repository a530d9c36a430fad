import LiveFragment.Program.Assembly
import LiveFragment.Text.Blank
import LiveFragment.Text.Numeral
import LiveFragment.Text.Split

namespace LiveFragment.Program

open LiveFragment.Text

/-- A program that did not compile. -/
structure CompileError where
  /-- The line of the own text, when the error lies there. -/
  line : Option Nat
  message : String
  /-- The log as it was. -/
  raw : String
deriving DecidableEq, Repr

namespace CompileError

def text (error : CompileError) : String :=
  match error.line with
  | some line => "line " ++ toString line ++ ": " ++ error.message
  | none => error.message

/-- An error without a position, told by its message alone. -/
def ofMessage (message : String) : CompileError := ⟨none, message, message⟩

end CompileError

/-- What starts a line of the form with a column. -/
def errorMark : List Char := "ERROR:".toList

/-- What follows the line number in the form with a place. -/
def placeMark : List Char := ": error:".toList

/-- The line number and message of `ERROR: column:line: message`, read behind the mark. -/
def markedLine? (rest : List Char) : Option (Nat × List Char) := do
  let (column, rest) ← cutAt? (· == ':') rest
  let _ ← index? (trim column)
  let (number, message) := (cutAt? (· == ':') rest).getD (rest, [])
  let number ← index? (trim number)
  some (number, trim message)

/-- The line number and message of `place:line: error: message`. -/
def placedLine? (line : List Char) : Option (Nat × List Char) := do
  let (place, message) ← cutAtWord? placeMark line
  let (_, number) ← cutAtLast? (· == ':') place
  let number ← index? (trim number)
  some (number, trim message)

/-- What a log line says, in either form. A line with the mark is never read in the other form. -/
def locatedLine? (line : List Char) : Option (Nat × List Char) :=
  let line := trim line
  match errorMark.isPrefixOf? line with
  | some rest => markedLine? rest
  | none => placedLine? line

/-- The error that a log reports. A log without a position is told by its first line with text. -/
def CompileError.ofLog (log : String) (assembly : Assembly) : CompileError :=
  let logLines := lines log.toList
  match logLines.findSome? locatedLine? with
  | some (number, message) => ⟨assembly.userLine? number, String.ofList message, log⟩
  | none =>
    let first := (logLines.map trim).find? fun line => !line.isEmpty
    ⟨none, (first.map String.ofList).getD "compilation failed", log⟩

/-- What a compiler found wrong: where, and what it says about it. A finding without a position is at
column and line zero. -/
structure Finding where
  column : UInt64
  line : UInt64
  message : String
deriving DecidableEq, Repr

namespace Finding

/-- A finding as a log has it. -/
def text (finding : Finding) : String :=
  "ERROR: " ++ toString finding.column ++ ":" ++ toString finding.line ++ ": " ++
    finding.message ++ "\n"

/-- The log of a program with something wrong in it. -/
def log (findings : List Finding) : String := String.join (findings.map text)

end Finding

end LiveFragment.Program
