import LiveFragment.Backend.Basic
import LiveFragment.Directive.Source
import LiveFragment.Program.Diagnostic
import LiveFragment.Uniform.Block
import LiveFragment.Uniform.Layout

namespace LiveFragment.Program

open LiveFragment.Backend LiveFragment.Directive LiveFragment.Parameter LiveFragment.Uniform

/-- Where the elements of a parameter lie in the block. -/
structure Slot where
  name : String
  shape : Shape
  offsets : List Nat
deriving DecidableEq, Repr

/-- A program of a backend and the places of its parameters. -/
structure Binding where
  handle : ProgramHandle
  slots : List Slot
  blockSize : Nat
  preambleLines : Nat
deriving DecidableEq, Repr

structure Compiled where
  binding : Binding
  directives : Directives
  assembly : Assembly
deriving Repr

namespace Binding

def slot? (binding : Binding) (name : String) : Option Slot :=
  binding.slots.find? (·.name == name)

/-- Writes one element; an array within an array has no place. -/
def writeElement (block : Block) (offset : Nat) : Value → Block
  | .element held => block.write offset held
  | .array _ => block

/-- Writes the elements of a value at their places, as far as there are places. -/
def writeValue (block : Block) (offsets : List Nat) : Value → Block
  | .array elements =>
    (offsets.zip elements).foldl (fun block (offset, value) => writeElement block offset value)
      block
  | value =>
    match offsets with
    | [] => block
    | offset :: _ => writeElement block offset value

/-- Writes all values that have a slot, in the order of their names. -/
def writeValues (binding : Binding) (values : Valuation) (block : Block) : Block :=
  values.entries.foldl
    (fun block (name, value) =>
      match binding.slot? name with
      | none => block
      | some slot => writeValue block slot.offsets value)
    block

end Binding

/-- The message about parameters that are too many for one block. -/
def blockMessage : String :=
  "parameters exceed the " ++ toString maxBlockBytes ++ "-byte custom uniform block"

/-- The error of a program that a backend did not take. -/
def CompileError.ofBackend (assembly : Assembly) : BackendError → CompileError
  | .shaderCompile log => .ofLog log assembly
  | error => .ofMessage error.text

/-- Compiles a text. The backend is only asked when the parameters fit into a block. -/
def compile {σ : Type} [Backend σ] (backend : σ) (source : String) :
    Except CompileError Compiled × σ :=
  let directives := Directives.ofSource source
  match Layout.ofDefinitions? directives.params with
  | none => (.error (.ofMessage blockMessage), backend)
  | some layout =>
    let assembly := Assembly.ofSource source directives.params
    match Backend.compileProgram backend assembly.text with
    | (.error error, backend) => (.error (.ofBackend assembly error), backend)
    | (.ok handle, backend) =>
      let slots := (directives.params.zip layout.offsets).map fun (definition, offsets) =>
        ⟨definition.name, definition.shape, offsets⟩
      (.ok ⟨⟨handle, slots, layout.size, assembly.preambleLines⟩, directives, assembly⟩, backend)

end LiveFragment.Program
