import LiveFragment.Backend.Headless
import LiveFragment.CommandLine.Failure
import LiveFragment.Directive.Encoding
import LiveFragment.Json.Printer

namespace LiveFragment.CommandLine

open LiveFragment.Backend LiveFragment.Directive LiveFragment.Parameter LiveFragment.Program

/-- What a task has written, and why it failed if it did. -/
structure Report where
  output : String
  diagnostics : String
  failure : Option Failure
deriving DecidableEq, Repr, Inhabited

namespace Report

def silent : Report := ⟨"", "", none⟩

def failed (failure : Failure) : Report := ⟨"", "", some failure⟩

/-- A diagnostic with the file and the line it is about. -/
def diagnostic (file : String) (error : CompileError) : String :=
  let place :=
    match error.line with
    | some line => file ++ ":" ++ toString line
    | none => file
  place ++ ": error: " ++ error.message ++ "\n"

/-- Compiles a program without drawing it. -/
def ofCheck (judge : String → Option String) (file source : String) : Report :=
  match (Program.compile (Headless.new judge 1 1) source).1 with
  | .error error => ⟨"", diagnostic file error, some (.uncompiled file)⟩
  | .ok compiled =>
    let found := compiled.directives
    ⟨file ++ ": ok (" ++ toString found.params.length ++ " parameter(s), " ++
      toString found.textures.length ++ " texture directive(s))\n", "", none⟩

/-- The declarations of a program as a document. -/
def declarations (source : String) : Document :=
  let found := Directives.ofSource source
  .table [
    ("parameters", .list (found.params.map Definition.toDocument)),
    ("defaults", .table ((Valuation.initial found.params).entries.map fun (name, value) =>
      (name, value.toDocument))),
    ("textures", .list (found.textures.map TextureDirective.toDocument))]

def ofParams (source : String) : Report :=
  ⟨Json.pretty 0 (declarations source) ++ "\n", "", none⟩

end Report

end LiveFragment.CommandLine
