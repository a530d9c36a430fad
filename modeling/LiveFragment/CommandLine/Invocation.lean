import LiveFragment.CommandLine.Assignment
import LiveFragment.CommandLine.Size

namespace LiveFragment.CommandLine

open LiveFragment.Number

/-- How the frames of a program are rendered. -/
structure RenderJob where
  file : String
  frames : UInt32
  size : Option Size
  speed : Option Single
  /-- The frames of a second. -/
  rate : Single
  assignments : List Assignment
  /-- Where the last frame is written. -/
  out : String
deriving DecidableEq, Repr, Inhabited

inductive Task
  | check (file : String)
  | params (file : String)
  | render (job : RenderJob)
deriving DecidableEq, Repr

structure Invocation where
  /-- The configuration file, if one is named. -/
  config : Option String
  task : Task
deriving DecidableEq, Repr

/-- The names of the tasks. -/
inductive Command
  | check
  | params
  | render
deriving DecidableEq, Repr

def Command.name : Command → String
  | check => "check"
  | params => "params"
  | render => "render"

def Command.ofName? (word : String) : Option Command :=
  [check, params, render].find? fun command => command.name == word

/-- The arguments that have a value: the file, and options before theirs. -/
inductive Argument
  | file
  | config
  | frames
  | size
  | speed
  | rate
  | assignment
  | out
deriving DecidableEq, Repr

def Argument.label : Argument → String
  | file => "<FILE>"
  | config => "--config <FILE>"
  | frames => "--frames <N>"
  | size => "--size <WIDTHxHEIGHT>"
  | speed => "--speed <SPEED>"
  | rate => "--fps <FPS>"
  | assignment => "--set <NAME=VALUE>"
  | out => "--out <PNG>"

/-- Why a command line starts no task. -/
inductive Refusal
  | help
  | version
  /-- Nothing was given at all. -/
  | nothing
  | commandMissing
  | unknownCommand (word : String)
  | unknownArgument (word : String)
  | surplusValue (word : String)
  | repeated (argument : Argument)
  | missing (argument : Argument)
  | valueMissing (argument : Argument)
  | badValue (argument : Argument) (value reason : String)
deriving DecidableEq, Repr

def usage : String :=
  "Usage: shaderdeck [--config <FILE>] <COMMAND>\n\nCommands:\n" ++
    "  check   Compile a program without a GPU and report errors against its own lines\n" ++
    "  params  Print parameter definitions, defaults, and texture directives as JSON\n" ++
    "  render  Render frames offscreen and write the last one to a PNG\n"

def Refusal.text : Refusal → String
  | help | nothing => usage
  | version => "shaderdeck 0.1.0\n"
  | commandMissing => "error: a command is required\n\n" ++ usage
  | unknownCommand word => "error: unrecognized command '" ++ word ++ "'\n\n" ++ usage
  | unknownArgument word => "error: unexpected argument '" ++ word ++ "' found\n"
  | surplusValue word => "error: '" ++ word ++ "' takes no value\n"
  | repeated argument => "error: '" ++ argument.label ++ "' can be given only once\n"
  | missing argument => "error: '" ++ argument.label ++ "' is required\n"
  | valueMissing argument => "error: '" ++ argument.label ++ "' needs a value\n"
  | badValue argument value reason =>
    "error: invalid value '" ++ value ++ "' for '" ++ argument.label ++ "': " ++ reason ++ "\n"

/-- Whether a refusal is the answer to a question and no mistake. -/
def Refusal.isAnswer : Refusal → Bool
  | help | version => true
  | _ => false

end LiveFragment.CommandLine
