import LiveFragment.CommandLine.Invocation

/-! Reading a command line word by word. The value of an argument is judged when the next argument
begins or the words end; an option that holds its own value is judged at once. A command reads all
words behind its name, and the options in front of the name are judged after it. -/

namespace LiveFragment.CommandLine

open LiveFragment.Number LiveFragment.Text

/-- The form of a word. -/
inductive Word
  /-- Two dashes; all words behind them are plain. -/
  | divider
  | long (name : String) (value : Option String)
  | short (letter : Char)
  | plain
deriving DecidableEq, Repr

def Word.ofText (text : String) : Word :=
  match text.toList with
  | ['-', '-'] => .divider
  | '-' :: '-' :: rest =>
    match cutAt? (· == '=') rest with
    | some (name, value) => .long (String.ofList name) (some (String.ofList value))
    | none => .long (String.ofList rest) none
  | '-' :: letter :: _ => .short letter
  | _ => .plain

/-- What was given so far. -/
structure Given where
  file : Option String
  config : Option String
  frames : Option UInt32
  size : Option Size
  speed : Option Single
  rate : Option Single
  assignments : List Assignment
  out : Option String
deriving DecidableEq, Repr, Inhabited

def Given.nothing : Given := ⟨none, none, none, none, none, none, [], none⟩

/-- The name of a file; it is not empty. -/
def readPath (argument : Argument) (text : String) : Except Refusal String :=
  if text = "" then .error (.valueMissing argument) else .ok text

def readFrames (text : String) : Except Refusal UInt32 :=
  match integerWithin? 0 0xffffffff text.toList with
  | some count => .ok (.ofNat count.toNat)
  | none => .error (.badValue .frames text "not a count of frames")

def readNumber (argument : Argument) (text : String) : Except Refusal Single :=
  match Literal.ofChars? text.toList with
  | some literal => .ok literal.toSingle
  | none => .error (.badValue argument text "not a number")

def readSize (text : String) : Except Refusal Size :=
  match Size.ofText text with
  | .ok size => .ok size
  | .error fault => .error (.badValue .size text fault.text)

def readAssignment (text : String) : Except Refusal Assignment :=
  match Assignment.ofText text with
  | .ok assignment => .ok assignment
  | .error fault => .error (.badValue .assignment text fault.text)

/-- The value of an argument that is given only once. -/
def once {α : Type} (argument : Argument) (held : Option α) (value : Except Refusal α) :
    Except Refusal (Option α) :=
  if held.isSome then .error (.repeated argument) else value.map some

/-- Takes a value for an argument. -/
def Given.put (given : Given) (argument : Argument) (text : String) : Except Refusal Given := do
  match argument with
  | .file => return { given with file := ← once argument given.file (readPath argument text) }
  | .config =>
    return { given with config := ← once argument given.config (readPath argument text) }
  | .out => return { given with out := ← once argument given.out (readPath argument text) }
  | .frames => return { given with frames := ← once argument given.frames (readFrames text) }
  | .size => return { given with size := ← once argument given.size (readSize text) }
  | .speed =>
    return { given with speed := ← once argument given.speed (readNumber argument text) }
  | .rate => return { given with rate := ← once argument given.rate (readNumber argument text) }
  | .assignment =>
    return { given with assignments := given.assignments ++ [← readAssignment text] }

def require {α : Type} (argument : Argument) : Option α → Except Refusal α
  | some value => .ok value
  | none => .error (.missing argument)

/-- The task of a command. -/
def Given.task (given : Given) : Command → Except Refusal Task
  | .check => do return .check (← require .file given.file)
  | .params => do return .params (← require .file given.file)
  | .render => do
    return .render {
      file := ← require .file given.file
      frames := given.frames.getD 1
      size := given.size
      speed := given.speed
      rate := given.rate.getD (.ofNat 60)
      assignments := given.assignments
      out := ← require .out given.out }

/-- How far the reading has come. -/
structure Progress where
  given : Given
  /-- The argument that was named last, with its value once it is there. -/
  pending : Option (Argument × Option String)
  /-- Whether the divider was read. -/
  divided : Bool
deriving DecidableEq, Repr

namespace Progress

def start : Progress := ⟨.nothing, none, false⟩

/-- Whether the next plain word is the value of an option. -/
def awaitsValue (progress : Progress) : Bool :=
  match progress.pending with
  | some (_, none) => true
  | _ => false

def hasFile (progress : Progress) : Bool :=
  progress.given.file.isSome || progress.pending.any (·.1 == .file)

/-- Judges the argument that was named last. -/
def settle (progress : Progress) : Except Refusal Given :=
  match progress.pending with
  | none => .ok progress.given
  | some (argument, none) => .error (.valueMissing argument)
  | some (argument, some text) => progress.given.put argument text

/-- Starts an argument. -/
def begin (progress : Progress) (argument : Argument) (value : Option String) :
    Except Refusal Progress := do
  return { progress with given := ← progress.settle, pending := some (argument, value) }

/-- Takes an argument with its value at once. -/
def take (progress : Progress) (argument : Argument) (text : String) :
    Except Refusal Progress := do
  return { progress with given := ← (← progress.settle).put argument text, pending := none }

/-- Answers a question, once what stands before it is judged. -/
def ask (progress : Progress) (answer : Refusal) : Except Refusal Progress := do
  let _ ← progress.settle
  .error answer

end Progress

/-- The options that a command knows, or the line in front of one. -/
def option? (command : Option Command) (name : String) : Option Argument :=
  match name, command with
  | "config", _ => some .config
  | "frames", some .render => some .frames
  | "size", some .render => some .size
  | "speed", some .render => some .speed
  | "fps", some .render => some .rate
  | "set", some .render => some .assignment
  | "out", some .render => some .out
  | _, _ => none

/-- The questions in their long form; only the line itself has a version. -/
def longQuestion? (command : Option Command) (name : String) : Option Refusal :=
  if name = "help" then some .help
  else if name = "version" ∧ command = none then some .version
  else none

/-- The questions in their short form. -/
def shortQuestion? (command : Option Command) (letter : Char) : Option Refusal :=
  if letter = 'h' then some .help
  else if letter = 'V' ∧ command = none then some .version
  else none

/-- Takes a word that belongs to no option: the file of a command. -/
def takePlain (command : Option Command) (progress : Progress) (word : String) :
    Except Refusal Progress :=
  match command with
  | none =>
    if progress.divided ∧ (word = "help" ∨ (Command.ofName? word).isSome) then
      .error (.unknownArgument word)
    else .error (.unknownCommand word)
  | some _ =>
    if progress.hasFile then .error (.unknownArgument word) else progress.begin .file (some word)

/-- Takes an option or a question in its long form. -/
def takeLong (command : Option Command) (progress : Progress) (name : String)
    (value : Option String) : Except Refusal Progress :=
  match option? command name, longQuestion? command name, value with
  | some argument, _, some text => progress.take argument text
  | some argument, _, none => progress.begin argument none
  | none, some answer, none => progress.ask answer
  | none, some _, some _ => .error (.surplusValue ("--" ++ name))
  | none, none, _ => .error (.unknownArgument ("--" ++ name))

/-- Takes the next word. Of several letters behind one dash the first decides. -/
def takeWord (command : Option Command) (progress : Progress) (word : String) :
    Except Refusal Progress :=
  if progress.divided then takePlain command progress word
  else
    match Word.ofText word with
    | .divider => .ok { progress with divided := true }
    | .long name value => takeLong command progress name value
    | .short letter =>
      match shortQuestion? command letter with
      | some answer => progress.ask answer
      | none => .error (.unknownArgument word)
    | .plain =>
      match progress.pending with
      | some (argument, none) => .ok { progress with pending := some (argument, some word) }
      | _ => takePlain command progress word

/-- What a command is given by the words behind its name. -/
def readCommand (command : Command) (words : List String) : Except Refusal Given := do
  let progress ← words.foldlM (takeWord (some command)) Progress.start
  progress.settle

/-- The answer to a request for help with the tasks that words name. -/
def helpOn : List String → Refusal
  | [] => .help
  | [word] =>
    if word = "help" ∨ (Command.ofName? word).isSome then .help else .unknownCommand word
  | word :: next :: _ =>
    if word = "help" ∨ (Command.ofName? word).isSome then .unknownCommand next
    else .unknownCommand word

/-- Reads the words in front of a command, and then the command. -/
def readLine (progress : Progress) : List String → Except Refusal Invocation
  | [] => do
    let given ← progress.settle
    .error (if given.config.isSome then .commandMissing else .nothing)
  | word :: rest =>
    if progress.divided ∨ progress.awaitsValue then do
      readLine (← takeWord none progress word) rest
    else if word = "help" then .error (helpOn rest)
    else
      match Command.ofName? word with
      | some command => do
        let inner ← readCommand command rest
        let task ← inner.task command
        let outer ← progress.settle
        return ⟨inner.config <|> outer.config, task⟩
      | none => do readLine (← takeWord none progress word) rest

namespace Invocation

/-- What a command line asks for; the program's own name is not among the words. -/
def ofWords (words : List String) : Except Refusal Invocation := readLine .start words

end Invocation

end LiveFragment.CommandLine
