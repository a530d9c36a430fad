import LiveFragment.Directive.Line
import LiveFragment.Text.Numeral

namespace LiveFragment.Directive

open LiveFragment.Text

def textureKeyword : String := "@texture"

/-- The channels a program can sample. -/
def channelCount : Nat := 4

/-- The block sizes a microphone channel may be analysed in. -/
def analysisSizes : List Nat := [64, 128, 256, 512, 1024, 2048, 4096]

/-- A generated texture. -/
inductive Pattern
  | noise
  | noiseRgb
deriving DecidableEq, Repr

namespace Pattern

def name : Pattern → String
  | noise => "noise"
  | noiseRgb => "noise-rgb"

def ofName? (word : String) : Option Pattern := [noise, noiseRgb].find? fun p => p.name == word

theorem ofName?_name (pattern : Pattern) : ofName? pattern.name = some pattern := by
  cases pattern <;> rfl

end Pattern

/-- Where the texture of a channel comes from. -/
inductive TextureSource
  | builtin (pattern : Pattern)
  | file (name : String)
  | microphone (size : Nat)
deriving DecidableEq, Repr

structure TextureDirective where
  channel : Nat
  source : TextureSource
deriving DecidableEq, Repr

/-- A channel number, alone or after the name of the sampler. -/
def channel? (word : List Char) : Option Nat :=
  let digits := ("iChannel".toList.isPrefixOf? word).getD word
  (index? digits).filter (· < channelCount)

/-- A file name: in quotes whatever it holds, or bare without white space. -/
def fileName? (text : List Char) : Option (List Char) :=
  let name : Option (List Char) :=
    match text with
    | '"' :: quoted => (['"'] : List Char).isSuffixOf? quoted
    | _ => if text.any isBlank then none else some text
  name.filter fun name => !name.isEmpty

/-- A block size with nothing behind it. -/
def analysisSize? (text : List Char) : Option Nat := do
  let (word, rest) ← nextWord? text
  if !(trim rest).isEmpty then none
  else (index? word).filter (analysisSizes.contains ·)

/-- The source named by its first word and the text behind that word. -/
def source? (word rest : List Char) : Option TextureSource :=
  if word = "file".toList then (fileName? rest).map fun name => .file (String.ofList name)
  else if word = "mic".toList then (analysisSize? rest).map .microphone
  else if !rest.isEmpty then none
  else (Pattern.ofName? (String.ofList word)).map .builtin

/-- The directive on a line, if it is a well-formed texture directive. -/
def texture? (line : List Char) : Option TextureDirective := do
  let body ← body? textureKeyword.toList line
  let (slot, rest) ← nextWord? body
  let channel ← channel? slot
  let (word, rest) ← nextWord? rest
  let source ← source? word (trim rest)
  some ⟨channel, source⟩

end LiveFragment.Directive
