import LiveFragment.Toml.Scalar
import LiveFragment.Toml.Tree

namespace LiveFragment.Toml

/-- The levels of lists and tables that a value may hold. -/
def maxLevels : Nat := 79

/-- The parts that a dotted key may have. -/
def maxParts : Nat := 79

def skipSpace (text : List Char) : List Char := text.dropWhile isSpace

/-- The end of a line: a comment, if there is one, and a line ending or the end of the text. -/
def endOfLine? (text : List Char) : Option (List Char) :=
  let rest :=
    match skipSpace text with
    | '#' :: comment => comment.dropWhile isPlain
    | rest => rest
  if rest = [] then some [] else newline? rest

/-- Skips white space, comments and line endings. -/
def skipBlanks : Nat → List Char → List Char
  | 0, text => text
  | bound + 1, text =>
    match skipSpace text with
    | '#' :: comment =>
      match newline? (comment.dropWhile isPlain) with
      | some rest => skipBlanks bound rest
      | none => '#' :: comment
    | rest =>
      match newline? rest with
      | some rest => skipBlanks bound rest
      | none => rest

def isBareKey (c : Char) : Bool :=
  ('A' ≤ c && c ≤ 'Z') || ('a' ≤ c && c ≤ 'z') || ('0' ≤ c && c ≤ '9') || c == '_' || c == '-'

/-- One part of a key: in quotes on one line, or bare. -/
def keyPart? : List Char → Option (String × List Char)
  | '"' :: rest => (basic? rest).map fun (name, behind) => (String.ofList name, behind)
  | '\'' :: rest => (literal? rest).map fun (name, behind) => (String.ofList name, behind)
  | text =>
    let name := text.takeWhile isBareKey
    if name = [] then none else some (String.ofList name, text.dropWhile isBareKey)

/-- A key of several parts with points between them, the last part by itself. White space may
stand around every part. -/
def key? : Nat → List Char → Option (List String × String × List Char)
  | 0, _ => none
  | parts + 1, text => do
    let (name, rest) ← keyPart? (skipSpace text)
    match skipSpace rest with
    | '.' :: rest => do
      let (path, last, rest) ← key? parts rest
      some (name :: path, last, rest)
    | rest => some ([], name, rest)

/-- The items of a list up to its bracket. A comma may follow the last item. -/
def items? (item? : List Char → Option (Document × List Char)) :
    Nat → List Char → Option (List Document × List Char)
  | 0, _ => none
  | bound + 1, text =>
    match skipBlanks text.length text with
    | ']' :: rest => some ([], rest)
    | start => do
      let (item, rest) ← item? start
      match skipBlanks rest.length rest with
      | ']' :: rest => some ([item], rest)
      | ',' :: rest => do
        let (more, rest) ← items? item? bound rest
        some (item :: more, rest)
      | _ => none

/-- A key, an equals sign and a value. -/
def pair? (item? : List Char → Option (Document × List Char)) (text : List Char) :
    Option (List String × String × Document × List Char) := do
  let (path, name, rest) ← key? maxParts text
  let (document, rest) ← item? (skipSpace (← expect? '=' rest))
  some (path, name, document, rest)

/-- The pairs of a table in braces, on one line. No comma follows the last pair. -/
def pairs? (item? : List Char → Option (Document × List Char)) :
    Nat → Entries → List Char → Option (Entries × List Char)
  | 0, _, _ => none
  | bound + 1, entries, text => do
    let (path, name, document, rest) ← pair? item? text
    let entries ← entries.put path name document .stated
    match skipSpace rest with
    | '\x7d' :: rest => some (entries, rest)
    | ',' :: rest => pairs? item? bound entries rest
    | _ => none

/-- The value a text starts with, of so many levels. -/
def value? : Nat → List Char → Option (Document × List Char)
  | levels, '[' :: rest =>
    match levels with
    | 0 => none
    | levels + 1 =>
      (items? (value? levels) rest.length rest).map fun (items, rest) => (.list items, rest)
  | levels, '\x7b' :: rest =>
    match levels with
    | 0 => none
    | levels + 1 =>
      match skipSpace rest with
      | '\x7d' :: rest => some (.table [], rest)
      | rest =>
        (pairs? (value? levels) rest.length [] rest).map fun (entries, rest) =>
          (.table (Entries.toFields entries), rest)
  | _, text => scalar text

/-- A header, read behind its opening bracket: the tables with the new one opened, the whole path
of the new one, and what follows. -/
def header? (root : Entries) : List Char → Option (Entries × List String × List Char)
  | '[' :: rest => do
    let (path, name, rest) ← key? maxParts rest
    let rest ← expect? ']' (← expect? ']' rest)
    some (← root.openNext path name, path ++ [name], rest)
  | rest => do
    let (path, name, rest) ← key? maxParts rest
    let rest ← expect? ']' rest
    some (← root.openTable path name, path ++ [name], rest)

/-- Reads the lines of a text into tables. Pairs go into the table of the last header. -/
def lines? : Nat → List String → Entries → List Char → Option Entries
  | 0, _, root, text => if text = [] then some root else none
  | bound + 1, here, root, text =>
    match skipBlanks text.length text with
    | [] => some root
    | '#' :: comment => if comment.dropWhile isPlain = [] then some root else none
    | '[' :: rest => do
      let (root, here, rest) ← header? root rest
      lines? bound here root (← endOfLine? rest)
    | start => do
      let (path, name, document, rest) ← pair? (value? maxLevels) start
      let root ← root.change .implied (fun here entries => entries.put path name document here)
        here .stated
      lines? bound here root (← endOfLine? rest)

/-- The document of a text. A mark of the byte order before it is skipped. -/
def read? (text : String) : Option Document :=
  let text :=
    match text.toList with
    | '\ufeff' :: rest => rest
    | text => text
  (lines? text.length [] [] text).map fun root => .table (Entries.toFields root)

end LiveFragment.Toml
