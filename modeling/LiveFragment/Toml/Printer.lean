import LiveFragment.Json.Printer
import LiveFragment.Toml.Quoted

namespace LiveFragment.Toml

open LiveFragment.Number

/-- A control character that no form without escapes can hold. -/
def isControl (c : Char) : Bool := (c.toNat < 0x20 && c ≠ '\t' && c ≠ '\n') || c.toNat = 0x7f

/-- The length of the longest run of a character, after a run that has already begun. -/
def longestRun (c : Char) (current : Nat) : List Char → Nat
  | [] => current
  | other :: rest =>
    if other = c then longestRun c (current + 1) rest else max current (longestRun c 0 rest)

/-- The forms of a text. -/
inductive Form
  | basic
  | literal
  | basicLines
  | literalLines
deriving DecidableEq, Repr

namespace Form

/-- The first form, from plain to rich, that holds a text. -/
def of (text : List Char) : Form :=
  let controls := text.any isControl
  let lines := text.contains '\n'
  let escapes := controls || text.contains '\\'
  let doubles := longestRun '"' 0 text
  let singles := longestRun '\'' 0 text
  if !escapes && !lines && doubles = 0 then basic
  else if !controls && !lines && singles = 0 then literal
  else if !escapes && doubles ≤ 2 then basicLines
  else if !controls && singles ≤ 2 then literalLines
  else if lines then basicLines
  else basic

end Form

/-- A character in a form with escapes, apart from quotes and line feeds. -/
def escapeCharacter (c : Char) : List Char :=
  if c = '\\' then ['\\', '\\']
  else if c = '\x08' then ['\\', 'b']
  else if c = '\t' then ['\\', 't']
  else if c = '\x0c' then ['\\', 'f']
  else if c = '\r' then ['\\', 'r']
  else if c.toNat < 0x20 ∨ c.toNat = 0x7f then
    ['\\', 'u', '0', '0', (Json.hexDigit (c.toNat / 16)).toUpper,
      (Json.hexDigit (c.toNat % 16)).toUpper]
  else [c]

def escapeLine (c : Char) : List Char :=
  if c = '"' then ['\\', '"']
  else if c = '\n' then ['\\', 'n']
  else escapeCharacter c

/-- A text over several lines: of three quotes in a row the third is escaped. -/
def escapeLines (quotes : Nat) : List Char → List Char
  | [] => []
  | c :: rest =>
    if c = '"' then
      if quotes = 2 then '\\' :: '"' :: escapeLines 0 rest
      else '"' :: escapeLines (quotes + 1) rest
    else if c = '\n' then '\n' :: escapeLines 0 rest
    else escapeCharacter c ++ escapeLines 0 rest

def quoted (text : String) : String :=
  let characters := text.toList
  let opening := if characters.contains '\n' then "\n" else ""
  match Form.of characters with
  | .basic => "\"" ++ String.ofList (characters.flatMap escapeLine) ++ "\""
  | .literal => "'" ++ text ++ "'"
  | .basicLines =>
    "\"\"\"" ++ opening ++ String.ofList (escapeLines 0 characters) ++ "\"\"\""
  | .literalLines => "'''" ++ opening ++ text ++ "'''"

/-- The pair of a key and a value without parts; a value that is null has no pair. -/
def pairText (key : String) : Document → Option String
  | .boolean value => some (key ++ " = " ++ (if value then "true" else "false") ++ "\n")
  | .integer value => some (key ++ " = " ++ toString value ++ "\n")
  | .real (.decimal negative magnitude) =>
    some (key ++ " = " ++ (if negative then "-" else "") ++ Style.file.magnitude magnitude ++ "\n")
  | .text content => some (key ++ " = " ++ quoted content ++ "\n")
  | _ => none

def pairsText (fields : List (String × Document)) : String :=
  String.join (fields.filterMap fun (key, document) => pairText key document)

/-- The tables among fields, with their headers. -/
def tablesText (fields : List (String × Document)) : String :=
  String.join <| fields.map fun (key, document) =>
    match document with
    | .table inner => "\n[" ++ key ++ "]\n" ++ pairsText inner
    | _ => ""

/-- A text with the pairs and tables of a root table. -/
def print (fields : List (String × Document)) : String := pairsText fields ++ tablesText fields

end LiveFragment.Toml
