import LiveFragment.Document
import LiveFragment.Number.Style

namespace LiveFragment.Json

open LiveFragment.Number

def hexDigit (n : Nat) : Char := (Nat.toDigits 16 n).headD '0'

/-- A character inside quotes. -/
def quote (c : Char) : List Char :=
  if c = '"' then ['\\', '"']
  else if c = '\\' then ['\\', '\\']
  else if c = '\x08' then ['\\', 'b']
  else if c = '\x0c' then ['\\', 'f']
  else if c = '\n' then ['\\', 'n']
  else if c = '\r' then ['\\', 'r']
  else if c = '\t' then ['\\', 't']
  else if c.toNat < 0x20 then
    ['\\', 'u', '0', '0', hexDigit (c.toNat / 16), hexDigit (c.toNat % 16)]
  else [c]

def quoted (text : String) : String :=
  "\"" ++ String.ofList (text.toList.flatMap quote) ++ "\""

/-- A document without parts. -/
def leafText : Document → String
  | .boolean true => "true"
  | .boolean false => "false"
  | .integer value => toString value
  | .real (.decimal negative magnitude) =>
    (if negative then "-" else "") ++ Style.report.magnitude magnitude
  | .text content => quoted content
  | _ => "null"

mutual

/-- A document on one line. -/
def compact : Document → String
  | .list items => "[" ++ String.intercalate "," (compactItems items) ++ "]"
  | .table fields => "\x7b" ++ String.intercalate "," (compactFields fields) ++ "\x7d"
  | leaf => leafText leaf

def compactItems : List Document → List String
  | [] => []
  | item :: rest => compact item :: compactItems rest

def compactFields : List (String × Document) → List String
  | [] => []
  | (key, item) :: rest => (quoted key ++ ":" ++ compact item) :: compactFields rest

end

def indentation (level : Nat) : String := String.join (List.replicate level "  ")

/-- Puts parts on lines of their own, one level deeper than the brackets around them. -/
def spread (opening closing : String) (level : Nat) (parts : List String) : String :=
  if parts.isEmpty then opening ++ closing
  else
    let separator := ",\n" ++ indentation (level + 1)
    opening ++ "\n" ++ indentation (level + 1) ++ String.intercalate separator parts ++
      "\n" ++ indentation level ++ closing

mutual

/-- A document over several lines, as the part of a document at some level. -/
def pretty (level : Nat) : Document → String
  | .list items => spread "[" "]" level (prettyItems (level + 1) items)
  | .table fields => spread "\x7b" "\x7d" level (prettyFields (level + 1) fields)
  | leaf => leafText leaf

def prettyItems (level : Nat) : List Document → List String
  | [] => []
  | item :: rest => pretty level item :: prettyItems level rest

def prettyFields (level : Nat) : List (String × Document) → List String
  | [] => []
  | (key, item) :: rest =>
    (quoted key ++ ": " ++ pretty level item) :: prettyFields level rest

end

end LiveFragment.Json
