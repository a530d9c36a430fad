import LiveFragment.Json.Token

namespace LiveFragment.Toml

open LiveFragment.Json

def isSpace (c : Char) : Bool := c == ' ' || c == '\t'

/-- A character that may stand in a text or comment: no control character but the tab. -/
def isPlain (c : Char) : Bool := c == '\t' || (0x20 ≤ c.toNat && c.toNat ≠ 0x7f)

/-- What follows a line ending: a line feed, or a carriage return and a line feed. -/
def newline? : List Char → Option (List Char)
  | '\n' :: rest => some rest
  | '\r' :: '\n' :: rest => some rest
  | _ => none

/-- The character after a backslash, when it stands for one character. -/
def escaped? (c : Char) : Option Char :=
  if c = '"' ∨ c = '\\' then some c
  else if c = 'b' then some '\x08'
  else if c = 'f' then some '\x0c'
  else if c = 'n' then some '\n'
  else if c = 'r' then some '\r'
  else if c = 't' then some '\t'
  else none

/-- The character with a hexadecimal number. -/
def scalar? (digits : List Char) : Option Char := do
  let number ← hexNumber? digits
  if number < 0xd800 ∨ (0xe000 ≤ number ∧ number < 0x110000) then some (Char.ofNat number)
  else none

/-- The character that so many hexadecimal digits stand for, and what follows them. -/
def numbered? (count : Nat) (text : List Char) : Option (Char × List Char) :=
  if count ≤ text.length then (scalar? (text.take count)).map (·, text.drop count) else none

/-- The character that the text behind a backslash stands for, and what follows it. -/
def escape? : List Char → Option (Char × List Char)
  | [] => none
  | c :: rest =>
    if c = 'u' then numbered? 4 rest
    else if c = 'U' then numbered? 8 rest
    else (escaped? c).map (·, rest)

theorem length_of_escape? {text after : List Char} {c : Char}
    (read : escape? text = some (c, after)) : after.length < text.length := by
  cases text with
  | nil => simp [escape?] at read
  | cons first rest =>
    have bound : after.length ≤ rest.length := by
      simp only [escape?, numbered?] at read
      split at read
      · split at read <;> simp_all
        obtain ⟨_, _, _, rfl⟩ := read
        simp
      · split at read
        · split at read <;> simp_all
          obtain ⟨_, _, _, rfl⟩ := read
          simp
        · simp only [Option.map_eq_some_iff, Prod.mk.injEq] at read
          obtain ⟨_, _, _, rfl⟩ := read
          exact Nat.le_refl _
    simp only [List.length_cons]
    omega

set_option linter.unusedVariables false in
/-- A text with escapes on one line. -/
def basic? : List Char → Option (List Char × List Char)
  | [] => none
  | '"' :: rest => some ([], rest)
  | '\\' :: rest =>
    match read : escape? rest with
    | none => none
    | some (c, after) => (basic? after).map fun (content, behind) => (c :: content, behind)
  | c :: rest =>
    if isPlain c then (basic? rest).map fun (content, behind) => (c :: content, behind) else none
termination_by text => text.length
decreasing_by
  · have := length_of_escape? read
    simp only [List.length_cons]; omega
  · simp

/-- A text without escapes on one line. -/
def literal? : List Char → Option (List Char × List Char)
  | [] => none
  | c :: rest =>
    if c = '\'' then some ([], rest)
    else if isPlain c then
      (literal? rest).map fun (content, behind) => (c :: content, behind)
    else none

/-- Closing quotes: three of them, and up to two that still belong to the text. -/
def closing? (quote : Char) (text : List Char) : Option (List Char × List Char) :=
  let run := (text.takeWhile (· == quote)).length
  if 3 ≤ run then some (List.replicate (min run 5 - 3) quote, text.drop (min run 5)) else none

/-- Behind a backslash that ends its line: all white space up to the next character. -/
def continued? (rest : List Char) : Option (List Char) :=
  (newline? (rest.dropWhile isSpace)).map fun next =>
    next.dropWhile fun c => isSpace c || c == '\n' || c == '\r'

theorem length_of_newline? {text after : List Char} (read : newline? text = some after) :
    after.length < text.length := by
  unfold newline? at read
  split at read
  · simp only [Option.some.injEq] at read
    simp [read]
  · simp only [Option.some.injEq] at read
    simp only [read, List.length_cons]
    omega
  · simp at read

theorem length_of_continued? {text after : List Char} (read : continued? text = some after) :
    after.length < text.length := by
  simp only [continued?, Option.map_eq_some_iff] at read
  obtain ⟨next, line, rfl⟩ := read
  have spaces := (List.dropWhile_sublist isSpace (l := text)).length_le
  have line := length_of_newline? line
  have blanks := (List.dropWhile_sublist (l := next)
    fun c => isSpace c || c == '\n' || c == '\r').length_le
  omega

set_option linter.unusedVariables false in
/-- A text with escapes over several lines. -/
def basicLines? (text : List Char) : Option (List Char × List Char) :=
  match closing? '"' text with
  | some closed => some closed
  | none =>
    match text with
    | [] => none
    | '\\' :: rest =>
      match joined : continued? rest with
      | some after => basicLines? after
      | none =>
        match read : escape? rest with
        | none => none
        | some (c, after) =>
          (basicLines? after).map fun (content, behind) => (c :: content, behind)
    | '\n' :: rest => (basicLines? rest).map fun (content, behind) => ('\n' :: content, behind)
    | '\r' :: '\n' :: rest =>
      (basicLines? rest).map fun (content, behind) => ('\n' :: content, behind)
    | c :: rest =>
      if isPlain c then
        (basicLines? rest).map fun (content, behind) => (c :: content, behind)
      else none
termination_by text.length
decreasing_by
  · have := length_of_continued? joined
    simp only [List.length_cons]; omega
  · have := length_of_escape? read
    simp only [List.length_cons]; omega
  all_goals simp only [List.length_cons]; omega

/-- A text without escapes over several lines. -/
def literalLines? (text : List Char) : Option (List Char × List Char) :=
  match closing? '\'' text with
  | some closed => some closed
  | none =>
    match text with
    | [] => none
    | '\n' :: rest => (literalLines? rest).map fun (content, behind) => ('\n' :: content, behind)
    | '\r' :: '\n' :: rest =>
      (literalLines? rest).map fun (content, behind) => ('\n' :: content, behind)
    | c :: rest =>
      if isPlain c then
        (literalLines? rest).map fun (content, behind) => (c :: content, behind)
      else none

/-- A line ending right behind the opening quotes does not belong to the text. -/
def afterOpening (text : List Char) : List Char := (newline? text).getD text

/-- The text in quotes that starts here, in any of the four forms. -/
def quoted? : List Char → Option (List Char × List Char)
  | '"' :: '"' :: '"' :: rest => basicLines? (afterOpening rest)
  | '"' :: rest => basic? rest
  | '\'' :: '\'' :: '\'' :: rest => literalLines? (afterOpening rest)
  | '\'' :: rest => literal? rest
  | _ => none

end LiveFragment.Toml
