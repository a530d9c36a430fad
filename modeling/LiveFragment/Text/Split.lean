namespace LiveFragment.Text

/-- The parts before and after the first character of a class. -/
def cutAt? (separates : Char → Bool) : List Char → Option (List Char × List Char)
  | [] => none
  | c :: rest =>
    if separates c then some ([], rest)
    else (cutAt? separates rest).map fun (before, after) => (c :: before, after)

/-- The parts before and after the last character of a class. -/
def cutAtLast? (separates : Char → Bool) (text : List Char) : Option (List Char × List Char) :=
  (cutAt? separates text.reverse).map fun (after, before) => (before.reverse, after.reverse)

/-- The parts before and after the first occurrence of a word. -/
def cutAtWord? (word : List Char) : List Char → Option (List Char × List Char)
  | [] => if word.isEmpty then some ([], []) else none
  | c :: rest =>
    match word.isPrefixOf? (c :: rest) with
    | some after => some ([], after)
    | none => (cutAtWord? word rest).map fun (before, after) => (c :: before, after)

/-- All parts between the characters of a class; one more than there are such characters. -/
def splitAll (separates : Char → Bool) : List Char → List (List Char)
  | [] => [[]]
  | c :: rest =>
    if separates c then [] :: splitAll separates rest
    else
      match splitAll separates rest with
      | [] => [[c]]
      | part :: parts => (c :: part) :: parts

end LiveFragment.Text
