import LiveFragment.Number.Literal
import LiveFragment.Text.Blank

namespace LiveFragment.Directive

open LiveFragment.Number LiveFragment.Text

/-- A number or a group in brackets. -/
inductive Item
  | number (value : Double)
  | group (items : List Item)
deriving Repr

def isSeparator (c : Char) : Bool := isBlank c || c == ','

/-- The characters that runs are made of. -/
def isRunCharacter (c : Char) : Bool := !isSeparator c && c != '[' && c != ']'

/-- A run as a number. One `f` at its end is ignored; a run that spells no finite number is zero. -/
def readNumber (word : List Char) : Double :=
  let word := trim word
  let spelled :=
    match word.getLast? with
    | some 'f' | some 'F' => word.dropLast
    | _ => word
  (finiteDouble? spelled).getD .zero

/-- Items taken off the front of a text, and what is left of it. -/
structure Taken (text : List Char) where
  items : List Item
  rest : List Char
  within : rest.length ≤ text.length

/-- What was taken off a later part of a text. -/
def Taken.widen {part text : List Char} (taken : Taken part) (later : part.length ≤ text.length) :
    Taken text :=
  ⟨taken.items, taken.rest, Nat.le_trans taken.within later⟩

theorem length_behind_run (text : List Char) :
    (text.dropWhile isRunCharacter).length ≤ text.length :=
  (List.dropWhile_sublist isRunCharacter).length_le

/-- Takes the items of a group, up to the bracket that closes it, or of a whole text. The items
before are kept in reverse. There is nothing when a group has no end, or a bracket closes none. -/
def takeItems (nested : Bool) (before : List Item) : (text : List Char) → Option (Taken text)
  | [] => if nested then none else some ⟨before.reverse, [], Nat.le_refl _⟩
  | c :: text =>
    if isSeparator c then
      (takeItems nested before text).map (·.widen (Nat.le_succ _))
    else if c = '[' then
      match takeItems true [] text with
      | none => none
      | some inner =>
        (takeItems nested (.group inner.items :: before) inner.rest).map
          (·.widen (Nat.le_succ_of_le inner.within))
    else if c = ']' then
      if nested then some ⟨before.reverse, text, Nat.le_succ _⟩ else none
    else
      (takeItems nested (.number (readNumber (c :: text.takeWhile isRunCharacter)) :: before)
        (text.dropWhile isRunCharacter)).map
          (·.widen (Nat.le_succ_of_le (length_behind_run text)))
termination_by text => text.length
decreasing_by
  · exact Nat.lt_succ_self _
  · exact Nat.lt_succ_self _
  · exact Nat.lt_succ_of_le inner.within
  · exact Nat.lt_succ_of_le (length_behind_run text)

/-- The items of a text, or nothing when its brackets do not match. -/
def items? (text : List Char) : Option (List Item) := (takeItems false [] text).map (·.items)

namespace Item

def number? : Item → Option Double
  | .number value => some value
  | .group _ => none

/-- The numbers of a group that holds no groups. -/
def numbers? (items : List Item) : Option (List Double) := items.mapM number?

end Item

end LiveFragment.Directive
