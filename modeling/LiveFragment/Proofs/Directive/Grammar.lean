import Mathlib.Data.List.Permutation
import LiveFragment.Proofs.Directive.Marks
import LiveFragment.Proofs.Directive.WellFormed

namespace LiveFragment.Directive

open LiveFragment.Number LiveFragment.Text LiveFragment.Parameter

/-- The marks of numbers in brackets. -/
def groupMarks (words : List (List Char)) : List Mark :=
  .opening :: (words.map .run ++ [.closing])

def groupItem (words : List (List Char)) : Item :=
  .group (words.map fun word => .number (readNumber word))

theorem nests_group (words : List (List Char)) : Nests (groupMarks words) [groupItem words] := by
  have runs := Nests.flatMap words fun word _ => Nests.run word
  rw [← List.map_eq_flatMap] at runs
  exact runs.group

theorem numbers?_groupItem (words : List (List Char)) :
    Item.numbers? (words.map fun word => .number (readNumber word)) =
      some (words.map readNumber) := by
  induction words with
  | nil => rfl
  | cons word rest ih =>
    rw [Item.numbers?] at ih ⊢
    rw [List.map_cons, List.mapM_cons, ih]
    rfl

/-- A default as it is written: one number, the components in brackets, or brackets around such
groups, one for each element of an array. -/
inductive Default
  | number (word : List Char)
  | group (words : List (List Char))
  | list (groups : List (List (List Char)))
deriving DecidableEq

namespace Default

def marks : Default → List Mark
  | number word => [.run word]
  | group words => groupMarks words
  | list groups => .opening :: (groups.flatMap groupMarks ++ [.closing])

def item : Default → Item
  | number word => .number (readNumber word)
  | group words => groupItem words
  | list groups => .group (groups.map groupItem)

theorem nests (given : Default) : Nests given.marks [given.item] := by
  cases given with
  | number word => exact .run word
  | group words => exact nests_group words
  | list groups =>
    have inner := Nests.flatMap groups fun words _ => nests_group words
    exact inner.group

/-- Scalars take one number, bare or in brackets, vectors as many as they have components, and only
arrays take a list. -/
def Fits (shape : Shape) (length : Option Nat) : Default → Prop
  | number _ => shape.components = 1
  | group words => words.length = shape.components
  | list groups => length.isSome ∧ groups ≠ []

/-- What an element is then. A list gives each element its own group, and zero where it has none. -/
def element (shape : Shape) (index : Nat) : Default → Value
  | number word => .ofComponents shape [readNumber word]
  | group words => .ofComponents shape (words.map readNumber)
  | list groups =>
    match groups[index]? with
    | some words => .ofComponents shape (words.map readNumber)
    | none => .zero shape

/-- The value that a default gives all elements alike. -/
def filler? (shape : Shape) : Default → Option Value
  | list _ => none
  | given => some (given.element shape 0)

/-- The values that a list gives the elements one by one. -/
def listed? (shape : Shape) : Default → Option (List Value)
  | list groups => some (groups.map fun words => .ofComponents shape (words.map readNumber))
  | _ => none

theorem numbers?_list {groups : List (List (List Char))} (some' : groups ≠ []) :
    Item.numbers? (groups.map groupItem) = none := by
  obtain ⟨words, rest, rfl⟩ := List.exists_cons_of_ne_nil some'
  rw [Item.numbers?, List.map_cons, List.mapM_cons]
  rfl

theorem elementValues_list (shape : Shape) (groups : List (List (List Char))) :
    Spelling.elementValues shape (groups.map groupItem) =
      groups.map fun words => .ofComponents shape (words.map readNumber) := by
  rw [Spelling.elementValues, List.map_map]
  apply List.map_congr_left
  intro words _
  rw [Function.comp_apply, groupItem]
  dsimp only
  rw [numbers?_groupItem]
  rfl

/-- As long as there is no default, one that fits is taken for it. -/
theorem Fits.read {shape : Shape} {length : Option Nat} {given : Default}
    (fits : given.Fits shape length) (range : Option (Single × Single)) :
    Spelling.read shape length.isSome ⟨none, none, range⟩ given.item =
      ⟨given.filler? shape, given.listed? shape, range⟩ := by
  cases given with
  | number word =>
    have scalar : shape.components = 1 := fits
    rw [item, Spelling.read, if_pos ⟨scalar, rfl⟩]
    rfl
  | group words =>
    have whole : words.length = shape.components := fits
    rw [item, groupItem, Spelling.read, numbers?_groupItem]
    dsimp only
    rw [if_pos ⟨rfl, rfl, (List.length_map ..).trans whole⟩]
    rfl
  | list groups =>
    obtain ⟨array, some'⟩ := fits
    rw [item, Spelling.read, numbers?_list some']
    dsimp only
    rw [if_pos ⟨array, rfl⟩, elementValues_list]
    rfl

end Default

theorem read_range {shape : Shape} (pair : shape ≠ .vec2) (isArray : Bool)
    (initial : Option Value) (elements : Option (List Value)) (low high : List Char) :
    Spelling.read shape isArray ⟨initial, elements, none⟩ (groupItem [low, high]) =
      ⟨initial, elements, some ((readNumber low).toSingle, (readNumber high).toSingle)⟩ := by
  have other : 2 ≠ shape.components := by
    cases shape
    case vec2 => exact absurd rfl pair
    all_goals decide
  rw [groupItem, Spelling.read, numbers?_groupItem]
  dsimp only
  rw [if_neg fun default => other default.2.2]
  rfl

/-- What is written in brackets or as a bare number. -/
inductive Datum
  | initial (given : Default)
  | range (low high : List Char)

namespace Datum

def marks : Datum → List Mark
  | initial given => given.marks
  | range low high => groupMarks [low, high]

def item : Datum → Item
  | initial given => given.item
  | range low high => groupItem [low, high]

theorem nests (datum : Datum) : Nests datum.marks [datum.item] := by
  cases datum with
  | initial given => exact given.nests
  | range low high => exact nests_group [low, high]

end Datum

/-- What may stand behind the type. -/
inductive Part
  | numeric (datum : Datum)
  | description (text : List Char)

namespace Part

def tokens : Part → List Token
  | numeric datum => datum.marks.map .mark
  | description text => [.quotation text]

def datum? : Part → Option Datum
  | numeric datum => some datum
  | description _ => none

theorem flatMap_tokens {parts : List Part} (bare : ∀ text, .description text ∉ parts) :
    parts.flatMap tokens = ((parts.filterMap datum?).flatMap Datum.marks).map .mark := by
  induction parts with
  | nil => rfl
  | cons part rest ih =>
    have others := ih fun text member => bare text (List.mem_cons_of_mem _ member)
    cases part with
    | description text => exact absurd List.mem_cons_self (bare text)
    | numeric datum =>
      rw [List.filterMap_cons_some (by rfl), List.flatMap_cons, List.flatMap_cons, List.map_append,
        others]
      rfl

theorem quotation_not_mem {parts : List Part} (bare : ∀ text, .description text ∉ parts)
    (quoted : List Char) : .quotation quoted ∉ parts.flatMap tokens := by
  rw [flatMap_tokens bare]
  simp

end Part

/-- An array takes its elements from the list, and then from the default. -/
theorem listed_eq (values : List Value) (filler : Value) (length : Nat) :
    values.take length ++ List.replicate (length - (values.take length).length) filler =
      (List.range length).map fun index => values[index]?.getD filler := by
  apply List.ext_getElem
  · rw [List.length_append, List.length_replicate, List.length_map, List.length_range,
      List.length_take]
    omega
  · intro index inside within
    rw [List.length_map, List.length_range] at within
    rw [List.getElem_map, List.getElem_range, List.getElem_append]
    split
    · rename_i listed
      rw [List.length_take] at listed
      rw [List.getElem_take, List.getElem?_eq_getElem (by omega)]
      rfl
    · rename_i behind
      rw [List.length_take] at behind
      rw [List.getElem_replicate, List.getElem?_eq_none (by omega)]
      rfl

/-- A character of a word of a directive: white space would end it, and a quotation mark would start
a description. -/
def Solid (c : Char) : Prop := isBlank c = false ∧ c ≠ '"'

instance (c : Char) : Decidable (Solid c) := inferInstanceAs (Decidable (_ ∧ _))

theorem solid_of_isDigit {c : Char} (digit : isDigit c = true) : Solid c := by
  refine ⟨isBlank_of_isDigit digit, ?_⟩
  rintro rfl
  exact absurd digit (by decide)

theorem solid_of_isLetter {c : Char} (letter : isLetter c = true) : Solid c := by
  have between : (97 ≤ c.toNat ∧ c.toNat ≤ 122) ∨ (65 ≤ c.toNat ∧ c.toNat ≤ 90) := by
    simpa [isLetter, Char.le_def, UInt32.le_iff_toNat_le] using letter
  refine ⟨isBlank_eq_false (by omega) (by omega), ?_⟩
  rintro rfl
  exact absurd letter (by decide)

theorem solid_name {name : List Char} (identifier : isIdentifier name = true) :
    ∀ c ∈ name, Solid c := by
  cases name with
  | nil => exact List.forall_mem_nil _
  | cons first rest =>
    rw [isIdentifier, Bool.and_eq_true, List.all_eq_true] at identifier
    obtain ⟨start, others⟩ := identifier
    intro c member
    rcases List.mem_cons.mp member with rfl | later
    · rcases Bool.or_eq_true_iff.mp start with letter | underscore
      · exact solid_of_isLetter letter
      · obtain rfl := beq_iff_eq.mp underscore
        decide
    · rcases Bool.or_eq_true_iff.mp (others c later) with alphanum | underscore
      · rcases Bool.or_eq_true_iff.mp alphanum with letter | digit
        · exact solid_of_isLetter letter
        · exact solid_of_isDigit digit
      · obtain rfl := beq_iff_eq.mp underscore
        decide

theorem solid_digits (n : Nat) : ∀ c ∈ (toString n).toList, Solid c :=
  fun _ member => solid_of_isDigit (isDigit_of_mem_toString member)

theorem solid_keyword (shape : Shape) : ∀ c ∈ shape.keyword.toList, Solid c := by
  have clear : (shape.keyword.toList.all fun c => decide (Solid c)) = true := by
    cases shape <;> decide +kernel
  simpa only [List.all_eq_true, decide_eq_true_eq] using clear

theorem ofKeyword?_keyword (shape : Shape) :
    Shape.ofKeyword? (String.ofList shape.keyword.toList) = some shape := by
  rw [String.ofList_toList]
  cases shape <;> decide +kernel

theorem bracket_not_mem_keyword (shape : Shape) :
    ∀ c ∈ shape.keyword.toList, (c == '[') = false := by
  have clear : (shape.keyword.toList.all fun c => !(c == '[')) = true := by
    cases shape <;> decide +kernel
  simpa only [List.all_eq_true, Bool.not_eq_true'] using clear

/-- The text behind the keyword is the body, without white space around it. -/
theorem body?_eq (keyword : List Char) {indent gap space : List Char}
    (indented : ∀ c ∈ indent, isBlank c = true)
    (gapped : ∀ c ∈ gap, isBlank c = true) (spaced : ∀ c ∈ space, isBlank c = true)
    (space_ne : space ≠ []) (visible : ∃ c ∈ keyword.head?, isBlank c = false)
    (rest : List Char) :
    body? keyword (indent ++ (['/', '/'] ++ (gap ++ (keyword ++ (space ++ rest))))) =
      some (trim rest) := by
  obtain ⟨c, start, shown⟩ := visible
  obtain ⟨letters, rfl⟩ := List.head?_eq_some_iff.mp start
  obtain ⟨first, others, rfl⟩ := List.exists_cons_of_ne_nil space_ne
  have comment : trimStart (indent ++ (['/', '/'] ++ (gap ++ (c :: letters ++
      (first :: others ++ rest))))) =
        slashes ++ (gap ++ (c :: letters ++ (first :: others ++ rest))) := by
    rw [trimStart_append indented]
    exact trimStart_cons (by decide) _
  have word : trimStart (gap ++ (c :: letters ++ (first :: others ++ rest))) =
      c :: letters ++ (first :: others ++ rest) := by
    rw [trimStart_append gapped]
    exact trimStart_cons shown _
  have behind (front back : List Char) : front.isPrefixOf? (front ++ back) = some back :=
    List.isPrefixOf?_eq_some_iff_append_eq.mpr rfl
  have trimmed : trim (first :: others ++ rest) = trim rest :=
    congrArg trimEnd (trimStart_append spaced rest)
  rw [body?, comment, behind, Option.bind_eq_bind, Option.bind_some, word, behind,
    Option.bind_some]
  dsimp only [List.cons_append]
  rw [if_pos (spaced first List.mem_cons_self), ← List.cons_append, trimmed]

/-- What a parameter directive declares. -/
structure Declaration where
  name : List Char
  shape : Shape
  length : Option Nat
  initial : Option Default
  range : Option (List Char × List Char)
  description : Option (List Char)

namespace Declaration

variable (declared : Declaration)

/-- The word for the type, with the length of an array in brackets. -/
def typeWord : List Char :=
  declared.shape.keyword.toList ++
    match declared.length with
    | none => []
    | some length => '[' :: ((toString length).toList ++ [']'])

def data : List Datum :=
  (declared.initial.map .initial).toList ++
    (declared.range.map fun (low, high) => .range low high).toList

def parts : List Part :=
  declared.data.map .numeric ++ (declared.description.map .description).toList

/-- The declaration follows the rules. A pair for a vector of two is its default, so such vectors
have rules of their own. -/
structure Fits : Prop where
  name : isIdentifier declared.name = true
  shape : declared.shape ≠ .vec2
  length : ∀ length ∈ declared.length, 1 ≤ length ∧ length ≤ 1024
  initial : ∀ given ∈ declared.initial, given.Fits declared.shape declared.length

/-- A line with a declaration: the parts follow the type in any order, with any separators. -/
inductive Line : List Char → Prop
  | mk {indent gap space blanks tail : List Char} {order : List Part}
    (indented : ∀ c ∈ indent, isBlank c = true) (gapped : ∀ c ∈ gap, isBlank c = true)
    (spaced : ∀ c ∈ space, isBlank c = true) (space_ne : space ≠ [])
    (blank : ∀ c ∈ blanks, isBlank c = true) (blanks_ne : blanks ≠ [])
    (same : order.Perm declared.parts) (written : Written (order.flatMap Part.tokens) tail)
    (apart : EndsWord tail) :
    Line (indent ++ (['/', '/'] ++ (gap ++ ("@param".toList ++ (space ++ (declared.name ++
      (blanks ++ (declared.typeWord ++ tail))))))))

/-- The value of an element. -/
def element (index : Nat) : Value :=
  match declared.initial with
  | none => .zero declared.shape
  | some given => given.element declared.shape index

/-- The definition that is declared, whatever the order. -/
def definition : Definition where
  name := String.ofList declared.name
  shape := declared.shape
  length := declared.length
  initial :=
    match declared.length with
    | none => declared.element 0
    | some length => .array ((List.range length).map declared.element)
  min := declared.range.map fun (low, _) => (readNumber low).toSingle
  max := declared.range.map fun (_, high) => (readNumber high).toSingle
  description := String.ofList (declared.description.getD [])

/-- What the items spell. -/
def spelling : Spelling where
  initial := declared.initial.bind (·.filler? declared.shape)
  elements := declared.initial.bind (·.listed? declared.shape)
  range := declared.range.map fun (low, high) =>
    ((readNumber low).toSingle, (readNumber high).toSingle)

variable {declared}

/-- The items spell the same in any order, because none is taken for another. -/
theorem Fits.foldl_read (fits : declared.Fits) {order : List Datum}
    (same : order.Perm declared.data) :
    (order.map Datum.item).foldl (Spelling.read declared.shape declared.length.isSome) .none =
      declared.spelling := by
  obtain ⟨name, shape, length, initial, range, description⟩ := declared
  have pair := fits.shape
  cases initial with
  | none =>
    cases range with
    | none =>
      obtain rfl := List.perm_nil.mp same
      rfl
    | some range =>
      obtain rfl := List.perm_singleton.mp same
      exact read_range pair length.isSome ..
  | some given =>
    have fit := fits.initial given rfl
    cases range with
    | none =>
      obtain rfl := List.perm_singleton.mp same
      exact fit.read none
    | some range =>
      rcases List.perm_pair.mp same with rfl | rfl
      · have behind := read_range pair length.isSome (given.filler? shape) (given.listed? shape)
          range.1 range.2
        rwa [← fit.read none] at behind
      · have behind := fit.read
          (some ((readNumber range.1).toSingle, (readNumber range.2).toSingle))
        rwa [← read_range pair length.isSome none none range.1 range.2] at behind

theorem Fits.value (fits : declared.Fits) :
    declared.spelling.value declared.shape declared.length = declared.definition.initial := by
  obtain ⟨name, shape, length, initial, range, description⟩ := declared
  simp only [spelling, Spelling.value, definition]
  cases length with
  | none =>
    cases initial with
    | none => rfl
    | some given =>
      cases given with
      | number word => rfl
      | group words => rfl
      | list groups => cases (fits.initial _ rfl).1
  | some length =>
    dsimp only
    rw [listed_eq]
    congr 1
    apply List.map_congr_left
    intro index _
    cases initial with
    | none => rfl
    | some given =>
      cases given with
      | number word => rfl
      | group words => rfl
      | list groups =>
        dsimp only [Option.bind_some, Default.listed?, Option.getD_some]
        rw [List.getElem?_map]
        simp only [element, Default.element]
        cases groups[index]? <;> rfl

theorem solid_typeWord (declared : Declaration) : ∀ c ∈ declared.typeWord, Solid c := by
  intro c member
  rcases List.mem_append.mp member with inside | subscript
  · exact solid_keyword declared.shape c inside
  · cases sized : declared.length with
    | none =>
      rw [sized] at subscript
      cases subscript
    | some length =>
      rw [sized] at subscript
      rcases List.mem_cons.mp subscript with rfl | subscript
      · decide
      · rcases List.mem_append.mp subscript with digit | closing
        · exact solid_digits length c digit
        · obtain rfl := List.mem_singleton.mp closing
          decide

theorem typeWord_ne_nil (declared : Declaration) : declared.typeWord ≠ [] := by
  have keyword : declared.shape.keyword.toList ≠ [] := by
    cases declared.shape <;> decide +kernel
  exact List.append_ne_nil_of_left_ne_nil keyword _

theorem Fits.shape?_typeWord (fits : declared.Fits) :
    shape? declared.typeWord = some (declared.shape, declared.length) := by
  have keyword := ofKeyword?_keyword declared.shape
  have unbracketed := bracket_not_mem_keyword declared.shape
  cases sized : declared.length with
  | none =>
    rw [typeWord, sized, List.append_nil, shape?, cutAt?_eq_none unbracketed]
    dsimp only
    rw [keyword]
    rfl
  | some length =>
    obtain ⟨some', most⟩ := fits.length length sized
    have digits : ([']'] : List Char).isSuffixOf? ((toString length).toList ++ [']']) =
        some (toString length).toList := List.isSuffixOf?_eq_some_iff_append_eq.mpr rfl
    have whole : trim (toString length).toList = (toString length).toList :=
      trim_eq_self fun c member => (solid_digits length c member).1
    have small : length < UInt64.size := by
      rw [UInt64.size]
      omega
    have within : ¬ (length = 0 ∨ maxArrayLength < length) := by
      rw [maxArrayLength]
      omega
    rw [typeWord, sized, shape?, cutAt?_append unbracketed rfl]
    dsimp only
    rw [digits, Option.bind_eq_bind, Option.bind_some, whole, index?_toString small,
      Option.bind_eq_bind, Option.bind_some, if_neg within, keyword]
    rfl

theorem takeDescription_eq {order : List Part} (same : order.Perm declared.parts)
    {head tail : List Char} (plain : '"' ∉ head) (written : Written (order.flatMap Part.tokens) tail)
    (apart : EndsWord tail) :
    ∃ (data : List Datum) (rest : List Char),
      takeDescription (head ++ tail) = (head ++ rest, declared.description) ∧
      data.Perm declared.data ∧ Written ((data.flatMap Datum.marks).map .mark) rest ∧
      EndsWord rest := by
  have bare (text : List Char) : Part.description text ∉ declared.data.map Part.numeric := by
    simp
  have data : (declared.data.map Part.numeric).filterMap Part.datum? = declared.data := by
    rw [List.filterMap_map]
    exact List.filterMap_some
  rw [parts] at same
  cases given : declared.description with
  | none =>
    rw [given, Option.map_none, Option.toList_none, List.append_nil] at same
    have free : ∀ text, Part.description text ∉ order := fun text member =>
      bare text (same.mem_iff.mp member)
    have unquoted : '"' ∉ head ++ tail := by
      rw [List.mem_append, not_or]
      exact ⟨plain, written.plain (Part.quotation_not_mem free)⟩
    refine ⟨order.filterMap Part.datum?, tail, ?_, data ▸ same.filterMap _, ?_, apart⟩
    · exact takeDescription_plain unquoted
    · rw [← Part.flatMap_tokens free]
      exact written
  | some text =>
    rw [given, Option.map_some, Option.toList_some] at same
    have member : Part.description text ∈ order := same.mem_iff.mpr (by simp)
    obtain ⟨front, back, rfl⟩ := List.append_of_mem member
    have others : (front ++ back).Perm (declared.data.map Part.numeric) :=
      (List.perm_middle.symm.trans (same.trans (List.perm_append_singleton ..))).cons_inv
    have free : ∀ text, Part.description text ∉ front ++ back := fun text member =>
      bare text (others.mem_iff.mp member)
    have around : (front ++ Part.description text :: back).flatMap Part.tokens =
        front.flatMap Part.tokens ++ .quotation text :: back.flatMap Part.tokens := by
      rw [List.flatMap_append, List.flatMap_cons]
      rfl
    rw [around] at written
    obtain ⟨before, after, rfl, first, unquoted, taken⟩ := written.take_quotation
      (Part.quotation_not_mem fun text member => free text (List.mem_append_left _ member))
    rw [← List.flatMap_append, Part.flatMap_tokens free] at taken
    refine ⟨(front ++ back).filterMap Part.datum?, before ++ ' ' :: after, ?_,
      data ▸ others.filterMap _, taken, ?_⟩
    · have unopened : '"' ∉ head ++ before := by
        rw [List.mem_append, not_or]
        exact ⟨plain, first⟩
      rw [← List.append_assoc, takeDescription_quoted unopened unquoted, List.append_assoc]
    · cases before with
      | nil =>
        rintro _ ⟨⟩
        decide
      | cons c before => exact apart

theorem Line.body? (fits : declared.Fits) {line : List Char} (written : declared.Line line) :
    ∃ (blanks tail : List Char) (order : List Part),
      Directive.body? paramKeyword.toList line =
        some (declared.name ++ (blanks ++ (declared.typeWord ++ tail))) ∧
      (∀ c ∈ blanks, isBlank c = true) ∧ blanks ≠ [] ∧ order.Perm declared.parts ∧
      Written (order.flatMap Part.tokens) tail ∧ EndsWord tail := by
  obtain @⟨indent, gap, space, blanks, tail, order, indented, gapped, spaced, space_ne, blank,
    blanks_ne, same, written, apart⟩ := written
  refine ⟨blanks, trimEnd tail, order, ?_, blank, blanks_ne, same, written.trimEnd,
    apart.trimEnd⟩
  have solid := solid_name fits.name
  obtain ⟨letter, letters, named, _⟩ := isIdentifier_iff.mp fits.name
  have visible : isBlank letter = false := (solid letter (by simp [named])).1
  have start : trimStart (declared.name ++ (blanks ++ (declared.typeWord ++ tail))) =
      declared.name ++ (blanks ++ (declared.typeWord ++ tail)) := by
    rw [named]
    exact trimStart_cons visible _
  have last : ∀ c ∈ (declared.name ++ (blanks ++ declared.typeWord)).getLast?,
      isBlank c = false := by
    intro c ends
    rw [List.getLast?_append, List.getLast?_append,
      List.getLast?_eq_some_getLast declared.typeWord_ne_nil] at ends
    obtain rfl := Option.some.inj ends
    exact (declared.solid_typeWord _ (List.getLast_mem _)).1
  have stop := trimEnd_append last tail
  simp only [List.append_assoc] at stop
  have sign : paramKeyword.toList.head? = some '@' := by decide +kernel
  have body := body?_eq paramKeyword.toList indented gapped spaced space_ne
    ⟨'@', sign, by decide⟩ (declared.name ++ (blanks ++ (declared.typeWord ++ tail)))
  rw [trim, start, stop] at body
  exact body

/-- A line with a declaration declares its definition, in whatever order the parts are written and
whatever stands between them. -/
theorem definition?_line (fits : declared.Fits) {line : List Char} (written : declared.Line line) :
    definition? line = some declared.definition := by
  obtain ⟨blanks, tail, order, body, blank, blanks_ne, same, parts, apart⟩ := written.body? fits
  have name := solid_name fits.name
  have word := declared.solid_typeWord
  have plain : '"' ∉ declared.name ++ (blanks ++ declared.typeWord) := by
    simp only [List.mem_append, not_or]
    refine ⟨fun member => (name _ member).2 rfl, fun member => ?_, fun member =>
      (word _ member).2 rfl⟩
    exact absurd (blank _ member) (by decide)
  obtain ⟨data, rest, taken, all, marked, apart⟩ := takeDescription_eq same plain parts apart
  simp only [List.append_assoc] at taken
  have named : nextWord? (declared.name ++ (blanks ++ (declared.typeWord ++ rest))) =
      some (declared.name, blanks ++ (declared.typeWord ++ rest)) := by
    refine nextWord?_append (List.forall_mem_nil _) ?_ (fun c member => (name c member).1) ?_
    · obtain ⟨first, others, same, _⟩ := isIdentifier_iff.mp fits.name
      rw [same]
      exact List.cons_ne_nil first others
    · obtain ⟨first, others, rfl⟩ := List.exists_cons_of_ne_nil blanks_ne
      rintro _ ⟨⟩
      exact blank first List.mem_cons_self
  have typed : nextWord? (blanks ++ (declared.typeWord ++ rest)) =
      some (declared.typeWord, rest) :=
    nextWord?_append blank declared.typeWord_ne_nil (fun c member => (word c member).1) apart
  have items : items? rest = some (data.map Datum.item) :=
    (Nests.flatMap data fun datum _ => datum.nests).items? marked
  have read := fits.foldl_read all
  have initial := fits.value
  have bounds : declared.spelling.range.map (·.1) = declared.definition.min ∧
      declared.spelling.range.map (·.2) = declared.definition.max := by
    rw [spelling, definition]
    cases declared.range <;> exact ⟨rfl, rfl⟩
  simp only [definition?, body, taken, named, typed, fits.name, fits.shape?_typeWord, items, read,
    Option.bind_eq_bind, Option.bind_some, initial, bounds]
  rfl

/-- Two colors of which one is listed, with a description that has brackets, numbers and a comma. -/
def lights : Declaration where
  name := ['l', 'i', 't']
  shape := .color
  length := some 2
  initial := some (.list [[['.', '9'], ['.', '4'], ['1']]])
  range := some (['0'], ['1', 'f'])
  description := some ['a', ',', ' ', '[', '1', ']']

/-- The description comes first, and the default last. -/
theorem definition?_line_lights :
    lights.Fits ∧ lights.Line "  //@param lit color[2] \"a, [1]\"[0, 1f], [[.9 .4,1]] ".toList ∧
      definition? "  //@param lit color[2] \"a, [1]\"[0, 1f], [[.9 .4,1]] ".toList =
        some lights.definition := by
  have fits : lights.Fits := by
    constructor
    case name => decide
    case shape => decide
    case length =>
      rintro _ ⟨⟩
      decide
    case initial =>
      rintro _ ⟨⟩
      exact ⟨rfl, List.cons_ne_nil _ _⟩
  have numeral {word : List Char} (spells : decide (IsNumeral word) = true) : IsNumeral word :=
    of_decide_eq_true spells
  have stops {c : Char} {text : List Char} (stop : isNumeralCharacter c = false) :
      ∀ d ∈ (c :: text).head?, isNumeralCharacter d = false := by
    rintro _ ⟨⟩
    exact stop
  obtain ⟨tail, spelled⟩ : ∃ tail, tail = ['[', '0', ',', ' ', '1', 'f', ']', ',', ' ', '[', '[',
    '.', '9', ' ', '.', '4', ',', '1', ']', ']', ' '] := ⟨_, rfl⟩
  have numbers : Written ([Part.numeric (.range ['0'] ['1', 'f']),
      Part.numeric (.initial (.list [[['.', '9'], ['.', '4'], ['1']]]))].flatMap Part.tokens)
      tail := by
    rw [spelled]
    exact .bracket rfl (@Written.run _ _ ['0'] (numeral rfl) (stops rfl) (.separator rfl
      (.separator rfl (@Written.run _ _ ['1', 'f'] (numeral rfl) (stops rfl) (.bracket rfl
        (.separator rfl (.separator rfl (.bracket rfl (.bracket rfl
          (@Written.run _ _ ['.', '9'] (numeral rfl) (stops rfl) (.separator rfl
            (@Written.run _ _ ['.', '4'] (numeral rfl) (stops rfl) (.separator rfl
              (@Written.run _ _ ['1'] (numeral rfl) (stops rfl) (.bracket rfl (.bracket rfl
                (.separator rfl .done)))))))))))))))))
  have whole : "  //@param lit color[2] \"a, [1]\"[0, 1f], [[.9 .4,1]] ".toList =
      [' ', ' '] ++ (['/', '/'] ++ ([] ++ ("@param".toList ++ ([' '] ++ (lights.name ++ ([' '] ++
        (lights.typeWord ++
          (' ' :: '"' :: (['a', ',', ' ', '[', '1', ']'] ++ '"' :: tail))))))))) := by
    rw [spelled]
    decide +kernel
  have line : lights.Line "  //@param lit color[2] \"a, [1]\"[0, 1f], [[.9 .4,1]] ".toList := by
    rw [whole]
    have spaces {text : List Char} (blank : text.all isBlank = true) :
        ∀ c ∈ text, isBlank c = true := List.all_eq_true.mp blank
    refine .mk (spaces rfl) (spaces rfl) (spaces rfl) (List.cons_ne_nil _ _) (spaces rfl)
      (List.cons_ne_nil _ _) (List.reverse_perm _)
      (.separator rfl (.quotation (by decide) numbers)) ?_
    rintro _ ⟨⟩
    rfl
  exact ⟨fits, line, definition?_line fits line⟩

end Declaration

end LiveFragment.Directive
