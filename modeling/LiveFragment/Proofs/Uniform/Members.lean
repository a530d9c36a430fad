import LiveFragment.Directive.Line
import LiveFragment.Program.Assembly
import LiveFragment.Proofs.Text.Reading
import LiveFragment.Proofs.Uniform.Words

/-! The members that an assembled text declares, and that the layout of a parameter block is the one
which the rules give to them. The text is read as a device would read it: the block is found by its
first line, and every line up to the end of the block declares one member. -/

namespace LiveFragment.Uniform

open LiveFragment.Text LiveFragment.Directive LiveFragment.Parameter LiveFragment.Program

namespace MemberType

def all : List MemberType := [int, float, vec2, vec3, vec4]

def ofWord? (word : List Char) : Option MemberType := all.find? fun type => type.word.toList == word

theorem ofWord?_word (type : MemberType) : ofWord? type.word.toList = some type := by
  cases type <;> decide +kernel

theorem word_blankless (type : MemberType) : ∀ c ∈ type.word.toList, isBlank c = false := by
  have clear : (type.word.toList.all fun c => !isBlank c) = true := by
    cases type <;> decide +kernel
  simpa using clear

theorem word_ne_nil (type : MemberType) : type.word.toList ≠ [] := by
  cases type <;> decide +kernel

end MemberType

namespace Member

def subscript (member : Member) : String :=
  match member.length with
  | none => ""
  | some length => "[" ++ toString length ++ "]"

def declaration (member : Member) : String :=
  member.type.word ++ " " ++ member.name ++ member.subscript ++ ";"

theorem declaration_ofDefinition (definition : Definition) :
    (ofDefinition definition).declaration = definition.declaration := by
  rw [declaration, ofDefinition, MemberType.word_ofShape]
  rfl

/-- A name, which may have a length in brackets. -/
def ofDeclarator? (type : MemberType) (text : List Char) : Option Member :=
  match cutAt? (· == '[') text with
  | none => if isIdentifier text then some ⟨type, String.ofList text, none⟩ else none
  | some (name, subscript) => do
    let digits ← ([']'] : List Char).isSuffixOf? subscript
    let length ← digits? digits
    if isIdentifier name then some ⟨type, String.ofList name, some length⟩ else none

/-- The member that a line of a block declares: its type, a space, its name and a semicolon. -/
def ofLine? (text : List Char) : Option Member := do
  let (word, rest) ← cutAt? (· == ' ') (trimStart text)
  let type ← MemberType.ofWord? word
  let declarator ← ([';'] : List Char).isSuffixOf? rest
  ofDeclarator? type declarator

end Member

/-- The first line of the parameter block. -/
def opening : String := "layout(std140, set = 0, binding = 1) uniform CustomInputs \x7b"

/-- The last line of a block without an instance name. -/
def closing : String := "\x7d;"

/-- The lines of the parameter block that declares members. -/
def blockLines (members : List Member) : List String :=
  if members.isEmpty then []
  else opening :: members.map (fun m => "    " ++ m.declaration) ++ [closing]

theorem parameterBlock_eq (definitions : List Definition) :
    parameterBlock definitions = block (blockLines (definitions.map .ofDefinition)) := by
  rw [parameterBlock, blockLines, List.isEmpty_map]
  split
  · rfl
  · simp only [List.map_map, Function.comp_def, Member.declaration_ofDefinition]
    rfl

/-- The members that the parameter block among some lines declares; there are none without one. -/
def membersOfLines? (texts : List (List Char)) : Option (List Member) :=
  let block := (texts.dropWhile (· != opening.toList)).drop 1
  (block.takeWhile (· != closing.toList)).mapM Member.ofLine?

/-- The members that an assembled text declares before the own text begins. -/
def declared? (assembly : Assembly) : Option (List Member) :=
  membersOfLines? ((lines assembly.text.toList).take assembly.preambleLines)

/-- The characters of names. -/
def isNameCharacter (c : Char) : Bool := isLetter c || ('0' ≤ c && c ≤ '9') || c == '_'

theorem not_mem_of_isIdentifier {name : List Char} (named : isIdentifier name = true) {c : Char}
    (other : isNameCharacter c = false) : c ∉ name := by
  intro member
  obtain - | ⟨first, rest⟩ := name
  · cases member
  · simp only [isIdentifier, Bool.and_eq_true, List.all_eq_true] at named
    rcases List.mem_cons.mp member with rfl | later
    · rcases Bool.or_eq_true _ _ ▸ named.1 with letter | underscore
      · simp [isNameCharacter, letter] at other
      · simp [isNameCharacter, underscore] at other
    · exact absurd (named.2 c later) (by simpa [isNameCharacter] using other)

namespace Member

theorem ofDeclarator?_eq {member : Member} (named : isIdentifier member.name.toList = true) :
    ofDeclarator? member.type (member.name ++ member.subscript).toList = some member := by
  obtain ⟨type, name, length⟩ := member
  have clear : ∀ c ∈ name.toList, (c == '[') = false := by
    intro c inside
    rw [beq_eq_false_iff_ne]
    rintro rfl
    exact not_mem_of_isIdentifier named rfl inside
  cases length with
  | none =>
    simp only [subscript, String.append_empty, ofDeclarator?, cutAt?_eq_none clear]
    rw [if_pos named, String.ofList_toList]
  | some length =>
    have spelled : (name ++ ("[" ++ toString length ++ "]")).toList =
        name.toList ++ '[' :: ((toString length).toList ++ [']']) := by
      simp
    have bracketed : ([']'] : List Char).isSuffixOf? ((toString length).toList ++ [']']) =
        some (toString length).toList := by
      simp
    simp only [subscript, spelled, ofDeclarator?, cutAt?_append clear (c := '[') rfl, bracketed,
      bind, Option.bind_some, digits?_toString]
    rw [if_pos named, String.ofList_toList]

theorem ofLine?_declaration {member : Member} (named : isIdentifier member.name.toList = true) :
    ofLine? ("    " ++ member.declaration).toList = some member := by
  have start : trimStart ("    " ++ member.declaration).toList =
      member.type.word.toList ++
        ' ' :: ((member.name ++ member.subscript).toList ++ [';']) := by
    obtain ⟨c, word, spelled⟩ := List.exists_cons_of_ne_nil member.type.word_ne_nil
    have first : isBlank c = false := member.type.word_blankless c (by simp [spelled])
    have space : isBlank ' ' = true := by decide
    simp [declaration, trimStart, spelled, first, space]
  have clear : ∀ c ∈ member.type.word.toList, (c == ' ') = false := by
    intro c inside
    rw [beq_eq_false_iff_ne]
    rintro rfl
    exact absurd (member.type.word_blankless _ inside) (by decide)
  have ended : ([';'] : List Char).isSuffixOf? ((member.name ++ member.subscript).toList ++ [';']) =
      some (member.name ++ member.subscript).toList := by
    simp
  simp only [ofLine?, start, cutAt?_append clear (c := ' ') rfl, bind, Option.bind_some,
    MemberType.ofWord?_word, ended, ofDeclarator?_eq named]

theorem oneLine_subscript (member : Member) : OneLine member.subscript.toList := by
  unfold subscript
  split
  · decide +kernel
  · rename_i length _
    have digits : OneLine (toString length).toList :=
      ⟨fun inside => absurd (isDigit_of_mem_toString inside) (by decide),
        fun inside => absurd (isDigit_of_mem_toString inside) (by decide)⟩
    simp only [String.toList_append]
    exact .append (.append (by decide +kernel) digits) (by decide +kernel)

theorem oneLine_declaration {member : Member} (named : isIdentifier member.name.toList = true) :
    OneLine ("    " ++ member.declaration).toList := by
  have word : OneLine member.type.word.toList := by
    cases member.type <;> decide +kernel
  have name : OneLine member.name.toList :=
    ⟨not_mem_of_isIdentifier named rfl, not_mem_of_isIdentifier named rfl⟩
  have typed : OneLine (member.type.word ++ " ").toList := by
    rw [String.toList_append]
    exact word.append (by decide +kernel)
  simp only [declaration, String.toList_append] at typed ⊢
  exact .append (by decide +kernel)
    (((typed.append name).append member.oneLine_subscript).append (by decide +kernel))

theorem declaration_ne_closing (member : Member) :
    (("    " ++ member.declaration).toList != closing.toList) = true := by
  simp [closing]

end Member

theorem mapM_ofLine? {members : List Member}
    (named : ∀ member ∈ members, isIdentifier member.name.toList = true) :
    (members.map fun m => ("    " ++ m.declaration).toList).mapM Member.ofLine? = some members := by
  induction members with
  | nil => rfl
  | cons member rest ih =>
    have later := ih fun other inside => named other (by simp [inside])
    rw [List.map_cons, List.mapM_cons, Member.ofLine?_declaration (named member (by simp)), later]
    rfl

theorem plain_ofList {chars others : List Char} (plain : OneLine chars ∧ chars ≠ others) :
    OneLine (String.ofList chars).toList ∧
      ((String.ofList chars).toList != (String.ofList others).toList) = true := by
  rw [String.toList_ofList, String.toList_ofList, bne_iff_ne]
  exact plain

/-- The text before the parameter block consists of forty lines, none of them the block's first. -/
theorem prologue_eq : ∃ texts : List String, prologue = block texts ∧ texts.length = 40 ∧
    ∀ text ∈ texts, OneLine text.toList ∧ (text.toList != opening.toList) = true := by
  refine ⟨_, rfl, rfl, ?_⟩
  -- Line by line, on characters: decoding a string takes the kernel far longer.
  repeat refine List.forall_mem_cons.mpr ⟨plain_ofList (by decide), ?_⟩
  exact fun _ member => nomatch member

theorem toList_block (texts : List String) :
    (block texts).toList = (texts.map String.toList).flatMap (· ++ ['\n']) := by
  simp [block, List.flatMap, Function.comp_def]

/-- A block is read as the members that it declares, whatever other lines stand before it. -/
theorem membersOfLines?_eq {members : List Member}
    (named : ∀ member ∈ members, isIdentifier member.name.toList = true)
    {texts : List String} (before : ∀ text ∈ texts, (text.toList != opening.toList) = true) :
    membersOfLines? ((texts ++ blockLines members).map String.toList) = some members := by
  have passed : ∀ line ∈ texts.map String.toList, (line != opening.toList) = true :=
    List.forall_mem_map.mpr before
  rw [List.map_append, membersOfLines?, List.dropWhile_append_of_pos passed, blockLines]
  split
  · rename_i empty
    rw [List.isEmpty_iff.mp empty]
    rfl
  · have inside : ∀ line ∈ members.map fun m => ("    " ++ m.declaration).toList,
        (line != closing.toList) = true :=
      List.forall_mem_map.mpr fun member _ => member.declaration_ne_closing
    have first : (opening.toList != opening.toList) = false := bne_self_eq_false _
    have last : (closing.toList != closing.toList) = false := bne_self_eq_false _
    have texts : (members.map fun m => "    " ++ m.declaration).map String.toList =
        members.map fun m => ("    " ++ m.declaration).toList := List.map_map
    simp only [List.cons_append, List.map_cons, List.map_append, List.map_nil, texts,
      List.dropWhile_cons, first, if_false, Bool.false_eq_true, List.drop_succ_cons, List.drop_zero]
    rw [List.takeWhile_append_of_pos inside, List.takeWhile_cons, last, if_neg Bool.false_ne_true,
      List.append_nil, mapM_ofLine? named]

theorem oneLine_blockLines {members : List Member}
    (named : ∀ member ∈ members, isIdentifier member.name.toList = true) :
    ∀ text ∈ blockLines members, OneLine text.toList := by
  intro text inside
  unfold blockLines at inside
  split at inside
  · cases inside
  · simp only [List.mem_append, List.mem_cons, List.mem_map, List.not_mem_nil, or_false] at inside
    rcases inside with (rfl | ⟨member, among, rfl⟩) | rfl
    · decide +kernel
    · exact Member.oneLine_declaration (named member among)
    · decide +kernel

theorem block_append (texts more : List String) :
    block (texts ++ more) = block texts ++ block more := by
  simp [block]

/-- The members of an assembled text are the definitions it was assembled for. -/
theorem declared?_ofSource {definitions : List Definition}
    (named : ∀ definition ∈ definitions, isIdentifier definition.name.toList = true)
    (source : String) :
    declared? (Assembly.ofSource source definitions) = some (definitions.map .ofDefinition) := by
  obtain ⟨texts, same, _, plain⟩ := prologue_eq
  have members : ∀ member ∈ definitions.map Member.ofDefinition,
      isIdentifier member.name.toList = true :=
    List.forall_mem_map.mpr named
  have preamble : Assembly.preamble definitions =
      block (texts ++ blockLines (definitions.map .ofDefinition)) := by
    rw [Assembly.preamble, same, parameterBlock_eq, block_append]
  have lined : ∀ line ∈ (texts ++ blockLines (definitions.map .ofDefinition)).map String.toList,
      OneLine line := by
    rw [List.forall_mem_map]
    intro text inside
    rcases List.mem_append.mp inside with prologue | declared
    · exact (plain text prologue).1
    · exact oneLine_blockLines members text declared
  have count := count_flatMap lined
  have read := lines_flatMap lined (Assembly.body source ++ epilogue).toList
  rw [← toList_block, ← preamble] at count read
  rw [declared?, Assembly.ofSource]
  dsimp only
  rw [String.append_assoc, String.toList_append, read, count, List.take_left]
  exact membersOfLines?_eq members fun text inside => (plain text inside).2

/-- The layout of a parameter block and the text that declares the block belong together: the text
declares one member for each definition, and the layout is the one that the rules give to these
members in their order, unless it is larger than a block may be. In words of 32 bits it is found
without an overflow. -/
theorem layout_of_assembled (source : String) (definitions : List Definition) :
    let members := definitions.map Member.ofDefinition
    let assembly := Assembly.ofSource source definitions
    assembly.text = prologue ++ block (blockLines members) ++ Assembly.body source ++ epilogue ∧
      ((∀ definition ∈ definitions, isIdentifier definition.name.toList = true) →
        declared? assembly = some members) ∧
      (∃ layout, Std140 members layout ∧ (∀ other, Std140 members other → other = layout) ∧
        Layout.ofDefinitions? definitions =
          if layout.size ≤ maxBlockBytes then some layout else none) ∧
      Words.Agrees Words.toLayout (Words.layout definitions)
        (Layout.ofDefinitions? definitions) := by
  refine ⟨?_, fun named => declared?_ofSource named source, ?_, Words.layout_agrees definitions⟩
  · rw [← parameterBlock_eq]
    rfl
  · obtain ⟨layout, rules⟩ := Std140.exists_of_members (definitions.map .ofDefinition)
    exact ⟨layout, rules, fun _ => rules.unique, Layout.ofDefinitions?_eq rules⟩

end LiveFragment.Uniform
