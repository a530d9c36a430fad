import LiveFragment.Program.Diagnostic
import LiveFragment.Proofs.Uniform.Members

/-! Where a line of an assembled text comes from. Lines are counted by line feeds, so that neither a
carriage return nor an unended last line moves a number. The lines behind the preamble are those of
the own text, and a log is carried back to them and to nothing else. -/

namespace LiveFragment

open LiveFragment.Text LiveFragment.Parameter

namespace Text

/-- The line of a text with a number, counted from one. A line is what line feeds separate. -/
def line? (text : List Char) (number : Nat) : Option (List Char) :=
  if number = 0 then none else (splitAll (· == '\n') text)[number - 1]?

/-- Every line of a text is ended. -/
def Ended (text : List Char) : Prop := text = [] ∨ text.getLast? = some '\n'

instance (text : List Char) : Decidable (Ended text) := inferInstanceAs (Decidable (_ ∨ _))

theorem Ended.append {text more : List Char} (first : Ended text) (second : Ended more) :
    Ended (text ++ more) := by
  rcases second with rfl | last
  · rwa [List.append_nil]
  · right
    simp [List.getLast?_append, last]

theorem ended_flatMap (texts : List (List Char)) : Ended (texts.flatMap (· ++ ['\n'])) := by
  induction texts with
  | nil => exact .inl rfl
  | cons text rest ih =>
    rw [List.flatMap_cons]
    exact Ended.append (.inr (by simp)) ih

theorem ended_cons {c : Char} {rest : List Char} (some : rest ≠ []) :
    Ended (c :: rest) ↔ Ended rest := by
  simp [Ended, some, List.getLast?_cons_of_ne_nil]

theorem length_splitAll (text : List Char) :
    (splitAll (· == '\n') text).length = text.count '\n' + 1 := by
  induction text with
  | nil => rfl
  | cons c rest ih =>
    simp only [splitAll, List.count_cons]
    split
    · rw [List.length_cons, ih]
    · cases parts : splitAll (· == '\n') rest with
      | nil => exact absurd parts (splitAll_ne_nil _ rest)
      | cons part others =>
        rw [parts] at ih
        simpa using ih

/-- The lines of ended text stay what they are, and the lines behind it count on. -/
theorem line?_append {before : List Char} (ended : Ended before) (after : List Char) :
    (∀ number ≤ before.count '\n', line? (before ++ after) number = line? before number) ∧
      ∀ number, 1 ≤ number →
        line? (before ++ after) (before.count '\n' + number) = line? after number := by
  rcases ended with rfl | last
  · constructor
    · intro number below
      obtain rfl := Nat.le_zero.mp below
      rfl
    · simp
  · obtain ⟨front, rfl⟩ := List.getLast?_eq_some_iff.mp last
    have count : (front ++ ['\n']).count '\n' = (splitAll (· == '\n') front).length := by
      rw [length_splitAll]
      simp
    have before := @splitAll_append (· == '\n') '\n' rfl front []
    have whole := @splitAll_append (· == '\n') '\n' rfl front after
    rw [count, List.append_assoc, List.singleton_append]
    simp only [line?, before, whole]
    constructor
    · intro number below
      by_cases none : number = 0
      · rw [if_pos none, if_pos none]
      · rw [if_neg none, if_neg none, List.getElem?_append_left (by omega),
          List.getElem?_append_left (by omega)]
    · intro number first
      rw [if_neg (by omega), if_neg (by omega), List.getElem?_append_right (by omega)]
      congr 1
      omega

theorem line?_feed {text : List Char} {number : Nat} (inside : number ≤ text.count '\n' + 1) :
    line? (text ++ ['\n']) number = line? text number := by
  have front := @splitAll_append (· == '\n') '\n' rfl text []
  rw [line?, line?, front]
  split
  · rfl
  · rw [List.getElem?_append_left (by rw [length_splitAll]; omega)]

theorem exists_line? {text : List Char} {number : Nat} (first : 1 ≤ number)
    (last : number ≤ text.count '\n' + 1) : ∃ line, line? text number = some line := by
  rw [line?, if_neg (by omega)]
  exact ⟨_, List.getElem?_eq_getElem (by rw [length_splitAll]; omega)⟩

/-- A reader of lines finds one for each line feed, and what stands unended behind the last. -/
theorem length_lines (text : List Char) :
    (lines text).length = text.count '\n' + if Ended text then 0 else 1 := by
  fun_induction lines text with
  | case1 => rfl
  | case2 rest ih =>
    by_cases none : rest = []
    · subst none
      rfl
    · simp only [List.length_cons, ih, List.count_cons_self, ended_cons none]
      omega
  | case3 rest ih =>
    have feed : '\n' :: rest ≠ [] := by simp
    have count : ('\r' :: '\n' :: rest).count '\n' = rest.count '\n' + 1 := by simp
    by_cases none : rest = []
    · subst none
      rfl
    · simp only [List.length_cons, ih, count, ended_cons feed, ended_cons none]
      omega
  | case4 c rest other _ none =>
    have bare : rest = [] := by
      by_contra some
      exact lines_ne_nil some none
    have other : c ≠ '\n' := other
    subst bare
    simp [Ended, other]
  | case5 c rest other _ line more found ih =>
    have some : rest ≠ [] := by
      rintro rfl
      cases found
    rw [found, List.length_cons] at ih
    simp only [List.length_cons, ih, ended_cons some, List.count_cons_of_ne other]

theorem length_lines_le (text : List Char) : (lines text).length ≤ text.count '\n' + 1 := by
  rw [length_lines]
  split <;> omega

end Text

namespace Program

theorem ended_block (texts : List String) : Ended (block texts).toList :=
  Uniform.toList_block texts ▸ ended_flatMap _

theorem count_prologue : prologue.toList.count '\n' = 40 := by
  obtain ⟨texts, same, length, plain⟩ := Uniform.prologue_eq
  have oneLine : ∀ line ∈ texts.map String.toList, OneLine line :=
    List.forall_mem_map.mpr fun text inside => (plain text inside).1
  rw [same, Uniform.toList_block, count_flatMap oneLine, List.length_map, length]

/-- The first line of a log that names a position names this one. -/
def Reports (log : String) (number : Nat) : Prop :=
  ∃ before line message after, lines log.toList = before ++ line :: after ∧
    (∀ other ∈ before, locatedLine? other = none) ∧ locatedLine? line = some (number, message)

theorem CompileError.ofLog_line {log : String} {number : Nat} (reports : Reports log number)
    (assembly : Assembly) : (ofLog log assembly).line = assembly.userLine? number := by
  obtain ⟨before, line, message, after, split, silent, located⟩ := reports
  have first : (lines log.toList).findSome? locatedLine? = some (number, message) := by
    rw [split, List.findSome?_append, List.findSome?_eq_none_iff.mpr silent, Option.none_or,
      List.findSome?_cons, located]
  simp only [ofLog, first]

namespace Assembly

theorem userLine?_eq_some_iff {assembly : Assembly} {number k : Nat} :
    assembly.userLine? number = some k ↔
      number = assembly.preambleLines + k ∧ 1 ≤ k ∧ k ≤ assembly.userLines := by
  simp only [userLine?, Option.ite_none_right_eq_some, Option.some.injEq]
  omega

theorem userLine?_eq_none_iff {assembly : Assembly} {number : Nat} :
    assembly.userLine? number = none ↔
      number ≤ assembly.preambleLines ∨ assembly.preambleLines + assembly.userLines < number := by
  simp only [userLine?, ite_eq_right_iff, reduceCtorEq, imp_false]
  omega

theorem ended_preamble (definitions : List Definition) : Ended (preamble definitions).toList := by
  rw [preamble, String.toList_append]
  apply (ended_block _).append
  unfold parameterBlock
  split
  · exact .inl rfl
  · exact ended_block _

/-- The own text is followed by a line feed unless it ends with one. -/
theorem toList_body (source : String) :
    (body source).toList =
      source.toList ++ if source.toList.getLast? = some '\n' then [] else ['\n'] := by
  unfold body
  split <;> simp

theorem ended_body (source : String) : Ended (body source).toList := by
  right
  rw [toList_body]
  split
  · rwa [List.append_nil]
  · simp

theorem count_body (source : String) :
    (body source).toList.count '\n' = max 1 (lines source.toList).length := by
  rw [toList_body, length_lines]
  by_cases last : source.toList.getLast? = some '\n'
  · have ended : Ended source.toList := .inr last
    have feed : 1 ≤ source.toList.count '\n' :=
      List.one_le_count_iff.mpr (List.mem_of_getLast? last)
    rw [if_pos last, if_pos ended, List.append_nil]
    omega
  · rw [if_neg last, List.count_append, List.count_singleton_self]
    by_cases empty : source.toList = []
    · rw [empty]
      rfl
    · have unended : ¬ Ended source.toList := not_or.mpr ⟨empty, last⟩
      rw [if_neg unended]
      omega

/-- The own lines of a text are lines of it with the line feed that may be added. -/
theorem line?_body {source : String} {k : Nat} (own : k ≤ (lines source.toList).length) :
    line? (body source).toList k = line? source.toList k := by
  rw [toList_body]
  split
  · rw [List.append_nil]
  · exact line?_feed (Nat.le_trans own (length_lines_le _))

/-- How an assembled text and the text that it was assembled for correspond line by line. -/
structure MapsLines (source : String) (definitions : List Definition) (assembly : Assembly) :
    Prop where
  /-- The own text stands in the whole text as it is. -/
  verbatim : ∃ after, assembly.text = prologue ++ parameterBlock definitions ++ source ++ after
  counted : assembly.userLines = source.toList.count '\n' + if Ended source.toList then 0 else 1
  /-- The lines before the own text are those of the standard inputs and of the parameter block. -/
  preamble : ∀ number ≤ assembly.preambleLines, line? assembly.text.toList number =
    line? (prologue ++ parameterBlock definitions).toList number
  own : ∀ k, 1 ≤ k → k ≤ assembly.userLines → ∃ line, line? source.toList k = some line ∧
    line? assembly.text.toList (assembly.preambleLines + k) = some line
  /-- The lines behind it are those of the entry point. -/
  epilogue : ∀ number, 1 ≤ number →
    line? assembly.text.toList (assembly.preambleLines + max 1 assembly.userLines + number) =
      line? epilogue.toList number
  mapped : ∀ number k, assembly.userLine? number = some k ↔
    number = assembly.preambleLines + k ∧ 1 ≤ k ∧ k ≤ assembly.userLines
  reported : ∀ log number, Reports log number → ∀ k,
    (CompileError.ofLog log assembly).line = some k ↔
      number = assembly.preambleLines + k ∧ 1 ≤ k ∧ k ≤ assembly.userLines
  elsewhere : ∀ log number, Reports log number →
    ((CompileError.ofLog log assembly).line = none ↔
      number ≤ assembly.preambleLines ∨ assembly.preambleLines + assembly.userLines < number)

/-- The lines of a text are found in the text assembled for it right behind the preamble, whatever
the text and the parameters are, and a log is carried back to exactly these lines. -/
theorem mapsLines_ofSource (source : String) (definitions : List Definition) :
    (ofSource source definitions).MapsLines source definitions := by
  have preambleLines : (ofSource source definitions).preambleLines =
      (Assembly.preamble definitions).toList.count '\n' := by
    rw [ofSource]
  have userLines : (ofSource source definitions).userLines = (lines source.toList).length := by
    rw [ofSource]
  have text : (ofSource source definitions).text =
      Assembly.preamble definitions ++ body source ++ epilogue := by
    rw [ofSource]
  -- The preamble is a long literal, which no step below has to look into.
  generalize ofSource source definitions = assembly at *
  obtain ⟨before, behind⟩ := line?_append (ended_preamble definitions)
    ((body source).toList ++ epilogue.toList)
  obtain ⟨inside, beyond⟩ := line?_append (ended_body source) epilogue.toList
  rw [← String.toList_append, ← String.toList_append, ← String.append_assoc, ← text,
    ← preambleLines] at before behind
  rw [← String.toList_append, count_body, ← userLines] at inside beyond
  constructor
  case verbatim =>
    rw [text, Assembly.preamble, body]
    split
    · exact ⟨epilogue, rfl⟩
    · exact ⟨"\n" ++ epilogue, by simp only [String.append_assoc]⟩
  case counted => rw [userLines, length_lines]
  case preamble => exact before
  case own =>
    intro k first last
    rw [userLines] at last
    obtain ⟨line, found⟩ := exists_line? first (Nat.le_trans last (length_lines_le _))
    refine ⟨line, found, ?_⟩
    calc line? assembly.text.toList (assembly.preambleLines + k)
      _ = line? (body source ++ epilogue).toList k := behind k first
      _ = line? (body source).toList k := inside k (by omega)
      _ = line? source.toList k := line?_body last
      _ = some line := found
  case epilogue =>
    intro number later
    rw [Nat.add_assoc, behind _ (by omega), beyond number later]
  case mapped => exact fun number k => userLine?_eq_some_iff
  case reported =>
    intro log number reports k
    rw [CompileError.ofLog_line reports]
    exact userLine?_eq_some_iff
  case elsewhere =>
    intro log number reports
    rw [CompileError.ofLog_line reports]
    exact userLine?_eq_none_iff

/-- Two lines of which the second one is not ended. -/
def pair : String := "void first() \x7b \x7d\r\nvoid second() \x7b \x7d"

def undeclared : String := "1 warning\nERROR: 0:42: 'x' : undeclared\nERROR: 0:2: 'y' : undeclared\n"

/-- The first error lies in the second line; the error behind it, in the preamble, is not told. -/
theorem mapsLines_undeclared :
    Reports undeclared 42 ∧ (CompileError.ofLog undeclared (ofSource pair [])).line = some 2 := by
  have split : lines undeclared.toList = "1 warning".toList ::
      "ERROR: 0:42: 'x' : undeclared".toList :: ["ERROR: 0:2: 'y' : undeclared".toList] := by
    decide +kernel
  have located : locatedLine? "ERROR: 0:42: 'x' : undeclared".toList =
      some (42, "'x' : undeclared".toList) := by
    decide +kernel
  have silent : ∀ other ∈ ["1 warning".toList], locatedLine? other = none := by decide +kernel
  have reports : Reports undeclared 42 := ⟨_, _, _, _, split, silent, located⟩
  have own : (lines pair.toList).length = 2 := by decide +kernel
  have before : (preamble []).toList.count '\n' = 40 := by
    rw [preamble, parameterBlock, List.isEmpty_nil, if_pos rfl, String.append_empty,
      count_prologue]
  refine ⟨reports, ((mapsLines_ofSource pair []).reported undeclared 42 reports 2).mpr ?_⟩
  rw [ofSource, before, own]
  decide

end Assembly

end Program

end LiveFragment
