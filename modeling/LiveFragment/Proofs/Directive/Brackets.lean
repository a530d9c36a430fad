import Mathlib.Data.List.TakeWhile
import LiveFragment.Directive.Item

namespace LiveFragment.Directive

open LiveFragment.Number LiveFragment.Text

/-- A bracket, or a run of characters between separators. -/
inductive Mark
  | opening
  | closing
  | run (word : List Char)
deriving DecidableEq, Repr

/-- Whether a text starts inside a run. -/
def startsRun : List Char → Bool
  | [] => false
  | c :: _ => isRunCharacter c

/-- Puts a character in front of the run that a list of marks starts with. -/
def extendRun (c : Char) : List Mark → List Mark
  | .run word :: rest => .run (c :: word) :: rest
  | rest => .run [c] :: rest

def marks : List Char → List Mark
  | [] => []
  | c :: rest =>
    if c = '[' then .opening :: marks rest
    else if c = ']' then .closing :: marks rest
    else if isSeparator c then marks rest
    else if startsRun rest then extendRun c (marks rest)
    else .run [c] :: marks rest

/-- Nests marks. The items of the open groups are kept in reverse, innermost first. -/
def nest : List Mark → List Item → List (List Item) → Option (List Item)
  | [], items, [] => some items.reverse
  | [], _, _ :: _ => none
  | .opening :: rest, items, outer => nest rest [] (items :: outer)
  | .closing :: _, _, [] => none
  | .closing :: rest, items, above :: outer => nest rest (.group items.reverse :: above) outer
  | .run word :: rest, items, outer => nest rest (.number (readNumber word) :: items) outer

theorem isRunCharacter_iff {c : Char} :
    isRunCharacter c = true ↔ isSeparator c = false ∧ c ≠ '[' ∧ c ≠ ']' := by
  simp [isRunCharacter, and_assoc]

theorem marks_run {word text : List Char} (some : word ≠ [])
    (characters : ∀ c ∈ word, isRunCharacter c = true) (ends : startsRun text = false) :
    marks (word ++ text) = .run word :: marks text := by
  induction word with
  | nil => exact absurd rfl some
  | cons c word ih =>
    obtain ⟨separates, opening, closing⟩ := isRunCharacter_iff.mp (characters c List.mem_cons_self)
    rw [List.cons_append, marks, if_neg opening, if_neg closing, separates,
      if_neg Bool.false_ne_true]
    cases word with
    | nil => rw [List.nil_append, ends, if_neg Bool.false_ne_true]
    | cons d word =>
      have starts : startsRun (d :: word ++ text) = true :=
        characters d (List.mem_cons_of_mem _ List.mem_cons_self)
      rw [if_pos starts, ih (by simp) fun e member => characters e (List.mem_cons_of_mem _ member)]
      rfl

/-- A text in pieces: its brackets and, between these and the separators, its runs. A run ends where
no run could go on. -/
inductive Cut : List Mark → List Char → Prop
  | done : Cut [] []
  | separator {pieces : List Mark} {text : List Char} {c : Char}
    (separates : isSeparator c = true) (rest : Cut pieces text) : Cut pieces (c :: text)
  | opening {pieces : List Mark} {text : List Char} (rest : Cut pieces text) :
    Cut (.opening :: pieces) ('[' :: text)
  | closing {pieces : List Mark} {text : List Char} (rest : Cut pieces text) :
    Cut (.closing :: pieces) (']' :: text)
  | run {pieces : List Mark} {text word : List Char} (some : word ≠ [])
    (characters : ∀ c ∈ word, isRunCharacter c = true) (ends : startsRun text = false)
    (rest : Cut pieces text) : Cut (.run word :: pieces) (word ++ text)

theorem separator_ne {c bracket : Char} (separates : isSeparator c = true)
    (other : isSeparator bracket = false) : c ≠ bracket := by
  rintro rfl
  rw [separates] at other
  cases other

theorem marks_separator {c : Char} (separates : isSeparator c = true) (text : List Char) :
    marks (c :: text) = marks text := by
  rw [marks, if_neg (separator_ne separates (by decide)), if_neg (separator_ne separates (by decide)),
    if_pos separates]

theorem Cut.marks_eq {pieces : List Mark} {text : List Char} (cut : Cut pieces text) :
    marks text = pieces := by
  induction cut with
  | done => rfl
  | separator separates rest ih => rw [marks_separator separates, ih]
  | opening rest ih => rw [marks, if_pos rfl, ih]
  | closing rest ih => rw [marks, if_neg (by decide), if_pos rfl, ih]
  | run some characters ends rest ih => rw [marks_run some characters ends, ih]

theorem startsRun_behind_run (text : List Char) :
    startsRun (text.dropWhile isRunCharacter) = false := by
  have stops := List.head?_dropWhile_not isRunCharacter text
  cases behind : text.dropWhile isRunCharacter with
  | nil => rfl
  | cons c rest =>
    rw [behind] at stops
    exact stops

/-- A run that a text starts with is all of its first run characters. -/
theorem marks_run_front {c : Char} (run : isRunCharacter c = true) (text : List Char) :
    marks (c :: text) = .run (c :: text.takeWhile isRunCharacter) ::
      marks (text.dropWhile isRunCharacter) := by
  have characters : ∀ d ∈ c :: text.takeWhile isRunCharacter, isRunCharacter d = true :=
    List.forall_mem_cons.mpr ⟨run, fun d member => List.mem_takeWhile_imp member⟩
  rw [← marks_run (by simp) characters (startsRun_behind_run text), List.cons_append,
    List.takeWhile_append_dropWhile]

/-- Every text can be cut, and in one way only. -/
theorem cut_marks (text : List Char) : Cut (marks text) text := by
  induction counted : text.length using Nat.strongRecOn generalizing text with
  | ind length ih =>
    cases text with
    | nil => exact .done
    | cons c text =>
      have shorter : text.length < length := counted ▸ Nat.lt_succ_self _
      by_cases separates : isSeparator c = true
      · rw [marks_separator separates]
        exact .separator separates (ih _ shorter text rfl)
      by_cases opening : c = '['
      · subst opening
        exact .opening (ih _ shorter text rfl)
      by_cases closing : c = ']'
      · subst closing
        exact .closing (ih _ shorter text rfl)
      · have run : isRunCharacter c = true :=
          isRunCharacter_iff.mpr ⟨by simpa using separates, opening, closing⟩
        have whole : c :: text = (c :: text.takeWhile isRunCharacter) ++
            text.dropWhile isRunCharacter := by
          rw [List.cons_append, List.takeWhile_append_dropWhile]
        rw [marks_run_front run, whole]
        have behind := Nat.lt_of_le_of_lt (length_behind_run text) shorter
        refine .run (by simp) ?_ (startsRun_behind_run text) (ih _ behind _ rfl)
        exact List.forall_mem_cons.mpr ⟨run, fun d member => List.mem_takeWhile_imp member⟩

theorem cut_iff {pieces : List Mark} {text : List Char} : Cut pieces text ↔ pieces = marks text := by
  constructor
  · intro cut
    exact cut.marks_eq.symm
  · rintro rfl
    exact cut_marks text

/-- Goes on behind a group, or ends with the whole text. -/
def resume {text : List Char} (taken : Taken text) : List (List Item) → Option (List Item)
  | [] => some taken.items
  | above :: outer => nest (marks taken.rest) (.group taken.items :: above) outer

/-- Nesting the marks of a text takes the items of the innermost open group and goes on behind it. -/
theorem nest_marks {nested : Bool} {before : List Item} {text : List Char}
    (outer : List (List Item)) (inside : nested = !outer.isEmpty) :
    nest (marks text) before outer = (takeItems nested before text).bind (resume · outer) := by
  fun_induction takeItems nested before text generalizing outer with
  | case1 before =>
    cases outer with
    | nil => cases inside
    | cons above outer => rfl
  | case2 nested before outside =>
    cases outer with
    | nil => rfl
    | cons above outer => exact absurd inside outside
  | case3 nested before c text separates ih =>
    rw [marks_separator separates, ih outer inside, Option.bind_map]
    rfl
  | case4 nested before text unclosed _ ih =>
    have inner := ih (before :: outer) rfl
    rw [unclosed] at inner
    exact inner
  | case5 nested before text inner closed _ ih behind =>
    have group := ih (before :: outer) rfl
    rw [closed] at group
    rw [Option.bind_map]
    exact group.trans (behind outer inside)
  | case6 before text =>
    cases outer with
    | nil => cases inside
    | cons above outer => rfl
  | case7 nested before text outside =>
    cases outer with
    | nil => rfl
    | cons above outer => exact absurd inside outside
  | case8 nested before c text separates opening closing ih =>
    have run : isRunCharacter c = true :=
      isRunCharacter_iff.mpr ⟨by simpa using separates, opening, closing⟩
    rw [marks_run_front run, Option.bind_map]
    exact ih outer inside

/-- The items of a text are its marks, nested. -/
theorem items?_eq_nest (text : List Char) : items? text = nest (marks text) [] [] := by
  have whole : nest (marks text) [] [] = (takeItems false [] text).bind (resume · []) :=
    nest_marks [] rfl
  rw [items?, whole]
  cases takeItems false [] text <;> rfl

end LiveFragment.Directive
