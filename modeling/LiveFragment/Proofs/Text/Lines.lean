import Mathlib.Data.List.Basic
import LiveFragment.Proofs.Text.Reading

namespace LiveFragment.Text

/-- A text without line feeds is one line, or it is empty. -/
theorem lines_of_clear {text : List Char} (clear : '\n' ∉ text) (some : text ≠ []) :
    lines text = [text] := by
  induction text with
  | nil => exact absurd rfl some
  | cons c rest ih =>
    simp only [List.mem_cons, not_or] at clear
    rw [lines]
    · cases rest with
      | nil => rfl
      | cons d rest => rw [ih clear.2 (List.cons_ne_nil d rest)]
    · exact Ne.symm clear.1
    · rintro tail - rfl
      exact clear.2 List.mem_cons_self

/-- A text with a line feed behind it goes on after its first line feed. -/
theorem exists_firstLine (text rest : List Char) :
    ∃ more, text ++ '\n' :: rest = text.takeWhile (· ≠ '\n') ++ '\n' :: more := by
  have parts := List.takeWhile_append_dropWhile (p := (· ≠ '\n')) (l := text)
  cases behind : text.dropWhile (· ≠ '\n') with
  | nil =>
    rw [behind, List.append_nil] at parts
    exact ⟨rest, by rw [parts]⟩
  | cons c more =>
    have feed : c = '\n' := by
      have stopped := List.head?_dropWhile_not (· ≠ '\n') text
      rw [behind] at stopped
      simpa using stopped
    rw [behind, feed] at parts
    refine ⟨more ++ '\n' :: rest, ?_⟩
    calc text ++ '\n' :: rest
      _ = (text.takeWhile (· ≠ '\n') ++ '\n' :: more) ++ '\n' :: rest := by rw [parts]
      _ = _ := by rw [List.append_assoc, List.cons_append]

theorem mem_of_mem_lines {text line : List Char} (listed : line ∈ lines text) {c : Char}
    (member : c ∈ line) : c ∈ text := by
  fun_induction lines text generalizing line with
  | case1 => cases listed
  | case2 rest ih | case3 rest ih =>
    rcases List.mem_cons.mp listed with rfl | later
    · cases member
    · simp [ih later member]
  | case4 c rest _ _ _ ih =>
    obtain rfl := List.mem_singleton.mp listed
    obtain rfl := List.mem_singleton.mp member
    exact List.mem_cons_self
  | case5 d rest _ _ first others found ih =>
    rcases List.mem_cons.mp listed with rfl | later
    · rcases List.mem_cons.mp member with rfl | inside
      · simp
      · simp [ih (by simp [found]) inside]
    · simp [ih (by simp [found, later]) member]

/-- Lines as they are once a line feed ends the last of them: unchanged, with an empty line behind
them, or with the carriage return at their end gone. -/
inductive Closed : List (List Char) → List (List Char) → Prop
  | same (before : List (List Char)) : Closed before before
  | blank (before : List (List Char)) : Closed before (before ++ [[]])
  | returned (before : List (List Char)) (last : List Char) :
    Closed (before ++ [last ++ ['\r']]) (before ++ [last])

namespace Closed

variable {before after : List (List Char)}

theorem cons (closed : Closed before after) (line : List Char) :
    Closed (line :: before) (line :: after) := by
  cases closed with
  | same => exact .same _
  | blank => exact .blank (line :: before)
  | returned before last => exact .returned (line :: before) last

theorem extend {line : List Char} {more : List (List Char)} (closed : Closed (line :: more) after)
    (c : Char) : ∃ next others, after = next :: others ∧
      Closed ((c :: line) :: more) ((c :: next) :: others) := by
  generalize whole : line :: more = lines at closed
  cases closed with
  | same =>
    obtain rfl := whole
    exact ⟨line, more, rfl, .same _⟩
  | blank =>
    obtain rfl := whole
    exact ⟨line, more ++ [[]], List.cons_append, .blank ((c :: line) :: more)⟩
  | returned before last =>
    cases before with
    | nil =>
      obtain ⟨rfl, rfl⟩ := List.cons.inj whole
      exact ⟨last, [], rfl, .returned [] (c :: last)⟩
    | cons first rest =>
      obtain ⟨rfl, rfl⟩ := List.cons.inj whole
      exact ⟨line, rest ++ [last], rfl, .returned ((c :: line) :: rest) last⟩

/-- Nothing changes for a reader that finds nothing in an empty line and does not mind a carriage
return at the end of one. -/
theorem filterMap_eq {α : Type} {read : List Char → Option α} (closed : Closed before after)
    (empty : read [] = none) (trailing : ∀ line, read (line ++ ['\r']) = read line) :
    after.filterMap read = before.filterMap read := by
  cases closed with
  | same => rfl
  | blank => simp [List.filterMap_append, empty]
  | returned before last => simp [List.filterMap_append, List.filterMap_cons, trailing]

end Closed

/-- A line feed between two texts ends the last line of the first. -/
theorem lines_join (first second : List Char) :
    ∃ front, lines (first ++ '\n' :: second) = front ++ lines second ∧
      Closed (lines first) front := by
  fun_induction lines first with
  | case1 => exact ⟨[[]], by simp [lines], .blank []⟩
  | case2 rest ih =>
    obtain ⟨front, joined, closed⟩ := ih
    exact ⟨[] :: front, by simp [lines, joined], closed.cons []⟩
  | case3 rest ih =>
    obtain ⟨front, joined, closed⟩ := ih
    exact ⟨[] :: front, by simp [lines, joined], closed.cons []⟩
  | case4 c rest feed _ none =>
    have bare : rest = [] := by
      by_contra some
      exact lines_ne_nil some none
    subst bare
    by_cases returned : c = '\r'
    · subst returned
      exact ⟨[[]], by simp [lines], .returned [] []⟩
    · refine ⟨[[c]], ?_, .same _⟩
      rw [List.singleton_append, lines, lines]
      · rfl
      · exact feed
      · exact fun _ same _ => returned same
  | case5 c rest feed returned line more found ih =>
    obtain ⟨front, joined, closed⟩ := ih
    rw [found] at closed
    obtain ⟨next, others, rfl, extended⟩ := closed.extend c
    refine ⟨(c :: next) :: others, ?_, extended⟩
    rw [List.cons_append, lines, joined]
    · rfl
    · exact feed
    · intro tail same starts
      cases rest with
      | nil => cases found
      | cons first rest =>
        obtain ⟨rfl, _⟩ := List.cons.inj starts
        exact returned rest same rfl

/-- A reader that finds nothing in an empty line finds in a text without line feeds what it finds in
it as a line. -/
theorem filterMap_lines_clear {α : Type} {read : List Char → Option α} (empty : read [] = none)
    {text : List Char} (clear : '\n' ∉ text) :
    (lines text).filterMap read = (read text).toList := by
  rcases eq_or_ne text [] with rfl | some
  · rw [empty]
    rfl
  · rw [lines_of_clear clear some]
    cases found : read text <;> simp [found]

/-- Whatever does not mind a carriage return at the end of a line reads joined texts one by one. -/
theorem filterMap_lines_join {α : Type} {read : List Char → Option α} (empty : read [] = none)
    (trailing : ∀ line, read (line ++ ['\r']) = read line) (first second : List Char) :
    (lines (first ++ '\n' :: second)).filterMap read =
      (lines first).filterMap read ++ (lines second).filterMap read := by
  obtain ⟨front, joined, closed⟩ := lines_join first second
  rw [joined, List.filterMap_append, closed.filterMap_eq empty trailing]

end LiveFragment.Text
