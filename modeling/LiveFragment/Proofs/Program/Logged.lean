import LiveFragment.Program.Diagnostic
import LiveFragment.Proofs.Text.Lines

namespace LiveFragment

open LiveFragment.Text

namespace Program

/-- A trimmed line that names a position. Either it starts with the mark, and a column and the line
number follow it, and the message unless there is none; or, without the mark at its start, it has a
place and the line number before the first of the words for an error, and the message behind. -/
inductive Locates (number : Nat) : List Char → List Char → Prop
  | marked {column digits message : List Char} (clear : ':' ∉ column) (plain : ':' ∉ digits)
    (counts : (index? (trim column)).isSome) (counted : index? (trim digits) = some number) :
    Locates number (errorMark ++ (column ++ ':' :: (digits ++ ':' :: message))) (trim message)
  | silent {column digits : List Char} (clear : ':' ∉ column) (plain : ':' ∉ digits)
    (counts : (index? (trim column)).isSome) (counted : index? (trim digits) = some number) :
    Locates number (errorMark ++ (column ++ ':' :: digits)) []
  | placed {line place digits message : List Char}
    (split : line = (place ++ ':' :: digits) ++ (placeMark ++ message))
    (unmarked : ¬ errorMark <+: line)
    (first : ∀ before after, line = before ++ (placeMark ++ after) →
      (place ++ ':' :: digits).length ≤ before.length)
    (plain : ':' ∉ digits) (counted : index? (trim digits) = some number) :
    Locates number line (trim message)

theorem clear_iff {text : List Char} : (∀ c ∈ text, (c == ':') = false) ↔ ':' ∉ text := by
  simp only [beq_eq_false_iff_ne]
  exact ⟨fun clear member => clear _ member rfl, fun absent c member same => absent (same ▸ member)⟩

theorem markedLine?_eq_some {rest message : List Char} {number : Nat} :
    markedLine? rest = some (number, message) ↔ Locates number (errorMark ++ rest) message := by
  constructor
  · intro read
    obtain ⟨⟨column, behind⟩, cut, numbered⟩ := Option.bind_eq_some_iff.mp read
    obtain ⟨count, columned, rest_read⟩ := Option.bind_eq_some_iff.mp numbered
    obtain ⟨c, rfl, colon, clear⟩ := cutAt?_eq_some.mp cut
    obtain rfl : c = ':' := by simpa using colon
    have counts : (index? (trim column)).isSome := Option.isSome_iff_exists.mpr ⟨count, columned⟩
    cases further : cutAt? (· == ':') behind with
    | some parts =>
      obtain ⟨digits, text⟩ := parts
      obtain ⟨c, rfl, colon, plain⟩ := cutAt?_eq_some.mp further
      obtain rfl : c = ':' := by simpa using colon
      rw [further] at rest_read
      obtain ⟨number, counted, same⟩ := Option.bind_eq_some_iff.mp rest_read
      obtain ⟨rfl, rfl⟩ := Prod.mk.inj (Option.some.inj same)
      exact .marked (clear_iff.mp clear) (clear_iff.mp plain) counts counted
    | none =>
      rw [further] at rest_read
      obtain ⟨number, counted, same⟩ := Option.bind_eq_some_iff.mp rest_read
      obtain ⟨rfl, rfl⟩ := Prod.mk.inj (Option.some.inj same)
      exact .silent (clear_iff.mp clear) (clear_iff.mp (clear_of_cutAt?_eq_none further)) counts
        counted
  · intro locates
    generalize whole : errorMark ++ rest = line at locates
    cases locates with
    | @marked column digits text clear plain counts counted =>
      obtain rfl := List.append_cancel_left whole
      obtain ⟨count, counts⟩ := Option.isSome_iff_exists.mp counts
      simp only [markedLine?, cutAt?_append (clear_iff.mpr clear) (beq_self_eq_true ':'),
        cutAt?_append (clear_iff.mpr plain) (beq_self_eq_true ':'), counts, counted, bind,
        Option.bind_some, Option.getD_some]
    | @silent column digits clear plain counts counted =>
      obtain rfl := List.append_cancel_left whole
      obtain ⟨count, counts⟩ := Option.isSome_iff_exists.mp counts
      simp only [markedLine?, cutAt?_append (clear_iff.mpr clear) (beq_self_eq_true ':'),
        cutAt?_eq_none (clear_iff.mpr plain), counts, counted, bind, Option.bind_some,
        Option.getD_none]
      rfl
    | placed split unmarked => exact absurd ⟨rest, whole⟩ unmarked

theorem placedLine?_eq_some {line message : List Char} {number : Nat}
    (unmarked : ¬ errorMark <+: line) :
    placedLine? line = some (number, message) ↔ Locates number line message := by
  have some' : placeMark ≠ [] := by decide +kernel
  constructor
  · intro read
    obtain ⟨⟨front, text⟩, cut, rest_read⟩ := Option.bind_eq_some_iff.mp read
    obtain ⟨⟨place, digits⟩, parted, numbered⟩ := Option.bind_eq_some_iff.mp rest_read
    obtain ⟨number, counted, same⟩ := Option.bind_eq_some_iff.mp numbered
    obtain ⟨rfl, rfl⟩ := Prod.mk.inj (Option.some.inj same)
    obtain ⟨split, first⟩ := (cutAtWord?_eq_some some').mp cut
    obtain ⟨c, rfl, colon, plain⟩ := cutAtLast?_eq_some.mp parted
    obtain rfl : c = ':' := by simpa using colon
    exact .placed split unmarked first (clear_iff.mp plain) counted
  · intro locates
    cases locates with
    | marked => exact absurd (List.prefix_append ..) unmarked
    | silent => exact absurd (List.prefix_append ..) unmarked
    | @placed _ place digits text split _ first plain counted =>
      have cut := (cutAtWord?_eq_some some').mpr ⟨split, first⟩
      have parted : cutAtLast? (· == ':') (place ++ ':' :: digits) = some (place, digits) :=
        cutAtLast?_eq_some.mpr ⟨':', rfl, beq_self_eq_true ':', clear_iff.mpr plain⟩
      simp only [placedLine?, cut, parted, counted, bind, Option.bind_some]

theorem locatedLine?_eq_some {line message : List Char} {number : Nat} :
    locatedLine? line = some (number, message) ↔ Locates number (trim line) message := by
  rw [locatedLine?]
  cases marked : errorMark.isPrefixOf? (trim line) with
  | some rest =>
    rw [← List.isPrefixOf?_eq_some_iff_append_eq.mp marked]
    exact markedLine?_eq_some
  | none =>
    apply placedLine?_eq_some
    rintro ⟨rest, starts⟩
    rw [List.isPrefixOf?_eq_some_iff_append_eq.mpr starts] at marked
    cases marked

/-- White space behind a line, such as a carriage return, does not matter. -/
theorem locatedLine?_followed {back : List Char} (blank : Blanks back) (line : List Char) :
    locatedLine? (line ++ back) = locatedLine? line := by
  rw [locatedLine?, trim_followed blank, locatedLine?]

theorem filterMap_locatedLine? {line : List Char} (clear : '\n' ∉ line) (rest : List Char) :
    (lines (line ++ '\n' :: rest)).filterMap locatedLine? =
      (locatedLine? line).toList ++ (lines rest).filterMap locatedLine? := by
  have empty : locatedLine? [] = none := rfl
  have trailing (line : List Char) : locatedLine? (line ++ ['\r']) = locatedLine? line :=
    locatedLine?_followed (blanks_of_all rfl) line
  rw [filterMap_lines_join empty trailing, filterMap_lines_clear empty clear]

/-- Lines in neither form are passed over. -/
theorem filterMap_passed {before : List (List Char)}
    (passed : ∀ line ∈ before, '\n' ∉ line ∧ ∀ number message, ¬ Locates number (trim line) message)
    (rest : List Char) :
    (lines (before.flatMap (· ++ ['\n']) ++ rest)).filterMap locatedLine? =
      (lines rest).filterMap locatedLine? := by
  induction before with
  | nil => rfl
  | cons line before ih =>
    obtain ⟨⟨clear, other⟩, later⟩ := List.forall_mem_cons.mp passed
    have none : locatedLine? line = none :=
      Option.eq_none_iff_forall_ne_some.mpr fun ⟨number, message⟩ located =>
        other number message (locatedLine?_eq_some.mp located)
    rw [List.flatMap_cons, List.append_assoc, List.append_assoc, List.singleton_append,
      filterMap_locatedLine? clear, none, ih later]
    rfl

theorem head?_located {line : List Char} {number : Nat} {message : List Char} (clear : '\n' ∉ line)
    (locates : Locates number (trim line) message) (after : List Char)
    (ended : after = [] ∨ after.head? = some '\n') :
    ((lines (line ++ after)).filterMap locatedLine?).head? = some (number, message) := by
  have located := locatedLine?_eq_some.mpr locates
  rcases ended with rfl | starts
  · rw [List.append_nil, filterMap_lines_clear rfl clear, located]
    rfl
  · obtain ⟨rest, rfl⟩ := List.head?_eq_some_iff.mp starts
    rw [filterMap_locatedLine? clear, located]
    rfl

theorem CompileError.ofLog_located {log : List Char} {number : Nat} {message : List Char}
    (first : ((lines log).filterMap locatedLine?).head? = some (number, message))
    (assembly : Assembly) :
    ofLog (String.ofList log) assembly =
      ⟨assembly.userLine? number, String.ofList message, String.ofList log⟩ := by
  rw [List.head?_filterMap] at first
  simp only [ofLog, String.toList_ofList, first]

theorem index?_digits (number : UInt64) :
    index? (trim (toString number).toList) = some number.toNat := by
  have digits : ∀ c ∈ (toString number.toNat).toList, isDigit c = true :=
    fun _ => isDigit_of_mem_toString
  have same : (toString number).toList = (toString number.toNat).toList := rfl
  rw [same, trim_eq_self fun c member => isBlank_of_isDigit (digits c member),
    index?_toString number.toNat_lt]

theorem digits_clear (number : UInt64) {c : Char} (other : isDigit c = false) :
    c ∉ (toString number).toList := fun member =>
  isDigit_ne (isDigit_of_mem_toString (n := number.toNat) member) other rfl

/-- The first line of a finding, which holds its message up to the first line feed. -/
def Finding.head (finding : Finding) : List Char :=
  errorMark ++ ((' ' :: (toString finding.column).toList) ++
    ':' :: ((toString finding.line).toList ++
      ':' :: (' ' :: finding.message.toList.takeWhile (· ≠ '\n'))))

/-- The log of some findings starts with the first line of the first of them. -/
theorem Finding.toList_log (first : Finding) (others : List Finding) :
    ∃ rest, (log (first :: others)).toList = first.head ++ '\n' :: rest := by
  have mark : "ERROR: ".toList = errorMark ++ [' '] := by decide +kernel
  have colon : ":".toList = [':'] ∧ ": ".toList = [':', ' '] ∧ "\n".toList = ['\n'] := by
    decide +kernel
  obtain ⟨rest, ended⟩ := exists_firstLine first.message.toList (log others).toList
  refine ⟨rest, ?_⟩
  have joined : log (first :: others) = first.text ++ log others := by
    rw [log, List.map_cons, String.join_cons]
    rfl
  simp only [joined, text, head, String.toList_append, mark, colon, List.append_assoc,
    List.cons_append, List.nil_append, ended]

theorem Finding.locates_head (finding : Finding) :
    Locates finding.line.toNat (trim finding.head)
      (trim (finding.message.toList.takeWhile (· ≠ '\n'))) := by
  generalize words : finding.message.toList.takeWhile (· ≠ '\n') = message
  obtain ⟨front, colon, shape⟩ : ∃ front, (∀ c ∈ front.getLast?, isBlank c = false) ∧
      ∀ text, errorMark ++ ((' ' :: (toString finding.column).toList) ++
        ':' :: ((toString finding.line).toList ++ ':' :: text)) = front ++ text := by
    refine ⟨errorMark ++ ((' ' :: (toString finding.column).toList) ++
      ':' :: (toString finding.line).toList) ++ [':'], ?_, fun text => by simp⟩
    intro c last
    rw [List.getLast?_concat] at last
    obtain rfl := Option.some.inj last
    decide
  have start : trimStart finding.head = finding.head := by
    have mark : errorMark = 'E' :: "RROR:".toList := by decide +kernel
    rw [head, mark]
    exact trimStart_cons (by decide) _
  have trimmed : trim finding.head = errorMark ++ ((' ' :: (toString finding.column).toList) ++
      ':' :: ((toString finding.line).toList ++ ':' :: trimEnd (' ' :: message))) := by
    rw [trim, start, head, words, shape, shape, trimEnd_append colon]
  have space : Blanks [' '] := blanks_of_all rfl
  have text : trim (trimEnd (' ' :: message)) = trim message := by
    rw [trim_trimEnd]
    exact congrArg trimEnd (trimStart_append space message)
  have column : index? (trim (' ' :: (toString finding.column).toList)) =
      some finding.column.toNat := by
    rw [← index?_digits finding.column]
    exact congrArg index? (congrArg trimEnd (trimStart_append space _))
  rw [trimmed, ← text]
  refine .marked ?_ (digits_clear finding.line (by decide)) (by rw [column]; rfl)
    (index?_digits finding.line)
  simpa using digits_clear finding.column (by decide)

/-- What stands before the words for an error in the form with a place. -/
def placeAt (place : List Char) (number : UInt64) : List Char :=
  place ++ ':' :: (toString number).toList

theorem trim_placeAt (place message : List Char) (number : UInt64) :
    trim (placeAt place number ++ (placeMark ++ message)) =
      placeAt (trimStart place) number ++ (placeMark ++ trimEnd message) := by
  have start : trimStart (placeAt place number ++ (placeMark ++ message)) =
      placeAt (trimStart place) number ++ (placeMark ++ message) := by
    simp only [placeAt, List.append_assoc, List.cons_append]
    exact trimStart_visible place (by decide) _
  have colon : ∀ c ∈ (placeAt (trimStart place) number ++ placeMark).getLast?,
      isBlank c = false := by
    have mark : placeMark = ": error".toList ++ [':'] := by decide +kernel
    intro c last
    rw [mark, ← List.append_assoc, List.getLast?_concat] at last
    obtain rfl := Option.some.inj last
    decide
  rw [trim, start, ← List.append_assoc, trimEnd_append colon, List.append_assoc]

/-- Trimming a line in the form with a place leaves it in this form. -/
theorem locates_placeAt {place message : List Char} {number : UInt64}
    (unmarked : ¬ errorMark <+: trim (placeAt place number ++ (placeMark ++ message)))
    (first : ∀ before after, placeAt place number ++ (placeMark ++ message) =
      before ++ (placeMark ++ after) → (placeAt place number).length ≤ before.length) :
    Locates number.toNat (trim (placeAt place number ++ (placeMark ++ message)))
      (trim message) := by
  obtain ⟨front, -, front_eq⟩ := exists_trimStart place
  obtain ⟨back, -, back_eq⟩ := exists_trimEnd message
  have placeAt_eq : placeAt place number = front ++ placeAt (trimStart place) number := by
    rw [placeAt, placeAt, ← List.append_assoc, ← front_eq]
  rw [trim_placeAt] at unmarked ⊢
  rw [← trim_trimEnd message]
  refine @Locates.placed _ _ (trimStart place) _ _ rfl unmarked ?_
    (digits_clear number (by decide)) (index?_digits number)
  -- What stands first in the trimmed line stands first in the line.
  intro before after occurs
  have whole : placeAt place number ++ (placeMark ++ message) =
      (front ++ before) ++ (placeMark ++ (after ++ back)) := by
    calc placeAt place number ++ (placeMark ++ message)
      _ = front ++ (placeAt (trimStart place) number ++ (placeMark ++ trimEnd message)) ++
          back := by
        rw [placeAt_eq, List.append_assoc, List.append_assoc, List.append_assoc, List.append_assoc,
          ← back_eq]
      _ = front ++ (before ++ (placeMark ++ after)) ++ back := by rw [occurs]
      _ = (front ++ before) ++ (placeMark ++ (after ++ back)) := by simp only [List.append_assoc]
  have bound := first _ _ whole
  rw [placeAt_eq, List.length_append, List.length_append] at bound
  exact Nat.le_of_add_le_add_left bound

namespace CompileError

/-- The log of a compiler's findings is read as the first of them: the line is carried back, and the
message ends at its first line feed. A line with a place is read as it is written, when no line
before it names a position and nothing in it stands before the words for an error that could be
taken for them; what follows it does not matter. -/
theorem ofLog_written (assembly : Assembly) :
    (∀ (first : Finding) (others : List Finding),
      ofLog (Finding.log (first :: others)) assembly =
        ⟨assembly.userLine? first.line.toNat,
          String.ofList (trim (first.message.toList.takeWhile (· ≠ '\n'))),
          Finding.log (first :: others)⟩) ∧
    ∀ (passed : List (List Char)) (place message after : List Char) (number : UInt64),
      (∀ line ∈ passed, '\n' ∉ line ∧ ∀ number message, ¬ Locates number (trim line) message) →
      '\n' ∉ place → '\n' ∉ message →
      ¬ errorMark <+: trim (placeAt place number ++ (placeMark ++ message)) →
      (∀ before behind, placeAt place number ++ (placeMark ++ message) =
        before ++ (placeMark ++ behind) → (placeAt place number).length ≤ before.length) →
      (after = [] ∨ after.head? = some '\n') →
      ∀ log, log = passed.flatMap (· ++ ['\n']) ++
        (placeAt place number ++ (placeMark ++ message) ++ after) →
        ofLog (String.ofList log) assembly =
          ⟨assembly.userLine? number.toNat, String.ofList (trim message), String.ofList log⟩ := by
  constructor
  · intro first others
    obtain ⟨rest, written⟩ := Finding.toList_log first others
    have clear : '\n' ∉ first.head := by
      have mark : '\n' ∉ errorMark := by decide +kernel
      have column := digits_clear first.column (c := '\n') (by decide)
      have line := digits_clear first.line (c := '\n') (by decide)
      have message : '\n' ∉ first.message.toList.takeWhile (· ≠ '\n') := fun member => by
        simpa using List.mem_takeWhile_imp member
      simp only [Finding.head, List.mem_append, List.mem_cons, not_or]
      exact ⟨mark, ⟨by decide, column⟩, by decide, line, by decide, by decide, message⟩
    have located := head?_located clear first.locates_head ('\n' :: rest) (.inr rfl)
    have read := ofLog_located located assembly
    rwa [← written, String.ofList_toList] at read
  · rintro passed place message after number silent single ended unmarked foremost follows _ rfl
    apply ofLog_located
    have clear : '\n' ∉ placeAt place number ++ (placeMark ++ message) := by
      have mark : '\n' ∉ placeMark := by decide +kernel
      have digits := digits_clear number (c := '\n') (by decide)
      simp only [placeAt, List.mem_append, List.mem_cons, not_or]
      exact ⟨⟨single, by decide, digits⟩, mark, ended⟩
    rw [filterMap_passed silent]
    exact head?_located clear (locates_placeAt unmarked foremost) after follows

/-- A message that itself looks like a line of a log, and a place with a colon and half of the words
for an error, behind a line with the mark but without a column. -/
theorem ofLog_written_nested :
    ofLog (Finding.log [⟨7, 42, "bad: \r\nERROR: 0:41: worse"⟩, ⟨0, 0, "worst"⟩]) ⟨"", 40, 2⟩ =
        ⟨some 2, "bad:", Finding.log [⟨7, 42, "bad: \r\nERROR: 0:41: worse"⟩, ⟨0, 0, "worst"⟩]⟩ ∧
      (∀ line ∈ ["ERROR: one:41: error: bad".toList], '\n' ∉ line ∧
        ∀ number message, ¬ Locates number (trim line) message) ∧
      ('\n' ∉ "C:/a: err".toList ∧ '\n' ∉ " b: error: c ".toList) ∧
      ¬ errorMark <+:
        trim (placeAt "C:/a: err".toList 42 ++ (placeMark ++ " b: error: c ".toList)) ∧
      (∀ before behind, placeAt "C:/a: err".toList 42 ++ (placeMark ++ " b: error: c ".toList) =
        before ++ (placeMark ++ behind) →
          (placeAt "C:/a: err".toList 42).length ≤ before.length) ∧
      ofLog (String.ofList
          "ERROR: one:41: error: bad\nC:/a: err:42: error: b: error: c \nERROR: 0:41: d".toList)
          ⟨"", 40, 2⟩ =
        ⟨some 2, "b: error: c", String.ofList
          "ERROR: one:41: error: bad\nC:/a: err:42: error: b: error: c \nERROR: 0:41: d".toList⟩ :=
    by
  have passed : ∀ line ∈ ["ERROR: one:41: error: bad".toList], '\n' ∉ line ∧
      ∀ number message, ¬ Locates number (trim line) message := by
    intro line listed
    obtain rfl := List.mem_singleton.mp listed
    have none : locatedLine? "ERROR: one:41: error: bad".toList = none := by decide +kernel
    refine ⟨by decide +kernel, fun number message locates => ?_⟩
    rw [locatedLine?_eq_some.mpr locates] at none
    cases none
  have clear : '\n' ∉ "C:/a: err".toList ∧ '\n' ∉ " b: error: c ".toList := by decide +kernel
  have unmarked : ¬ errorMark <+:
      trim (placeAt "C:/a: err".toList 42 ++ (placeMark ++ " b: error: c ".toList)) := by
    decide +kernel
  have first := ((cutAtWord?_eq_some (by decide +kernel)).mp (by decide +kernel :
    cutAtWord? placeMark (placeAt "C:/a: err".toList 42 ++ (placeMark ++ " b: error: c ".toList)) =
      some (placeAt "C:/a: err".toList 42, " b: error: c ".toList))).2
  have words : trim ("bad: \r\nERROR: 0:41: worse".toList.takeWhile (· ≠ '\n')) = "bad:".toList ∧
      trim " b: error: c ".toList = "b: error: c".toList := by
    decide +kernel
  have written := (ofLog_written ⟨"", 40, 2⟩).1 ⟨7, 42, "bad: \r\nERROR: 0:41: worse"⟩
    [⟨0, 0, "worst"⟩]
  have read := (ofLog_written ⟨"", 40, 2⟩).2 _ _ _ "\nERROR: 0:41: d".toList 42 passed clear.1
    clear.2 unmarked first (.inr (by decide +kernel))
    "ERROR: one:41: error: bad\nC:/a: err:42: error: b: error: c \nERROR: 0:41: d".toList
    (by decide +kernel)
  rw [words.1, String.ofList_toList] at written
  rw [words.2, String.ofList_toList] at read
  exact ⟨written, passed, clear, unmarked, first, read⟩

end CompileError

end Program

end LiveFragment
