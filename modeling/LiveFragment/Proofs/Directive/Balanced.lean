import LiveFragment.Proofs.Directive.Marks

namespace LiveFragment.Directive

open LiveFragment.Number LiveFragment.Text

/-- The brackets of a text match: nothing is closed that was not opened before, and all that is
opened is closed. -/
structure Balanced (text : List Char) : Prop where
  within : ∀ before, before <+: text → before.count ']' ≤ before.count '['
  totals : text.count '[' = text.count ']'

/-- The brackets of a text match once as many groups are open before it. -/
structure Closes (depth : Nat) (text : List Char) : Prop where
  within : ∀ before, before <+: text → before.count ']' ≤ depth + before.count '['
  totals : text.count ']' = depth + text.count '['

theorem closes_zero_iff {text : List Char} : Closes 0 text ↔ Balanced text := by
  constructor
  · intro closes
    exact ⟨by simpa using closes.within, by simpa using closes.totals.symm⟩
  · intro balanced
    exact ⟨by simpa using balanced.within, by simpa using balanced.totals.symm⟩

theorem closes_nil_iff {depth : Nat} : Closes depth [] ↔ depth = 0 := by
  constructor
  · intro closes
    exact closes.totals.symm
  · rintro rfl
    exact closes_zero_iff.mpr ⟨by simp, rfl⟩

/-- A character changes how many groups are open, and nothing else. -/
theorem closes_cons_iff {depth next : Nat} {c : Char} {text : List Char}
    (moves : ∀ rest : List Char, (c :: rest).count ']' + (next + rest.count '[') =
      rest.count ']' + (depth + (c :: rest).count '[')) :
    Closes depth (c :: text) ↔ Closes next text := by
  constructor
  · intro closes
    refine ⟨fun before front => ?_, ?_⟩
    · have longer := closes.within (c :: before) (List.cons_prefix_cons.mpr ⟨rfl, front⟩)
      have moved := moves before
      omega
    · have totals := closes.totals
      have moved := moves text
      omega
  · intro closes
    refine ⟨fun before front => ?_, ?_⟩
    · rcases List.prefix_cons_iff.mp front with rfl | ⟨rest, rfl, shorter⟩
      · exact Nat.zero_le _
      · have shown := closes.within rest shorter
        have moved := moves rest
        omega
    · have totals := closes.totals
      have moved := moves text
      omega

theorem closes_opening_iff {depth : Nat} {text : List Char} :
    Closes depth ('[' :: text) ↔ Closes (depth + 1) text := by
  apply closes_cons_iff
  intro rest
  rw [List.count_cons_self, List.count_cons_of_ne (by decide)]
  omega

theorem closes_closing_iff {depth : Nat} {text : List Char} :
    Closes (depth + 1) (']' :: text) ↔ Closes depth text := by
  apply closes_cons_iff
  intro rest
  rw [List.count_cons_self, List.count_cons_of_ne (by decide)]
  omega

theorem not_closes_zero_closing {text : List Char} : ¬ Closes 0 (']' :: text) := by
  intro closes
  have first : [']'] <+: ']' :: text := List.cons_prefix_cons.mpr ⟨rfl, List.nil_prefix⟩
  exact absurd (closes.within [']'] first) (by decide)

theorem closes_other_iff {depth : Nat} {c : Char} {text : List Char} (opening : c ≠ '[')
    (closing : c ≠ ']') : Closes depth (c :: text) ↔ Closes depth text := by
  apply closes_cons_iff
  intro rest
  rw [List.count_cons_of_ne opening, List.count_cons_of_ne closing]

theorem closes_run_iff {depth : Nat} {word text : List Char}
    (characters : ∀ c ∈ word, isRunCharacter c = true) :
    Closes depth (word ++ text) ↔ Closes depth text := by
  induction word with
  | nil => rfl
  | cons c word ih =>
    obtain ⟨run, others⟩ := List.forall_mem_cons.mp characters
    obtain ⟨-, opening, closing⟩ := isRunCharacter_iff.mp run
    rw [List.cons_append, closes_other_iff opening closing]
    exact ih others

/-- Marks can be nested if and only if the text that they are cut from closes all open groups. -/
theorem Cut.isSome_nest_iff {pieces : List Mark} {text : List Char} (cut : Cut pieces text)
    (items : List Item) (outer : List (List Item)) :
    (nest pieces items outer).isSome = true ↔ Closes outer.length text := by
  induction cut generalizing items outer with
  | done =>
    rw [closes_nil_iff]
    cases outer <;> simp [nest]
  | separator separates rest ih =>
    rw [closes_other_iff (separator_ne separates (by decide)) (separator_ne separates (by decide))]
    exact ih items outer
  | opening rest ih =>
    rw [nest, closes_opening_iff]
    exact ih [] (items :: outer)
  | closing rest ih =>
    cases outer with
    | nil =>
      constructor
      · intro some
        cases some
      · intro closes
        exact absurd closes not_closes_zero_closing
    | cons above outer =>
      rw [nest, List.length_cons, closes_closing_iff]
      exact ih _ outer
  | run some characters ends rest ih =>
    rw [closes_run_iff characters]
    exact ih _ outer

theorem isSome_items?_iff (text : List Char) : (items? text).isSome = true ↔ Balanced text := by
  rw [items?_eq_nest, (cut_marks text).isSome_nest_iff]
  exact closes_zero_iff

/-- A bracket or a number. -/
inductive Symbol
  | opening
  | closing
  | number (value : Double)

/-- A run stands for the number that it is read as. -/
def Mark.symbol : Mark → Symbol
  | opening => .opening
  | closing => .closing
  | run word => .number (readNumber word)

namespace Item

mutual

/-- An item written out. A group has its brackets around its items. -/
def symbols : Item → List Symbol
  | number value => [.number value]
  | group items => .opening :: (flatten items ++ [.closing])

/-- Items written out one after the other. -/
def flatten : List Item → List Symbol
  | [] => []
  | item :: rest => symbols item ++ flatten rest

end

theorem flatten_append (items others : List Item) :
    flatten (items ++ others) = flatten items ++ flatten others := by
  induction items with
  | nil => rfl
  | cons item items ih => rw [List.cons_append, flatten, flatten, ih, List.append_assoc]

theorem flatten_reverse_cons (item : Item) (items : List Item) :
    flatten (item :: items).reverse = flatten items.reverse ++ symbols item := by
  rw [List.reverse_cons, flatten_append, flatten, flatten, List.append_nil]

/-- The items that are kept while marks are nested, with the brackets of the groups still open. -/
def kept (items : List Item) : List (List Item) → List Symbol
  | [] => flatten items.reverse
  | above :: outer => kept above outer ++ .opening :: flatten items.reverse

theorem kept_cons (item : Item) (items : List Item) (outer : List (List Item)) :
    kept (item :: items) outer = kept items outer ++ symbols item := by
  cases outer with
  | nil => exact flatten_reverse_cons item items
  | cons above outer =>
    rw [kept, flatten_reverse_cons, kept, List.append_assoc, List.cons_append]

/-- No mark is lost: what is kept and what is still to come is the same all along. -/
theorem flatten_nest {pieces : List Mark} {items result : List Item} {outer : List (List Item)}
    (nested : nest pieces items outer = some result) :
    flatten result = kept items outer ++ pieces.map Mark.symbol := by
  fun_induction nest pieces items outer with
  | case1 items =>
    obtain rfl := Option.some.inj nested
    exact (List.append_nil _).symm
  | case2 => cases nested
  | case3 rest items outer ih => exact (ih nested).trans (List.append_assoc _ [Symbol.opening] _)
  | case4 => cases nested
  | case5 rest items above outer ih =>
    rw [ih nested, kept_cons, kept, symbols, List.map_cons, Mark.symbol]
    simp only [List.append_assoc, List.cons_append, List.nil_append]
  | case6 word rest items outer ih =>
    rw [ih nested, kept_cons, List.append_assoc]
    rfl

theorem symbol_eq_opening {mark : Mark} (same : mark.symbol = .opening) : mark = .opening := by
  cases mark with
  | opening => rfl
  | _ => cases same

theorem symbol_eq_closing {mark : Mark} (same : mark.symbol = .closing) : mark = .closing := by
  cases mark with
  | closing => rfl
  | _ => cases same

mutual

/-- Marks that an item is written out as are nested to this item. -/
theorem nests_of_symbols (item : Item) {pieces : List Mark}
    (written : pieces.map Mark.symbol = symbols item) : Nests pieces [item] := by
  cases item with
  | number value =>
    obtain ⟨mark, rfl, same⟩ := List.map_eq_singleton_iff.mp written
    cases mark with
    | run word =>
      obtain rfl := Symbol.number.inj same
      exact Nests.run word
    | _ => cases same
  | group items =>
    obtain ⟨first, others, rfl, opening, around⟩ := List.map_eq_cons_iff.mp written
    obtain ⟨inner, ending, rfl, inside, ends⟩ := List.map_eq_append_iff.mp around
    obtain ⟨last, rfl, closing⟩ := List.map_eq_singleton_iff.mp ends
    obtain rfl := symbol_eq_opening opening
    obtain rfl := symbol_eq_closing closing
    exact (nests_of_flatten items inside).group

theorem nests_of_flatten (items : List Item) {pieces : List Mark}
    (written : pieces.map Mark.symbol = flatten items) : Nests pieces items := by
  cases items with
  | nil =>
    obtain rfl := List.map_eq_nil_iff.mp written
    exact Nests.nil
  | cons item rest =>
    obtain ⟨front, back, rfl, first, others⟩ := List.map_eq_append_iff.mp written
    exact (nests_of_symbols item first).append (nests_of_flatten rest others)

end

end Item

/-- Of all lists of items, a text has the one that is written out as its marks. -/
theorem items?_eq_some_iff {text : List Char} {items : List Item} :
    items? text = some items ↔ Item.flatten items = (marks text).map Mark.symbol := by
  rw [items?_eq_nest]
  constructor
  · intro nested
    exact Item.flatten_nest nested
  · intro written
    exact (Item.nests_of_flatten items written.symm).alone

/-- What is left is the end of the text. A group leaves less than it was given, for the bracket that
closes it is taken; a whole text leaves nothing. -/
structure Leaves (nested : Bool) (text rest : List Char) : Prop where
  ends : rest <:+ text
  left : if nested then rest.length < text.length else rest = []

theorem Leaves.widen {nested : Bool} {part text rest : List Char} (leaves : Leaves nested part rest)
    (later : part <:+ text) : Leaves nested text rest := by
  refine ⟨leaves.ends.trans later, ?_⟩
  have left := leaves.left
  cases nested with
  | false => exact left
  | true => exact Nat.lt_of_lt_of_le left later.length_le

theorem leaves_takeItems {nested : Bool} {before : List Item} {text : List Char}
    {taken : Taken text} (read : takeItems nested before text = some taken) :
    Leaves nested text taken.rest := by
  fun_induction takeItems nested before text with
  | case1 => cases read
  | case2 nested before outside =>
    obtain rfl := Option.some.inj read
    exact ⟨List.suffix_refl [], by rw [if_neg outside]⟩
  | case3 nested before c text _ ih =>
    obtain ⟨later, found, rfl⟩ := Option.map_eq_some_iff.mp read
    exact (ih found).widen (List.suffix_cons c text)
  | case4 => cases read
  | case5 nested before text inner closed _ group behind =>
    obtain ⟨later, found, rfl⟩ := Option.map_eq_some_iff.mp read
    exact (behind found).widen ((group closed).ends.trans (List.suffix_cons _ text))
  | case6 before text =>
    obtain rfl := Option.some.inj read
    exact ⟨List.suffix_cons _ text, Nat.lt_succ_self _⟩
  | case7 => cases read
  | case8 nested before c text _ _ _ ih =>
    obtain ⟨later, found, rfl⟩ := Option.map_eq_some_iff.mp read
    exact (ih found).widen ((List.dropWhile_suffix _).trans (List.suffix_cons c text))

/-- Every text is read to an end, group by group, and each group leaves a shorter end of the text to
the one around it. There are items exactly if the brackets of the text match. They are then the only
ones that are written out as the pieces of the text, its brackets and its longest runs in their
order, with each run for the number that it is read as. -/
theorem items?_mirror (text : List Char) :
    ((items? text).isSome = true ↔ Balanced text) ∧
    (∃ pieces, (∀ other, Cut other text ↔ other = pieces) ∧
      ∀ items, items? text = some items ↔ Item.flatten items = pieces.map Mark.symbol) ∧
    ∀ nested before taken, takeItems nested before text = some taken →
      Leaves nested text taken.rest := by
  refine ⟨isSome_items?_iff text, ⟨marks text, fun other => cut_iff, fun items => ?_⟩, ?_⟩
  · exact items?_eq_some_iff
  · intro nested before taken read
    exact leaves_takeItems read

/-- A group inside a text, and the text around it. -/
theorem items?_mirror_group :
    ∃ taken, takeItems true [] "[.5f x], -2e1] 3 [".toList = some taken ∧
      Leaves true "[.5f x], -2e1] 3 [".toList taken.rest ∧
      (items? "[.5f x], -2e1] 3 [".toList).isSome = false := by
  obtain ⟨matched, -, leaves⟩ := items?_mirror "[.5f x], -2e1] 3 [".toList
  have some : (takeItems true [] "[.5f x], -2e1] 3 [".toList).isSome = true := by decide +kernel
  obtain ⟨taken, read⟩ := Option.isSome_iff_exists.mp some
  refine ⟨taken, read, leaves true [] taken read, ?_⟩
  rw [Bool.eq_false_iff, ne_eq, matched]
  intro balanced
  exact absurd (balanced.within "[.5f x], -2e1]".toList (by decide)) (by decide)

end LiveFragment.Directive
