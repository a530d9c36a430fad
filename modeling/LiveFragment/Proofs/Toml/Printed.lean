import LiveFragment.Proofs.Toml.Quoted
import LiveFragment.Proofs.Toml.Scalar
import LiveFragment.Toml.Reader

namespace LiveFragment.Toml

open LiveFragment.Number LiveFragment.Text

/-- What a value without parts is read as; none for what is not written. -/
def restated : Document → Option Document
  | .boolean value => some (.boolean value)
  | .integer value => some (.integer value)
  | .real (.decimal negative magnitude) => some (.real (.decimal negative magnitude.pointed))
  | .text content => some (.text content)
  | _ => none

/-- A value without parts, its number within the limits that TOML has. -/
def Writable : Document → Prop
  | .integer value => -0x8000000000000000 ≤ value ∧ value < 0x8000000000000000
  | .real (.decimal negative magnitude) =>
    (Literal.decimal negative magnitude.pointed).toDouble.isFinite = true
  | .table _ => False
  | _ => True

/-- The text of a value within its pair. -/
def valueText : Document → String
  | .boolean value => if value then "true" else "false"
  | .integer value => toString value
  | .real (.decimal negative magnitude) =>
    (if negative then "-" else "") ++ Style.file.magnitude magnitude
  | .text content => quoted content
  | _ => ""

variable {document value : Document}

theorem pairText_eq (key : String) (document : Document) :
    pairText key document =
      (restated document).map fun _ => key ++ " = " ++ valueText document ++ "\n" := by
  unfold pairText restated valueText
  split <;> simp [String.append_assoc]

theorem toList_number (negative : Bool) (magnitude : Decimal) :
    ((if negative then "-" else "") ++ Style.file.magnitude magnitude).toList =
      sign negative ++ (Style.file.magnitude magnitude).toList := by
  cases negative <;> simp [sign]

theorem scalar_quoted (content : String) (rest : List Char) :
    scalar ((quoted content).toList ++ '\n' :: rest) = some (.text content, '\n' :: rest) := by
  have read := quoted?_quoted content rest
  obtain ⟨c, more, start, truth, falsehood⟩ : ∃ c more,
      (quoted content).toList = c :: more ∧ c ≠ 't' ∧ c ≠ 'f' := by
    rcases head?_quoted content with double | single
    · obtain ⟨more, start⟩ := List.head?_eq_some_iff.mp double
      exact ⟨'"', more, start, by decide, by decide⟩
    · obtain ⟨more, start⟩ := List.head?_eq_some_iff.mp single
      exact ⟨'\'', more, start, by decide, by decide⟩
  rw [start, List.cons_append] at read ⊢
  unfold scalar
  split <;> rename_i same
  · exact absurd (List.cons.inj same).1 truth
  · exact absurd (List.cons.inj same).1 falsehood
  · rw [read]
    dsimp only
    rw [String.ofList_toList]

theorem scalar_valueText (writable : Writable document) (written : restated document = some value)
    (rest : List Char) :
    scalar ((valueText document).toList ++ '\n' :: rest) = some (value, '\n' :: rest) := by
  unfold restated at written
  split at written <;> cases written
  · exact scalar_boolean _ rest
  · exact scalar_integer writable.1 writable.2 rest
  · rename_i negative magnitude
    obtain ⟨whole, fraction, pointed, same⟩ := Style.magnitude_file magnitude
    have read := scalar_pointed pointed negative (same ▸ writable) rest
    rw [valueText, toList_number, List.append_assoc, read, same]
  · exact scalar_quoted _ rest

/-- A value without parts starts neither as a list or table does nor with white space. -/
def startsValue (c : Char) : Bool := c ≠ '[' && c ≠ '\x7b' && !isSpace c

theorem startsValue_number {digits : List Char} (numeral : Numeral digits) (negative : Bool)
    (behind : List Char) : ∃ c ∈ (sign negative ++ (digits ++ behind)).head?, startsValue c = true := by
  obtain ⟨d, more, rfl⟩ := List.exists_cons_of_ne_nil numeral.nonempty
  have digit : isDigit d = true := numeral.all d (by simp)
  cases negative with
  | true => exact ⟨'-', rfl, rfl⟩
  | false =>
    have bracket : d ≠ '[' := isDigit_ne digit rfl
    have brace : d ≠ '\x7b' := isDigit_ne digit rfl
    have space : d ≠ ' ' := isDigit_ne digit rfl
    have tab : d ≠ '\t' := isDigit_ne digit rfl
    exact ⟨d, rfl, by simp [startsValue, isSpace, bracket, brace, space, tab]⟩

theorem startsValue_valueText (written : restated document = some value) :
    ∃ c ∈ (valueText document).toList.head?, startsValue c = true := by
  unfold restated at written
  split at written <;> cases written
  · rename_i value
    cases value
    · exact ⟨'f', rfl, rfl⟩
    · exact ⟨'t', rfl, rfl⟩
  · rename_i value
    have start := startsValue_number (numeral_toDigits value.natAbs) (decide (value < 0)) []
    rw [List.append_nil, ← toList_toString_int] at start
    exact start
  · rename_i negative magnitude
    obtain ⟨whole, fraction, pointed, -⟩ := Style.magnitude_file magnitude
    rw [valueText, toList_number, pointed.eq]
    exact startsValue_number pointed.whole negative _
  · rename_i content
    rcases head?_quoted content with double | single
    · exact ⟨'"', double, rfl⟩
    · exact ⟨'\'', single, rfl⟩

theorem value?_valueText (writable : Writable document) (written : restated document = some value)
    (levels : Nat) (rest : List Char) :
    value? levels (skipSpace (' ' :: ((valueText document).toList ++ '\n' :: rest))) =
      some (value, '\n' :: rest) := by
  have read := scalar_valueText writable written rest
  obtain ⟨c, head, starts⟩ := startsValue_valueText written
  obtain ⟨more, start⟩ := List.head?_eq_some_iff.mp head
  simp only [startsValue, Bool.and_eq_true, decide_eq_true_eq, Bool.not_eq_true'] at starts
  obtain ⟨⟨bracket, brace⟩, space⟩ := starts
  rw [start, List.cons_append] at read ⊢
  have skipped : skipSpace (' ' :: c :: (more ++ '\n' :: rest)) = c :: (more ++ '\n' :: rest) := by
    rw [skipSpace, List.dropWhile_cons_of_pos rfl, List.dropWhile_cons_of_neg (by simp [space])]
  rw [skipped]
  unfold value?
  split <;> rename_i same
  · exact absurd (List.cons.inj same).1 bracket
  · exact absurd (List.cons.inj same).1 brace
  · exact read

/-- A key that stands without quotes. -/
structure BareKey (key : String) : Prop where
  nonempty : key.toList ≠ []
  all : ∀ c ∈ key.toList, isBareKey c = true

instance (key : String) : Decidable (BareKey key) :=
  decidable_of_iff ((key.toList ≠ []) ∧ key.toList.all isBareKey = true)
    ⟨fun ⟨nonempty, all⟩ => ⟨nonempty, List.all_eq_true.mp all⟩,
      fun bare => ⟨bare.nonempty, List.all_eq_true.mpr bare.all⟩⟩

theorem isBareKey_ne {c other : Char} (bare : isBareKey c = true)
    (distinct : isBareKey other = false) : c ≠ other := by
  rintro rfl
  rw [bare] at distinct
  cases distinct

theorem isSpace_of_isBareKey {c : Char} (bare : isBareKey c = true) : isSpace c = false := by
  have space : c ≠ ' ' := isBareKey_ne bare rfl
  have tab : c ≠ '\t' := isBareKey_ne bare rfl
  simp [isSpace, space, tab]

/-- A key without quotes is read up to a character that is of no such key. -/
theorem key?_bare {key : String} (bare : BareKey key) {c : Char} (stops : isBareKey c = false)
    {rest : List Char} (point : (skipSpace (c :: rest)).head? ≠ some '.') (parts : Nat) :
    key? (parts + 1) (key.toList ++ c :: rest) = some ([], key, skipSpace (c :: rest)) := by
  obtain ⟨d, more, start⟩ := List.exists_cons_of_ne_nil bare.nonempty
  have first : isBareKey d = true := bare.all d (by simp [start])
  have space := isSpace_of_isBareKey first
  have skipped : skipSpace (key.toList ++ c :: rest) = key.toList ++ c :: rest := by
    rw [start]
    exact List.dropWhile_cons_of_neg (by simp [space])
  have taken : (key.toList ++ c :: rest).takeWhile isBareKey = key.toList := by
    rw [List.takeWhile_append_of_pos bare.all, List.takeWhile_cons_of_neg (by simp [stops]),
      List.append_nil]
  have left : (key.toList ++ c :: rest).dropWhile isBareKey = c :: rest := by
    rw [List.dropWhile_append_of_pos bare.all, List.dropWhile_cons_of_neg (by simp [stops])]
  have part : keyPart? (key.toList ++ c :: rest) = some (key, c :: rest) := by
    unfold keyPart?
    split <;> rename_i same
    · rw [start] at same
      exact absurd (List.cons.inj same).1 (isBareKey_ne first rfl)
    · rw [start] at same
      exact absurd (List.cons.inj same).1 (isBareKey_ne first rfl)
    · dsimp only
      rw [taken, left, if_neg bare.nonempty, String.ofList_toList]
  rw [key?, skipped, part]
  simp only [Option.bind_eq_bind, Option.bind_some]
  split
  · rename_i same
    rw [same] at point
    exact absurd rfl point
  · rfl

/-- The text of a pair. -/
def pairLine (key : String) (document : Document) : List Char :=
  (key ++ " = " ++ valueText document ++ "\n").toList

theorem pair?_pairLine {key : String} (bare : BareKey key) (writable : Writable document)
    (written : restated document = some value) (levels : Nat) (rest : List Char) :
    pair? (value? levels) (pairLine key document ++ rest) = some ([], key, value, '\n' :: rest) := by
  have line : pairLine key document ++ rest =
      key.toList ++ ' ' :: ('=' :: ' ' :: ((valueText document).toList ++ '\n' :: rest)) := by
    simp [pairLine]
  have equals : skipSpace (' ' :: '=' :: ' ' :: ((valueText document).toList ++ '\n' :: rest)) =
      '=' :: ' ' :: ((valueText document).toList ++ '\n' :: rest) := rfl
  rw [pair?, line, maxParts, key?_bare bare rfl (by rw [equals]; simp), equals]
  simp only [Option.bind_eq_bind, Option.bind_some, expect?, if_true,
    value?_valueText writable written]

theorem endOfLine?_feed (rest : List Char) : endOfLine? ('\n' :: rest) = some rest := rfl

theorem skipBlanks_start {c : Char} (space : isSpace c = false) (comment : c ≠ '#')
    (feed : c ≠ '\n') (carriage : c ≠ '\r') (bound : Nat) (rest : List Char) :
    skipBlanks bound (c :: rest) = c :: rest := by
  cases bound with
  | zero => rfl
  | succ bound =>
    have skipped : skipSpace (c :: rest) = c :: rest :=
      List.dropWhile_cons_of_neg (by simp [space])
    have line : newline? (c :: rest) = none := by
      unfold newline?
      split <;> rename_i same
      · exact absurd (List.cons.inj same).1 feed
      · exact absurd (List.cons.inj same).1 carriage
      · rfl
    rw [skipBlanks, skipped]
    split
    · rename_i same
      exact absurd (List.cons.inj same).1 comment
    · rw [line]

/-- One pair takes one line, and puts its value into the table that is open. -/
theorem lines?_pairLine {key : String} (bare : BareKey key) (writable : Writable document)
    (written : restated document = some value) (bound : Nat) (here : List String) (root : Entries)
    (rest : List Char) :
    lines? (bound + 1) here root (pairLine key document ++ rest) =
      (root.change .implied (fun standing entries => entries.put [] key value standing)
        here .stated).bind fun root => lines? bound here root rest := by
  have read := pair?_pairLine bare writable written maxLevels rest
  obtain ⟨c, more, start⟩ := List.exists_cons_of_ne_nil bare.nonempty
  have first : isBareKey c = true := bare.all c (by simp [start])
  obtain ⟨after, line⟩ : ∃ after, pairLine key document ++ rest = c :: after :=
    ⟨more ++ (" = " ++ valueText document ++ "\n").toList ++ rest, by simp [pairLine, start]⟩
  have space := isSpace_of_isBareKey first
  rw [line] at read ⊢
  rw [lines?, skipBlanks_start space (isBareKey_ne first rfl) (isBareKey_ne first rfl)
    (isBareKey_ne first rfl)]
  split <;> rename_i same
  · cases same
  · exact absurd (List.cons.inj same).1 (isBareKey_ne first rfl)
  · exact absurd (List.cons.inj same).1 (isBareKey_ne first rfl)
  · rw [read]
    simp only [Option.bind_eq_bind, Option.bind_some, endOfLine?_feed]

/-- A header of a key without quotes opens the table of that name. -/
theorem header?_bare {key : String} (bare : BareKey key) (root : Entries) (rest : List Char) :
    header? root (key.toList ++ ']' :: rest) =
      (root.openTable [] key).map fun root => (root, [key], rest) := by
  have bracket : skipSpace (']' :: rest) = ']' :: rest := by simp [skipSpace, isSpace]
  have name : key? maxParts (key.toList ++ ']' :: rest) = some ([], key, ']' :: rest) := by
    rw [maxParts, key?_bare bare rfl (by simp [bracket]), bracket]
  obtain ⟨c, more, start⟩ := List.exists_cons_of_ne_nil bare.nonempty
  have first : isBareKey c = true := bare.all c (by simp [start])
  unfold header?
  split
  · rename_i same
    rw [start] at same
    exact absurd (List.cons.inj same).1 (isBareKey_ne first rfl)
  · rw [name]
    simp only [Option.bind_eq_bind, Option.bind_some, expect?, if_true, List.nil_append]
    cases root.openTable [] key <;> rfl

/-- The text of a header, behind an empty line. -/
def headerLine (key : String) : List Char := ("\n[" ++ key ++ "]\n").toList

theorem lines?_headerLine {key : String} (bare : BareKey key) (bound : Nat) (here : List String)
    (root : Entries) (rest : List Char) :
    lines? (bound + 1) here root (headerLine key ++ rest) =
      (root.openTable [] key).bind fun root => lines? bound [key] root rest := by
  have line : headerLine key ++ rest = '\n' :: '[' :: (key.toList ++ ']' :: '\n' :: rest) := by
    simp [headerLine]
  have skipped : skipBlanks ('\n' :: '[' :: (key.toList ++ ']' :: '\n' :: rest)).length
      ('\n' :: '[' :: (key.toList ++ ']' :: '\n' :: rest)) =
      '[' :: (key.toList ++ ']' :: '\n' :: rest) :=
    skipBlanks_start (c := '[') rfl (by decide) (by decide) (by decide) _ _
  rw [line, lines?, skipped]
  split <;> rename_i same
  · cases same
  · cases same
  · rw [← (List.cons.inj same).2, header?_bare bare]
    cases root.openTable [] key with
    | none => rfl
    | some root =>
      simp only [Option.map_some, Option.bind_eq_bind, Option.bind_some, endOfLine?_feed]
  · exact (same _ rfl).elim

/-- The pairs that fields are written as, as they are read. -/
def restatedFields (fields : List (String × Document)) : List (String × Document) :=
  fields.filterMap fun (key, document) => (restated document).map (key, ·)

theorem pairsText_cons (key : String) (document : Document) (fields : List (String × Document)) :
    (pairsText ((key, document) :: fields)).toList =
      ((restated document).map fun _ => pairLine key document).getD [] ++
        (pairsText fields).toList := by
  cases written : restated document <;>
    simp [pairsText, pairText_eq, written, pairLine, String.toList_join]

theorem restatedFields_cons (key : String) (document : Document)
    (fields : List (String × Document)) :
    restatedFields ((key, document) :: fields) =
      ((restated document).map (key, ·)).toList ++ restatedFields fields := by
  cases written : restated document <;> simp [restatedFields, written]

theorem tablesText_cons (key : String) (fields : List (String × Document))
    (rest : List (String × Document)) :
    (tablesText ((key, .table fields) :: rest)).toList =
      headerLine key ++ ((pairsText fields).toList ++ (tablesText rest).toList) := by
  simp [tablesText, headerLine, String.toList_join]

/-- Values under their keys, in a table that is being filled. -/
def leaves (fields : List (String × Document)) : Entries :=
  fields.map fun (key, document) => (key, .leaf document)

/-- Fields that can be written as the pairs of one table. -/
structure Printable (fields : List (String × Document)) : Prop where
  bare : ∀ field ∈ fields, BareKey field.1
  writable : ∀ field ∈ fields, Writable field.2
  distinct : (fields.map (·.1)).Nodup

theorem Printable.of_keys {fields : List (String × Document)} (keys : List String)
    (named : fields.map (·.1) = keys) (bare : ∀ key ∈ keys, BareKey key) (distinct : keys.Nodup)
    (writable : ∀ document ∈ fields.map (·.2), Writable document) : Printable fields where
  bare _ member := bare _ (named ▸ List.mem_map_of_mem member)
  writable _ member := writable _ (List.mem_map_of_mem member)
  distinct := named ▸ distinct

/-- The table that pairs go into: filling it fills it in its place. -/
def Opens (here : List String) (place : Entries → Entries) : Prop :=
  ∀ (apply : Standing → Entries → Option Entries) (inner : Entries),
    (place inner).change .implied apply here .stated = (apply .stated inner).map place

theorem opens_root : Opens [] id := by
  intro apply inner
  cases found : apply .stated inner <;> simp [Entries.change, found]

theorem find?_eq_none {entries : Entries} {key : String} (fresh : key ∉ entries.map (·.1)) :
    entries.find? key = none := by
  rw [Entries.find?, List.lookup_eq_none_iff]
  intro entry member
  rw [bne_iff_ne]
  rintro rfl
  exact fresh (List.mem_map_of_mem member)

theorem find?_last {done : Entries} {key : String} (fresh : key ∉ done.map (·.1)) (node : Node) :
    Entries.find? (done ++ [(key, node)]) key = some node := by
  have before := find?_eq_none fresh
  rw [Entries.find?] at before ⊢
  rw [List.lookup_append, before]
  simp

theorem replace_last {done : Entries} {key : String} (fresh : key ∉ done.map (·.1))
    (node other : Node) :
    Entries.replace (done ++ [(key, node)]) key other = done ++ [(key, other)] := by
  have before : (done.map fun entry => if entry.1 = key then (key, other) else entry) = done := by
    rw [List.map_congr_left (g := id), List.map_id]
    intro entry member
    rw [if_neg]
    · rfl
    · rintro rfl
      exact fresh (List.mem_map_of_mem member)
  rw [Entries.replace, List.map_append, before]
  simp

/-- After its header a table is filled behind the tables before it. -/
theorem opens_last {done : Entries} {key : String} (fresh : key ∉ done.map (·.1)) :
    Opens [key] fun inner => done ++ [(key, .table .stated inner)] := by
  intro apply inner
  rw [Entries.change, find?_last fresh]
  dsimp only
  rw [if_neg (by simp), Entries.change]
  cases apply .stated inner with
  | none => rfl
  | some filled => simp [replace_last fresh]

theorem put_fresh {inner : Entries} {key : String} (fresh : key ∉ inner.map (·.1))
    (value : Document) :
    Entries.put [] key value .stated inner = some (inner ++ [(key, .leaf value)]) := by
  simp [Entries.put, Entries.change, find?_eq_none fresh]

/-- The lines of pairs fill the open table with what they are read as. -/
theorem lines?_pairs {here : List String} {place : Entries → Entries} (opens : Opens here place)
    {fields : List (String × Document)} (printable : Printable fields) (inner : Entries)
    (fresh : ∀ field ∈ fields, field.1 ∉ inner.map (·.1)) (bound : Nat) (rest : List Char) :
    lines? (bound + (restatedFields fields).length) here (place inner)
        ((pairsText fields).toList ++ rest) =
      lines? bound here (place (inner ++ leaves (restatedFields fields))) rest := by
  induction fields generalizing inner with
  | nil => simp [restatedFields, pairsText, leaves]
  | cons field fields ih =>
    obtain ⟨key, document⟩ := field
    obtain ⟨bare, bares⟩ := List.forall_mem_cons.mp printable.bare
    obtain ⟨writable, writables⟩ := List.forall_mem_cons.mp printable.writable
    obtain ⟨apart, distinct⟩ := List.nodup_cons.mp printable.distinct
    obtain ⟨first, later⟩ := List.forall_mem_cons.mp fresh
    have printable : Printable fields := ⟨bares, writables, distinct⟩
    rw [pairsText_cons, restatedFields_cons]
    cases written : restated document with
    | none => exact ih printable inner later
    | some value =>
      have next : ∀ field ∈ fields, field.1 ∉ (inner ++ [(key, Node.leaf value)]).map (·.1) := by
        intro field member
        rw [List.map_append, List.mem_append, not_or]
        refine ⟨later field member, ?_⟩
        rw [List.map_singleton, List.mem_singleton]
        rintro rfl
        exact apart (List.mem_map.mpr ⟨field, member, rfl⟩)
      rw [Option.map_some, Option.map_some, Option.getD_some, Option.toList_some,
        List.singleton_append, List.length_cons, ← Nat.add_assoc, List.append_assoc,
        lines?_pairLine bare writable written, opens, put_fresh first, Option.map_some,
        Option.bind_some, ih printable _ next, List.append_assoc]
      rfl

/-- The lines of tables, each behind its header, open and fill one table after the other. -/
theorem lines?_tables {tables : List (String × List (String × Document))}
    (bare : ∀ table ∈ tables, BareKey table.1) (printable : ∀ table ∈ tables, Printable table.2)
    (distinct : (tables.map (·.1)).Nodup) (here : List String) (root : Entries)
    (fresh : ∀ table ∈ tables, table.1 ∉ root.map (·.1)) (bound : Nat) :
    lines? (bound + (tables.map fun table => (restatedFields table.2).length + 1).sum) here root
        (tablesText (tables.map fun table => (table.1, .table table.2))).toList =
      some (root ++ tables.map fun table =>
        (table.1, .table .stated (leaves (restatedFields table.2)))) := by
  induction tables generalizing here root with
  | nil =>
    have done : lines? bound here root [] = some root := by
      cases bound <;> rfl
    simpa [tablesText] using done
  | cons table tables ih =>
    obtain ⟨key, fields⟩ := table
    obtain ⟨named, bare⟩ := List.forall_mem_cons.mp bare
    obtain ⟨first, printable⟩ := List.forall_mem_cons.mp printable
    obtain ⟨apart, distinct⟩ := List.nodup_cons.mp distinct
    obtain ⟨new, fresh⟩ := List.forall_mem_cons.mp fresh
    have opened : root.openTable [] key = some (root ++ [(key, .table .stated [])]) := by
      simp [Entries.openTable, Entries.change, find?_eq_none new]
    have next : ∀ table ∈ tables, table.1 ∉ (root ++
        [(key, Node.table .stated (leaves (restatedFields fields)))]).map (·.1) := by
      intro table member
      rw [List.map_append, List.mem_append, not_or]
      refine ⟨fresh table member, ?_⟩
      rw [List.map_singleton, List.mem_singleton]
      rintro rfl
      exact apart (List.mem_map.mpr ⟨table, member, rfl⟩)
    have filled := lines?_pairs (opens_last new) first [] (by simp)
      (bound + (tables.map fun table => (restatedFields table.2).length + 1).sum)
      (tablesText (tables.map fun table => (table.1, .table table.2))).toList
    rw [List.nil_append] at filled
    have steps : bound + (((key, fields) :: tables).map fun table =>
        (restatedFields table.2).length + 1).sum =
        bound + (tables.map fun table => (restatedFields table.2).length + 1).sum +
          (restatedFields fields).length + 1 := by
      rw [List.map_cons, List.sum_cons]
      dsimp only
      omega
    rw [steps, List.map_cons, tablesText_cons, lines?_headerLine named, opened, Option.bind_some, filled,
      ih bare printable distinct _ _ next, List.append_assoc]
    rfl

theorem length_restatedFields_le (fields : List (String × Document)) :
    (restatedFields fields).length ≤ (pairsText fields).toList.length := by
  induction fields with
  | nil => simp [restatedFields]
  | cons field fields ih =>
    obtain ⟨key, document⟩ := field
    rw [pairsText_cons, restatedFields_cons, List.length_append, List.length_append]
    cases restated document with
    | none => simpa using ih
    | some value =>
      have line : 0 < (pairLine key document).length := by simp [pairLine]
      simp only [Option.map_some, Option.toList_some, List.length_singleton, Option.getD_some]
      omega

theorem lines_le_length (tables : List (String × List (String × Document))) :
    (tables.map fun table => (restatedFields table.2).length + 1).sum ≤
      (tablesText (tables.map fun table => (table.1, .table table.2))).toList.length := by
  induction tables with
  | nil => simp
  | cons table tables ih =>
    obtain ⟨key, fields⟩ := table
    have pairs := length_restatedFields_le fields
    have line : 0 < (headerLine key).length := by simp [headerLine]
    rw [List.map_cons, List.map_cons, tablesText_cons, List.sum_cons, List.length_append,
      List.length_append]
    dsimp only
    omega

theorem head?_print {pairs : List (String × Document)} (bare : ∀ field ∈ pairs, BareKey field.1)
    (tables : List (String × List (String × Document))) :
    ∀ c ∈ ((pairsText pairs).toList ++
      (tablesText (tables.map fun table => (table.1, .table table.2))).toList).head?,
        isBareKey c = true ∨ c = '\n' := by
  induction pairs with
  | nil =>
    cases tables with
    | nil => simp [pairsText, tablesText]
    | cons table tables =>
      rw [List.map_cons, tablesText_cons]
      simp [pairsText, headerLine]
  | cons field pairs ih =>
    obtain ⟨key, document⟩ := field
    obtain ⟨first, later⟩ := List.forall_mem_cons.mp bare
    rw [pairsText_cons]
    cases restated document with
    | none => exact ih later
    | some value =>
      obtain ⟨d, more, start⟩ := List.exists_cons_of_ne_nil first.nonempty
      have member : isBareKey d = true := first.all d (by simp [start])
      simp [pairLine, start, member]

theorem toFields_append (front back : Entries) :
    Entries.toFields (front ++ back) = Entries.toFields front ++ Entries.toFields back := by
  induction front with
  | nil => rfl
  | cons entry front ih =>
    rw [List.cons_append, Entries.toFields, Entries.toFields, ih, List.cons_append]

theorem toFields_leaves (fields : List (String × Document)) :
    Entries.toFields (leaves fields) = fields := by
  induction fields with
  | nil => rfl
  | cons field fields ih =>
    rw [leaves] at ih
    rw [leaves, List.map_cons, Entries.toFields, ih, Node.toDocument]

theorem toFields_tables (tables : List (String × List (String × Document))) :
    Entries.toFields (tables.map fun table =>
      (table.1, .table .stated (leaves (restatedFields table.2)))) =
      tables.map fun table => (table.1, .table (restatedFields table.2)) := by
  induction tables with
  | nil => rfl
  | cons table tables ih =>
    rw [List.map_cons, Entries.toFields, ih, Node.toDocument, toFields_leaves, List.map_cons]

theorem toList_print {pairs : List (String × Document)} (writable : ∀ field ∈ pairs, Writable field.2)
    (tables : List (String × List (String × Document))) :
    (print (pairs ++ tables.map fun table => (table.1, .table table.2))).toList =
      (pairsText pairs).toList ++
        (tablesText (tables.map fun table => (table.1, .table table.2))).toList := by
  have none : (tables.map fun table => (table.1, Document.table table.2)).filterMap
      (fun (key, document) => pairText key document) = [] := by
    simp [pairText]
  have plain : tablesText pairs = "" := by
    induction pairs with
    | nil => rfl
    | cons field pairs ih =>
      obtain ⟨first, later⟩ := List.forall_mem_cons.mp writable
      obtain ⟨key, document⟩ := field
      rw [tablesText] at ih ⊢
      rw [List.map_cons, String.join_cons, ih later]
      cases document with
      | table => exact first.elim
      | _ => rfl
  have split : tablesText (pairs ++ tables.map fun table => (table.1, .table table.2)) =
      tablesText pairs ++ tablesText (tables.map fun table => (table.1, .table table.2)) := by
    simp only [tablesText, List.map_append, String.join_append]
  rw [print, pairsText, List.filterMap_append, none, List.append_nil, ← pairsText,
    String.toList_append, split, plain]
  simp

theorem read?_unmarked {text : String} (unmarked : ∀ rest, text.toList ≠ '\ufeff' :: rest) :
    read? text = (lines? text.toList.length [] [] text.toList).map fun root =>
      .table (Entries.toFields root) := by
  unfold read?
  split
  · rename_i marked
    exact absurd marked (unmarked _)
  · rfl

theorem mem_keys_of_leaves {fields : List (String × Document)} {key : String}
    (member : key ∈ (leaves (restatedFields fields)).map (·.1)) : key ∈ fields.map (·.1) := by
  simp only [leaves, restatedFields, List.map_map, List.mem_map, List.mem_filterMap,
    Option.map_eq_some_iff] at member
  obtain ⟨_, ⟨field, given, _, _, rfl⟩, rfl⟩ := member
  exact List.mem_map.mpr ⟨field, given, rfl⟩

/-- A printed document of pairs and tables of pairs is read as its values are. -/
theorem read?_print {pairs : List (String × Document)}
    {tables : List (String × List (String × Document))} (printable : Printable pairs)
    (bare : ∀ table ∈ tables, BareKey table.1) (printables : ∀ table ∈ tables, Printable table.2)
    (distinct : (tables.map (·.1)).Nodup)
    (apart : ∀ table ∈ tables, table.1 ∉ pairs.map (·.1)) :
    read? (print (pairs ++ tables.map fun table => (table.1, .table table.2))) =
      some (.table (restatedFields pairs ++
        tables.map fun table => (table.1, .table (restatedFields table.2)))) := by
  have steps := length_restatedFields_le pairs
  have more := lines_le_length tables
  have head := head?_print printable.bare tables
  have text := toList_print printable.writable tables
  generalize print _ = whole at text
  have marked : ∀ rest, whole.toList ≠ '\ufeff' :: rest := by
    intro rest same
    rw [← text, same] at head
    rcases head '\ufeff' rfl with bare | feed
    · cases bare
    · exact absurd feed (by decide)
  obtain ⟨bound, length⟩ : ∃ bound, whole.toList.length = bound +
      (tables.map fun table => (restatedFields table.2).length + 1).sum +
        (restatedFields pairs).length := by
    rw [text, List.length_append]
    exact ⟨_, by rw [Nat.add_assoc]; exact (Nat.sub_add_cancel (by omega)).symm⟩
  have root := lines?_pairs opens_root printable [] (by simp)
    (bound + (tables.map fun table => (restatedFields table.2).length + 1).sum)
    (tablesText (tables.map fun table => (table.1, .table table.2))).toList
  have fresh : ∀ table ∈ tables, table.1 ∉ (leaves (restatedFields pairs)).map (·.1) :=
    fun table member taken => apart table member (mem_keys_of_leaves taken)
  rw [read?_unmarked marked, length, text]
  rw [id_eq, id_eq, List.nil_append] at root
  rw [root, lines?_tables bare printables distinct _ _ fresh, Option.map_some, toFields_append,
    toFields_leaves, toFields_tables]

end LiveFragment.Toml
