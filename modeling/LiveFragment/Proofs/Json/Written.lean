import LiveFragment.Json.Reader
import LiveFragment.Proofs.Json.Numbers

namespace LiveFragment.Json

open LiveFragment.Number LiveFragment.Text

theorem hexNumber?_control : ∀ n < 0x20,
    hexNumber? ['0', '0', hexDigit (n / 16), hexDigit (n % 16)] = some n := by
  decide +kernel

/-- A character is quoted by a letter that stands for it, by its number, or as itself. -/
theorem quote_cases (c : Char) :
    (∃ letter, quote c = ['\\', letter] ∧ escaped? letter = some c) ∨
      (c.toNat < 0x20 ∧ quote c =
        ['\\', 'u', '0', '0', hexDigit (c.toNat / 16), hexDigit (c.toNat % 16)]) ∨
      (quote c = [c] ∧ c ≠ '"' ∧ c ≠ '\\' ∧ 0x20 ≤ c.toNat) := by
  by_cases named : c ∈ ['"', '\\', '\x08', '\x0c', '\n', '\r', '\t']
  · refine .inl ?_
    simp only [List.mem_cons, List.not_mem_nil, or_false] at named
    rcases named with rfl | rfl | rfl | rfl | rfl | rfl | rfl
    all_goals exact ⟨_, rfl, rfl⟩
  · simp only [List.mem_cons, List.not_mem_nil, or_false, not_or] at named
    obtain ⟨mark, slash, backspace, formFeed, lineFeed, carriage, tab⟩ := named
    simp only [quote, mark, slash, backspace, formFeed, lineFeed, carriage, tab, if_false]
    by_cases control : c.toNat < 0x20
    · exact .inr (.inl ⟨control, if_pos control⟩)
    · exact .inr (.inr ⟨if_neg control, mark, slash, Nat.not_lt.mp control⟩)

theorem quoted?_escaped {letter c : Char} (stands : escaped? letter = some c) (rest : List Char) :
    quoted? ('\\' :: letter :: rest) =
      (quoted? rest).map fun (content, after) => (c :: content, after) := by
  have plain : letter ≠ 'u' := by
    rintro rfl
    cases stands
  conv_lhs => unfold quoted?
  split <;> rename_i same
  · cases same
  · exact absurd (List.cons.inj (List.cons.inj same).2).1 plain
  · obtain ⟨rfl, rfl⟩ := List.cons.inj (List.cons.inj same).2
    rw [stands]
    cases quoted? rest <;> rfl
  · rename_i other
    exact (other letter rest (List.cons.inj same).1.symm (List.cons.inj same).2.symm).elim
  · cases same

/-- A character reads back from the way it is quoted. -/
theorem quoted?_quote (c : Char) (rest : List Char) :
    quoted? (quote c ++ rest) =
      (quoted? rest).map fun (content, after) => (c :: content, after) := by
  rcases quote_cases c with ⟨letter, same, stands⟩ | ⟨control, same⟩ | ⟨same, mark, slash, plain⟩
  · rw [same]
    exact quoted?_escaped stands rest
  · have unit : unitCharacter? c.toNat = some c := by
      rw [unitCharacter?, if_neg (by omega), Char.ofNat_toNat]
    rw [same]
    simp only [List.cons_append, List.nil_append, quoted?]
    rw [hexNumber?_control _ control]
    simp only [Option.bind_eq_bind, Option.bind_some, unit]
    cases quoted? rest <;> rfl
  · rw [same, List.singleton_append]
    conv_lhs => unfold quoted?
    split <;> rename_i start
    · exact absurd (List.cons.inj start).1 mark
    · exact absurd (List.cons.inj start).1 slash
    · exact absurd (List.cons.inj start).1 slash
    · obtain ⟨rfl, rfl⟩ := List.cons.inj start
      rw [if_neg (by simp [slash, plain])]
      cases quoted? rest <;> rfl
    · cases start

theorem quoted?_flatMap (text rest : List Char) :
    quoted? (text.flatMap quote ++ '"' :: rest) = some (text, rest) := by
  induction text with
  | nil => rfl
  | cons c text ih =>
    rw [List.flatMap_cons, List.append_assoc, quoted?_quote, ih]
    rfl

/-- What a leaf is read as. -/
def restatedLeaf : Document → Document
  | .boolean value => .boolean value
  | .integer value => restatedInteger value
  | .real (.decimal negative magnitude) => .real (.decimal negative magnitude.reported)
  | .text content => .text content
  | _ => .null

theorem toList_quoted (content : String) (behind : List Char) :
    (quoted content).toList ++ behind = '"' :: (content.toList.flatMap quote ++ '"' :: behind) := by
  simp [quoted]

theorem leaf?_number {c : Char} {rest : List Char} (starts : c = '-' ∨ isDigit c = true) :
    leaf? (c :: rest) = number? (c :: rest) := by
  have other {d : Char} (dash : d ≠ '-') (distinct : isDigit d = false) : c ≠ d := by
    rintro rfl
    rcases starts with same | digit
    · exact dash same
    · rw [digit] at distinct
      cases distinct
  unfold leaf?
  split <;> rename_i same
  · exact absurd (List.cons.inj same).1 (other (by decide) rfl)
  · exact absurd (List.cons.inj same).1 (other (by decide) rfl)
  · exact absurd (List.cons.inj same).1 (other (by decide) rfl)
  · exact absurd (List.cons.inj same).1 (other (by decide) rfl)
  · rfl

theorem leaf?_sign {digits text : List Char} (numeral : Numeral digits) (negative : Bool) :
    leaf? (sign negative ++ (digits ++ text)) = number? (sign negative ++ (digits ++ text)) := by
  cases negative with
  | true => exact leaf?_number (.inl rfl)
  | false =>
    obtain ⟨d, more, rfl⟩ := List.exists_cons_of_ne_nil numeral.nonempty
    exact leaf?_number (.inr (numeral.all d List.mem_cons_self))

theorem Reported.numeral {text : List Char} {decimal : Decimal} (reported : Reported text decimal) :
    ∃ digits behind, Numeral digits ∧ text = digits ++ behind := by
  cases reported with
  | @pointed text whole fraction pointed => exact ⟨whole, _, pointed.whole, pointed.eq⟩
  | @scientific d more first all exponent =>
    exact ⟨[d], _, ⟨List.cons_ne_nil _ _, List.forall_mem_singleton.mpr first,
      fun zero => by simpa using zero⟩, rfl⟩

theorem leaf?_leafText (document : Document) {behind : List Char} (ends : EndsNumber behind) :
    leaf? ((leafText document).toList ++ behind) = some (restatedLeaf document, behind) := by
  have null : leaf? ("null".toList ++ behind) = some (.null, behind) := rfl
  cases document with
  | null | garbled | moment | unreadable | list items | table fields =>
    simpa only [leafText, restatedLeaf] using null
  | boolean value => cases value <;> rfl
  | integer value =>
    have number := number?_toString value ends
    rw [toList_toString_int, List.append_assoc] at number
    rw [leafText, toList_toString_int, List.append_assoc, leaf?_sign (numeral_toDigits _), number]
    rfl
  | text content =>
    rw [leafText, toList_quoted]
    simp only [leaf?, quoted?_flatMap, String.ofList_toList, restatedLeaf]
  | real literal =>
    cases literal with
    | nan | infinite => simpa only [leafText, restatedLeaf] using null
    | decimal negative magnitude =>
      have reported := Style.magnitude_report magnitude
      have number := number?_reported reported ends negative
      obtain ⟨digits, more, numeral, same⟩ := Reported.numeral reported
      have text : (leafText (.real (.decimal negative magnitude))).toList =
          sign negative ++ (Style.report.magnitude magnitude).toList := by
        cases negative <;> simp [leafText, sign]
      rw [same, List.append_assoc] at number
      rw [text, same, List.append_assoc, List.append_assoc, leaf?_sign numeral, number]
      rfl

/-- A number is written as null where it is not finite, and nowhere else. -/
theorem leafText_ofSingle {x : Single} : leafText (.ofSingle x) = "null" ↔ x.isFinite = false := by
  unfold Single.isFinite Document.ofSingle
  cases x.reading with
  | nan | infinite => simp [Document.ofReading, leafText]
  | finite negative mantissa exponent =>
    refine iff_of_false (fun null => ?_) (by simp)
    have ends : EndsNumber [] := nofun
    have read := leaf?_leafText (.ofReading .single (.finite negative mantissa exponent)) ends
    rw [null] at read
    cases read

/-- The tokens of a text, in however many steps they are taken. -/
def Tokens (text : List Char) (tokens : List Token) : Prop :=
  ∀ bound, text.length ≤ bound → tokensWithin bound text = tokens

variable {text behind gap : List Char} {tokens : List Token}

namespace Tokens

theorem nil : Tokens [] [] := by
  intro bound _
  cases bound <;> rfl

theorem mark {c : Char} {token : Token} (visible : isSpace c = false) (marks : mark? c = some token)
    (next : Tokens text tokens) : Tokens (c :: text) (token :: tokens) := by
  intro bound long
  obtain ⟨bound, rfl⟩ : ∃ less, bound = less + 1 :=
    Nat.exists_eq_succ_of_ne_zero (by rintro rfl; cases long)
  simp only [tokensWithin, visible, Bool.false_eq_true, if_false, marks]
  rw [next bound (Nat.le_of_succ_le_succ long)]

theorem space (blank : ∀ c ∈ gap, isSpace c = true) (next : Tokens text tokens) :
    Tokens (gap ++ text) tokens := by
  induction gap with
  | nil => exact next
  | cons c gap ih =>
    obtain ⟨first, later⟩ := List.forall_mem_cons.mp blank
    intro bound long
    obtain ⟨bound, rfl⟩ : ∃ less, bound = less + 1 :=
      Nat.exists_eq_succ_of_ne_zero (by rintro rfl; cases long)
    rw [List.cons_append, tokensWithin, if_pos first]
    exact ih later bound (Nat.le_of_succ_le_succ long)

theorem head?_leafText (document : Document) :
    ∃ c ∈ (leafText document).toList.head?, isSpace c = false ∧ mark? c = none := by
  have null : ∃ c ∈ "null".toList.head?, isSpace c = false ∧ mark? c = none := ⟨'n', rfl, rfl, rfl⟩
  have number {digits : List Char} (numeral : Numeral digits) (negative : Bool) (behind : List Char) :
      ∃ c ∈ (sign negative ++ (digits ++ behind)).head?, isSpace c = false ∧ mark? c = none := by
    obtain ⟨d, more, rfl⟩ := List.exists_cons_of_ne_nil numeral.nonempty
    have digit : isDigit d = true := numeral.all d List.mem_cons_self
    cases negative with
    | true => exact ⟨'-', rfl, rfl, rfl⟩
    | false =>
      have other {c : Char} (distinct : isDigit c = false) : d ≠ c := isDigit_ne digit distinct
      refine ⟨d, rfl, ?_, ?_⟩
      · simp [isSpace, other (show isDigit ' ' = false from rfl),
          other (show isDigit '\t' = false from rfl), other (show isDigit '\n' = false from rfl),
          other (show isDigit '\r' = false from rfl)]
      · simp [mark?, other (show isDigit '[' = false from rfl),
          other (show isDigit ']' = false from rfl), other (show isDigit '\x7b' = false from rfl),
          other (show isDigit '\x7d' = false from rfl), other (show isDigit ',' = false from rfl),
          other (show isDigit ':' = false from rfl)]
  cases document with
  | null | garbled | moment | unreadable | list items | table fields =>
    simpa only [leafText] using null
  | boolean value =>
    cases value with
    | true => exact ⟨'t', rfl, rfl, rfl⟩
    | false => exact ⟨'f', rfl, rfl, rfl⟩
  | integer value =>
    have starts := number (numeral_toDigits value.natAbs) (decide (value < 0)) []
    rwa [List.append_nil, ← toList_toString_int] at starts
  | text content => exact ⟨'"', by simp [leafText, quoted], rfl, rfl⟩
  | real literal =>
    cases literal with
    | nan | infinite => simpa only [leafText] using null
    | decimal negative magnitude =>
      obtain ⟨digits, behind, numeral, same⟩ := Reported.numeral (Style.magnitude_report magnitude)
      have text : (leafText (.real (.decimal negative magnitude))).toList =
          sign negative ++ (digits ++ behind) := by
        rw [← same]
        cases negative <;> simp [leafText, sign]
      rw [text]
      exact number numeral negative behind

theorem leaf (document : Document) (ends : EndsNumber text) (next : Tokens text tokens) :
    Tokens ((leafText document).toList ++ text) (.leaf (restatedLeaf document) :: tokens) := by
  have read := leaf?_leafText document ends
  obtain ⟨c, head, visible, plain⟩ := head?_leafText document
  obtain ⟨more, same⟩ := List.head?_eq_some_iff.mp head
  rw [same, List.cons_append] at read ⊢
  intro bound long
  obtain ⟨bound, rfl⟩ : ∃ less, bound = less + 1 :=
    Nat.exists_eq_succ_of_ne_zero (by rintro rfl; cases long)
  simp only [tokensWithin, visible, Bool.false_eq_true, if_false, plain, read]
  rw [next bound]
  rw [List.length_cons, List.length_append] at long
  omega

end Tokens

/-- A text that is read as a document wherever a value may stand. -/
structure Written (text : List Char) (document : Document) : Prop where
  reads : ∀ {behind : List Char} {tokens : List Token}, EndsNumber behind → Tokens behind tokens →
    ∃ all, Tokens (text ++ behind) all ∧ ∀ frames,
      build all .value frames = build tokens (.after document) frames ∧
        build all .item frames = build tokens (.after document) frames

theorem written_leaf (document : Document) :
    Written (leafText document).toList (restatedLeaf document) :=
  ⟨fun ends next => ⟨_, Tokens.leaf document ends next, fun _ => ⟨rfl, rfl⟩⟩⟩

theorem endsNumber_gap (blank : ∀ c ∈ gap, isSpace c = true) {c : Char}
    (closes : isDigit c = false ∧ c ≠ '.' ∧ c ≠ 'e' ∧ c ≠ 'E') (rest : List Char) :
    EndsNumber (gap ++ c :: rest) := by
  intro d head
  cases gap with
  | nil =>
    obtain rfl : c = d := Option.some.inj head
    exact closes
  | cons b gap =>
    obtain rfl : b = d := Option.some.inj head
    have space := blank b List.mem_cons_self
    simp only [isSpace, Bool.or_eq_true, beq_iff_eq] at space
    rcases space with ((rfl | rfl) | rfl) | rfl
    all_goals exact ⟨rfl, by decide, by decide, by decide⟩

theorem items_written {texts : List (List Char)} {items : List Document}
    (written : List.Forall₂ Written texts items) (some' : texts ≠ [])
    (blank : ∀ c ∈ gap, isSpace c = true) {closing : List Char}
    (closed : ∀ c ∈ closing, isSpace c = true) (next : Tokens behind tokens) :
    ∃ all, Tokens ((',' :: gap).intercalate texts ++ (closing ++ ']' :: behind)) all ∧
      ∀ done frames,
        build all .value (.list done :: frames) =
            build tokens (.after (.list (done.reverse ++ items))) frames ∧
          build all .item (.list done :: frames) =
            build tokens (.after (.list (done.reverse ++ items))) frames := by
  induction written with
  | nil => exact absurd rfl some'
  | @cons text item texts items first rest ih =>
    have close : Tokens (closing ++ ']' :: behind) (.closeList :: tokens) :=
      .space closed (.mark rfl rfl next)
    rcases eq_or_ne texts [] with rfl | more
    · obtain rfl : items = [] := List.forall₂_nil_left_iff.mp rest
      obtain ⟨all, taken, built⟩ := first.reads (endsNumber_gap closed (by decide) behind) close
      refine ⟨all, ?_, fun done frames => ?_⟩
      · rwa [List.intercalate_singleton]
      · obtain ⟨value, item'⟩ := built (.list done :: frames)
        rw [value, item', build, List.reverse_cons]
        exact ⟨rfl, rfl⟩
    · obtain ⟨others, taken, later⟩ := ih more
      have comma : Tokens (',' :: (gap ++ ((',' :: gap).intercalate texts ++
          (closing ++ ']' :: behind)))) (.comma :: others) := .mark rfl rfl (.space blank taken)
      obtain ⟨all, taken, built⟩ := first.reads (by simp [EndsNumber, isDigit]) comma
      refine ⟨all, ?_, fun done frames => ?_⟩
      · rw [List.intercalate_cons_of_ne_nil more]
        simpa [List.append_assoc] using taken
      · obtain ⟨value, item'⟩ := built (.list done :: frames)
        obtain ⟨rest, -⟩ := later (item :: done) frames
        rw [value, item', build, rest, List.reverse_cons, List.append_assoc]
        exact ⟨rfl, rfl⟩

/-- A key and its value. -/
inductive WrittenField (gap : List Char) : List Char → String × Document → Prop
  | mk {text : List Char} {document : Document} (key : String) (written : Written text document) :
    WrittenField gap ((quoted key).toList ++ ':' :: (gap ++ text)) (key, document)

theorem build_key (key : String) (all : List Token) (done : List (String × Document))
    (frames : List Frame) :
    build (.leaf (.text key) :: .colon :: all) (.field done) frames =
        build all .value (.table done key :: frames) ∧
      build (.leaf (.text key) :: .colon :: all) (.key done) frames =
        build all .value (.table done key :: frames) :=
  ⟨rfl, rfl⟩

theorem fields_written {space : List Char} {texts : List (List Char)}
    {fields : List (String × Document)}
    (written : List.Forall₂ (WrittenField space) texts fields) (some' : texts ≠ [])
    (spaced : ∀ c ∈ space, isSpace c = true) (blank : ∀ c ∈ gap, isSpace c = true)
    {closing : List Char} (closed : ∀ c ∈ closing, isSpace c = true) (next : Tokens behind tokens) :
    ∃ all, Tokens ((',' :: gap).intercalate texts ++ (closing ++ '\x7d' :: behind)) all ∧
      ∀ done frames,
        build all (.field done) frames =
            build tokens (.after (.table (done.reverse ++ fields))) frames ∧
          build all (.key done) frames =
            build tokens (.after (.table (done.reverse ++ fields))) frames := by
  have keyed (key : String) {text : List Char} {tokens : List Token} (next : Tokens text tokens) :
      Tokens ((quoted key).toList ++ ':' :: (space ++ text))
        (.leaf (.text key) :: .colon :: tokens) :=
    .leaf (.text key) (by simp [EndsNumber, isDigit]) (.mark rfl rfl (.space spaced next))
  induction written with
  | nil => exact absurd rfl some'
  | @cons _ _ texts fields first rest ih =>
    cases first with
    | @mk text document key first =>
    have close : Tokens (closing ++ '\x7d' :: behind) (.closeTable :: tokens) :=
      .space closed (.mark rfl rfl next)
    rcases eq_or_ne texts [] with rfl | more
    · obtain rfl : fields = [] := List.forall₂_nil_left_iff.mp rest
      obtain ⟨all, taken, built⟩ := first.reads (endsNumber_gap closed (by decide) behind) close
      refine ⟨.leaf (.text key) :: .colon :: all, ?_, fun done frames => ?_⟩
      · rw [List.intercalate_singleton]
        simpa [List.append_assoc] using keyed key taken
      · obtain ⟨value, -⟩ := built (.table done key :: frames)
        obtain ⟨field, key'⟩ := build_key key all done frames
        rw [field, key', value, build, List.reverse_cons]
        exact ⟨rfl, rfl⟩
    · obtain ⟨others, taken, later⟩ := ih more
      have comma : Tokens (',' :: (gap ++ ((',' :: gap).intercalate texts ++
          (closing ++ '\x7d' :: behind)))) (.comma :: others) := .mark rfl rfl (.space blank taken)
      obtain ⟨all, taken, built⟩ := first.reads (by simp [EndsNumber, isDigit]) comma
      refine ⟨.leaf (.text key) :: .colon :: all, ?_, fun done frames => ?_⟩
      · rw [List.intercalate_cons_of_ne_nil more]
        simpa [List.append_assoc] using keyed key taken
      · obtain ⟨value, -⟩ := built (.table done key :: frames)
        obtain ⟨-, rest⟩ := later ((key, document) :: done) frames
        obtain ⟨field, key'⟩ := build_key key all done frames
        rw [field, key', value, build, rest, List.reverse_cons, List.append_assoc]
        exact ⟨rfl, rfl⟩

theorem written_list {texts : List (List Char)} {items : List Document}
    (written : List.Forall₂ Written texts items) (blank : ∀ c ∈ gap, isSpace c = true)
    {opening closing : List Char} (opened : ∀ c ∈ opening, isSpace c = true)
    (closed : ∀ c ∈ closing, isSpace c = true) :
    Written ('[' :: (opening ++ ((',' :: gap).intercalate texts ++ (closing ++ [']']))))
      (.list items) := by
  constructor
  intro behind tokens _ next
  have opens {all : List Token} (taken : Tokens ((',' :: gap).intercalate texts ++
      (closing ++ ']' :: behind)) all) :
      Tokens ('[' :: (opening ++ ((',' :: gap).intercalate texts ++ (closing ++ [']']))) ++ behind)
        (.openList :: all) := by
    simpa [List.append_assoc] using Tokens.mark rfl rfl (.space opened taken)
  rcases eq_or_ne texts [] with rfl | some
  · obtain rfl : items = [] := List.forall₂_nil_left_iff.mp written
    have close : Tokens (closing ++ ']' :: behind) (.closeList :: tokens) :=
      .space closed (.mark rfl rfl next)
    exact ⟨_, opens close, fun frames => ⟨rfl, rfl⟩⟩
  · obtain ⟨all, taken, built⟩ := items_written written some blank closed next
    refine ⟨.openList :: all, opens taken, fun frames => ?_⟩
    obtain ⟨-, first⟩ := built [] frames
    exact ⟨first, first⟩

theorem written_table {space : List Char} {texts : List (List Char)}
    {fields : List (String × Document)}
    (written : List.Forall₂ (WrittenField space) texts fields)
    (spaced : ∀ c ∈ space, isSpace c = true) (blank : ∀ c ∈ gap, isSpace c = true)
    {opening closing : List Char} (opened : ∀ c ∈ opening, isSpace c = true)
    (closed : ∀ c ∈ closing, isSpace c = true) :
    Written ('\x7b' :: (opening ++ ((',' :: gap).intercalate texts ++ (closing ++ ['\x7d']))))
      (.table fields) := by
  constructor
  intro behind tokens _ next
  have opens {all : List Token} (taken : Tokens ((',' :: gap).intercalate texts ++
      (closing ++ '\x7d' :: behind)) all) :
      Tokens ('\x7b' :: (opening ++ ((',' :: gap).intercalate texts ++ (closing ++ ['\x7d']))) ++
        behind) (.openTable :: all) := by
    simpa [List.append_assoc] using Tokens.mark rfl rfl (.space opened taken)
  rcases eq_or_ne texts [] with rfl | some
  · obtain rfl : fields = [] := List.forall₂_nil_left_iff.mp written
    have close : Tokens (closing ++ '\x7d' :: behind) (.closeTable :: tokens) :=
      .space closed (.mark rfl rfl next)
    exact ⟨_, opens close, fun frames => ⟨rfl, rfl⟩⟩
  · obtain ⟨all, taken, built⟩ := fields_written written some spaced blank closed next
    refine ⟨.openTable :: all, opens taken, fun frames => ?_⟩
    obtain ⟨first, -⟩ := built [] frames
    exact ⟨first, first⟩

mutual

/-- What a written document is read as. Only its numbers may change: to decimals of the same value,
and to nothing where they are not finite. -/
def restated : Document → Document
  | .list items => .list (restatedItems items)
  | .table fields => .table (restatedFields fields)
  | leaf => restatedLeaf leaf

def restatedItems : List Document → List Document
  | [] => []
  | item :: rest => restated item :: restatedItems rest

def restatedFields : List (String × Document) → List (String × Document)
  | [] => []
  | (key, item) :: rest => (key, restated item) :: restatedFields rest

end

theorem restated_text (content : String) : restated (.text content) = .text content := rfl

theorem restated_table (fields : List (String × Document)) :
    restated (.table fields) = .table (restatedFields fields) := by
  rw [restated]

theorem restatedFields_cons (key : String) (item : Document) (rest : List (String × Document)) :
    restatedFields ((key, item) :: rest) = (key, restated item) :: restatedFields rest := by
  rw [restatedFields]

mutual

theorem written_compact : ∀ document, Written (compact document).toList (restated document)
  | .list items => by
    have blank : ∀ c ∈ ([] : List Char), isSpace c = true := List.forall_mem_nil _
    have written := written_list (written_compactItems items) blank blank blank
    rwa [show '[' :: ([] ++ ([','].intercalate ((compactItems items).map String.toList) ++
        ([] ++ [']']))) = (compact (.list items)).toList by
      simp [compact, String.toList_intercalate]] at written
  | .table fields => by
    have blank : ∀ c ∈ ([] : List Char), isSpace c = true := List.forall_mem_nil _
    have written := written_table (written_compactFields fields) blank blank blank blank
    rwa [show '\x7b' :: ([] ++ ([','].intercalate ((compactFields fields).map String.toList) ++
        ([] ++ ['\x7d']))) = (compact (.table fields)).toList by
      simp [compact, String.toList_intercalate]] at written
  | .null | .garbled | .moment | .unreadable => written_leaf _
  | .boolean _ => written_leaf _
  | .integer _ => written_leaf _
  | .real _ => written_leaf _
  | .text _ => written_leaf _

theorem written_compactItems : ∀ items,
    List.Forall₂ Written ((compactItems items).map String.toList) (restatedItems items)
  | [] => .nil
  | item :: rest => .cons (written_compact item) (written_compactItems rest)

theorem written_compactFields : ∀ fields,
    List.Forall₂ (WrittenField []) ((compactFields fields).map String.toList) (restatedFields fields)
  | [] => .nil
  | (key, item) :: rest => by
    have field : WrittenField [] _ _ := .mk key (written_compact item)
    refine .cons ?_ (written_compactFields rest)
    rwa [List.nil_append, show (quoted key).toList ++ ':' :: (compact item).toList =
      (quoted key ++ ":" ++ compact item).toList by simp] at field

end

theorem isSpace_indentation (level : Nat) : ∀ c ∈ (indentation level).toList, isSpace c = true := by
  intro c member
  simp only [indentation, String.toList_join, List.mem_flatMap] at member
  obtain ⟨part, listed, inside⟩ := member
  rw [List.eq_of_mem_replicate listed] at inside
  simp only [show "  ".toList = [' ', ' '] from rfl, List.mem_cons, List.not_mem_nil, or_false,
    or_self] at inside
  rw [inside]
  rfl

theorem isSpace_line (level : Nat) : ∀ c ∈ '\n' :: (indentation level).toList, isSpace c = true :=
  List.forall_mem_cons.mpr ⟨rfl, isSpace_indentation level⟩

theorem toList_spread (opening closing : String) (level : Nat) {parts : List String}
    (some' : parts ≠ []) :
    (spread opening closing level parts).toList =
      opening.toList ++ ('\n' :: (indentation (level + 1)).toList ++
        ((',' :: '\n' :: (indentation (level + 1)).toList).intercalate (parts.map String.toList) ++
          ('\n' :: (indentation level).toList ++ closing.toList))) := by
  have empty : parts.isEmpty = false := by simpa using some'
  simp [spread, empty, String.toList_intercalate]

mutual

theorem written_pretty : ∀ document level, Written (pretty level document).toList (restated document)
  | .list [], _ => by
    have blank : ∀ c ∈ ([] : List Char), isSpace c = true := List.forall_mem_nil _
    have written := written_list .nil blank blank blank
    simpa [pretty, prettyItems, spread, restated, restatedItems] using written
  | .list (item :: items), level => by
    have line := isSpace_line (level + 1)
    have written := written_list (written_prettyItems (item :: items) (level + 1)) line line
      (isSpace_line level)
    rw [pretty, toList_spread _ _ _ (by simp [prettyItems])]
    exact written
  | .table [], _ => by
    have blank : ∀ c ∈ ([] : List Char), isSpace c = true := List.forall_mem_nil _
    have fields : List.Forall₂ (WrittenField []) [] [] := .nil
    have written := written_table fields blank blank blank blank
    simpa [pretty, prettyFields, spread, restated, restatedFields] using written
  | .table (field :: fields), level => by
    have line := isSpace_line (level + 1)
    have written := written_table (written_prettyFields (field :: fields) (level + 1))
      (List.forall_mem_singleton.mpr rfl) line line (isSpace_line level)
    rw [pretty, toList_spread _ _ _ (by simp [prettyFields])]
    exact written
  | .null, _ | .garbled, _ | .moment, _ | .unreadable, _ => written_leaf _
  | .boolean _, _ => written_leaf _
  | .integer _, _ => written_leaf _
  | .real _, _ => written_leaf _
  | .text _, _ => written_leaf _

theorem written_prettyItems : ∀ items level,
    List.Forall₂ Written ((prettyItems level items).map String.toList) (restatedItems items)
  | [], _ => .nil
  | item :: rest, level => .cons (written_pretty item level) (written_prettyItems rest level)

theorem written_prettyFields : ∀ fields level,
    List.Forall₂ (WrittenField [' ']) ((prettyFields level fields).map String.toList)
      (restatedFields fields)
  | [], _ => .nil
  | (key, item) :: rest, level => by
    have field : WrittenField [' '] _ _ := .mk key (written_pretty item level)
    refine .cons ?_ (written_prettyFields rest level)
    rwa [List.singleton_append, show (quoted key).toList ++ ':' :: ' ' :: (pretty level item).toList =
      (quoted key ++ ": " ++ pretty level item).toList by simp] at field

end

/-- A text that is written for a document is read as it, and holds nothing else. -/
theorem Written.read {text : String} {document : Document}
    (written : Written text.toList document) : read text = (document, true) := by
  obtain ⟨all, taken, built⟩ := written.reads (by simp [EndsNumber]) .nil
  rw [List.append_nil] at taken
  rw [Json.read, tokens, taken _ (Nat.le_refl _), (built []).1]
  rfl

theorem read_compact (document : Document) :
    read (compact document) = (restated document, true) :=
  (written_compact document).read

theorem read_pretty (document : Document) (level : Nat) :
    read (pretty level document) = (restated document, true) :=
  (written_pretty document level).read

end LiveFragment.Json
