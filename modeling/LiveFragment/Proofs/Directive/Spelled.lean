import LiveFragment.Proofs.Directive.Grammar
import LiveFragment.Proofs.Directive.Scanned
import LiveFragment.Proofs.Directive.WellFormed

/-! The ways to write the directive of a texture. Each of them is read as the directive, and so is a
text that has nothing but such a line, with any white space around it. White space between the words
may hold a line feed for the reader of one line, but not for the reader of a text. -/

namespace LiveFragment

open LiveFragment.Text

namespace Directive

section Framed

variable {front text back : List Char}

theorem body?_indented (keyword : List Char) (blank : Blanks front) :
    body? keyword (front ++ text) = body? keyword text := by
  rw [body?, trimStart_append blank]
  rfl

theorem lineDirective_indented (blank : Blanks front) :
    lineDirective (front ++ text) = lineDirective text := by
  simp only [lineDirective_eq, definition?, texture?, body?_indented _ blank]

theorem lineDirective_followed (blank : Blanks back) :
    lineDirective (text ++ back) = lineDirective text := by
  induction back using List.reverseRecOn with
  | nil => rw [List.append_nil]
  | append_singleton back c ih =>
    obtain ⟨before, last⟩ := List.forall_mem_append.mp blank
    rw [← List.append_assoc, lineDirective_padded (.inr ⟨c, last c (by simp), rfl⟩), ih before]

theorem filterMap_lines_blanks (blank : Blanks text) :
    (lines text).filterMap lineDirective = [] := by
  apply List.filterMap_eq_nil_iff.mpr
  intro line listed
  have bare : lineDirective ([] ++ line) = lineDirective [] :=
    lineDirective_followed fun c member => blank c (mem_of_mem_lines listed member)
  exact bare

theorem filterMap_lines_append (first second : List Char) :
    (lines (first ++ '\n' :: second)).filterMap lineDirective =
      (lines first).filterMap lineDirective ++ (lines second).filterMap lineDirective :=
  filterMap_lines_join rfl (fun _ => lineDirective_padded (.inr ⟨_, by decide, rfl⟩)) first second

/-- White space before a text adds nothing, whatever lines it makes. -/
theorem filterMap_lines_indented (blank : Blanks front) (text : List Char) :
    ∃ last, Blanks last ∧ '\n' ∉ last ∧
      (lines (front ++ text)).filterMap lineDirective =
        (lines (last ++ text)).filterMap lineDirective := by
  by_cases feed : '\n' ∈ front
  · -- The white space is cut at its last line feed, which is the first one from behind.
    obtain ⟨last, before, split, clear⟩ := List.eq_append_cons_of_mem (List.mem_reverse.mpr feed)
    have front_eq : front = before.reverse ++ '\n' :: last.reverse := by
      rw [← List.reverse_reverse front, split]
      simp
    subst front_eq
    obtain ⟨blankBefore, blankLast⟩ := List.forall_mem_append.mp blank
    refine ⟨last.reverse, fun c member => blankLast c (List.mem_cons_of_mem _ member),
      by simpa using clear, ?_⟩
    rw [List.append_assoc, List.cons_append, filterMap_lines_append,
      filterMap_lines_blanks blankBefore, List.nil_append]
  · exact ⟨front, blank, feed, rfl⟩

theorem filterMap_lines_followed (blank : Blanks back) (text : List Char) :
    ∃ first, Blanks first ∧ '\n' ∉ first ∧
      (lines (text ++ back)).filterMap lineDirective =
        (lines (text ++ first)).filterMap lineDirective := by
  by_cases feed : '\n' ∈ back
  · obtain ⟨first, behind, rfl, clear⟩ := List.eq_append_cons_of_mem feed
    obtain ⟨blankFirst, blankBehind⟩ := List.forall_mem_append.mp blank
    refine ⟨first, blankFirst, clear, ?_⟩
    rw [← List.append_assoc, filterMap_lines_append,
      filterMap_lines_blanks fun c member => blankBehind c (List.mem_cons_of_mem _ member),
      List.append_nil]
  · exact ⟨back, blank, feed, rfl⟩

end Framed

/-- A text of one line with white space around it says what the line says. -/
theorem filterMap_lines_single {text : List Char} (single : '\n' ∉ trim text) :
    (lines text).filterMap lineDirective = (lineDirective text).toList := by
  obtain ⟨front, back, blankFront, blankBack, split⟩ := exists_trim text
  rw [split]
  generalize trim text = core at single
  obtain ⟨last, blankLast, clearLast, front_eq⟩ :=
    filterMap_lines_indented blankFront (core ++ back)
  obtain ⟨first, blankFirst, clearFirst, back_eq⟩ :=
    filterMap_lines_followed blankBack (last ++ core)
  have whole : '\n' ∉ last ++ (core ++ first) := by
    simp only [List.mem_append, not_or]
    exact ⟨clearLast, single, clearFirst⟩
  rw [front_eq, ← List.append_assoc, back_eq, List.append_assoc, lineDirective_indented blankFront,
    lineDirective_followed blankBack]
  rw [filterMap_lines_clear rfl whole, lineDirective_indented blankLast,
    lineDirective_followed blankFirst]

/-- A channel is written as its digit, alone or behind the name of the samplers. -/
inductive SlotWord (channel : Nat) : List Char → Prop
  | digit : SlotWord channel (toString channel).toList
  | sampler : SlotWord channel ("iChannel".toList ++ (toString channel).toList)

/-- A file name is written in quotes, whatever it holds, or bare when it has no white space and no
quote at its start. -/
inductive NameText (name : List Char) : List Char → Prop
  | quoted : NameText name ('"' :: (name ++ ['"']))
  | bare (visible : ∀ c ∈ name, isBlank c = false) (unquoted : name.head? ≠ some '"') :
    NameText name name

/-- A source is written as its first word and what it takes, with white space between them. -/
inductive SourceText : TextureSource → List Char → Prop
  | builtin (pattern : Pattern) : SourceText (.builtin pattern) pattern.name.toList
  | file {name : String} {blanks written : List Char} (blank : Blanks blanks) (apart : blanks ≠ [])
    (named : NameText name.toList written) :
    SourceText (.file name) ("file".toList ++ (blanks ++ written))
  | microphone {blanks : List Char} (size : Nat) (blank : Blanks blanks) (apart : blanks ≠ []) :
    SourceText (.microphone size) ("mic".toList ++ (blanks ++ (toString size).toList))

/-- A line with the directive of a texture: any white space around the comment mark, the keyword,
the channel and the source. -/
inductive TextureDirective.Line (directive : TextureDirective) : List Char → Prop
  | mk {indent gap space slot between source tail : List Char} (indented : Blanks indent)
    (gapped : Blanks gap) (spaced : Blanks space) (space_ne : space ≠ [])
    (named : SlotWord directive.channel slot) (blank : Blanks between) (between_ne : between ≠ [])
    (given : SourceText directive.source source) (followed : Blanks tail) :
    Line directive (indent ++ (['/', '/'] ++ (gap ++ (textureKeyword.toList ++ (space ++
      (slot ++ (between ++ (source ++ tail))))))))

theorem NameText.fileName? {name text : List Char} (named : NameText name text)
    (some' : name ≠ []) : Directive.fileName? text = some name := by
  have kept : (some name).filter (fun name : List Char => !name.isEmpty) = some name :=
    Option.filter_eq_some_iff.mpr ⟨rfl, by simpa using some'⟩
  cases named with
  | quoted =>
    have closed : (['"'] : List Char).isSuffixOf? (name ++ ['"']) = some name :=
      List.isSuffixOf?_eq_some_iff_append_eq.mpr rfl
    simp only [Directive.fileName?, closed, kept]
  | bare visible unquoted =>
    have solid : name.any isBlank = false := by simpa using visible
    unfold Directive.fileName?
    split
    · exact absurd rfl unquoted
    · simp only [solid, Bool.false_eq_true, ↓reduceIte, kept]

theorem NameText.visible {name text : List Char} (named : NameText name text) :
    (∀ c ∈ text.head?, isBlank c = false) ∧ ∀ c ∈ text.getLast?, isBlank c = false := by
  cases named with
  | quoted =>
    refine ⟨?_, ?_⟩
    · rintro _ ⟨⟩
      decide
    · intro c last
      rw [← List.cons_append, List.getLast?_append] at last
      obtain rfl := Option.some.inj last
      decide
  | bare visible =>
    exact ⟨fun c first => visible c (List.mem_of_head? first),
      fun c last => visible c (List.mem_of_getLast? last)⟩

theorem digit_visible (n : Nat) : ∀ c ∈ (toString n).toList, isBlank c = false :=
  fun c member => (solid_digits n c member).1

theorem toString_toList_ne_nil (n : Nat) : (toString n).toList ≠ [] := by
  rw [toList_toString]
  exact Nat.toDigits_ne_nil

namespace SlotWord

variable {channel : Nat} {word : List Char}

theorem channel? (named : SlotWord channel word) (small : channel < channelCount) :
    Directive.channel? word = some channel := by
  have read : index? (toString channel).toList = some channel :=
    index?_toString (Nat.lt_trans small (by decide))
  have digits : ("iChannel".toList.isPrefixOf? word).getD word = (toString channel).toList := by
    cases named with
    | digit =>
      obtain ⟨first, rest, split⟩ := List.exists_cons_of_ne_nil (toString_toList_ne_nil channel)
      have digit : isDigit first = true :=
        isDigit_of_mem_toString (n := channel) (split ▸ List.mem_cons_self)
      have other : ('i' == first) = false :=
        beq_eq_false_iff_ne.mpr (isDigit_ne digit (by decide)).symm
      have letters : "iChannel".toList = 'i' :: "Channel".toList := by decide +kernel
      rw [letters, split, List.isPrefixOf?, other]
      rfl
    | sampler =>
      rw [List.isPrefixOf?_eq_some_iff_append_eq.mpr rfl]
      rfl
  rw [Directive.channel?, digits, read]
  exact Option.filter_eq_some_iff.mpr ⟨rfl, by simpa using small⟩

theorem ne_nil (named : SlotWord channel word) : word ≠ [] := by
  cases named with
  | digit => exact toString_toList_ne_nil channel
  | sampler => exact List.append_ne_nil_of_right_ne_nil _ (toString_toList_ne_nil channel)

theorem visible (named : SlotWord channel word) : ∀ c ∈ word, isBlank c = false := by
  cases named with
  | digit => exact digit_visible channel
  | sampler =>
    have letters : ∀ c ∈ "iChannel".toList, isBlank c = false :=
      visible_of_all (by decide +kernel)
    exact List.forall_mem_append.mpr ⟨letters, digit_visible channel⟩

end SlotWord

/-- How a source is read: a word, and what follows it. -/
structure SourceText.Read (source : TextureSource) (text word rest : List Char) : Prop where
  split : text = word ++ rest
  word_ne : word ≠ []
  visible : ∀ c ∈ word, isBlank c = false
  ends : EndsWord rest
  source? : Directive.source? word (trim rest) = some source
  last : ∀ c ∈ text.getLast?, isBlank c = false

theorem EndsWord.of_blanks {blanks : List Char} (blank : Blanks blanks) (apart : blanks ≠ [])
    (rest : List Char) : EndsWord (blanks ++ rest) := by
  obtain ⟨first, others, rfl⟩ := List.exists_cons_of_ne_nil apart
  rintro _ ⟨⟩
  exact blank first List.mem_cons_self

theorem SourceText.read_append {source : TextureSource} {word blanks text : List Char}
    (word_ne : word ≠ []) (visible : ∀ c ∈ word, isBlank c = false) (blank : Blanks blanks)
    (apart : blanks ≠ []) (some' : text ≠ []) (starts : ∀ c ∈ text.head?, isBlank c = false)
    (ends : ∀ c ∈ text.getLast?, isBlank c = false)
    (given : Directive.source? word text = some source) :
    SourceText.Read source (word ++ (blanks ++ text)) word (blanks ++ text) where
  split := rfl
  word_ne := word_ne
  visible := visible
  ends := EndsWord.of_blanks blank apart text
  source? := by
    have trimmed : trim (blanks ++ (text ++ [])) = text :=
      trim_framed blank (List.forall_mem_nil _) starts ends
    rw [List.append_nil] at trimmed
    rw [trimmed, given]
  last := by
    rwa [List.getLast?_append_of_ne_nil _ (List.append_ne_nil_of_right_ne_nil _ some'),
      List.getLast?_append_of_ne_nil _ some']

theorem SourceText.read {directive : TextureDirective} (formed : directive.WellFormed)
    {text : List Char} (given : SourceText directive.source text) :
    ∃ word rest, SourceText.Read directive.source text word rest := by
  generalize held : directive.source = source at given
  cases given with
  | builtin pattern =>
    have visible : ∀ c ∈ pattern.name.toList, isBlank c = false :=
      visible_of_all (by cases pattern <;> decide +kernel)
    refine ⟨pattern.name.toList, [], (List.append_nil _).symm, ?_, visible, ?_, ?_, ?_⟩
    · cases pattern <;> decide +kernel
    · rintro _ ⟨⟩
    · cases pattern <;> decide +kernel
    · exact fun c last => visible c (List.mem_of_getLast? last)
  | @file name blanks text blank apart named =>
    have some' : name.toList ≠ [] := by
      simpa using formed.name name held
    have read : Directive.source? "file".toList text = some (.file name) := by
      rw [source?, if_pos rfl, named.fileName? some', Option.map_some, String.ofList_toList]
    refine ⟨_, _, read_append (by decide +kernel) (visible_of_all (by decide +kernel)) blank
      apart ?_ named.visible.1 named.visible.2 read⟩
    cases named with
    | quoted => exact List.cons_ne_nil _ _
    | bare => exact some'
  | @microphone blanks size blank apart =>
    have listed := formed.size size held
    have digits : ∀ c ∈ (toString size).toList, isBlank c = false := digit_visible size
    have some' : (toString size).toList ≠ [] := toString_toList_ne_nil size
    have small : size < UInt64.size := by
      have most : ∀ size ∈ analysisSizes, size < UInt64.size := by decide
      exact most size listed
    have next : nextWord? (toString size).toList = some ((toString size).toList, []) := by
      have found : nextWord? ([] ++ ((toString size).toList ++ [])) = some (_, []) :=
        nextWord?_append (List.forall_mem_nil _) some' digits (by rintro _ ⟨⟩)
      rwa [List.nil_append, List.append_nil] at found
    have sized : analysisSize? (toString size).toList = some size := by
      rw [analysisSize?, next]
      simp only [bind, Option.bind_some, index?_toString small]
      rw [if_neg (by decide)]
      exact Option.filter_eq_some_iff.mpr ⟨rfl, by simpa using listed⟩
    have read : Directive.source? "mic".toList (toString size).toList =
        some (.microphone size) := by
      rw [source?, if_neg (by decide +kernel), if_pos rfl, sized]
      rfl
    exact ⟨_, _, read_append (by decide +kernel) (visible_of_all (by decide +kernel)) blank
      apart some' (fun c first => digits c (List.mem_of_head? first))
      (fun c last => digits c (List.mem_of_getLast? last)) read⟩

/-- Every way to write a directive is read as the directive. -/
theorem TextureDirective.Line.texture? {directive : TextureDirective}
    (formed : directive.WellFormed) {line : List Char} (written : directive.Line line) :
    Directive.texture? line = some directive := by
  obtain @⟨indent, gap, space, slot, between, source, tail, indented, gapped, spaced, space_ne,
    named, blank, between_ne, given, followed⟩ := written
  obtain ⟨word, rest, read⟩ := given.read formed
  have some' : source ≠ [] := by
    rw [read.split]
    exact List.append_ne_nil_of_left_ne_nil read.word_ne rest
  have sign : textureKeyword.toList.head? = some '@' := by decide +kernel
  have trimmed : trim (slot ++ (between ++ (source ++ tail))) =
      slot ++ (between ++ (word ++ rest)) := by
    have framed : trim ([] ++ ((slot ++ (between ++ source)) ++ tail)) =
        slot ++ (between ++ source) := by
      refine trim_framed (List.forall_mem_nil _) followed ?_ ?_
      · intro c first
        rw [List.head?_append_of_ne_nil _ named.ne_nil] at first
        exact named.visible c (List.mem_of_head? first)
      · rw [List.getLast?_append_of_ne_nil _ (List.append_ne_nil_of_right_ne_nil _ some'),
          List.getLast?_append_of_ne_nil _ some']
        exact read.last
    simpa only [List.nil_append, List.append_assoc, read.split] using framed
  have body := body?_eq textureKeyword.toList indented gapped spaced space_ne
    ⟨'@', sign, by decide⟩ (slot ++ (between ++ (source ++ tail)))
  have first : nextWord? (slot ++ (between ++ (word ++ rest))) =
      some (slot, between ++ (word ++ rest)) :=
    nextWord?_append (List.forall_mem_nil _) named.ne_nil named.visible
      (EndsWord.of_blanks blank between_ne _)
  have second : nextWord? (between ++ (word ++ rest)) = some (word, rest) :=
    nextWord?_append blank read.word_ne read.visible read.ends
  simp only [Directive.texture?, body, trimmed, first, second, named.channel? formed.channel,
    read.source?, Option.bind_eq_bind, Option.bind_some]

/-- The words of a source, one space apart and a file name in quotes. -/
def TextureSource.spell : TextureSource → List Char
  | .builtin pattern => pattern.name.toList
  | .file name => "file".toList ++ ([' '] ++ '"' :: (name.toList ++ ['"']))
  | .microphone size => "mic".toList ++ ([' '] ++ (toString size).toList)

/-- One way to write a directive, its words one space apart. -/
def TextureDirective.spell (directive : TextureDirective) : List Char :=
  ['/', '/'] ++ ([' '] ++ (textureKeyword.toList ++ ([' '] ++
    ((toString directive.channel).toList ++ ([' '] ++ directive.source.spell)))))

theorem TextureDirective.line_spell (directive : TextureDirective) :
    directive.Line directive.spell := by
  have space : Blanks [' '] := blanks_of_all rfl
  have some' : [' '] ≠ [] := List.cons_ne_nil _ _
  have given : SourceText directive.source directive.source.spell := by
    cases directive.source with
    | builtin pattern => exact .builtin pattern
    | file name => exact .file space some' .quoted
    | microphone size => exact .microphone size space some'
  have line := @Line.mk directive [] [' '] [' '] _ [' '] _ [] (List.forall_mem_nil _) space space
    some' .digit space some' given (List.forall_mem_nil _)
  rwa [List.append_nil, List.nil_append] at line

/-- Every way to write a directive of a texture is read as the directive. A text that has one such
line among white space declares just this directive, as long as no line feed stands between the
first and the last visible character of the line. What is read off a line, however it was written,
keeps the rules and can be written again. -/
theorem texture_lines_read :
    (∀ (directive : TextureDirective) (line : List Char), directive.WellFormed →
      directive.Line line → texture? line = some directive ∧
        ('\n' ∉ trim line → Directives.ofSource (String.ofList line) = ⟨[], [directive]⟩)) ∧
    ∀ (line : List Char) (directive : TextureDirective), texture? line = some directive →
      directive.WellFormed ∧ directive.Line directive.spell ∧
        ∀ again, directive.Line again → texture? again = some directive := by
  refine ⟨fun directive line formed written => ?_, fun line directive read => ?_⟩
  · have read := written.texture? formed
    refine ⟨read, fun single => ?_⟩
    have declared : lineDirective line = some (.inr directive) := by
      rw [lineDirective, candidate_of_texture? read]
      simp only [read, Option.map_some]
    rw [Directives.ofSource, String.toList_ofList, Directives.ofChars,
      filterMap_lines_single single, declared]
    rfl
  · have formed := texture?_wellFormed read
    exact ⟨formed, directive.line_spell, fun again written => written.texture? formed⟩

/-- A name that has a quote, ends in a space and begins with a word for another source, on a line
that ends in a carriage return and a line feed. -/
theorem texture_lines_read_quoted :
    TextureDirective.WellFormed ⟨3, .file "mic\" "⟩ ∧
      TextureDirective.Line ⟨3, .file "mic\" "⟩
        "\t//@texture  iChannel3 file\t\"mic\" \" \r\n".toList ∧
      '\n' ∉ trim "\t//@texture  iChannel3 file\t\"mic\" \" \r\n".toList ∧
      texture? "\t//@texture  iChannel3 file\t\"mic\" \" \r\n".toList =
        some ⟨3, .file "mic\" "⟩ ∧
      Directives.ofSource (String.ofList "\t//@texture  iChannel3 file\t\"mic\" \" \r\n".toList) =
        ⟨[], [⟨3, .file "mic\" "⟩]⟩ ∧
      texture? (TextureDirective.spell ⟨3, .file "mic\" "⟩) = some ⟨3, .file "mic\" "⟩ := by
  obtain ⟨directive, same⟩ : ∃ directive : TextureDirective, directive = ⟨3, .file "mic\" "⟩ :=
    ⟨_, rfl⟩
  have formed : directive.WellFormed := by
    rw [same]
    refine ⟨by decide, ?_, ?_⟩
    · rintro _ ⟨⟩
    · rintro _ ⟨⟩
      decide
  have line : directive.Line "\t//@texture  iChannel3 file\t\"mic\" \" \r\n".toList := by
    have whole : "\t//@texture  iChannel3 file\t\"mic\" \" \r\n".toList =
        ['\t'] ++ (['/', '/'] ++ ([] ++ (textureKeyword.toList ++ ([' ', ' '] ++
          (("iChannel".toList ++ (toString 3).toList) ++ ([' '] ++
            (("file".toList ++ (['\t'] ++ '"' :: ("mic\" ".toList ++ ['"']))) ++
              [' ', '\r', '\n']))))))) := by
      decide +kernel
    rw [whole, same]
    exact .mk (blanks_of_all rfl) (blanks_of_all rfl) (blanks_of_all rfl) (List.cons_ne_nil _ _)
      .sampler (blanks_of_all rfl) (List.cons_ne_nil _ _)
      (.file (blanks_of_all rfl) (List.cons_ne_nil _ _) .quoted) (blanks_of_all rfl)
  have single : '\n' ∉ trim "\t//@texture  iChannel3 file\t\"mic\" \" \r\n".toList := by
    decide +kernel
  have read := texture_lines_read.1 directive _ formed line
  have again := texture_lines_read.2 _ directive read.1
  rw [← same]
  exact ⟨formed, line, single, read.1, read.2 single, again.2.2 _ again.2.1⟩

/-- A line feed between two words parts them for the reader of a text, though not for the reader of
a line. -/
theorem texture_line_broken :
    TextureDirective.WellFormed ⟨0, .builtin .noise⟩ ∧
      TextureDirective.Line ⟨0, .builtin .noise⟩ "// @texture 0\nnoise".toList ∧
      texture? "// @texture 0\nnoise".toList = some ⟨0, .builtin .noise⟩ ∧
      Directives.ofSource "// @texture 0\nnoise" ≠ ⟨[], [⟨0, .builtin .noise⟩]⟩ := by
  refine ⟨⟨by decide, ?_, ?_⟩, ?_, by decide +kernel, ?_⟩
  · rintro _ ⟨⟩
  · rintro _ ⟨⟩
  · have whole : "// @texture 0\nnoise".toList =
        [] ++ (['/', '/'] ++ ([' '] ++ (textureKeyword.toList ++ ([' '] ++ ((toString 0).toList ++
          (['\n'] ++ (Pattern.noise.name.toList ++ []))))))) := by
      decide +kernel
    rw [whole]
    exact .mk (blanks_of_all rfl) (blanks_of_all rfl) (blanks_of_all rfl) (List.cons_ne_nil _ _)
      .digit (blanks_of_all rfl) (List.cons_ne_nil _ _) (.builtin .noise) (blanks_of_all rfl)
  · intro same
    have none : (Directives.ofSource "// @texture 0\nnoise").textures = [] := by decide +kernel
    rw [same] at none
    cases none

end Directive

end LiveFragment
