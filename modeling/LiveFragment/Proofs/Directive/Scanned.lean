import Mathlib.Data.List.Sort
import LiveFragment.Proofs.Directive.Declared
import LiveFragment.Proofs.Text.Lines

/-! Reading all lines of a text comes to reading each line on its own: the look at the first word of
a comment hides no line that a reader accepts. What a text declares is then told by its lines, and
what two texts declare together by what each of them does. -/

namespace LiveFragment

open LiveFragment.Text LiveFragment.Parameter

namespace Directive

/-- The same text, or the text with one more white space behind it. -/
def Padded (text padded : List Char) : Prop :=
  padded = text ∨ ∃ c, isBlank c = true ∧ padded = text ++ [c]

namespace Padded

variable {text padded : List Char}

theorem trimStart (pads : Padded text padded) : Padded (trimStart text) (trimStart padded) := by
  rcases pads with rfl | ⟨c, blank, rfl⟩
  · exact .inl rfl
  · have moved : Text.trimStart (text ++ [c]) =
        if (Text.trimStart text).isEmpty then Text.trimStart [c] else Text.trimStart text ++ [c] :=
      List.dropWhile_append
    rw [moved]
    split
    · rename_i empty
      rw [List.isEmpty_iff.mp empty]
      exact .inl (List.dropWhile_cons_of_pos blank)
    · exact .inr ⟨c, blank, rfl⟩

theorem trim (pads : Padded text padded) : Text.trim padded = Text.trim text := by
  unfold Text.trim
  rcases pads.trimStart with same | ⟨c, blank, behind⟩
  · rw [same]
  · rw [behind, trimEnd_concat, if_pos blank]

theorem isPrefixOf? (pads : Padded text padded) {word : List Char}
    (visible : ∀ c ∈ word, isBlank c = false) :
    Option.Rel Padded (word.isPrefixOf? text) (word.isPrefixOf? padded) := by
  induction word generalizing text padded with
  | nil => exact .some pads
  | cons d word ih =>
    obtain ⟨first, others⟩ := List.forall_mem_cons.mp visible
    rcases pads with rfl | ⟨c, blank, rfl⟩
    · cases (d :: word).isPrefixOf? padded with
      | none => exact .none
      | some rest => exact .some (.inl rfl)
    · cases text with
      | nil =>
        have other : (d == c) = false := by
          rw [beq_eq_false_iff_ne]
          rintro rfl
          rw [blank] at first
          cases first
        simp only [List.nil_append, List.isPrefixOf?, other, Bool.false_eq_true, ↓reduceIte]
        exact .none
      | cons e text =>
        simp only [List.cons_append, List.isPrefixOf?]
        split
        · exact ih (.inr ⟨c, blank, rfl⟩) others
        · exact .none

end Padded

theorem bind_eq_of_rel {α β : Type} {R : α → α → Prop} {first second : Option α}
    (related : Option.Rel R first second) {read : α → Option β}
    (agree : ∀ a b, R a b → read b = read a) : second.bind read = first.bind read := by
  cases related with
  | none => rfl
  | some here => exact agree _ _ here

theorem body?_padded {keyword : List Char} (visible : ∀ c ∈ keyword, isBlank c = false)
    {line padded : List Char} (pads : Padded line padded) :
    body? keyword padded = body? keyword line := by
  have clear : ∀ c ∈ slashes, isBlank c = false := by simp [slashes, isBlank]
  unfold body?
  refine bind_eq_of_rel (pads.trimStart.isPrefixOf? clear) fun comment paddedComment pads => ?_
  refine bind_eq_of_rel (pads.trimStart.isPrefixOf? visible) fun rest paddedRest pads => ?_
  have trimmed := pads.trim
  rcases pads with rfl | ⟨c, blank, rfl⟩
  · rfl
  · cases rest with
    | nil =>
      simp only [List.nil_append, blank, ↓reduceIte]
      exact congrArg some trimmed
    | cons d rest =>
      rw [List.cons_append] at trimmed
      simp only [List.cons_append, trimmed]

theorem definition?_padded {line padded : List Char} (pads : Padded line padded) :
    definition? padded = definition? line := by
  unfold definition?
  rw [body?_padded (by simp [paramKeyword, isBlank]) pads]

theorem texture?_padded {line padded : List Char} (pads : Padded line padded) :
    texture? padded = texture? line := by
  unfold texture?
  rw [body?_padded (by simp [textureKeyword, isBlank]) pads]

/-- A line with a body is a comment, and the keyword is the first thing behind its slashes. -/
theorem comment_of_body? {keyword line body : List Char} (given : body? keyword line = some body)
    {first : Char} {letters : List Char} (starts : keyword = first :: letters)
    (other : first ≠ '/') :
    slashes.isPrefixOf (trimStart line) = true ∧
      ∃ rest, trimStart ((trimStart line).dropWhile (· == '/')) = keyword ++ rest := by
  unfold body? at given
  obtain ⟨comment, start, given⟩ := Option.bind_eq_some_iff.mp given
  obtain ⟨rest, word, given⟩ := Option.bind_eq_some_iff.mp given
  have opened := List.isPrefixOf?_eq_some_iff_append_eq.mp start
  have named := List.isPrefixOf?_eq_some_iff_append_eq.mp word
  have clear : comment.dropWhile (· == '/') = comment := by
    cases comment with
    | nil => rfl
    | cons c comment =>
      apply List.dropWhile_cons_of_neg
      intro slash
      obtain rfl : c = '/' := by simpa using slash
      rw [trimStart_cons (by decide), starts] at named
      exact other (List.cons.inj named).1
  rw [← opened]
  refine ⟨List.isPrefixOf_iff_prefix.mpr (List.prefix_append ..), rest, ?_⟩
  simp only [slashes, List.cons_append, List.nil_append, List.dropWhile_cons, beq_self_eq_true,
    ↓reduceIte, clear, named]

theorem candidate_of_definition? {line : List Char} {definition : Definition}
    (declared : definition? line = some definition) : candidate line = .param := by
  unfold definition? at declared
  obtain ⟨body, given, _⟩ := Option.bind_eq_some_iff.mp declared
  obtain ⟨slashed, rest, word⟩ := comment_of_body? given rfl (by decide)
  have first : paramKeyword.toList.isPrefixOf (paramKeyword.toList ++ rest) = true :=
    List.isPrefixOf_iff_prefix.mpr (List.prefix_append ..)
  simp only [candidate, slashed, word, first, Bool.not_true, Bool.false_eq_true, ↓reduceIte]

theorem candidate_of_texture? {line : List Char} {directive : TextureDirective}
    (declared : texture? line = some directive) : candidate line = .texture := by
  unfold texture? at declared
  obtain ⟨body, given, _⟩ := Option.bind_eq_some_iff.mp declared
  obtain ⟨slashed, rest, word⟩ := comment_of_body? given rfl (by decide)
  have other : paramKeyword.toList.isPrefixOf (textureKeyword.toList ++ rest) = false := rfl
  have first : textureKeyword.toList.isPrefixOf (textureKeyword.toList ++ rest) = true :=
    List.isPrefixOf_iff_prefix.mpr (List.prefix_append ..)
  simp only [candidate, slashed, word, other, first, Bool.not_true, Bool.false_eq_true, ↓reduceIte]

theorem left_lineDirective (line : List Char) :
    (lineDirective line).bind Sum.getLeft? = definition? line := by
  unfold lineDirective
  cases declared : definition? line with
  | some definition => simp [candidate_of_definition? declared]
  | none => split <;> simp

theorem right_lineDirective (line : List Char) :
    (lineDirective line).bind Sum.getRight? = texture? line := by
  unfold lineDirective
  cases declared : texture? line with
  | some directive => simp [candidate_of_texture? declared]
  | none => split <;> simp

theorem lineDirective_eq (line : List Char) :
    lineDirective line = ((definition? line).map Sum.inl).or ((texture? line).map Sum.inr) := by
  unfold lineDirective
  cases param : definition? line with
  | some definition => simp [candidate_of_definition? param]
  | none =>
    cases texture : texture? line with
    | some directive => simp [candidate_of_texture? texture]
    | none => split <;> rfl

theorem lineDirective_padded {line padded : List Char} (pads : Padded line padded) :
    lineDirective padded = lineDirective line := by
  simp only [lineDirective_eq, definition?_padded pads, texture?_padded pads]

def sameName (first second : Definition) : Bool := first.name == second.name

/-- What does not depend on more than the name may be dropped before or after. -/
theorem filter_eraseDupsBy {α : Type} {same : α → α → Bool} {keeps : α → Bool}
    (alike : ∀ a b, same a b = true → keeps a = keeps b) (entries : List α) :
    (entries.eraseDupsBy same).filter keeps = (entries.filter keeps).eraseDupsBy same := by
  match entries with
  | [] => rfl
  | first :: rest =>
    rw [List.eraseDupsBy_cons, List.filter_cons, List.filter_cons, filter_eraseDupsBy alike]
    split
    · rw [List.eraseDupsBy_cons, List.filter_filter, List.filter_filter]
      simp only [Bool.and_comm]
    · rename_i dropped
      rw [List.filter_filter]
      congr 1
      apply List.filter_congr
      intro other _
      cases equal : same other first with
      | true => simp [alike other first equal, dropped]
      | false => simp
termination_by entries.length
decreasing_by exact Nat.lt_succ_of_le (List.length_filter_le ..)

namespace Directives

/-- A definition is new when none of its name was found before. -/
def isNew (found : Directives) (definition : Definition) : Bool :=
  !found.params.any (·.name == definition.name)

theorem foldl_add_params (entries : List (Definition ⊕ TextureDirective)) (found : Directives) :
    (entries.foldl add found).params =
      found.params ++
        ((entries.filterMap Sum.getLeft?).filter found.isNew).eraseDupsBy sameName := by
  induction entries generalizing found with
  | nil => simp
  | cons entry rest ih =>
    rw [List.foldl_cons, ih]
    cases entry with
    | inr directive => rfl
    | inl definition =>
      rw [List.filterMap_cons_some (Sum.getLeft?_inl ..)]
      cases known : found.params.any (·.name == definition.name) with
      | true =>
        have old : ¬ found.isNew definition = true := by simp [isNew, known]
        rw [List.filter_cons_of_neg old, add, if_pos known]
      | false =>
        have new : found.isNew definition = true := by simp [isNew, known]
        have later : (found.add (.inl definition)).isNew =
            fun other => !sameName other definition && found.isNew other := by
          funext other
          simp [isNew, add, known, sameName, Bool.beq_comm (a := definition.name), Bool.and_comm]
        rw [List.filter_cons_of_pos new, List.eraseDupsBy_cons, List.filter_filter, later]
        simp [add, known]

/-- A texture directive takes its channel over and leaves the others alone. -/
theorem find?_add (found : Directives) (directive : TextureDirective) (channel : Nat) :
    (found.add (.inr directive)).textures.find? (·.channel == channel) =
      if directive.channel = channel then some directive
      else found.textures.find? (·.channel == channel) := by
  -- A channel is looked for on its own side of the new directive and is missing on the other.
  have missing {aside : TextureDirective → Bool}
      (apart : ∀ other, aside other = true → other.channel ≠ channel) :
      (found.textures.filter aside).find? (·.channel == channel) = none := by
    apply List.find?_eq_none.mpr
    intro other member same
    exact apart other (List.mem_filter.mp member).2 (by simpa using same)
  have present {aside : TextureDirective → Bool}
      (around : ∀ other, other.channel = channel → aside other = true) :
      (found.textures.filter aside).find? (·.channel == channel) =
        found.textures.find? (·.channel == channel) := by
    rw [List.find?_filter]
    congr 1
    funext other
    cases same : other.channel == channel with
    | false => simp
    | true => simp [around other (by simpa using same)]
  simp only [add, List.find?_append, List.find?_cons]
  rcases Nat.lt_trichotomy directive.channel channel with above | rfl | below
  · have other : (directive.channel == channel) = false := by simpa using Nat.ne_of_lt above
    rw [missing fun other => by simp; omega, present fun other => by simp; omega]
    simp [other, Nat.ne_of_lt above]
  · rw [missing fun other => by simp; omega]
    simp
  · have other : (directive.channel == channel) = false := by simpa using Nat.ne_of_gt below
    rw [present fun other => by simp; omega, missing fun other => by simp; omega]
    simp [other, Nat.ne_of_gt below]

theorem find?_foldl_add (entries : List (Definition ⊕ TextureDirective)) (found : Directives)
    (channel : Nat) :
    (entries.foldl add found).textures.find? (·.channel == channel) =
      (((entries.filterMap Sum.getRight?).filter (·.channel == channel)).getLast?).or
        (found.textures.find? (·.channel == channel)) := by
  induction entries generalizing found with
  | nil => rfl
  | cons entry rest ih =>
    rw [List.foldl_cons, ih]
    cases entry with
    | inl definition =>
      rw [List.filterMap_cons_none (Sum.getRight?_inl ..), add]
      split <;> rfl
    | inr directive =>
      rw [List.filterMap_cons_some (Sum.getRight?_inr ..), find?_add, List.filter_cons]
      by_cases same : directive.channel = channel
      · simp only [same, beq_self_eq_true, ↓reduceIte, List.getLast?_cons]
        cases ((rest.filterMap Sum.getRight?).filter (·.channel == channel)).getLast? <;> rfl
      · simp [same]

/-- Directives in the order of their channels are those found channel by channel. -/
theorem filterMap_range {textures : List TextureDirective} {count : Nat}
    (ordered : textures.Pairwise (·.channel < ·.channel))
    (channels : ∀ directive ∈ textures, directive.channel < count) :
    textures =
      (List.range count).filterMap fun channel => textures.find? (·.channel == channel) := by
  have distinct : (textures.map (·.channel)).Nodup :=
    List.pairwise_map.mpr (ordered.imp Nat.ne_of_lt)
  have found {channel : Nat} {directive : TextureDirective}
      (here : textures.find? (·.channel == channel) = some directive) :
      directive.channel = channel ∧ directive ∈ textures :=
    ⟨by simpa using List.find?_some here, List.mem_of_find?_eq_some here⟩
  have irreflexive : Std.Irrefl fun a b : TextureDirective => a.channel < b.channel :=
    ⟨fun _ => Nat.lt_irrefl _⟩
  have antisymmetric : Std.Antisymm fun a b : TextureDirective => a.channel < b.channel :=
    ⟨fun _ _ below above => absurd above (Nat.lt_asymm below)⟩
  apply ordered.eq_of_mem_iff
  · rw [List.pairwise_filterMap]
    refine List.pairwise_lt_range.imp fun below first here second there => ?_
    rwa [(found here).1, (found there).1]
  · intro directive
    rw [List.mem_filterMap]
    constructor
    · intro member
      exact ⟨directive.channel, List.mem_range.mpr (channels directive member),
        find?_of_distinct distinct member⟩
    · rintro ⟨channel, _, here⟩
      exact (found here).2

/-- The definitions that the lines of a text declare, and the textures. -/
def paramLines (text : List Char) : List Definition := (lines text).filterMap definition?

def textureLines (text : List Char) : List TextureDirective := (lines text).filterMap texture?

theorem ofChars_params (text : List Char) :
    (ofChars text).params = (paramLines text).eraseDupsBy sameName := by
  have all : (Directives.mk [] []).isNew = fun _ => true := rfl
  rw [ofChars, foldl_add_params, List.filterMap_filterMap, all, List.filter_true]
  simp only [left_lineDirective, paramLines, List.nil_append]

theorem find?_ofChars (text : List Char) (channel : Nat) :
    (ofChars text).textures.find? (·.channel == channel) =
      ((textureLines text).filter (·.channel == channel)).getLast? := by
  rw [ofChars, find?_foldl_add, List.filterMap_filterMap]
  simp only [right_lineDirective, textureLines, List.find?_nil, Option.or_none]

theorem ofSource_textures (source : String) :
    (ofSource source).textures = (List.range channelCount).filterMap fun channel =>
      (ofSource source).textures.find? (·.channel == channel) :=
  filterMap_range (ordered_ofSource source) (formed_ofSource source).channels

/-- A text behind another is read with what the first one declared. -/
theorem ofChars_join (first second : List Char) :
    ofChars (first ++ '\n' :: second) =
      ((lines second).filterMap lineDirective).foldl add (ofChars first) := by
  have trailing (line : List Char) : lineDirective (line ++ ['\r']) = lineDirective line :=
    lineDirective_padded (.inr ⟨_, by decide, rfl⟩)
  rw [ofChars, filterMap_lines_join rfl trailing, List.foldl_append]
  rfl

theorem ofChars_join_params (first second : List Char) :
    (ofChars (first ++ '\n' :: second)).params =
      (ofChars first).params ++ (ofChars second).params.filter (ofChars first).isNew := by
  have alike (a b : Definition) (same : sameName a b = true) :
      (ofChars first).isNew a = (ofChars first).isNew b := by
    have name : a.name = b.name := by simpa [sameName] using same
    simp only [isNew, name]
  rw [ofChars_join, foldl_add_params, List.filterMap_filterMap, ofChars_params second,
    filter_eraseDupsBy alike]
  simp only [left_lineDirective, paramLines]

theorem find?_ofChars_join (first second : List Char) (channel : Nat) :
    (ofChars (first ++ '\n' :: second)).textures.find? (·.channel == channel) =
      ((ofChars second).textures.find? (·.channel == channel)).or
        ((ofChars first).textures.find? (·.channel == channel)) := by
  rw [ofChars_join, find?_foldl_add, List.filterMap_filterMap, find?_ofChars second]
  simp only [right_lineDirective, textureLines]

/-- A text is read line by line: it declares the first definition of each name, and for each channel
the last texture, that its lines declare; the look at the first word passes over no line that declares
something. So two texts with a line feed between them declare what the first one declares and the
parameters of new names of the second, whose textures take their channels over. -/
theorem read_by_lines (first second : String) :
    (∀ source : String,
      (ofSource source).params = ((lines source.toList).filterMap definition?).eraseDupsBy sameName ∧
      (ofSource source).textures = (List.range channelCount).filterMap fun channel =>
        (((lines source.toList).filterMap texture?).filter (·.channel == channel)).getLast?) ∧
    (∀ line,
      lineDirective line = ((definition? line).map Sum.inl).or ((texture? line).map Sum.inr)) ∧
    (ofSource (first ++ "\n" ++ second)).params =
      (ofSource first).params ++ (ofSource second).params.filter (ofSource first).isNew ∧
    (ofSource (first ++ "\n" ++ second)).textures =
      (List.range channelCount).filterMap fun channel =>
        ((ofSource second).textures.find? (·.channel == channel)).or
          ((ofSource first).textures.find? (·.channel == channel)) := by
  have joined : (first ++ "\n" ++ second).toList = first.toList ++ '\n' :: second.toList := by simp
  refine ⟨fun source => ⟨ofChars_params source.toList, ?_⟩, lineDirective_eq, ?_, ?_⟩
  · rw [ofSource_textures source]
    simp only [ofSource, find?_ofChars, textureLines]
  · simp only [ofSource, joined, ofChars_join_params]
  · rw [ofSource_textures (first ++ "\n" ++ second)]
    simp only [ofSource, joined, find?_ofChars_join]

end Directives

end Directive

end LiveFragment
