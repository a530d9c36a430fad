import LiveFragment.Proofs.Uniform.Std140

namespace LiveFragment.Uniform.Words

open LiveFragment.Parameter

/-- Why there is no layout. -/
inductive Stop
  | tooLarge
  /-- A number that was taken to fit into a word does not. -/
  | overflow
deriving DecidableEq, Repr

/-- A number as a word, if it fits into one. -/
def word (n : Nat) (otherwise : Stop) : Except Stop UInt32 :=
  if n < UInt32.size then .ok (.ofNat n) else .error otherwise

def add (a b : UInt32) : Except Stop UInt32 := word (a.toNat + b.toNat) .overflow

def multiply (a b : UInt32) : Except Stop UInt32 := word (a.toNat * b.toNat) .overflow

/-- The quotient rounded up, found by its remainder. -/
def divideUp (position alignment : UInt32) : Except Stop UInt32 :=
  if position % alignment = 0 then .ok (position / alignment) else add (position / alignment) 1

def align (position alignment : UInt32) : Except Stop UInt32 := do
  multiply (← divideUp position alignment) alignment

def elementOffsets (start length : UInt32) : Except Stop (List UInt32) :=
  (List.range length.toNat).mapM fun index => do add start (← multiply (.ofNat index) 16)

/-- The end of an array is compared with the largest block even where it does not fit into a
word. -/
def placeArray (position : UInt32) (length : Nat) : Except Stop (List UInt32 × UInt32) := do
  let length ← word length .tooLarge
  let start ← align position 16
  let bytes ← word (16 * length.toNat) .tooLarge
  let stop ← word (start.toNat + bytes.toNat) .tooLarge
  if maxBlockBytes < stop.toNat then throw .tooLarge
  return (← elementOffsets start length, stop)

def placeSingle (position : UInt32) (shape : Shape) : Except Stop (List UInt32 × UInt32) := do
  let start ← align position (.ofNat (alignment shape))
  let stop ← add start (.ofNat (byteSize shape))
  if maxBlockBytes < stop.toNat then throw .tooLarge
  return ([start], stop)

/-- Places one member behind a position. -/
def place (position : UInt32) (member : Definition) : Except Stop (List UInt32 × UInt32) :=
  match member.length with
  | some length => placeArray position length
  | none => placeSingle position member.shape

def placeAll : UInt32 → List Definition → Except Stop (List (List UInt32) × UInt32)
  | position, [] => pure ([], position)
  | position, member :: rest => do
    let (offsets, stop) ← place position member
    let (others, last) ← placeAll stop rest
    pure (offsets :: others, last)

def layout (members : List Definition) : Except Stop (List (List UInt32) × UInt32) := do
  let (offsets, stop) ← placeAll 0 members
  let size ← align stop 16
  pure (offsets, size)

/-- The numbers that the words of a layout stand for. -/
def toLayout (words : List (List UInt32) × UInt32) : Layout :=
  ⟨words.1.map (·.map UInt32.toNat), words.2.toNat⟩

/-- A computation in words has the result of one in numbers, and is too large where that has none.
It does not overflow. -/
inductive Agrees {α β : Type} (read : α → β) : Except Stop α → Option β → Prop
  | result (words : α) : Agrees read (.ok words) (some (read words))
  | tooLarge : Agrees read (.error .tooLarge) none

theorem word_ok {n : Nat} (fits : n < UInt32.size) (otherwise : Stop) :
    ∃ w, word n otherwise = .ok w ∧ w.toNat = n :=
  ⟨.ofNat n, if_pos fits, UInt32.toNat_ofNat_of_lt' fits⟩

theorem word_cases (n : Nat) (otherwise : Stop) :
    (∃ w, word n otherwise = .ok w ∧ w.toNat = n) ∨
      UInt32.size ≤ n ∧ word n otherwise = .error otherwise := by
  by_cases fits : n < UInt32.size
  · exact .inl (word_ok fits otherwise)
  · exact .inr ⟨Nat.le_of_not_lt fits, if_neg fits⟩

theorem divideUp_ok {position alignment : UInt32} (positive : 0 < alignment.toNat)
    (fits : position.toNat + alignment.toNat ≤ UInt32.size) :
    ∃ quotient, divideUp position alignment = .ok quotient ∧
      position.toNat ≤ quotient.toNat * alignment.toNat ∧
      quotient.toNat * alignment.toNat < position.toNat + alignment.toNat := by
  have split := Nat.div_add_mod' position.toNat alignment.toNat
  have below := Nat.mod_lt position.toNat positive
  have whole : position % alignment = 0 ↔ position.toNat % alignment.toNat = 0 := by
    rw [← UInt32.toNat_inj, UInt32.toNat_mod]
    rfl
  unfold divideUp
  split
  · rename_i even
    have rest := whole.mp even
    refine ⟨_, rfl, ?_⟩
    rw [UInt32.toNat_div]
    omega
  · rename_i odd
    have rest := mt whole.mpr odd
    have quotient := Nat.div_le_self position.toNat alignment.toNat
    have small : (position / alignment).toNat + (1 : UInt32).toNat < UInt32.size := by
      rw [UInt32.toNat_div, UInt32.toNat_one]
      omega
    obtain ⟨quotient, sum, same⟩ := word_ok small .overflow
    refine ⟨quotient, sum, ?_⟩
    rw [same, UInt32.toNat_div, UInt32.toNat_one, Nat.succ_mul]
    omega

theorem align_ok {position alignment : UInt32} (positive : 0 < alignment.toNat)
    (fits : position.toNat + alignment.toNat ≤ UInt32.size) :
    ∃ start, align position alignment = .ok start ∧
      start.toNat = alignUp position.toNat alignment.toNat := by
  obtain ⟨quotient, divided, above, near⟩ := divideUp_ok positive fits
  obtain ⟨start, product, same⟩ := word_ok (Nat.lt_of_lt_of_le near fits) .overflow
  refine ⟨start, ?_, ?_⟩
  · rw [align, divided]
    exact product
  · rw [same]
    exact (Aligned.of_lt (Nat.dvd_mul_left ..) above near).eq_alignUp positive

theorem mapM_ok {α : Type} {compute : α → Except Stop UInt32} {value : α → Nat} {items : List α}
    (each : ∀ item ∈ items, ∃ w, compute item = .ok w ∧ w.toNat = value item) :
    ∃ words, items.mapM compute = .ok words ∧ words.map UInt32.toNat = items.map value := by
  induction items with
  | nil => exact ⟨[], rfl, rfl⟩
  | cons item rest ih =>
    obtain ⟨first, computed, same⟩ := each item (by simp)
    obtain ⟨others, all, agree⟩ := ih fun other member => each other (by simp [member])
    refine ⟨first :: others, ?_, ?_⟩
    · rw [List.mapM_cons, computed, all]
      rfl
    · rw [List.map_cons, List.map_cons, same, agree]

/-- The elements of an array that fits into a block have their offsets. -/
theorem elementOffsets_ok {start length : UInt32}
    (within : start.toNat + 16 * length.toNat < UInt32.size) :
    ∃ offsets, elementOffsets start length = .ok offsets ∧
      offsets.map UInt32.toNat =
        (List.range length.toNat).map fun index => start.toNat + index * 16 := by
  apply mapM_ok
  intro index member
  have below : index < length.toNat := List.mem_range.mp member
  have exact : (UInt32.ofNat index).toNat = index := UInt32.toNat_ofNat_of_lt' (by omega)
  have sixteen : (16 : UInt32).toNat = 16 := rfl
  have times : (UInt32.ofNat index).toNat * (16 : UInt32).toNat < UInt32.size := by
    rw [exact, sixteen]
    omega
  obtain ⟨distance, product, far⟩ := word_ok times .overflow
  rw [exact, sixteen] at far
  have plus : start.toNat + distance.toNat < UInt32.size := by omega
  obtain ⟨offset, sum, same⟩ := word_ok plus .overflow
  refine ⟨offset, ?_, same.trans (by rw [far])⟩
  simp only [multiply, product, bind, Except.bind]
  exact sum

/-- What the words of a place stand for. -/
def toPlace (words : List UInt32 × UInt32) : List Nat × Nat :=
  (words.1.map UInt32.toNat, words.2.toNat)

theorem placeArray_agrees {position : UInt32} (within : position.toNat ≤ maxBlockBytes)
    (length : Nat) :
    Agrees toPlace (placeArray position length)
      (let start := alignUp position.toNat 16
      let stop := start + 16 * length
      if stop ≤ maxBlockBytes then
        some ((List.range length).map fun index => start + index * 16, stop)
      else none) := by
  have most : maxBlockBytes = 65536 := rfl
  have words : UInt32.size = 4294967296 := rfl
  have sixteen : (16 : UInt32).toNat = 16 := rfl
  obtain ⟨start, aligned, starts⟩ : ∃ start, align position 16 = .ok start ∧
      start.toNat = alignUp position.toNat 16 :=
    align_ok (by decide) (by omega)
  dsimp only
  rw [← starts]
  split
  · rename_i fits
    obtain ⟨count, counted, same⟩ := word_ok (n := length) (by omega) .tooLarge
    obtain ⟨bytes, product, far⟩ := word_ok (n := 16 * count.toNat) (by omega) .tooLarge
    obtain ⟨stop, sum, ends⟩ := word_ok (n := start.toNat + bytes.toNat) (by omega) .tooLarge
    have fit : start.toNat + 16 * count.toNat < UInt32.size := by omega
    obtain ⟨offsets, placed, agree⟩ := elementOffsets_ok fit
    have inside : ¬ maxBlockBytes < stop.toNat := by omega
    have result : ((List.range length).map fun index => start.toNat + index * 16,
        start.toNat + 16 * length) = toPlace (offsets, stop) := by
      rw [toPlace, agree, ends, far, same]
    rw [result]
    simp only [placeArray, counted, aligned, product, sum, placed, bind, Except.bind, inside,
      if_false]
    exact .result (offsets, stop)
  · rename_i late
    unfold placeArray
    rcases word_cases length .tooLarge with ⟨count, counted, same⟩ | ⟨_, counted⟩
    · rcases word_cases (16 * count.toNat) .tooLarge with ⟨bytes, product, far⟩ | ⟨_, product⟩
      · rcases word_cases (start.toNat + bytes.toNat) .tooLarge with
          ⟨stop, sum, ends⟩ | ⟨_, sum⟩
        · have beyond : maxBlockBytes < stop.toNat := by omega
          simp only [counted, aligned, product, sum, bind, Except.bind, beyond, if_true]
          exact .tooLarge
        · simp only [counted, aligned, product, sum, bind, Except.bind]
          exact .tooLarge
      · simp only [counted, aligned, product, bind, Except.bind]
        exact .tooLarge
    · simp only [counted, bind, Except.bind]
      exact .tooLarge

theorem placeSingle_agrees {position : UInt32} (within : position.toNat ≤ maxBlockBytes)
    (shape : Shape) :
    Agrees toPlace (placeSingle position shape)
      (let start := alignUp position.toNat (alignment shape)
      let stop := start + byteSize shape
      if stop ≤ maxBlockBytes then some ([start], stop) else none) := by
  have most : maxBlockBytes = 65536 := rfl
  have words : UInt32.size = 4294967296 := rfl
  obtain ⟨positive, small, aligns, sizes, short⟩ :
      0 < alignment shape ∧ alignment shape ≤ 16 ∧
        (UInt32.ofNat (alignment shape)).toNat = alignment shape ∧
        (UInt32.ofNat (byteSize shape)).toNat = byteSize shape ∧ byteSize shape ≤ 16 := by
    cases shape <;> decide
  obtain ⟨start, aligned, starts⟩ : ∃ start, align position (.ofNat (alignment shape)) = .ok start ∧
      start.toNat = alignUp position.toNat (UInt32.ofNat (alignment shape)).toNat :=
    align_ok (by omega) (by omega)
  rw [aligns] at starts
  have near := (alignUp_near positive position.toNat).2
  obtain ⟨stop, sum, ends⟩ : ∃ stop, add start (.ofNat (byteSize shape)) = .ok stop ∧
      stop.toNat = start.toNat + (UInt32.ofNat (byteSize shape)).toNat :=
    word_ok (by omega) .overflow
  rw [sizes] at ends
  dsimp only
  rw [← starts, ← ends]
  by_cases fits : stop.toNat ≤ maxBlockBytes
  · simp only [placeSingle, aligned, sum, bind, Except.bind, fits, Nat.not_lt.mpr fits, if_true,
      if_false]
    exact .result ([start], stop)
  · simp only [placeSingle, aligned, sum, bind, Except.bind, fits, Nat.lt_of_not_le fits, if_true,
      if_false]
    exact .tooLarge

theorem place_agrees {position : UInt32} (within : position.toNat ≤ maxBlockBytes)
    (member : Definition) :
    Agrees toPlace (place position member) (Layout.place? position.toNat member) := by
  unfold place Layout.place?
  cases member.length with
  | some length => exact placeArray_agrees within length
  | none => exact placeSingle_agrees within member.shape

/-- What the words of several places stand for. -/
def toPlaces (words : List (List UInt32) × UInt32) : List (List Nat) × Nat :=
  (words.1.map (·.map UInt32.toNat), words.2.toNat)

theorem placeAll_agrees {position : UInt32} (within : position.toNat ≤ maxBlockBytes)
    (members : List Definition) :
    Agrees toPlaces (placeAll position members) (Layout.placeAll? position.toNat members) := by
  induction members generalizing position with
  | nil => exact .result ([], position)
  | cons member rest ih =>
    have one := place_agrees within member
    simp only [placeAll, Layout.placeAll?]
    generalize place position member = words at one ⊢
    generalize placed : Layout.place? position.toNat member = numbers at one ⊢
    cases one with
    | tooLarge => exact .tooLarge
    | result first =>
      have others := ih (Layout.place?_le placed)
      simp only [toPlace, bind, Except.bind, Option.bind_some]
      generalize placeAll first.2 rest = words at others ⊢
      generalize Layout.placeAll? first.2.toNat rest = numbers at others ⊢
      cases others with
      | tooLarge => exact .tooLarge
      | result last => exact .result (first.1 :: last.1, last.2)

/-- The layout of a block in words is its layout in numbers, and no sum or product overflows. -/
theorem layout_agrees (members : List Definition) :
    Agrees toLayout (layout members) (Layout.ofDefinitions? members) := by
  have start : (0 : UInt32).toNat ≤ maxBlockBytes := Nat.zero_le _
  have all := placeAll_agrees start members
  simp only [layout, Layout.ofDefinitions?]
  generalize placeAll 0 members = words at all ⊢
  generalize placed : Layout.placeAll? (0 : UInt32).toNat members = numbers at all
  have same : Layout.placeAll? 0 members = numbers := placed
  rw [same]
  cases all with
  | tooLarge => exact .tooLarge
  | result words =>
    have within : words.2.toNat ≤ maxBlockBytes := Layout.placeAll?_le (Nat.zero_le _) same
    have most : maxBlockBytes = 65536 := rfl
    have size : UInt32.size = 4294967296 := rfl
    have sixteen : (16 : UInt32).toNat = 16 := rfl
    obtain ⟨stop, aligned, ends⟩ : ∃ stop, align words.2 16 = .ok stop ∧
        stop.toNat = alignUp words.2.toNat (16 : UInt32).toNat :=
      align_ok (by omega) (by omega)
    simp only [bind, Except.bind, aligned, Option.map_some, toPlaces]
    rw [sixteen] at ends
    rw [← ends]
    exact .result (words.1, stop)

end LiveFragment.Uniform.Words
