import Mathlib.Data.List.Basic
import LiveFragment.Uniform.Block

namespace LiveFragment

theorem wordOfBytes_wordBytes (word : UInt32) : wordOfBytes (wordBytes word) = word := by
  apply UInt32.toBitVec_inj.mp
  apply BitVec.eq_of_getLsbD_eq
  intro i below
  rw [wordBytes]
  simp only [wordOfBytes, UInt32.toBitVec_or, UInt32.toBitVec_shiftLeft, UInt8.toBitVec_toUInt32,
    UInt32.toBitVec_toUInt8, UInt32.toBitVec_shiftRight]
  -- The bit stands in the byte that its number divided by eight says.
  rcases Nat.lt_or_ge i 8 with first | behind
  · simp [below, first]
  rcases Nat.lt_or_ge i 16 with second | behind
  · simp [below, show ¬ i < 8 by omega, show i - 8 < 8 by omega, show 8 + (i - 8) = i by omega]
  rcases Nat.lt_or_ge i 24 with third | behind
  · simp [below, show ¬ i < 8 by omega, show ¬ i - 8 < 8 by omega, show i - 8 - 8 < 8 by omega,
      show 16 + (i - 8 - 8) = i by omega]
  · simp [below, show ¬ i < 8 by omega, show ¬ i - 8 < 8 by omega, show ¬ i - 8 - 8 < 8 by omega,
      show i - 8 - 8 - 8 < 8 by omega, show 24 + (i - 8 - 8 - 8) = i by omega]

theorem length_wordBytes (word : UInt32) : (wordBytes word).length = 4 := rfl

theorem length_words (words : List UInt32) : (words.flatMap wordBytes).length = words.length * 4 := by
  induction words with
  | nil => rfl
  | cons first rest ih =>
    rw [List.flatMap_cons, List.length_append, ih, length_wordBytes, List.length_cons]
    omega

/-- In the bytes of several words, those of a word are at its place. -/
theorem getElem?_words {words : List UInt32} {place : Nat} {word : UInt32}
    (found : words[place]? = some word) {index : Nat} (below : index < 4) :
    (words.flatMap wordBytes)[place * 4 + index]? = (wordBytes word)[index]? := by
  induction words generalizing place with
  | nil => cases found
  | cons first rest ih =>
    rw [List.flatMap_cons]
    cases place with
    | zero =>
      obtain rfl := Option.some.inj found
      rw [Nat.zero_mul, Nat.zero_add, List.getElem?_append_left below]
    | succ place =>
      rw [List.getElem?_append_right (by rw [length_wordBytes]; omega), length_wordBytes,
        ← ih found]
      congr 1
      omega

namespace Bytes

@[simp]
theorem size_overwrite (bytes : Bytes) (position : Nat) (data : List UInt8) :
    (bytes.overwrite position data).size = bytes.size := by
  induction data generalizing bytes position with
  | nil => rfl
  | cons byte rest ih => rw [overwrite, ih, Array.size_setIfInBounds]

/-- Bytes are overwritten from a position on, and all others are kept. -/
theorem getElem?_overwrite (bytes : Bytes) (position index : Nat) {data : List UInt8}
    (inside : position + data.length ≤ bytes.size) :
    (bytes.overwrite position data)[index]? =
      if position ≤ index ∧ index < position + data.length then data[index - position]?
      else bytes[index]? := by
  induction data generalizing bytes position with
  | nil =>
    rw [overwrite, if_neg]
    simp
  | cons byte rest ih =>
    rw [List.length_cons] at inside ⊢
    rw [overwrite, ih _ _ (by rw [Array.size_setIfInBounds]; omega), Array.getElem?_setIfInBounds]
    rcases Nat.lt_trichotomy index position with before | rfl | behind
    · rw [if_neg (by omega), if_neg (by omega), if_neg (by omega)]
    · rw [if_neg (by omega), if_pos rfl, if_pos (by omega), if_pos (by omega), Nat.sub_self]
      rfl
    · have next : index - position = index - (position + 1) + 1 := by omega
      rw [next, List.getElem?_cons_succ]
      split
      · rw [if_pos (by omega)]
      · rw [if_neg (by omega), if_neg (by omega)]

theorem slice?_eq {bytes : Bytes} {position : Nat} {data : List UInt8}
    (inside : position + data.length ≤ bytes.size)
    (each : ∀ index < data.length, bytes[position + index]? = data[index]?) :
    bytes.slice? position data.length = some data := by
  rw [slice?, if_pos inside]
  congr 1
  apply List.ext_getElem?
  intro index
  rw [Array.getElem?_toList, Array.getElem?_extract]
  split
  · rename_i below
    exact each index (by omega)
  · rename_i beyond
    exact (List.getElem?_eq_none (by omega)).symm

end Bytes

namespace Uniform

open LiveFragment.Number LiveFragment.Parameter

/-- Some bytes of a block that follow each other. -/
structure Extent where
  start : Nat
  size : Nat
deriving DecidableEq, Repr

namespace Extent

def stop (extent : Extent) : Nat := extent.start + extent.size

def Covers (extent : Extent) (position : Nat) : Prop :=
  extent.start ≤ position ∧ position < extent.stop

/-- Two extents have no byte in common. -/
def Apart (a b : Extent) : Prop := a.stop ≤ b.start ∨ b.stop ≤ a.start

theorem Apart.symm {a b : Extent} (apart : a.Apart b) : b.Apart a := Or.symm apart

theorem Apart.not_covers {a b : Extent} (apart : a.Apart b) {position : Nat}
    (covered : a.Covers position) : ¬ b.Covers position := by
  simp only [Apart, Covers] at *
  omega

end Extent

/-- An element and the place it is written to. -/
structure Cell where
  offset : Nat
  element : Element
deriving DecidableEq, Repr

namespace Cell

def extent (cell : Cell) : Extent := ⟨cell.offset, (elementBytes cell.element).length⟩

end Cell

namespace Block

/-- The bytes at a position are those of an element: each component is read back bit for bit. -/
def Holds (block : Block) (offset : Nat) : Element → Prop
  | .int value => block.int? offset = some value
  | element => ∀ component x, element.floats[component]? = some x →
      block.float? offset component = some x

def writeCells (block : Block) (cells : List Cell) : Block :=
  cells.foldl (fun block cell => block.write cell.offset cell.element) block

theorem writeCells_append (block : Block) (cells more : List Cell) :
    block.writeCells (cells ++ more) = (block.writeCells cells).writeCells more :=
  List.foldl_append

/-- What writing cells comes to. -/
structure Written (cells : List Cell) (before after : Block) : Prop where
  size : after.bytes.size = before.bytes.size
  writes : after.writes = before.writes + cells.length
  held : ∀ cell ∈ cells, ∀ index < cell.extent.size,
    after.bytes[cell.offset + index]? = (elementBytes cell.element)[index]?
  kept : ∀ position, (∀ cell ∈ cells, ¬ cell.extent.Covers position) →
    after.bytes[position]? = before.bytes[position]?

theorem written_write {block : Block} {cell : Cell}
    (inside : cell.extent.stop ≤ block.bytes.size) :
    Written [cell] block (block.write cell.offset cell.element) := by
  have within : cell.offset + (elementBytes cell.element).length ≤ block.bytes.size := inside
  rw [write, put, if_pos within]
  constructor
  case size => exact Bytes.size_overwrite ..
  case writes => rfl
  case held =>
    intro other member index below
    obtain rfl := List.mem_singleton.mp member
    have covered : other.offset ≤ other.offset + index ∧
        other.offset + index < other.offset + (elementBytes other.element).length := by
      simp only [Cell.extent] at below
      omega
    rw [Bytes.getElem?_overwrite _ _ _ within, if_pos covered, Nat.add_sub_cancel_left]
  case kept =>
    intro position free
    have outside : ¬ (cell.offset ≤ position ∧
        position < cell.offset + (elementBytes cell.element).length) := free cell (by simp)
    rw [Bytes.getElem?_overwrite _ _ _ within, if_neg outside]

/-- Cells inside the block that are apart from each other do not disturb each other. -/
theorem written_writeCells {block : Block} {cells : List Cell}
    (inside : ∀ cell ∈ cells, cell.extent.stop ≤ block.bytes.size)
    (apart : cells.Pairwise fun a b => a.extent.Apart b.extent) :
    Written cells block (block.writeCells cells) := by
  induction cells generalizing block with
  | nil =>
    constructor
    case held => exact fun cell member => nomatch member
    all_goals intros; rfl
  | cons cell rest ih =>
    obtain ⟨first, others⟩ := List.pairwise_cons.mp apart
    have one := written_write (inside cell (by simp))
    have later : ∀ other ∈ rest,
        other.extent.stop ≤ (block.write cell.offset cell.element).bytes.size := by
      intro other member
      rw [one.size]
      exact inside other (by simp [member])
    have all := ih later others
    constructor
    case size => exact all.size.trans one.size
    case writes =>
      rw [writeCells, List.foldl_cons, ← writeCells, all.writes, one.writes]
      simp only [List.length_cons, List.length_nil]
      omega
    case held =>
      intro other member index below
      rcases List.mem_cons.mp member with rfl | later
      · have covered : other.extent.Covers (other.offset + index) := by
          simp only [Extent.Covers, Extent.stop]
          exact ⟨Nat.le_add_right _ _, Nat.add_lt_add_left below _⟩
        rw [← one.held other (by simp) index below]
        exact all.kept _ fun next member => (first next member).not_covers covered
      · exact all.held other later index below
    case kept =>
      intro position free
      rw [← one.kept position fun only member => free only (by
        rw [List.mem_singleton.mp member]
        exact List.mem_cons_self)]
      exact all.kept position fun other member => free other (by simp [member])

theorem word?_eq {block : Block} {offset : Nat} {word : UInt32}
    (inside : offset + 4 ≤ block.bytes.size)
    (each : ∀ index < 4, block.bytes[offset + index]? = (wordBytes word)[index]?) :
    block.word? offset = some word := by
  have read : block.bytes.slice? offset (wordBytes word).length = some (wordBytes word) :=
    Bytes.slice?_eq inside each
  rw [length_wordBytes] at read
  rw [word?, read, Option.map_some, wordOfBytes_wordBytes]

theorem holds_of_bytes {block : Block} {cell : Cell}
    (inside : cell.extent.stop ≤ block.bytes.size)
    (each : ∀ index < cell.extent.size,
      block.bytes[cell.offset + index]? = (elementBytes cell.element)[index]?) :
    block.Holds cell.offset cell.element := by
  obtain ⟨offset, element⟩ := cell
  simp only [Extent.stop, Cell.extent] at inside each
  have floats (spelled : elementBytes element = element.floats.flatMap fun x => wordBytes x.bits) :
      ∀ component x, element.floats[component]? = some x →
        block.float? offset component = some x := by
    intro component x found
    have word : (element.floats.map Single.bits)[component]? = some x.bits := by
      rw [List.getElem?_map, found]
      rfl
    obtain ⟨below, _⟩ := List.getElem?_eq_some_iff.mp word
    rw [spelled, ← List.flatMap_map Single.bits wordBytes, length_words] at inside each
    have read : block.word? (offset + component * 4) = some x.bits := by
      refine word?_eq (by omega) ?_
      intro index small
      rw [Nat.add_assoc, each _ (by omega), getElem?_words word small]
    rw [float?, read]
    rfl
  cases element with
  | int value =>
    have read : block.word? offset = some value.toUInt32 := word?_eq inside each
    rw [Holds, int?, read]
    rfl
  | float x => exact floats rfl
  | vec2 x y => exact floats rfl
  | vec3 x y z => exact floats rfl
  | vec4 x y z w => exact floats rfl

/-- All cells that were written are read back. -/
theorem Written.holds {cells : List Cell} {before after : Block}
    (written : Written cells before after)
    (inside : ∀ cell ∈ cells, cell.extent.stop ≤ before.bytes.size) {cell : Cell}
    (member : cell ∈ cells) : after.Holds cell.offset cell.element :=
  holds_of_bytes (written.size ▸ inside cell member) (written.held cell member)

end Block

end Uniform

end LiveFragment
