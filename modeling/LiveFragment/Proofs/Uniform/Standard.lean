import LiveFragment.Proofs.Uniform.Writes
import LiveFragment.Uniform.Standard

namespace LiveFragment.Uniform

open LiveFragment.Number

namespace Block

/-- Words that are written one after the other are read at multiples of four. -/
theorem word?_words {words : List UInt32} (place writes : Nat) {word : UInt32}
    (found : words[place]? = some word) :
    Block.word? ⟨(words.flatMap wordBytes).toArray, writes⟩ (place * 4) = some word := by
  obtain ⟨below, _⟩ := List.getElem?_eq_some_iff.mp found
  apply word?_eq
  · rw [List.size_toArray, length_words]
    omega
  · intro index small
    rw [List.getElem?_toArray]
    exact getElem?_words found small

theorem float?_words {words : List UInt32} (place writes : Nat) {component : Nat} {x : Single}
    (found : words[place + component]? = some x.bits) :
    Block.float? ⟨(words.flatMap wordBytes).toArray, writes⟩ (place * 4) component = some x := by
  rw [float?, ← Nat.add_mul, word?_words _ writes found]
  rfl

/-- Three numbers at a place. -/
def resolution? (block : Block) (offset : Nat) : Option Resolution := do
  return ⟨← block.float? offset 0, ← block.float? offset 1, ← block.float? offset 2⟩

def quad? (block : Block) (offset : Nat) : Option Quad := do
  return ⟨← block.float? offset 0, ← block.float? offset 1, ← block.float? offset 2,
    ← block.float? offset 3⟩

/-- The size of a channel. A zero stands behind it. -/
def channel? (block : Block) (offset : Nat) : Option Resolution :=
  if block.word? (offset + 12) = some 0 then block.resolution? offset else none

/-- The standard inputs in a block that has room for nothing else. -/
def standard? (block : Block) : Option Standard :=
  if block.bytes.size = 128 then do
    return {
      resolution := ← block.resolution? 0
      time := ← block.float? 12 0
      delta := ← block.float? 16 0
      frame := ← block.word? 20
      rate := ← block.float? 24 0
      beat := ← block.float? 28 0
      pointer := ← block.quad? 32
      date := ← block.quad? 48
      channels := #v[← block.channel? 64, ← block.channel? 80, ← block.channel? 96,
        ← block.channel? 112] }
  else none

theorem resolution?_words {words : List UInt32} (place writes : Nat) {r : Resolution}
    (width : words[place]? = some r.width.bits) (height : words[place + 1]? = some r.height.bits)
    (depth : words[place + 2]? = some r.depth.bits) :
    Block.resolution? ⟨(words.flatMap wordBytes).toArray, writes⟩ (place * 4) = some r := by
  rw [resolution?, float?_words place writes width, float?_words place writes height,
    float?_words place writes depth]
  rfl

theorem quad?_words {words : List UInt32} (place writes : Nat) {q : Quad}
    (x : words[place]? = some q.x.bits) (y : words[place + 1]? = some q.y.bits)
    (z : words[place + 2]? = some q.z.bits) (w : words[place + 3]? = some q.w.bits) :
    Block.quad? ⟨(words.flatMap wordBytes).toArray, writes⟩ (place * 4) = some q := by
  rw [quad?, float?_words place writes x, float?_words place writes y,
    float?_words place writes z, float?_words place writes w]
  rfl

theorem channel?_words {words : List UInt32} (place writes : Nat) {r : Resolution}
    (width : words[place]? = some r.width.bits) (height : words[place + 1]? = some r.height.bits)
    (depth : words[place + 2]? = some r.depth.bits) (padding : words[place + 3]? = some 0) :
    Block.channel? ⟨(words.flatMap wordBytes).toArray, writes⟩ (place * 4) = some r := by
  have zero := word?_words _ writes padding
  rw [Nat.add_mul] at zero
  rw [channel?, zero, if_pos rfl, resolution?_words place writes width height depth]

/-- What is written for a frame is what a program reads. -/
theorem standard?_bytes (standard : Standard) (writes : Nat) :
    Block.standard? ⟨standard.bytes, writes⟩ = some standard := by
  obtain ⟨resolution, time, delta, frame, rate, beat, pointer, date, channels⟩ := standard
  obtain ⟨⟨channels⟩, four⟩ := channels
  obtain ⟨a, b, c, d, rfl⟩ : ∃ a b c d, channels = [a, b, c, d] := List.length_eq_four.mp four
  obtain ⟨words, written⟩ : ∃ words : List UInt32, words =
      [resolution.width.bits, resolution.height.bits, resolution.depth.bits, time.bits, delta.bits,
        frame, rate.bits, beat.bits, pointer.x.bits, pointer.y.bits, pointer.z.bits,
        pointer.w.bits, date.x.bits, date.y.bits, date.z.bits, date.w.bits,
        a.width.bits, a.height.bits, a.depth.bits, 0, b.width.bits, b.height.bits, b.depth.bits, 0,
        c.width.bits, c.height.bits, c.depth.bits, 0, d.width.bits, d.height.bits, d.depth.bits,
        0] := ⟨_, rfl⟩
  have bytes : Standard.bytes ⟨resolution, time, delta, frame, rate, beat, pointer, date,
      ⟨⟨[a, b, c, d]⟩, four⟩⟩ = (words.flatMap wordBytes).toArray := by
    rw [Standard.bytes, written]
    rfl
  have size : (words.flatMap wordBytes).toArray.size = 128 := by
    rw [List.size_toArray, length_words, written]
    rfl
  rw [bytes, standard?, if_pos size]
  subst written
  rw [show Block.resolution? _ 0 = _ from resolution?_words 0 writes rfl rfl rfl,
    show Block.float? _ 12 0 = _ from float?_words 3 writes rfl,
    show Block.float? _ 16 0 = _ from float?_words 4 writes rfl,
    show Block.word? _ 20 = _ from word?_words 5 writes rfl,
    show Block.float? _ 24 0 = _ from float?_words 6 writes rfl,
    show Block.float? _ 28 0 = _ from float?_words 7 writes rfl,
    show Block.quad? _ 32 = _ from quad?_words 8 writes rfl rfl rfl rfl,
    show Block.quad? _ 48 = _ from quad?_words 12 writes rfl rfl rfl rfl,
    show Block.channel? _ 64 = _ from channel?_words 16 writes rfl rfl rfl rfl,
    show Block.channel? _ 80 = _ from channel?_words 20 writes rfl rfl rfl rfl,
    show Block.channel? _ 96 = _ from channel?_words 24 writes rfl rfl rfl rfl,
    show Block.channel? _ 112 = _ from channel?_words 28 writes rfl rfl rfl rfl]
  rfl

end Block

end LiveFragment.Uniform
