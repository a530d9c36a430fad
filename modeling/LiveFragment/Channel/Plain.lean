import LiveFragment.Channel.Services
import LiveFragment.Picture.Decode

namespace LiveFragment.Channel

open LiveFragment.Media LiveFragment.Number

namespace Cipher

def rotateLeft (word : UInt32) (count : UInt32) : UInt32 :=
  (word <<< count) ||| (word >>> (32 - count))

def rotateRight (word : UInt32) (count : UInt32) : UInt32 :=
  if count = 0 then word else rotateLeft word (32 - count)

/-- One step of the generator that spreads a seed over a key. -/
def nextState (state : UInt64) : UInt64 := state * 6364136223846793005 + 11634580027462260723

/-- The word that a state of the generator gives out. -/
def stateWord (state : UInt64) : UInt32 :=
  let mixed : UInt64 := ((state >>> 18) ^^^ state) >>> 27
  rotateRight mixed.toUInt32 (state >>> 59).toUInt32

/-- The words of a key. -/
def keyWords : Nat → UInt64 → List UInt32
  | 0, _ => []
  | count + 1, state =>
    let state := nextState state
    stateWord state :: keyWords count state

/-- The state of the cipher, sixteen words. -/
abbrev State := Vector UInt32 16

def quarter (s : State) (a b c d : Fin 16) : State :=
  let s := s.set a (s[a] + s[b])
  let s := s.set d (rotateLeft (s[d] ^^^ s[a]) 16)
  let s := s.set c (s[c] + s[d])
  let s := s.set b (rotateLeft (s[b] ^^^ s[c]) 12)
  let s := s.set a (s[a] + s[b])
  let s := s.set d (rotateLeft (s[d] ^^^ s[a]) 8)
  let s := s.set c (s[c] + s[d])
  s.set b (rotateLeft (s[b] ^^^ s[c]) 7)

/-- A round over the columns and a round over the diagonals. -/
def doubleRound (s : State) : State :=
  let s := quarter s 0 4 8 12
  let s := quarter s 1 5 9 13
  let s := quarter s 2 6 10 14
  let s := quarter s 3 7 11 15
  let s := quarter s 0 5 10 15
  let s := quarter s 1 6 11 12
  let s := quarter s 2 7 8 13
  quarter s 3 4 9 14

/-- The state before the rounds: constants, key, block number and an empty nonce. -/
def start (key : List UInt32) (number : Nat) : State :=
  let word (index : Nat) : UInt32 := key.getD index 0
  #v[0x61707865, 0x3320646e, 0x79622d32, 0x6b206574,
    word 0, word 1, word 2, word 3, word 4, word 5, word 6, word 7,
    .ofNat number, .ofNat (number / UInt32.size), 0, 0]

/-- A block of sixteen random words: six double rounds, added to the state before them. -/
def block (key : List UInt32) (number : Nat) : List UInt32 :=
  let before := start key number
  let after := (List.range 6).foldl (fun s _ => doubleRound s) before
  (before.zipWith (· + ·) after).toList

/-- The first words of the stream of a seed. -/
def words (seed : UInt64) (count : Nat) : List UInt32 :=
  let key := keyWords 8 seed
  ((List.range ((count + 15) / 16)).flatMap (block key)).take count

/-- A generator that takes a word for each byte, and a word for each color. -/
def random (seed : UInt64) : Random :=
  let word (words : Array UInt32) (index : Nat) : UInt32 := words.getD index 0
  { bytes := fun count =>
      let words := (words seed count).toArray
      .ofFn fun index => (word words index).toUInt8
    colors := fun count =>
      let words := (words seed count).toArray
      .ofFn fun index =>
        let word := word words index
        (word.toUInt8, (word >>> 8).toUInt8, (word >>> 16).toUInt8) }

end Cipher

namespace Halving

structure Complex where
  re : Float
  im : Float

namespace Complex

def add (x y : Complex) : Complex := ⟨x.re + y.re, x.im + y.im⟩

def sub (x y : Complex) : Complex := ⟨x.re - y.re, x.im - y.im⟩

def mul (x y : Complex) : Complex := ⟨x.re * y.re - x.im * y.im, x.re * y.im + x.im * y.re⟩

def norm (x : Complex) : Float := (x.re * x.re + x.im * x.im).sqrt

end Complex

/-- The root of unity with a fraction of a full turn, turning backwards. -/
def twiddle (index size : Nat) : Complex :=
  let angle := -2 * 3.141592653589793 * index.toFloat / size.toFloat
  ⟨angle.cos, angle.sin⟩

/-- The members at even and at odd places. -/
def halves {α : Type} : List α → List α × List α
  | [] => ([], [])
  | [x] => ([x], [])
  | x :: y :: rest =>
    let (even, odd) := halves rest
    (x :: even, y :: odd)

/-- The transform of a block, each of its members summed up on its own. -/
def sums (block : List Complex) : List Complex :=
  block.mapIdx fun bin _ =>
    (block.mapIdx fun index value =>
      (twiddle (bin * index % block.length) block.length).mul value).foldl Complex.add ⟨0, 0⟩

/-- The transform of a block, by halves on at most so many levels. -/
def transform : Nat → List Complex → List Complex
  | 0, block => sums block
  | levels + 1, block =>
    if block.length % 2 = 0 then
      let (even, odd) := halves block
      let even := transform levels even
      let odd := transform levels odd
      let turned := odd.mapIdx fun index value => (twiddle index block.length).mul value
      even.zipWith Complex.add turned ++ even.zipWith Complex.sub turned
    else sums block

/-- The transform of a block of samples, in double precision. -/
def spectrum (block : List Single) : List Complex :=
  transform block.length.log2 (block.map fun sample => ⟨sample.toDouble.toFloat, 0⟩)

def magnitudes (block : List Single) : Option (List Single) :=
  if block.isEmpty then none
  else
    some (((spectrum block).take (block.length / 2 + 1)).map fun bin =>
      (Double.ofFloat bin.norm).toSingle)

theorem length_halves {α : Type} (block : List α) :
    (halves block).1.length = (block.length + 1) / 2 ∧
      (halves block).2.length = block.length / 2 := by
  fun_induction halves block with
  | case1 => simp
  | case2 => simp
  | case3 x y rest even odd split ih =>
    rw [split] at ih
    simp only [List.length_cons] at ih ⊢
    omega

theorem length_transform (levels : Nat) (block : List Complex) :
    (transform levels block).length = block.length := by
  induction levels generalizing block with
  | zero => exact List.length_mapIdx
  | succ levels ih =>
    obtain ⟨even, odd⟩ := length_halves block
    rw [transform]
    split
    · simp only [List.length_append, List.length_zipWith, List.length_mapIdx, ih]
      omega
    · exact List.length_mapIdx

theorem length_magnitudes {block found : List Single} (made : magnitudes block = some found) :
    found.length = block.length / 2 + 1 := by
  unfold magnitudes at made
  split at made
  · cases made
  · rename_i filled
    have some' : block.length ≠ 0 := by simpa using filled
    obtain rfl := Option.some.inj made
    rw [List.length_map, List.length_take, spectrum, length_transform, List.length_map]
    omega

def discrete : Transform := ⟨magnitudes, length_magnitudes⟩

end Halving

/-- Services for a machine without other libraries. -/
def Services.plain : Services where
  picture? path content := (Picture.decode? path content).filter Frame.isWhole
  pictures? content := (Picture.Gif.frames? content.toList).filter (·.all (·.1.isWhole))
  picture_whole found := (Option.filter_eq_some_iff.mp found).2
  pictures_whole found := List.all_eq_true.mp (Option.filter_eq_some_iff.mp found).2
  seeded := Cipher.random
  fresh count := Cipher.random (.ofNat count)
  transform := Halving.discrete

end LiveFragment.Channel
