import LiveFragment.Picture.Bmp

namespace LiveFragment.Picture.Gif

open LiveFragment.Media

/-- The bits of bytes, the lowest first. -/
def bits (bytes : List UInt8) : List Bool :=
  bytes.flatMap fun byte => (List.range 8).map fun place => byte.toNat.testBit place

def natOfBits : List Bool → Nat
  | [] => 0
  | bit :: rest => bit.toNat + 2 * natOfBits rest

/-- The dictionary of a picture. Codes below its size stand for runs of pixels; two codes behind the
single pixels clear the dictionary and end the picture. -/
structure Dictionary where
  /-- The number of bits of a single pixel. -/
  depth : Nat
  runs : Array (List UInt8)
  /-- The run before, which the next run extends. -/
  last : Option (List UInt8)
  /-- The number of bits of the next code. -/
  width : Nat
deriving Repr, Inhabited

namespace Dictionary

def clear (depth : Nat) : Dictionary where
  depth := depth
  runs := ((List.range (Nat.pow 2 depth + 2)).map fun code =>
    if code < Nat.pow 2 depth then [UInt8.ofNat code] else []).toArray
  last := none
  width := depth + 1

/-- The run of a code. The code that is learned next stands for the last run and its first pixel
again. -/
def run? (dictionary : Dictionary) (code : Nat) : Option (List UInt8) :=
  if code < dictionary.runs.size then dictionary.runs[code]?
  else if code = dictionary.runs.size then dictionary.last.map fun last => last ++ last.take 1
  else none

/-- Learns the run that the last run and the first pixel of this one make. -/
def learn (dictionary : Dictionary) (run : List UInt8) : Dictionary :=
  let runs :=
    match dictionary.last with
    | some last =>
      if dictionary.runs.size < 4096 then dictionary.runs.push (last ++ run.take 1)
      else dictionary.runs
    | none => dictionary.runs
  let width :=
    if runs.size = Nat.pow 2 dictionary.width ∧ dictionary.width < 12 then dictionary.width + 1
    else dictionary.width
  { dictionary with runs, last := some run, width }

end Dictionary

/-- The pixels that bits stand for. They end at the code for it or with the bits. -/
def unpack? : Nat → Dictionary → List Bool → Option (List UInt8)
  | 0, _, _ => some []
  | bound + 1, dictionary, bits =>
    if bits.length < dictionary.width then some []
    else
      let code := natOfBits (bits.take dictionary.width)
      let rest := bits.drop dictionary.width
      if code = Nat.pow 2 dictionary.depth then unpack? bound (.clear dictionary.depth) rest
      else if code = Nat.pow 2 dictionary.depth + 1 then some []
      else
        match dictionary.run? code with
        | none => none
        | some run => (unpack? bound (dictionary.learn run) rest).map (run ++ ·)

/-- The data of blocks, each behind its length, up to an empty one. -/
def blocks? : Nat → List UInt8 → Option (List UInt8 × List UInt8)
  | 0, _ => none
  | bound + 1, bytes => do
    let (length, rest) ← takeBytes? 1 bytes
    if length = [0] then some ([], rest)
    else
      let (data, rest) ← takeBytes? (natOfBytes length) rest
      let (more, rest) ← blocks? bound rest
      some (data ++ more, rest)

structure Screen where
  width : Nat
  height : Nat
  colors : Option (List UInt8)
deriving Repr, Inhabited

/-- The color table that flags announce. -/
def colorTable? (flags : Nat) (bytes : List UInt8) :
    Option (Option (List UInt8) × List UInt8) :=
  if flags < 128 then some (none, bytes)
  else
    (takeBytes? (3 * Nat.pow 2 (flags % 8 + 1)) bytes).map fun (table, rest) =>
      (some table, rest)

def screen? (bytes : List UInt8) : Option (Screen × List UInt8) := do
  let (signature, rest) ← takeBytes? 6 bytes
  let (head, rest) ← takeBytes? 7 rest
  let (colors, rest) ← colorTable? (Bmp.number head 4 1) rest
  if signature = [0x47, 0x49, 0x46, 0x38, 0x39, 0x61] ∨
      signature = [0x47, 0x49, 0x46, 0x38, 0x37, 0x61] then
    some (⟨Bmp.number head 0 2, Bmp.number head 2 2, colors⟩, rest)
  else none

/-- A pixel of a color table with an opaque fourth channel. -/
def color? (table : List UInt8) (index : UInt8) : Option (List UInt8) :=
  match (table.drop (3 * index.toNat)).take 3 with
  | [red, green, blue] => some [red, green, blue, 255]
  | _ => none

/-- The picture that follows its mark, and what follows the picture. -/
def picture? (screen : Screen) (bytes : List UInt8) : Option (Frame × List UInt8) := do
  let (head, rest) ← takeBytes? 9 bytes
  let (own, rest) ← colorTable? (Bmp.number head 8 1) rest
  let (depth, rest) ← takeBytes? 1 rest
  let depth := natOfBytes depth
  let (data, rest) ← blocks? rest.length rest
  let table ← own <|> screen.colors
  if head.take 4 ≠ [0, 0, 0, 0] ∨ Bmp.number head 4 2 ≠ screen.width ∨
      Bmp.number head 6 2 ≠ screen.height ∨ depth = 0 ∨ 11 < depth then none
  else
    let stream := bits data
    let indices ← unpack? stream.length (.clear depth) stream
    let count := screen.width * screen.height
    if indices.length < count then none
    else
      let pixels ← (indices.take count).mapM (color? table)
      some (⟨.ofNat screen.width, .ofNat screen.height, pixels.flatten.toArray⟩, rest)

/-- A picture or the end of the file; `delay` is the delay announced for the next picture, in
hundredths of a second. -/
inductive Part
  | picture (frame : Frame) (delay : Nat) (rest : List UInt8)
  | trailer

/-- Reads on to the next picture or to the end mark. -/
def next? (screen : Screen) : Nat → Nat → List UInt8 → Option Part
  | 0, _, _ => none
  | bound + 1, delay, bytes =>
    match bytes with
    | 0x3b :: _ => some .trailer
    | 0x2c :: rest => (picture? screen rest).map fun (frame, rest) => .picture frame delay rest
    | 0x21 :: label :: rest => do
      let (data, rest) ← blocks? rest.length rest
      next? screen bound (if label = 0xf9 then Bmp.number data 1 2 else delay) rest
    | _ => none

/-- All pictures up to the end mark, with their delays. -/
def pictures? (screen : Screen) : Nat → List UInt8 → Option (List (Frame × Nat))
  | 0, _ => none
  | bound + 1, bytes =>
    match next? screen bytes.length 0 bytes with
    | none => none
    | some .trailer => some []
    | some (.picture frame delay rest) =>
      (pictures? screen bound rest).map ((frame, delay) :: ·)

/-- All pictures of a file. -/
def frames? (bytes : List UInt8) : Option (List (Frame × Nat)) := do
  let (screen, rest) ← screen? bytes
  pictures? screen (rest.length + 1) rest

/-- The first picture of a file. -/
def decode? (bytes : List UInt8) : Option Frame := do
  let (screen, rest) ← screen? bytes
  match ← next? screen rest.length 0 rest with
  | .picture frame _ _ => some frame
  | .trailer => none

end LiveFragment.Picture.Gif
