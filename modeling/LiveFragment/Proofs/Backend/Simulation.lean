import LiveFragment.Backend.NullAdapter
import LiveFragment.Proofs.Backend.Books
import LiveFragment.Proofs.Backend.ReadBack

namespace LiveFragment

open LiveFragment.Backend

namespace Backend

/-- What can be asked of a backend. -/
inductive Operation
  | compileProgram (text : String)
  | releaseProgram (handle : ProgramHandle)
  | createTexture (desc : TextureDesc) (pixels : Bytes)
  | updateTexture (handle : TextureHandle) (desc : TextureDesc) (pixels : Bytes)
  | releaseTexture (handle : TextureHandle)
  | resize (width height : UInt32)
  | draw (call : DrawCall)
  | readPixels (order : ScanlineOrder)
  | restore

/-- An answer. Of a picture it tells the number of bytes, as only the device draws. -/
inductive Answer
  | program (result : Except BackendError ProgramHandle)
  | texture (result : Except BackendError TextureHandle)
  | picture (result : Except BackendError Nat)
  | done (result : Except BackendError Unit)
  | silent
deriving DecidableEq

section Run

variable {σ : Type} [Backend σ]

def Operation.perform (backend : σ) : Operation → Answer × σ
  | .compileProgram text =>
    let (result, next) := Backend.compileProgram backend text
    (.program result, next)
  | .releaseProgram handle => (.silent, Backend.releaseProgram backend handle)
  | .createTexture desc pixels =>
    let (result, next) := Backend.createTexture backend desc pixels
    (.texture result, next)
  | .updateTexture handle desc pixels =>
    let (result, next) := Backend.updateTexture backend handle desc pixels
    (.done result, next)
  | .releaseTexture handle => (.silent, Backend.releaseTexture backend handle)
  | .resize width height =>
    let (result, next) := Backend.resize backend width height
    (.done result, next)
  | .draw call =>
    let (result, next) := Backend.draw backend call
    (.done result, next)
  | .readPixels order =>
    let (result, next) := Backend.readPixels backend order
    (.picture (result.map Array.size), next)
  | .restore =>
    let (result, next) := Backend.restore backend
    (.done result, next)

/-- The answers to operations one after the other, and the backend behind them. -/
def answers (backend : σ) : List Operation → List Answer × σ
  | [] => ([], backend)
  | operation :: rest =>
    let (answer, next) := operation.perform backend
    let (others, last) := answers next rest
    (answer :: others, last)

end Run

/-- The longest edge that every picture is counted in words of 32 bits for. -/
def longestEdge : Nat := 16384

/-- The longest parameter block that every device binds. -/
def longestBlock : Nat := 65536

/-- A size with pixels that keeps within the limit of a device. -/
structure Sized (limit width height : UInt32) : Prop where
  width_pos : 1 ≤ width.toNat
  height_pos : 1 ≤ height.toNat
  width_le : width ≤ limit
  height_le : height ≤ limit
  width_short : width.toNat ≤ longestEdge
  height_short : height.toNat ≤ longestEdge

instance (limit width height : UInt32) : Decidable (Sized limit width height) :=
  decidable_of_iff
    (1 ≤ width.toNat ∧ 1 ≤ height.toNat ∧ width ≤ limit ∧ height ≤ limit ∧
      width.toNat ≤ longestEdge ∧ height.toNat ≤ longestEdge)
    ⟨fun ⟨wide, high, width, height, short, low⟩ => ⟨wide, high, width, height, short, low⟩,
      fun ⟨wide, high, width, height, short, low⟩ => ⟨wide, high, width, height, short, low⟩⟩

/-- What a backend without a device and one with a device have in common, and what the graphics
library of the latter promises. -/
structure Terms where
  /-- The validator of programs. -/
  judge : String → Option String
  /-- The longest edge that it draws. -/
  limit : UInt32
  /-- The texts that it builds a pipeline of, among those that are validated. -/
  links : String → Prop
  /-- How far the program of a text reads into the parameter buffer. -/
  reach : String → Nat

/-- An operation keeps within the terms of a device. Nothing is said about handles, about how many
pixels are given, or about whether a texture is updated as it was created. -/
def Operation.Keeps (terms : Terms) : Operation → Prop
  | .compileProgram text => terms.judge text = none → terms.links text
  | .createTexture desc _ => Sized terms.limit desc.width desc.height
  | .updateTexture _ desc _ => Sized terms.limit desc.width desc.height
  | .resize width height => Sized terms.limit width height
  | .draw call =>
    call.standard.size = standardRoom ∧ call.custom.size ≤ longestBlock ∧
      4 ∣ call.custom.size
  | _ => True

section Library

variable {γ : Type} [Graphics γ]

/-- A command is carried out, and the library is well afterwards with some textures. -/
def Executes (Well : γ → List (TextureHandle × TextureDesc) → Prop) (gpu : γ) (command : Command)
    (held : List (TextureHandle × TextureDesc)) : Prop :=
  ∃ next, Graphics.execute gpu command = (true, next) ∧ Well next held

/-- A library that keeps its terms as long as its device is not lost: it carries out what is within
its limits, and draws a program exactly if the parameter buffer is as long as the program reads. -/
structure Reliable (terms : Terms) (Well : γ → List (TextureHandle × TextureDesc) → Prop) :
    Prop where
  present : ∀ gpu held, Well gpu held → Graphics.isLost gpu = false
  connect : ∀ gpu held, Well gpu held →
    ∃ next, Graphics.connect gpu = (.ok terms.limit, next) ∧ Well next []
  link : ∀ gpu held text, Well gpu held → terms.links text →
    ∃ next, Graphics.link gpu text = (.ok (), next) ∧ Well next held
  target : ∀ gpu held width height, Well gpu held → Sized terms.limit width height →
    Executes Well gpu (.target width height) held
  texture : ∀ gpu held handle desc pixels, Well gpu held →
    Sized terms.limit desc.width desc.height → desc.checkPixels pixels = .ok () →
      Executes Well gpu (.texture handle desc pixels) ((handle, desc) :: held)
  update : ∀ gpu held handle desc pixels, Well gpu held → held.lookup handle = some desc →
    desc.checkPixels pixels = .ok () → Executes Well gpu (.update handle desc pixels) held
  destroy : ∀ gpu held handle desc, Well gpu held → held.lookup handle = some desc →
    Executes Well gpu (.destroy handle) (held.filter (·.1 ≠ handle))
  buffers : ∀ gpu held room, Well gpu held → leastRoom ≤ room → room ≤ longestBlock →
    Executes Well gpu (.buffers room) held
  standard : ∀ gpu held block, Well gpu held → block.size = standardRoom →
    Executes Well gpu (.standard block) held
  custom : ∀ gpu held room block, Well gpu held → block.size ≤ room → 4 ∣ block.size →
    Executes Well gpu (.custom room block) held
  drawn : ∀ gpu held text room channels, Well gpu held → terms.links text →
    (∀ handle ∈ channels.toList, (held.lookup handle).isSome) → terms.reach text ≤ room →
      Executes Well gpu (.draw text room channels) held
  undrawn : ∀ gpu held text room channels, Well gpu held → room < terms.reach text →
    (Graphics.execute gpu (.draw text room channels)).1 = false
  copy : ∀ gpu held width height, Well gpu held → Sized terms.limit width height →
    ∃ copy next, Graphics.copy gpu width height = (some (.ok copy), next) ∧
      copy.size = (paddedRowBytes width).toNat * height.toNat ∧ Well next held

/-- A drawing of a program and textures that are known finds the parameter buffer as long as the
program reads; nothing is asked of other operations. -/
def Operation.Supplied (reach : String → Nat) (device : Device γ) : Operation → Prop
  | .draw call => ∀ text, device.programs.lookup call.program = some text →
    (∀ handle ∈ call.channels.toList, (device.textures.lookup handle).isSome) →
      reach text ≤ grownRoom device.room call.custom.size
  | _ => True

/-- Every drawing of a run is supplied. -/
def Device.Supplied (reach : String → Nat) (device : Device γ) : List Operation → Prop
  | [] => True
  | operation :: rest =>
    operation.Supplied reach device ∧ Device.Supplied reach (operation.perform device).2 rest

end Library

/-- What both backends know is the same, and the library of the device is well. -/
structure Simulates {γ : Type} [Graphics γ] (terms : Terms)
    (Well : γ → List (TextureHandle × TextureDesc) → Prop) (headless : Headless)
    (device : Device γ) : Prop where
  judge : headless.judge = terms.judge
  judged : device.judge = terms.judge
  present : headless.lost = false
  bound : device.limit = terms.limit
  width : headless.width = device.width
  height : headless.height = device.height
  sized : Sized terms.limit device.width device.height
  lastId : headless.lastId = device.lastId
  programs : headless.programs = device.programs.map (·.1)
  linked : ∀ handle text, device.programs.lookup handle = some text → terms.links text
  /-- Of a texture the device keeps the description only. -/
  textures : ∀ handle, device.textures.lookup handle = (headless.texture? handle).map (·.desc)
  least : leastRoom ≤ device.room
  most : device.room ≤ longestBlock
  well : Well device.gpu device.textures
  intact : device.broken = false

theorem Sized.offers {limit width height : UInt32} (sized : Sized limit width height) :
    Device.offers limit width height = true := by
  have width_pos : width ≠ 0 := by
    rintro rfl
    exact absurd sized.width_pos (by decide)
  have height_pos : height ≠ 0 := by
    rintro rfl
    exact absurd sized.height_pos (by decide)
  simp [Device.offers, width_pos, height_pos, sized.width_le, sized.height_le]

/-- A buffer that is kept or grown holds the block, and grows no more than it has to. -/
theorem grownRoom_bounds {room size : Nat} (least : leastRoom ≤ room) (most : room ≤ longestBlock)
    (short : size ≤ longestBlock) :
    size ≤ grownRoom room size ∧ leastRoom ≤ grownRoom room size ∧
      grownRoom room size ≤ longestBlock := by
  rw [longestBlock, leastRoom, grownRoom, leastRoom] at *
  split <;> omega

theorem grownRoom_eq_of_not_lt {room size : Nat} (enough : ¬ room < grownRoom room size) :
    grownRoom room size = room := by
  unfold grownRoom at enough ⊢
  dsimp only at enough ⊢
  split
  · rename_i short
    rw [if_pos short] at enough
    omega
  · rfl

namespace Device

variable {γ : Type} [Graphics γ] {device : Device γ}

theorem execute_broken (command : Command) (broken : device.broken = true) :
    (device.execute command).broken = true := by
  simp [execute, broken]

/-- What ended the program stays ended. -/
theorem perform_broken (operation : Operation) (broken : device.broken = true) :
    (operation.perform device).2.broken = true := by
  have opened (device : Device γ) (broken : device.broken = true) : device.setUp.broken = true :=
    execute_broken _ (execute_broken _ broken)
  have written (standard custom : Bytes) : (device.writeBlocks standard custom).broken = true := by
    simp only [writeBlocks]
    repeat' split
    all_goals simp [execute, broken]
  cases operation with
  | compileProgram text =>
    simp only [Operation.perform, Backend.compileProgram, compileProgram]
    repeat' split
    all_goals exact broken
  | releaseProgram handle => exact broken
  | createTexture desc pixels =>
    simp only [Operation.perform, Backend.createTexture, createTexture]
    repeat' split
    all_goals first | exact broken | exact execute_broken _ broken
  | updateTexture handle desc pixels =>
    simp only [Operation.perform, Backend.updateTexture, updateTexture]
    repeat' split
    all_goals first | exact broken | exact execute_broken _ broken
  | releaseTexture handle =>
    simp only [Operation.perform, Backend.releaseTexture, releaseTexture]
    split
    · exact broken
    · exact execute_broken _ broken
  | resize width height =>
    simp only [Operation.perform, Backend.resize, resize]
    repeat' split
    all_goals first | exact broken | exact execute_broken _ broken
  | draw call =>
    simp only [Operation.perform, Backend.draw, draw]
    repeat' split
    all_goals first | exact broken | exact written _ _ | exact execute_broken _ (written _ _)
  | readPixels order =>
    simp only [Operation.perform, Backend.readPixels, readPixels]
    repeat' split
    all_goals first | exact broken | rfl
  | restore =>
    simp only [Operation.perform, Backend.restore, restore]
    split
    · exact broken
    · exact opened _ broken

theorem answers_broken (operations : List Operation) (broken : device.broken = true) :
    (answers device operations).2.broken = true := by
  induction operations generalizing device with
  | nil => exact broken
  | cons operation rest ih => exact ih (perform_broken operation broken)

end Device

section Simulation

variable {γ : Type} [Graphics γ] {terms : Terms}
  {Well : γ → List (TextureHandle × TextureDesc) → Prop} (reliable : Reliable terms Well)

include reliable

theorem Reliable.setUp (device : Device γ) {held : List (TextureHandle × TextureDesc)}
    (well : Well device.gpu held) (sized : Sized terms.limit device.width device.height) :
    ∃ gpu, Well gpu held ∧ device.setUp =
      { device with gpu, programs := [], textures := [], room := leastRoom } := by
  obtain ⟨first, targeted, well⟩ := reliable.target _ _ device.width device.height well sized
  obtain ⟨second, bound, well⟩ :=
    reliable.buffers _ _ leastRoom well (Nat.le_refl _) (by decide)
  refine ⟨second, well, ?_⟩
  simp only [Device.setUp, Device.execute, targeted, bound, Bool.not_true, Bool.or_false]

/-- A device that is opened knows as little as a backend that has just been made. -/
theorem Reliable.opens {gpu : γ} {held : List (TextureHandle × TextureDesc)} (well : Well gpu held)
    {width height : UInt32} (sized : Sized terms.limit width height) :
    ∃ device, Device.new terms.judge gpu width height = .ok device ∧
      Simulates terms Well (Headless.new terms.judge width height) device := by
  obtain ⟨next, connected, well⟩ := reliable.connect _ _ well
  obtain ⟨last, well, ready⟩ := reliable.setUp
    ⟨terms.judge, next, terms.limit, width, height, 0, [], [], leastRoom, false⟩ well sized
  refine ⟨⟨terms.judge, last, terms.limit, width, height, 0, [], [], leastRoom, false⟩, ?_, ?_⟩
  · rw [Device.new, connected]
    simp only [sized.offers, Bool.not_true, Bool.false_eq_true, ↓reduceIte, ready]
  · constructor
    case sized => exact sized
    case linked => exact fun _ _ known => by cases known
    case textures => exact fun _ => rfl
    case least => exact Nat.le_refl _
    case most => exact Nat.le_of_ble_eq_true rfl
    case well => exact well
    all_goals rfl

namespace Simulates

variable {headless : Headless} {device : Device γ}
  (related : Simulates terms Well headless device)

include related

theorem compileProgram {text : String} (links : terms.judge text = none → terms.links text) :
    (headless.compileProgram text).1 = (device.compileProgram text).1 ∧
      Simulates terms Well (headless.compileProgram text).2 (device.compileProgram text).2 := by
  rw [Headless.compileProgram, Device.compileProgram, related.present,
    reliable.present _ _ related.well, related.judge, related.judged]
  simp only [Bool.false_eq_true, ↓reduceIte]
  cases judged : terms.judge text with
  | some log => exact ⟨rfl, related⟩
  | none =>
    obtain ⟨next, linked, well⟩ := reliable.link _ _ text related.well (links judged)
    simp only [linked, related.lastId]
    refine ⟨trivial, { related with
      judge := rfl, judged := rfl, present := rfl, lastId := rfl, programs := ?_, linked := ?_
      well }⟩
    · exact congrArg (_ :: ·) related.programs
    · intro handle other found
      rw [lookup_cons] at found
      split at found
      · obtain rfl := Option.some.inj found
        exact links judged
      · exact related.linked handle other found

omit reliable in
theorem releaseProgram (handle : ProgramHandle) :
    Simulates terms Well (headless.releaseProgram handle) (device.releaseProgram handle) := by
  refine { related with programs := ?_, linked := ?_ }
  · rw [Headless.releaseProgram, Device.releaseProgram, related.programs, List.filter_map]
    rfl
  · intro other text found
    rw [Device.releaseProgram, lookup_filter] at found
    split at found
    · cases found
    · exact related.linked other text found

theorem createTexture {desc : TextureDesc} (sized : Sized terms.limit desc.width desc.height)
    (pixels : Bytes) :
    (headless.createTexture desc pixels).1 = (device.createTexture desc pixels).1 ∧
      Simulates terms Well (headless.createTexture desc pixels).2
        (device.createTexture desc pixels).2 := by
  have within : ¬ (device.limit < desc.width ∨ device.limit < desc.height) := by
    rw [related.bound, not_or, UInt32.not_lt, UInt32.not_lt]
    exact ⟨sized.width_le, sized.height_le⟩
  rw [Headless.createTexture, Device.createTexture, related.present,
    reliable.present _ _ related.well]
  simp only [Bool.false_eq_true, ↓reduceIte]
  cases fits : desc.checkPixels pixels with
  | error error => exact ⟨rfl, related⟩
  | ok =>
    obtain ⟨next, done, well⟩ :=
      reliable.texture _ _ ⟨device.lastId + 1⟩ desc pixels related.well sized fits
    simp only [if_neg within, related.lastId, Device.execute, done, Bool.not_true, Bool.or_false]
    refine ⟨trivial, { related with present := rfl, lastId := rfl, textures := ?_, well }⟩
    intro wanted
    rw [Headless.texture?, lookup_cons, lookup_cons]
    split
    · rfl
    · exact related.textures wanted

theorem updateTexture (handle : TextureHandle) (desc : TextureDesc) (pixels : Bytes) :
    (headless.updateTexture handle desc pixels).1 =
        (device.updateTexture handle desc pixels).1 ∧
      Simulates terms Well (headless.updateTexture handle desc pixels).2
        (device.updateTexture handle desc pixels).2 := by
  rw [Headless.updateTexture, Device.updateTexture, related.present,
    reliable.present _ _ related.well, related.textures]
  simp only [Bool.false_eq_true, ↓reduceIte]
  cases fits : desc.checkPixels pixels with
  | error error => exact ⟨rfl, related⟩
  | ok =>
    cases found : headless.texture? handle with
    | none => exact ⟨rfl, related⟩
    | some held =>
      dsimp only [Option.map_some]
      split
      · exact ⟨rfl, related⟩
      · rename_i same
        have same : held.desc = desc := not_not.mp same
        have known : device.textures.lookup handle = some desc := by
          rw [related.textures, found, Option.map_some, same]
        obtain ⟨next, done, well⟩ :=
          reliable.update _ _ handle desc pixels related.well known fits
        simp only [Device.execute, done, Bool.not_true, Bool.or_false]
        refine ⟨trivial, { related with textures := ?_, well }⟩
        intro wanted
        rw [Headless.texture?, Headless.setTexture, lookup_replace, ← Headless.texture?, found,
          related.textures]
        split
        · rename_i own
          rw [own, found]
          exact congrArg some same
        · rfl

theorem releaseTexture (handle : TextureHandle) :
    Simulates terms Well (headless.releaseTexture handle) (device.releaseTexture handle) := by
  have kept (wanted : TextureHandle) : (device.textures.filter (·.1 ≠ handle)).lookup wanted =
      ((headless.releaseTexture handle).texture? wanted).map (·.desc) := by
    rw [Headless.texture?, Headless.releaseTexture, lookup_filter, lookup_filter]
    split
    · rfl
    · exact related.textures wanted
  unfold Device.releaseTexture
  split
  · rename_i unknown
    refine { related with textures := fun wanted => ?_ }
    rw [← kept, lookup_filter]
    split
    · rename_i same
      rw [same, unknown]
    · rfl
  · rename_i desc found
    obtain ⟨next, done, well⟩ := reliable.destroy _ _ handle desc related.well found
    simp only [Device.execute, done, Bool.not_true, Bool.or_false]
    exact { related with textures := kept, well }

theorem resize {width height : UInt32} (sized : Sized terms.limit width height) :
    (headless.resize width height).1 = (device.resize width height).1 ∧
      Simulates terms Well (headless.resize width height).2 (device.resize width height).2 := by
  have offers := sized.offers
  rw [← related.bound] at offers
  rw [Device.resize, offers]
  simp only [Bool.not_true, Bool.false_eq_true, ↓reduceIte]
  split
  · rename_i same
    obtain ⟨rfl, rfl⟩ := Prod.mk.inj same
    exact ⟨rfl, { related with width := rfl, height := rfl }⟩
  · obtain ⟨next, done, well⟩ := reliable.target _ _ width height related.well sized
    simp only [Device.execute, done, Bool.not_true, Bool.or_false]
    exact ⟨rfl, { related with width := rfl, height := rfl, sized, well }⟩

/-- The blocks of a drawing are taken, in a buffer that was kept or grown for them. -/
theorem writeBlocks {call : DrawCall} (standard : call.standard.size = standardRoom)
    (short : call.custom.size ≤ longestBlock) (words : 4 ∣ call.custom.size) :
    ∃ gpu, Well gpu device.textures ∧ device.writeBlocks call.standard call.custom =
      { device with gpu, room := grownRoom device.room call.custom.size } := by
  obtain ⟨holds, least, most⟩ := grownRoom_bounds related.least related.most short
  -- The buffers are made again only if they have to grow.
  obtain ⟨first, well, bound⟩ : ∃ gpu, Well gpu device.textures ∧
      (if device.room < grownRoom device.room call.custom.size then
        { device with room := grownRoom device.room call.custom.size }.execute
          (.buffers (grownRoom device.room call.custom.size))
      else device) = { device with gpu, room := grownRoom device.room call.custom.size } := by
    split
    · obtain ⟨next, done, well⟩ := reliable.buffers _ _ _ related.well least most
      exact ⟨next, well, by simp only [Device.execute, done, Bool.not_true, Bool.or_false]⟩
    · rename_i enough
      rw [grownRoom_eq_of_not_lt enough]
      exact ⟨device.gpu, related.well, rfl⟩
  obtain ⟨second, done, well⟩ := reliable.standard _ _ call.standard well standard
  simp only [Device.writeBlocks, bound]
  simp only [Device.execute, done, Bool.not_true, Bool.or_false]
  split
  · exact ⟨second, well, rfl⟩
  · obtain ⟨third, written, well⟩ := reliable.custom _ _ _ call.custom well holds words
    exact ⟨third, well, by simp only [written, Bool.not_true, Bool.or_false]⟩

omit reliable in
theorem contains_program (program : ProgramHandle) :
    headless.programs.contains program = (device.programs.lookup program).isSome := by
  rw [related.programs]
  induction device.programs with
  | nil => rfl
  | cons entry rest ih =>
    rw [List.map_cons, List.contains_cons, ih, lookup_cons]
    by_cases same : program = entry.1 <;> simp [same]

/-- A drawing is answered alike where its parameter buffer is as long as its program reads, and
ends the program where it is not. -/
theorem draw {call : DrawCall} (keeps : Operation.Keeps terms (.draw call)) :
    (Operation.Supplied terms.reach device (.draw call) →
      (headless.draw call).1 = (device.draw call).1 ∧
        Simulates terms Well (headless.draw call).2 (device.draw call).2) ∧
    (¬ Operation.Supplied terms.reach device (.draw call) →
      (device.draw call).2.broken = true) := by
  obtain ⟨standard, short, words⟩ := keeps
  obtain ⟨gpu, well, written⟩ := related.writeBlocks reliable standard short words
  obtain ⟨-, least, most⟩ := grownRoom_bounds related.least related.most short
  have after : Simulates terms Well headless
      { device with gpu, room := grownRoom device.room call.custom.size } :=
    { related with least, most, well }
  have unknown : (fun handle => (headless.texture? handle).isNone) = fun handle =>
      (device.textures.lookup handle).isNone := by
    funext handle
    rw [related.textures, Option.isNone_map]
  rw [Headless.draw, Device.draw, related.present, reliable.present _ _ related.well, unknown,
    written, related.contains_program]
  simp only [Bool.false_eq_true, ↓reduceIte]
  cases program : device.programs.lookup call.program with
  | none =>
    refine ⟨fun _ => ⟨rfl, after⟩, fun short => absurd ?_ short⟩
    intro text known
    rw [program] at known
    cases known
  | some text =>
    simp only [Option.isSome_some, Bool.not_true, Bool.false_eq_true, ↓reduceIte]
    cases missing : call.channels.toList.find?
        fun handle => (device.textures.lookup handle).isNone with
    | some handle =>
      refine ⟨fun _ => ⟨rfl, after⟩, fun short => absurd ?_ short⟩
      intro _ _ known
      have dark := List.find?_some missing
      have lit := known handle (List.mem_of_find?_eq_some missing)
      rw [Option.isNone_iff_eq_none.mp dark] at lit
      cases lit
    | none =>
      have known : ∀ handle ∈ call.channels.toList, (device.textures.lookup handle).isSome := by
        intro handle member
        have lit := List.find?_eq_none.mp missing handle member
        rwa [Bool.not_eq_true, Option.isNone_eq_false_iff] at lit
      have links := related.linked call.program text program
      constructor
      · intro supplied
        obtain ⟨next, done, well⟩ := reliable.drawn _ _ text _ call.channels well links known
          (supplied text program known)
        simp only [Device.execute, done, Bool.not_true, Bool.or_false]
        exact ⟨trivial, { after with present := rfl, well }⟩
      · intro unsupplied
        have beyond : grownRoom device.room call.custom.size < terms.reach text := by
          by_contra enough
          refine unsupplied fun other found _ => ?_
          obtain rfl := Option.some.inj (program.symm.trans found)
          exact Nat.le_of_not_lt enough
        have refused := reliable.undrawn _ _ text _ call.channels well beyond
        simp only [Device.execute, refused, Bool.not_false, Bool.or_true]

theorem readPixels (order : ScanlineOrder) :
    (headless.readPixels order).1.map Array.size = (device.readPixels order).1.map Array.size ∧
      Simulates terms Well (headless.readPixels order).2 (device.readPixels order).2 := by
  have fits : device.width.toNat * 4 + 255 < UInt32.size := by
    have short := related.sized.width_short
    rw [longestEdge] at short
    rw [UInt32.size]
    omega
  obtain ⟨copy, next, copied, whole, well⟩ := reliable.copy _ _ _ _ related.well related.sized
  have pixels : device.width.toNat * device.height.toNat * 4 =
      device.height.toNat * (device.width.toNat * 4) := by
    rw [Nat.mul_comm device.width.toNat, Nat.mul_assoc]
  rw [Headless.readPixels, Device.readPixels, related.present,
    reliable.present _ _ related.well]
  simp only [Bool.false_eq_true, ↓reduceIte, if_pos (copiesRows_iff.mpr fits), copied]
  refine ⟨congrArg Except.ok ?_, { related with well }⟩
  rw [size_readBack fits whole order, Bytes.fill, Array.size_replicate, related.width,
    related.height, pixels]

theorem restore :
    headless.restore.1 = device.restore.1 ∧
      Simulates terms Well headless.restore.2 device.restore.2 := by
  obtain ⟨next, connected, well⟩ := reliable.connect _ _ related.well
  obtain ⟨last, well, ready⟩ := reliable.setUp
    { device with gpu := next, limit := terms.limit } well related.sized
  rw [Device.restore, connected]
  dsimp only
  rw [ready]
  exact ⟨rfl, { related with
    present := rfl
    bound := rfl
    programs := rfl
    linked := fun _ _ known => by cases known
    textures := fun _ => rfl
    least := Nat.le_refl _
    most := Nat.le_trans related.least related.most
    well }⟩

/-- One operation that is supplied is answered alike by both backends, and what they know stays the
same; one that is not ends the program. -/
theorem perform {operation : Operation} (keeps : operation.Keeps terms) :
    (operation.Supplied terms.reach device →
      (operation.perform headless).1 = (operation.perform device).1 ∧
        Simulates terms Well (operation.perform headless).2 (operation.perform device).2) ∧
    (¬ operation.Supplied terms.reach device → (operation.perform device).2.broken = true) := by
  cases operation with
  | draw call =>
    obtain ⟨supplied, unsupplied⟩ := related.draw reliable keeps
    exact ⟨fun enough => (supplied enough).imp_left (congrArg Answer.done), unsupplied⟩
  | compileProgram text =>
    obtain ⟨same, after⟩ := related.compileProgram reliable keeps
    exact ⟨fun _ => ⟨congrArg Answer.program same, after⟩, fun wrong => absurd trivial wrong⟩
  | releaseProgram handle =>
    exact ⟨fun _ => ⟨rfl, related.releaseProgram handle⟩, fun wrong => absurd trivial wrong⟩
  | createTexture desc pixels =>
    obtain ⟨same, after⟩ := related.createTexture reliable keeps pixels
    exact ⟨fun _ => ⟨congrArg Answer.texture same, after⟩, fun wrong => absurd trivial wrong⟩
  | updateTexture handle desc pixels =>
    obtain ⟨same, after⟩ := related.updateTexture reliable handle desc pixels
    exact ⟨fun _ => ⟨congrArg Answer.done same, after⟩, fun wrong => absurd trivial wrong⟩
  | releaseTexture handle =>
    exact ⟨fun _ => ⟨rfl, related.releaseTexture reliable handle⟩,
      fun wrong => absurd trivial wrong⟩
  | resize width height =>
    obtain ⟨same, after⟩ := related.resize reliable keeps
    exact ⟨fun _ => ⟨congrArg Answer.done same, after⟩, fun wrong => absurd trivial wrong⟩
  | readPixels order =>
    obtain ⟨same, after⟩ := related.readPixels reliable order
    exact ⟨fun _ => ⟨congrArg Answer.picture same, after⟩, fun wrong => absurd trivial wrong⟩
  | restore =>
    obtain ⟨same, after⟩ := related.restore reliable
    exact ⟨fun _ => ⟨congrArg Answer.done same, after⟩, fun wrong => absurd trivial wrong⟩

/-- Backends that know the same answer a whole run of supplied operations alike; and a run with an
operation that is not supplied ends the program. -/
theorem answers {operations : List Operation}
    (keep : ∀ operation ∈ operations, operation.Keeps terms) :
    (device.Supplied terms.reach operations →
      (Backend.answers headless operations).1 = (Backend.answers device operations).1 ∧
        (Backend.answers device operations).2.broken = false) ∧
    (¬ device.Supplied terms.reach operations →
      (Backend.answers device operations).2.broken = true) := by
  induction operations generalizing headless device with
  | nil => exact ⟨fun _ => ⟨rfl, related.intact⟩, fun wrong => absurd trivial wrong⟩
  | cons operation rest ih =>
    obtain ⟨first, others⟩ := List.forall_mem_cons.mp keep
    obtain ⟨supplied, unsupplied⟩ := related.perform reliable first
    by_cases enough : operation.Supplied terms.reach device
    · obtain ⟨same, after⟩ := supplied enough
      obtain ⟨alike, ended⟩ := ih after others
      exact ⟨fun all => (alike all.2).imp_left (congrArg₂ List.cons same),
        fun short => ended fun all => short ⟨enough, all⟩⟩
    · exact ⟨fun all => absurd all.1 enough,
        fun _ => Device.answers_broken rest (unsupplied enough)⟩

end Simulates

end Simulation

/-- A text whose program reads four vectors of the parameter buffer. -/
def vectorsText : String :=
  "#version 450\nlayout(location = 0) out vec4 c;\n" ++
    "layout(std140, set = 0, binding = 1) uniform Inputs \x7b vec4 k[4]; \x7d;\n" ++
    "void main() \x7b c = k[0]; \x7d\n"

/-- A library that knows how far that program reads. -/
def vectorsAdapter : NullAdapter := ⟨true, 8192, fun text => if text = vectorsText then 64 else 0⟩

def vectorsTerms : Terms := ⟨fun _ => none, 8192, fun _ => True, vectorsAdapter.reach⟩

/-- A library that draws nothing keeps its terms. -/
theorem reliable_vectors :
    Reliable vectorsTerms fun (gpu : NullAdapter) _ => gpu = vectorsAdapter := by
  constructor
  case present => exact fun _ _ _ => rfl
  case connect =>
    rintro gpu held rfl
    exact ⟨_, rfl, rfl⟩
  case link =>
    rintro gpu held text rfl -
    exact ⟨_, rfl, rfl⟩
  case target =>
    rintro gpu held width height rfl -
    exact ⟨_, rfl, rfl⟩
  case texture =>
    rintro gpu held handle desc pixels rfl - -
    exact ⟨_, rfl, rfl⟩
  case update =>
    rintro gpu held handle desc pixels rfl - -
    exact ⟨_, rfl, rfl⟩
  case destroy =>
    rintro gpu held handle desc rfl -
    exact ⟨_, rfl, rfl⟩
  case buffers =>
    rintro gpu held room rfl - -
    exact ⟨_, rfl, rfl⟩
  case standard =>
    rintro gpu held block rfl size
    refine ⟨_, Prod.ext ?_ rfl, rfl⟩
    simp [Graphics.execute, NullAdapter.allows, NullAdapter.takes, size, standardRoom]
  case custom =>
    rintro gpu held room block rfl fits words
    refine ⟨_, Prod.ext ?_ rfl, rfl⟩
    simp [Graphics.execute, NullAdapter.allows, NullAdapter.takes, fits,
      Nat.mod_eq_zero_of_dvd words]
  case drawn =>
    rintro gpu held text room channels rfl - - enough
    refine ⟨_, Prod.ext ?_ rfl, rfl⟩
    exact decide_eq_true enough
  case undrawn =>
    rintro gpu held text room channels rfl beyond
    exact decide_eq_false (Nat.not_le_of_lt beyond)
  case copy =>
    rintro gpu held width height rfl -
    exact ⟨_, _, rfl, Array.size_replicate, rfl⟩

/-- A run with handles that were never given out, that are gone, and that a restore made stale. -/
def staleRun : List Operation :=
  let small : TextureDesc := ⟨1, 1, .rgba8⟩
  let wide : TextureDesc := ⟨2, 1, .r8⟩
  let call (program texture : Nat) : Operation :=
    .draw ⟨⟨program⟩, .fill 0 128, .fill 0 64, #v[⟨texture⟩, ⟨texture⟩, ⟨texture⟩, ⟨texture⟩]⟩
  [.compileProgram vectorsText, .createTexture small (.fill 0 4), .createTexture small (.fill 0 3),
    .updateTexture ⟨2⟩ wide (.fill 0 2), call 1 2, .releaseTexture ⟨2⟩, call 1 2, .restore,
    call 1 2, .compileProgram vectorsText, .updateTexture ⟨2⟩ small (.fill 0 4), .resize 3 2,
    .readPixels .bottomUp]

/-- A drawing of the program that reads four vectors, with no parameters. -/
def shortRun : List Operation :=
  [.compileProgram vectorsText, .createTexture ⟨1, 1, .rgba8⟩ (.fill 0 4),
    .draw ⟨⟨1⟩, .fill 0 128, #[], #v[⟨2⟩, ⟨2⟩, ⟨2⟩, ⟨2⟩]⟩]

end Backend

end LiveFragment
