import LiveFragment.Proofs.Backend.Simulation

namespace LiveFragment

open LiveFragment.Backend

section Rows

variable {α : Type}

/-- The rows of some length that a list starts with. -/
def rowsOf (length count : Nat) (items : List α) : List (List α) :=
  (List.range count).map fun r => (items.drop (r * length)).take length

theorem rowsOf_succ (length count : Nat) (items : List α) :
    rowsOf length (count + 1) items =
      items.take length :: rowsOf length count (items.drop length) := by
  rw [rowsOf, List.range_succ_eq_map, List.map_cons, List.map_map, Nat.zero_mul, List.drop_zero]
  refine congrArg (items.take length :: ·) (List.map_congr_left fun r _ => ?_)
  rw [Function.comp_apply, List.drop_drop, Nat.succ_mul, Nat.add_comm]

theorem flatten_rowsOf {length count : Nat} {items : List α}
    (whole : items.length = count * length) : (rowsOf length count items).flatten = items := by
  induction count generalizing items with
  | zero => exact (List.eq_nil_of_length_eq_zero (by simpa using whole)).symm
  | succ count ih =>
    have rest : (items.drop length).length = count * length := by
      rw [List.length_drop, whole, Nat.succ_mul, Nat.add_sub_cancel]
    rw [rowsOf_succ, List.flatten_cons, ih rest, List.take_append_drop]

theorem rowsOf_flatten {length : Nat} {rows : List (List α)}
    (even : ∀ row ∈ rows, row.length = length) : rowsOf length rows.length rows.flatten = rows := by
  induction rows with
  | nil => rfl
  | cons row rest ih =>
    obtain ⟨first, others⟩ := List.forall_mem_cons.mp even
    rw [List.length_cons, rowsOf_succ, List.flatten_cons, List.take_left' first,
      List.drop_left' first, ih others]

theorem rowsOf_length {length count : Nat} {items : List α}
    (whole : items.length = count * length) {row : List α}
    (member : row ∈ rowsOf length count items) : row.length = length := by
  obtain ⟨r, before, rfl⟩ := List.mem_map.mp member
  have inside := row_inside (List.mem_range.mp before) (Nat.le_refl length)
  rw [List.length_take, List.length_drop, whole]
  omega

end Rows

theorem toList_append_all (parts : List Bytes) (start : Bytes) :
    (parts.foldl (· ++ ·) start).toList = start.toList ++ (parts.map Array.toList).flatten := by
  induction parts generalizing start with
  | nil => simp
  | cons part rest ih => simp [ih]

theorem getElem?_rowsOf {pixels : Bytes} {width height r : Nat} (row : r < height) :
    (rowsOf (width * 4) height pixels.toList)[r]? = some (pictureRow pixels width r).toList := by
  rw [rowsOf, List.getElem?_map, List.getElem?_range row, Option.map_some, pictureRow,
    Array.toList_extract, List.extract_eq_take_drop, Nat.add_sub_cancel_left]

theorem toList_flipRows {pixels : Bytes} {width height : Nat} {rows : List (List UInt8)}
    (even : ∀ row ∈ rows, row.length = width * 4) (count : rows.length = height)
    (whole : pixels.toList = rows.flatten) :
    (flipRows pixels width height).toList = rows.reverse.flatten := by
  have size : pixels.size = height * (width * 4) := by
    rw [← Array.length_toList, whole, List.length_flatten, List.map_congr_left even,
      List.map_const', List.sum_replicate_nat, count]
  have held : rowsOf (width * 4) height pixels.toList = rows := by
    rw [whole, ← count, rowsOf_flatten even]
  have opposite : rowsOf (width * 4) height (flipRows pixels width height).toList =
      rows.reverse := by
    apply List.ext_getElem?
    intro r
    by_cases row : r < height
    · have last : height - 1 - r < height := by omega
      have turned := (flipRows?_rows (Nat.le_of_eq size.symm)).2.2 r row
      rw [getElem?_rowsOf row, turned, List.getElem?_reverse (count ▸ row), count, ← held,
        getElem?_rowsOf last]
    · rw [List.getElem?_eq_none (by simpa [rowsOf] using row),
        List.getElem?_eq_none (by simpa [count] using row)]
  rw [← opposite, flatten_rowsOf]
  rw [Array.length_toList, size_flipRows size]

namespace Backend

/-- What is counted for reading a picture back is counted right: a row, the row with what it is
padded with, and the room for all pixels. -/
structure Counted (width height : UInt32) : Prop where
  row : (rowBytes width).toNat = width.toNat * 4
  padded : (paddedRowBytes width).toNat = (width.toNat * 4 + 255) / 256 * 256
  room : (pictureRoom width height).toNat = width.toNat * 4 * height.toNat

theorem counted_iff {width height : UInt32} (pixels : height ≠ 0) :
    Counted width height ↔ width.toNat * 4 + 255 < UInt32.size ∧
      width.toNat * 4 * height.toNat < UInt32.size := by
  have rows : 1 ≤ height.toNat := by
    rw [Nat.one_le_iff_ne_zero, ne_eq, ← UInt32.toNat_zero, UInt32.toNat_inj]
    exact pixels
  constructor
  · intro counted
    have room : width.toNat * 4 * height.toNat < UInt32.size := by
      rw [← counted.room]
      exact UInt32.toNat_lt _
    have row := Nat.le_mul_of_pos_right (width.toNat * 4) rows
    refine ⟨copiesRows_iff.mp ?_, room⟩
    rw [copiesRows, decide_eq_true_iff, counted.padded]
    omega
  · rintro ⟨padded, room⟩
    refine ⟨toNat_rowBytes padded, toNat_paddedRowBytes padded, ?_⟩
    rw [pictureRoom, UInt32.toNat_mul, toNat_rowBytes padded]
    exact Nat.mod_eq_of_lt room

/-- All sizes that a device offers are counted right exactly if its edges stay below `2 ^ 15`. -/
theorem counted_forall_iff {limit : UInt32} :
    (∀ width height, Device.offers limit width height = true → Counted width height) ↔
      limit.toNat < 2 ^ 15 := by
  have offered {width height : UInt32} : Device.offers limit width height = true ↔
      width ≠ 0 ∧ height ≠ 0 ∧ width.toNat ≤ limit.toNat ∧ height.toNat ≤ limit.toNat := by
    simp [Device.offers, UInt32.le_iff_toNat_le, and_assoc]
  constructor
  · intro counted
    by_contra long
    have square : Device.offers limit 32768 32768 = true :=
      offered.mpr ⟨by decide, by decide, Nat.le_of_not_lt long, Nat.le_of_not_lt long⟩
    exact absurd ((counted_iff (by decide)).mp (counted _ _ square)).2 (by decide)
  · intro short width height accepted
    obtain ⟨-, pixels, wide, high⟩ := offered.mp accepted
    refine (counted_iff pixels).mpr ⟨?_, ?_⟩
    · rw [UInt32.size]
      omega
    · calc width.toNat * 4 * height.toNat
        _ ≤ 32767 * 4 * 32767 := Nat.mul_le_mul (by omega) (by omega)
        _ < UInt32.size := by decide

/-- A copy in padded rows is read back as these rows without what they are padded with, in their own
order or in reverse. -/
structure ReadsRows (copy : Bytes) (width height : UInt32) (rows : List (List UInt8)) : Prop where
  count : rows.length = height.toNat
  padded : ∀ row ∈ rows, row.length = (paddedRowBytes width).toNat
  whole : copy.toList = rows.flatten
  topDown : (readBack copy width height .topDown).toList =
    (rows.map (·.take (width.toNat * 4))).flatten
  bottomUp : (readBack copy width height .bottomUp).toList =
    (rows.reverse.map (·.take (width.toNat * 4))).flatten
  size : ∀ order, (readBack copy width height order).size = width.toNat * height.toNat * 4

section Copy

variable {copy : Bytes} {width height : UInt32}

theorem toList_unpad (fits : width.toNat * 4 + 255 < UInt32.size) :
    (unpad copy width height).toList =
      ((rowsOf (paddedRowBytes width).toNat height.toNat copy.toList).map
        (·.take (width.toNat * 4))).flatten := by
  have short : width.toNat * 4 ≤ (paddedRowBytes width).toNat := by
    simpa [copiesRows] using copiesRows_iff.mpr fits
  simp only [unpad]
  rw [toList_append_all, List.map_map, rowsOf, List.map_map, toNat_rowBytes fits]
  refine congrArg List.flatten (List.map_congr_left fun r _ => ?_)
  rw [Function.comp_apply, Function.comp_apply, Array.toList_extract, List.extract_eq_take_drop,
    Nat.add_sub_cancel_left, List.take_take, Nat.min_eq_left short]

/-- Every copy of as many padded rows as the target has is read back row by row. -/
theorem readBack_rows (fits : width.toNat * 4 + 255 < UInt32.size)
    (whole : copy.size = (paddedRowBytes width).toNat * height.toNat) :
    ReadsRows copy width height
      (rowsOf (paddedRowBytes width).toNat height.toNat copy.toList) := by
  have bytes : copy.toList.length = height.toNat * (paddedRowBytes width).toNat := by
    rw [Array.length_toList, whole, Nat.mul_comm]
  have short : width.toNat * 4 ≤ (paddedRowBytes width).toNat := by
    simpa [copiesRows] using copiesRows_iff.mpr fits
  constructor
  case count => simp [rowsOf]
  case padded => exact fun row member => rowsOf_length bytes member
  case whole => exact (flatten_rowsOf bytes).symm
  case topDown => exact toList_unpad fits
  case bottomUp =>
    rw [List.map_reverse]
    refine toList_flipRows ?_ (by simp [rowsOf]) (toList_unpad fits)
    intro row member
    obtain ⟨padded, inside, rfl⟩ := List.mem_map.mp member
    rw [List.length_take, rowsOf_length bytes inside, Nat.min_eq_left short]
  case size =>
    intro order
    rw [size_readBack fits whole order, Nat.mul_left_comm, Nat.mul_assoc]

end Copy

namespace Device

section Limit

variable {γ : Type} [Graphics γ]

/-- Whenever a library in such a state opens a device, it has the same limit. -/
structure Limits (limit : UInt32) (Kept : γ → Prop) : Prop where
  found : ∀ gpu next found, Kept gpu → Graphics.connect gpu = (.ok found, next) → found = limit
  connect : ∀ gpu, Kept gpu → Kept (Graphics.connect gpu).2
  link : ∀ gpu text, Kept gpu → Kept (Graphics.link gpu text).2
  execute : ∀ gpu command, Kept gpu → Kept (Graphics.execute gpu command).2
  copy : ∀ gpu width height, Kept gpu → Kept (Graphics.copy gpu width height).2

/-- The target of a device keeps within a limit that it has. -/
structure Within (limit : UInt32) (Kept : γ → Prop) (device : Device γ) : Prop where
  bound : device.limit = limit
  target : offers limit device.width device.height = true
  kept : Kept device.gpu

variable {limit : UInt32} {Kept : γ → Prop} {device : Device γ} (limits : Limits limit Kept)

include limits

theorem Within.execute (within : Within limit Kept device) (command : Command) :
    Within limit Kept (device.execute command) :=
  ⟨within.bound, within.target, limits.execute _ _ within.kept⟩

theorem Within.setUp (within : Within limit Kept device) : Within limit Kept device.setUp := by
  have cleared : Within limit Kept
      { device with programs := [], textures := [], room := leastRoom } :=
    ⟨within.bound, within.target, within.kept⟩
  exact (cleared.execute limits _).execute limits _

theorem Within.writeBlocks (within : Within limit Kept device) (standard custom : Bytes) :
    Within limit Kept (device.writeBlocks standard custom) := by
  have grown : Within limit Kept { device with room := grownRoom device.room custom.size } :=
    ⟨within.bound, within.target, within.kept⟩
  simp only [Device.writeBlocks]
  repeat' split
  · exact (grown.execute limits _).execute limits _
  · exact within.execute limits _
  · exact ((grown.execute limits _).execute limits _).execute limits _
  · exact (within.execute limits _).execute limits _

theorem within_of_new {judge : String → Option String} {gpu : γ} {width height : UInt32}
    (kept : Kept gpu) (opened : new judge gpu width height = .ok device) :
    Within limit Kept device := by
  have after := limits.connect gpu kept
  unfold new at opened
  split at opened
  · cases opened
  · rename_i found next connected
    obtain rfl := limits.found _ _ _ kept connected
    rw [connected] at after
    split at opened
    · cases opened
    · rename_i accepted
      obtain rfl := Except.ok.inj opened
      exact Within.setUp limits ⟨rfl, by simpa using accepted, after⟩

omit [Graphics γ] limits in
theorem Within.withGpu (within : Within limit Kept device) {gpu : γ} (kept : Kept gpu) :
    Within limit Kept { device with gpu } := ⟨within.bound, within.target, kept⟩

theorem Within.compileProgram (within : Within limit Kept device) (text : String) :
    Within limit Kept (device.compileProgram text).2 := by
  have after := within.withGpu (limits.link device.gpu text within.kept)
  unfold Device.compileProgram
  split
  · exact within
  · split
    · exact within
    · split <;> rename_i linked <;> rw [linked] at after
      · exact after
      · exact ⟨after.bound, after.target, after.kept⟩

theorem Within.createTexture (within : Within limit Kept device) (desc : TextureDesc)
    (pixels : Bytes) : Within limit Kept (device.createTexture desc pixels).2 := by
  unfold Device.createTexture
  repeat' split
  · exact within
  · exact within
  · exact within
  · refine Within.execute limits ?_ _
    exact ⟨within.bound, within.target, within.kept⟩

theorem Within.updateTexture (within : Within limit Kept device) (handle : TextureHandle)
    (desc : TextureDesc) (pixels : Bytes) :
    Within limit Kept (device.updateTexture handle desc pixels).2 := by
  unfold Device.updateTexture
  repeat' split
  all_goals first | exact within | exact within.execute limits _

theorem Within.releaseTexture (within : Within limit Kept device) (handle : TextureHandle) :
    Within limit Kept (device.releaseTexture handle) := by
  unfold Device.releaseTexture
  split
  · exact within
  · refine Within.execute limits ?_ _
    exact ⟨within.bound, within.target, within.kept⟩

/-- Only a size that is accepted becomes the size of the target. -/
theorem Within.resize (within : Within limit Kept device) (width height : UInt32) :
    Within limit Kept (device.resize width height).2 := by
  unfold Device.resize
  repeat' split
  · exact within
  · exact within
  · rename_i accepted _
    have sized : Within limit Kept { device with width, height } := by
      refine ⟨within.bound, ?_, within.kept⟩
      rw [← within.bound]
      simpa using accepted
    exact sized.execute limits _

theorem Within.draw (within : Within limit Kept device) (call : DrawCall) :
    Within limit Kept (device.draw call).2 := by
  have written := within.writeBlocks limits call.standard call.custom
  simp only [Device.draw]
  repeat' split
  · exact within
  · exact written
  · exact written
  · exact written.execute limits _

theorem Within.readPixels (within : Within limit Kept device) (order : ScanlineOrder) :
    Within limit Kept (device.readPixels order).2 := by
  have after := within.withGpu (limits.copy device.gpu device.width device.height within.kept)
  unfold Device.readPixels
  split
  · exact within
  · split
    · split <;> rename_i copied <;> rw [copied] at after
      · exact ⟨after.bound, after.target, after.kept⟩
      · exact after
      · exact after
    · exact ⟨within.bound, within.target, within.kept⟩

theorem Within.restore (within : Within limit Kept device) :
    Within limit Kept device.restore.2 := by
  have after := limits.connect device.gpu within.kept
  unfold Device.restore
  split <;> rename_i connected
  · rw [connected] at after
    exact within.withGpu after
  · obtain rfl := limits.found _ _ _ within.kept connected
    rw [connected] at after
    exact Within.setUp limits ⟨rfl, within.target, after⟩

theorem Within.perform (within : Within limit Kept device) (operation : Operation) :
    Within limit Kept (operation.perform device).2 := by
  cases operation with
  | compileProgram text => exact within.compileProgram limits text
  | releaseProgram handle => exact ⟨within.bound, within.target, within.kept⟩
  | createTexture desc pixels => exact within.createTexture limits desc pixels
  | updateTexture handle desc pixels => exact within.updateTexture limits handle desc pixels
  | releaseTexture handle => exact within.releaseTexture limits handle
  | resize width height => exact within.resize limits width height
  | draw call => exact within.draw limits call
  | readPixels order => exact within.readPixels limits order
  | restore => exact within.restore limits

theorem Within.answers (within : Within limit Kept device) (operations : List Operation) :
    Within limit Kept (answers device operations).2 := by
  induction operations generalizing device with
  | nil => exact within
  | cons operation rest ih => exact ih (within.perform limits operation)

end Limit

/-- Reading back, on every device with its limit. The counts in words of 32 bits are right for all
sizes that are accepted exactly if the limit is below `2 ^ 15`; for one size, if the padded row and
the room for the picture fit. Rows that are counted right come out of the copy without what they are
padded with, in the order that is asked for; if they are not, reading ends the program. -/
theorem reads_rows (limit : UInt32) :
    ((∀ width height, offers limit width height = true → Counted width height) ↔
      limit.toNat < 2 ^ 15) ∧
    (∀ width height, offers limit width height = true →
      (Counted width height ↔ width.toNat * 4 + 255 < UInt32.size ∧
        width.toNat * 4 * height.toNat < UInt32.size) ∧
      (width.toNat * 4 + 255 < UInt32.size → ∀ copy : Bytes,
        copy.size = (paddedRowBytes width).toNat * height.toNat →
        ∃ rows, ReadsRows copy width height rows)) ∧
    ∀ (γ : Type) [Graphics γ] (Kept : γ → Prop), Limits limit Kept →
      ∀ judge gpu width height device, Kept gpu → new judge gpu width height = .ok device →
      ∀ operations order, let last := (answers device operations).2
        offers limit last.width last.height = true ∧
        (Graphics.isLost last.gpu = true → last.readPixels order = (.error .deviceLost, last)) ∧
        (Graphics.isLost last.gpu = false →
          if last.width.toNat * 4 + 255 < UInt32.size then
            last.readPixels order = match Graphics.copy last.gpu last.width last.height with
              | (none, gpu) => (.ok #[], { last with gpu, broken := true })
              | (some (.error message), gpu) => (.error (.readback message), { last with gpu })
              | (some (.ok copy), gpu) =>
                (.ok (readBack copy last.width last.height order), { last with gpu })
          else last.readPixels order = (.ok #[], { last with broken := true })) := by
  refine ⟨counted_forall_iff, fun width height accepted => ⟨?_, fun fits copy whole => ?_⟩,
    fun γ _ Kept limits judge gpu width height device kept opened operations order =>
      ⟨?_, fun lost => ?_, fun present => ?_⟩⟩
  · have pixels : height ≠ 0 := by
      rintro rfl
      simp [offers] at accepted
    exact counted_iff pixels
  · exact ⟨_, readBack_rows fits whole⟩
  · exact ((within_of_new limits kept opened).answers limits operations).target
  · rw [readPixels, if_pos lost]
  · rw [readPixels, present]
    split
    · rename_i fits
      exact (if_neg Bool.false_ne_true).trans (if_pos (copiesRows_iff.mpr fits))
    · rename_i large
      exact (if_neg Bool.false_ne_true).trans (if_neg (mt copiesRows_iff.mp large))

/-- A library that has no use for parameters. -/
def plainAdapter (limit : UInt32) : NullAdapter := ⟨true, limit, fun _ => 0⟩

theorem reads_rows_narrow :
    (∀ width height, offers 16384 width height = true → Counted width height) ∧
    (∃ rows, ReadsRows (Bytes.fill 1 256 ++ Bytes.fill 2 256) 3 2 rows) ∧
    ∃ device, new (fun _ => none) (plainAdapter 16384) 3 2 = .ok device ∧
      ∃ copy : Bytes, copy.size = 512 ∧
        device.readPixels .bottomUp = (.ok (readBack copy 3 2 .bottomUp), device) := by
  obtain ⟨counted, rows, runs⟩ := reads_rows 16384
  have accepted : offers 16384 3 2 = true := by decide
  have limits : Limits 16384 (· = plainAdapter 16384) := by
    constructor
    case found =>
      rintro gpu next found rfl connected
      exact (Except.ok.inj (Prod.mk.inj connected).1).symm
    all_goals
      intros
      assumption
  have whole : (Bytes.fill 1 256 ++ Bytes.fill 2 256).size = 512 := by
    rw [Array.size_append, Bytes.fill, Bytes.fill, Array.size_replicate, Array.size_replicate]
  refine ⟨counted.mpr (by decide), (rows 3 2 accepted).2 (by decide) _ whole, _, rfl, ?_⟩
  obtain ⟨-, -, read⟩ :=
    runs NullAdapter _ limits (fun _ => none) (plainAdapter 16384) 3 2 _ rfl rfl [] .bottomUp
  have read := read rfl
  rw [if_pos (by decide)] at read
  exact ⟨_, Array.size_replicate, read⟩

/-- A limit of `2 ^ 15` lets the room for a picture run over, and a long one a row as well. -/
theorem counts_run_over :
    offers 32768 32768 32768 = true ∧ (pictureRoom 32768 32768).toNat ≠ 32768 * 4 * 32768 ∧
    offers 2147483647 1073741824 1 = true ∧
    (rowBytes 1073741824).toNat ≠ 1073741824 * 4 ∧
    ∃ device, new (fun _ => none) (plainAdapter 2147483647) 1073741824 1 = .ok device ∧
      (device.readPixels .topDown).2.broken = true :=
  ⟨by decide, by decide, by decide, by decide, _, rfl, by decide⟩

end Device

end Backend

end LiveFragment
