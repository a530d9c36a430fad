import LiveFragment.Proofs.Channel.Heard
import LiveFragment.Proofs.Number.Bounded

namespace LiveFragment.Channel

open LiveFragment.Number
open Float.Model (UnpackedFloat)

/-- What holds of each result when it holds for either member of a pair. -/
theorem forall_mem_zipWith {α β γ : Type} {f : α → β → γ} {P : α → Prop} {Q : β → Prop}
    {R : γ → Prop} (either : ∀ x y, P x ∨ Q y → R (f x y)) {xs : List α} {ys : List β}
    (all : (∀ x ∈ xs, P x) ∨ ∀ y ∈ ys, Q y) : ∀ z ∈ xs.zipWith f ys, R z := by
  intro z member
  obtain ⟨index, bound, rfl⟩ := List.getElem_of_mem member
  rw [List.length_zipWith, Nat.lt_min] at bound
  rw [List.getElem_zipWith]
  exact either _ _ (all.imp (· _ (List.getElem_mem bound.1)) (· _ (List.getElem_mem bound.2)))

/-- No frequency of a block is a number when one of its samples is none. -/
def Transform.Spoils (transform : Transform) : Prop :=
  ∀ block found : List Single, transform.magnitudes block = some found →
    (∃ sample ∈ block, sample.isNaN = true) → ∀ magnitude ∈ found, magnitude.isNaN = true

namespace Halving

namespace Complex

/-- Its real part is not a number. -/
def Spoiled (x : Complex) : Prop := x.re.isNaN = true

variable {x y : Complex}

theorem spoiled_add (spoiled : x.Spoiled ∨ y.Spoiled) : (x.add y).Spoiled :=
  isNaN_float_add spoiled

theorem spoiled_sub (spoiled : x.Spoiled ∨ y.Spoiled) : (x.sub y).Spoiled :=
  isNaN_float_sub spoiled

theorem spoiled_mul (spoiled : y.Spoiled) : (x.mul y).Spoiled :=
  isNaN_float_sub (.inl (isNaN_float_mul (.inr spoiled)))

theorem isNaN_norm (spoiled : x.Spoiled) : x.norm.isNaN = true :=
  isNaN_float_sqrt (isNaN_float_add (.inl (isNaN_float_mul (.inl spoiled))))

theorem spoiled_foldl {terms : List Complex} {sum : Complex}
    (spoiled : sum.Spoiled ∨ ∃ term ∈ terms, term.Spoiled) : (terms.foldl add sum).Spoiled := by
  induction terms generalizing sum with
  | nil =>
    rcases spoiled with spoiled | ⟨_, member, _⟩
    · exact spoiled
    · cases member
  | cons term rest ih =>
    apply ih
    rcases spoiled with spoiled | ⟨other, member, spoiled⟩
    · exact .inl (spoiled_add (.inl spoiled))
    · rcases List.mem_cons.mp member with rfl | member
      · exact .inl (spoiled_add (.inr spoiled))
      · exact .inr ⟨other, member, spoiled⟩

end Complex

theorem mem_halves {α : Type} {block : List α} {x : α} (member : x ∈ block) :
    x ∈ (halves block).1 ∨ x ∈ (halves block).2 := by
  fun_induction halves block with
  | case1 => cases member
  | case2 => exact .inl member
  | case3 first second rest even odd split ih =>
    rw [split] at ih
    rcases List.mem_cons.mp member with rfl | member
    · exact .inl List.mem_cons_self
    · rcases List.mem_cons.mp member with rfl | member
      · exact .inr List.mem_cons_self
      · exact (ih member).imp (List.mem_cons_of_mem _) (List.mem_cons_of_mem _)

theorem spoiled_sums {block : List Complex} (spoiled : ∃ x ∈ block, x.Spoiled) :
    ∀ y ∈ sums block, y.Spoiled := by
  intro y member
  obtain ⟨bin, _, rfl⟩ := List.mem_mapIdx.mp member
  obtain ⟨x, inside, bad⟩ := spoiled
  obtain ⟨index, bound, rfl⟩ := List.getElem_of_mem inside
  exact Complex.spoiled_foldl
    (.inr ⟨_, List.mem_mapIdx.mpr ⟨index, bound, rfl⟩, Complex.spoiled_mul bad⟩)

/-- Each member of a transform depends on all that is transformed. -/
theorem spoiled_transform {levels : Nat} {block : List Complex}
    (spoiled : ∃ x ∈ block, x.Spoiled) : ∀ y ∈ transform levels block, y.Spoiled := by
  induction levels generalizing block with
  | zero => exact spoiled_sums spoiled
  | succ levels ih =>
    rw [transform]
    split
    case isFalse => exact spoiled_sums spoiled
    obtain ⟨x, inside, bad⟩ := spoiled
    have parts := (mem_halves inside).imp (ih ⟨x, ·, bad⟩) (ih ⟨x, ·, bad⟩)
    have turned := parts.imp_right fun odd =>
      show ∀ y ∈ (transform levels (halves block).2).mapIdx fun index value =>
          (twiddle index block.length).mul value, y.Spoiled by
        intro y member
        obtain ⟨index, bound, rfl⟩ := List.mem_mapIdx.mp member
        exact Complex.spoiled_mul (odd _ (List.getElem_mem bound))
    intro y member
    rcases List.mem_append.mp member with member | member
    · exact forall_mem_zipWith (fun _ _ => Complex.spoiled_add) turned y member
    · exact forall_mem_zipWith (fun _ _ => Complex.spoiled_sub) turned y member

theorem spoils : discrete.Spoils := by
  rintro block found made ⟨sample, inside, nan⟩ magnitude member
  simp only [discrete, magnitudes, Option.ite_none_left_eq_some, Option.some.injEq] at made
  obtain ⟨-, rfl⟩ := made
  obtain ⟨bin, kept, rfl⟩ := List.mem_map.mp member
  have bad : bin.Spoiled := by
    refine spoiled_transform ⟨_, List.mem_map_of_mem inside, ?_⟩ bin (List.mem_of_mem_take kept)
    exact Single.isNaN_toDouble nan
  exact Double.isNaN_toSingle_ofFloat (Complex.isNaN_norm bad)

end Halving

namespace Fourier

theorem isNaN_strengths {transform : Transform} (spoils : transform.Spoils)
    {block found : List Single} (heard : strengths transform block = some found)
    (spoiled : ∃ sample ∈ block, sample.isNaN = true) :
    ∀ strength ∈ found, strength.isNaN = true := by
  intro strength member
  obtain ⟨sample, inside, nan⟩ := spoiled
  obtain ⟨index, bound, rfl⟩ := List.getElem_of_mem inside
  obtain ⟨magnitudes, made, rfl⟩ := Option.map_eq_some_iff.mp heard
  obtain ⟨magnitude, found, rfl⟩ := List.mem_map.mp member
  have weighted : (block[index].toFloat32 * weight block.length index).isNaN = true :=
    isNaN_float32_mul (.inl ((Single.isNaN_toFloat32 _).trans nan))
  have bad : magnitude.isNaN = true := by
    refine spoils _ _ made ⟨_, List.mem_mapIdx.mpr ⟨index, bound, rfl⟩, ?_⟩ magnitude
      (List.mem_of_mem_take found)
    exact (Single.isNaN_ofFloat32 _).trans weighted
  rw [Single.isNaN_ofFloat32]
  exact isNaN_float32_mul (.inl ((Single.isNaN_toFloat32 _).trans bad))

theorem isNaN_blend {before now : Single} (nan : before.isNaN = true ∨ now.isNaN = true) :
    (blend before now).isNaN = true := by
  rw [blend, Single.isNaN_ofFloat32]
  apply isNaN_float32_add
  refine nan.imp (fun nan => ?_) fun nan => ?_
  · exact isNaN_float32_mul (.inr ((Single.isNaN_toFloat32 _).trans nan))
  · exact isNaN_float32_mul (.inr ((Single.isNaN_toFloat32 _).trans nan))

theorem unpack_kept : (single 8 (-1)).toModel.unpack =
    .finite .positive 13421773 (-24) (by decide) := by
  have bits : (single 8 (-1)).toBits = 0x3f4ccccd := by decide +kernel
  show UnpackedFloat.unpack .binary32 (single 8 (-1)).toBits.toBitVec = _
  rw [bits]
  rfl

theorem unpack_moved : (1 - single 8 (-1)).toModel.unpack =
    .finite .positive 13421772 (-26) (by decide) := by
  have bits : (1 - single 8 (-1)).toBits = 0x3e4ccccc := by decide +kernel
  show UnpackedFloat.unpack .binary32 (1 - single 8 (-1)).toBits.toBitVec = _
  rw [bits]
  rfl

theorem isFinite_weighted {before now : Float32} (first : before.isFinite = true)
    (second : now.isFinite = true) :
    (single 8 (-1) * before + (1 - single 8 (-1)) * now).isFinite = true := by
  -- Each product loses a part of a unit against its weight, and so the sum of the largest two is
  -- still less than half a unit above the largest number.
  have kept := within_mul (within_of_isFinite first) .positive (by decide)
    (show 2 ^ 23 ≤ 13421773 by decide)
    (show Normal 13421772 104 from ⟨by decide, by decide, by decide, by decide⟩)
    (show 2 * (((13421773 : Nat) : ℚ) * 2 ^ (-24 : Int) * largest) < _ by norm_num [largest])
  have moved := within_mul (within_of_isFinite second) .positive (by decide)
    (show 2 ^ 23 ≤ 13421772 by decide)
    (show Normal 13421771 102 from ⟨by decide, by decide, by decide, by decide⟩)
    (show 2 * (((13421772 : Nat) : ℚ) * 2 ^ (-26 : Int) * largest) < _ by norm_num [largest])
  obtain ⟨bound, sum⟩ := within_add kept moved
    (show Normal (2 ^ 24 - 1) 104 from ⟨by decide, by decide, by decide, by decide⟩) (by norm_num)
  rw [Float32.isFinite, Float32.Model.isFinite, unpack_float32_add, unpack_float32_mul,
    unpack_float32_mul, unpack_kept, unpack_moved]
  rw [kept.settled, moved.settled, sum.settled]
  exact sum.isFinite

theorem isFinite_blend (before now : Single) :
    (blend before now).isFinite = true ↔ before.isFinite = true ∧ now.isFinite = true := by
  rw [blend, Single.isFinite_ofFloat32, ← Single.isFinite_toFloat32, ← Single.isFinite_toFloat32]
  constructor
  · intro finite
    by_contra infinite
    rw [not_and_or, Bool.not_eq_true, Bool.not_eq_true] at infinite
    have sum := isFinite_float32_add (infinite.imp (isFinite_float32_mul unpack_kept)
      (isFinite_float32_mul unpack_moved))
    exact Bool.false_ne_true (sum.symm.trans finite)
  · rintro ⟨first, second⟩
    exact isFinite_weighted first second

theorem loudness_of_isNaN {strength : Single} (nan : strength.isNaN = true) :
    loudness strength = loudness .zero := by
  have silent : ¬ single 1 (-12) < Single.zero.toFloat32 := by decide +kernel
  have spoiled : ¬ single 1 (-12) < strength.toFloat32 :=
    not_float32_lt_of_isNaN ((Single.isNaN_toFloat32 _).trans nan)
  simp only [loudness, if_neg silent, if_neg spoiled]

end Fourier

namespace Analyser

theorem onset_self (energy : Single) : onset energy energy = .zero := by
  have level : energy.less energy = false := decide_eq_false (not_float32_lt_self _)
  have nothing : Single.zero * Single.ofNat 12 = .zero := by decide +kernel
  have less : Single.one.less .zero = false := by decide +kernel
  simp only [onset, level, Bool.false_eq_true, if_false, nothing, less]

theorem follow_zero (beat : Single) : follow beat .zero = beat * decay := by
  have quiet : Single.zero.less threshold = true := by decide +kernel
  rw [follow, if_pos quiet]

/-- A bin of a list of strengths that holds a finite number. -/
def Sane (strengths : List Single) (bin : Nat) : Prop :=
  strengths[bin]?.any Single.isFinite = true

theorem sane_blended {before now : List Single} {bin : Nat} (first : bin < before.length)
    (second : bin < now.length) :
    Sane (before.zipWith Fourier.blend now) bin ↔ Sane before bin ∧ Sane now bin := by
  have blended : (before.zipWith Fourier.blend now)[bin]? =
      some (Fourier.blend before[bin] now[bin]) :=
    List.getElem?_zipWith_eq_some.mpr
      ⟨_, _, List.getElem?_eq_getElem first, List.getElem?_eq_getElem second, rfl⟩
  rw [Sane, Sane, Sane, blended, List.getElem?_eq_getElem first, List.getElem?_eq_getElem second]
  exact Fourier.isFinite_blend _ _

theorem sane_ofSize {size bin : Nat} (inside : bin < size / 2) :
    Sane (ofSize Single.zero size).smoothed bin := by
  have bound : bin < (max size 2) / 2 := by omega
  show (List.replicate ((max size 2) / 2) Single.zero)[bin]?.any _ = true
  rw [List.getElem?_replicate, if_pos bound]
  decide

section Strengths

variable {transform : Transform} {size : Nat}

theorem process_strengths (transform : Transform) {analyser : Analyser Single}
    {samples : List Single} :
    let next := analyser.process (Fourier.sound transform) samples
    (Fourier.strengths transform next.history = none ∧ next.smoothed = analyser.smoothed) ∨
      ∃ found, Fourier.strengths transform next.history = some found ∧
        next.smoothed = analyser.smoothed.zipWith Fourier.blend found := by
  intro next
  have moved : next.history = slide analyser.size analyser.history samples := by
    simp only [next, process]
    split <;> rfl
  cases heard : Fourier.strengths transform next.history with
  | none =>
    refine .inl ⟨rfl, ?_⟩
    rw [moved] at heard
    simp only [next, process, Fourier.sound, heard]
  | some found =>
    refine .inr ⟨found, rfl, ?_⟩
    rw [moved] at heard
    simp only [next, process, Fourier.sound, heard]

/-- A strength is a finite number exactly when all strengths of its bin up to now were. -/
theorem sane_smoothed {bin : Nat} (least : 2 ≤ size) (inside : bin < size / 2)
    (blocks : List (List Single)) :
    Sane (heard (Fourier.sound transform) size blocks).smoothed bin ↔
      ∀ earlier, earlier ≠ [] → earlier <+: blocks → ∀ found,
        Fourier.strengths transform (heard (Fourier.sound transform) size earlier).history =
          some found → Sane found bin := by
  induction blocks using List.reverseRecOn with
  | nil =>
    exact iff_of_true (sane_ofSize inside)
      fun earlier some' start => absurd (List.prefix_nil.mp start) some'
  | append_singleton blocks block ih =>
    have kept := keeps_heard (Fourier.sound transform) least blocks
    have next := keeps_heard (Fourier.sound transform) least (blocks ++ [block])
    have step : Sane (heard (Fourier.sound transform) size (blocks ++ [block])).smoothed bin ↔
        Sane (heard (Fourier.sound transform) size blocks).smoothed bin ∧ ∀ found,
          Fourier.strengths transform
            (heard (Fourier.sound transform) size (blocks ++ [block])).history = some found →
              Sane found bin := by
      have bounded : bin < (heard (Fourier.sound transform) size blocks).smoothed.length := by
        rwa [kept.smoothed]
      rw [heard_concat] at next ⊢
      rcases process_strengths transform with ⟨failed, same⟩ | ⟨found, heard, same⟩
      · rw [failed, same]
        simp
      · have length := Fourier.length_strengths heard
        rw [next.history, length_rtake next.enough] at length
        rw [heard, same, sane_blended bounded (length ▸ inside)]
        simp
    rw [step, ih]
    constructor
    · rintro ⟨before, now⟩ earlier some' start
      rcases List.prefix_concat_iff.mp start with rfl | start
      · exact now
      · exact before earlier some' start
    · intro all
      refine ⟨fun earlier some' start => ?_, ?_⟩
      · exact all earlier some' (start.trans (List.prefix_append ..))
      · exact all _ (by simp) List.prefix_rfl

end Strengths

/-- An analyser whose strengths are no numbers any more shows silence. -/
structure Deaf (size : Nat) (analyser : Analyser Single) : Prop where
  spoiled : ∀ strength ∈ analyser.smoothed, strength.isNaN = true
  row : analyser.buffer.toList.take (size / 2) =
    List.replicate (size / 2) (Fourier.loudness .zero)
  low : analyser.lowEnergy = energy ((List.replicate (size / 2)
    (Fourier.loudness .zero)).take (max (size / 2 / 16) 1))

variable {transform : Transform} {size : Nat} {analyser : Analyser Single}
  {stream samples found : List Single}

theorem isNaN_blended {before now : List Single}
    (spoiled : (∀ strength ∈ before, strength.isNaN = true) ∨
      ∀ strength ∈ now, strength.isNaN = true) :
    ∀ strength ∈ before.zipWith Fourier.blend now, strength.isNaN = true := by
  refine forall_mem_zipWith (R := fun strength : Single => strength.isNaN = true) ?_ spoiled
  intro before now
  exact Fourier.isNaN_blend

theorem deaf_process (keeps : Keeps size stream analyser)
    (heard : Fourier.strengths transform ((stream ++ samples).rtake size) = some found)
    (spoiled : (∀ strength ∈ analyser.smoothed, strength.isNaN = true) ∨
      ∀ strength ∈ found, strength.isNaN = true) :
    Deaf size (analyser.process (Fourier.sound transform) samples) := by
  have next := keeps.process (Fourier.sound transform) samples
  have silent : (analyser.smoothed.zipWith Fourier.blend found).map Fourier.loudness =
      List.replicate (size / 2) (Fourier.loudness .zero) := by
    have length := Fourier.length_strengths heard
    rw [length_rtake next.enough] at length
    rw [List.eq_replicate_iff, List.length_map, List.length_zipWith, keeps.smoothed, length,
      Nat.min_self]
    refine ⟨rfl, ?_⟩
    intro level member
    obtain ⟨strength, inside, rfl⟩ := List.mem_map.mp member
    exact Fourier.loudness_of_isNaN (isNaN_blended spoiled strength inside)
  rw [process, keeps.slid]
  simp only [Fourier.sound, heard, silent, bins, keeps.sized]
  constructor
  case spoiled => exact isNaN_blended spoiled
  case row => exact List.take_left' List.length_replicate
  case low => rfl

/-- The energy is that of silence twice, which is no onset. -/
theorem Deaf.beat (deaf : Deaf size analyser)
    (heard : (Fourier.strengths transform (slide analyser.size analyser.history samples)).isSome)
    (next : Deaf size (analyser.process (Fourier.sound transform) samples)) :
    (analyser.process (Fourier.sound transform) samples).beat = analyser.beat * decay := by
  obtain ⟨found, heard⟩ := Option.isSome_iff_exists.mp heard
  have step : (analyser.process (Fourier.sound transform) samples).beat =
      follow analyser.beat (onset analyser.lowEnergy
        (analyser.process (Fourier.sound transform) samples).lowEnergy) := by
    simp only [process, Fourier.sound, heard]
  rw [step, deaf.low, next.low, onset_self, follow_zero]

theorem Keeps.transformed (total : transform.Total) (least : 2 ≤ size)
    (keeps : Keeps size stream analyser) (samples : List Single) :
    (Fourier.strengths transform ((stream ++ samples).rtake size)).isSome := by
  apply (Fourier.lawful total).succeeds
  rw [← List.length_pos_iff, length_rtake (keeps.enough_append samples)]
  omega

/-- A sample in the history that is "not a number" is heard for ever. -/
theorem heard_deaf (total : transform.Total) (spoils : transform.Spoils) (least : 2 ≤ size)
    {earlier : List (List Single)}
    (spoiled : ∃ sample ∈ (heard (Fourier.sound transform) size earlier).history,
      sample.isNaN = true)
    (later : List (List Single)) :
    Deaf size (heard (Fourier.sound transform) size (earlier ++ later)) := by
  induction later using List.reverseRecOn with
  | nil =>
    rw [List.append_nil]
    rcases List.eq_nil_or_concat earlier with rfl | ⟨before, block, rfl⟩
    · obtain ⟨sample, member, nan⟩ := spoiled
      obtain rfl := List.eq_of_mem_replicate member
      exact absurd nan (show ¬ Single.zero.isNaN = true by decide)
    · have keeps := keeps_heard (Fourier.sound transform) least before
      obtain ⟨found, heard⟩ := Option.isSome_iff_exists.mp (keeps.transformed total least block)
      rw [List.concat_eq_append, heard_concat] at *
      rw [(keeps.process _ block).history] at spoiled
      exact deaf_process keeps heard (.inr (Fourier.isNaN_strengths spoils heard spoiled))
  | append_singleton later block ih =>
    have keeps := keeps_heard (Fourier.sound transform) least (earlier ++ later)
    obtain ⟨found, heard⟩ := Option.isSome_iff_exists.mp (keeps.transformed total least block)
    rw [← List.append_assoc, heard_concat]
    exact deaf_process keeps heard (.inl ih.spoiled)

/-- A strength is finite as long as all that were heard were; and once a sample in the history is
"not a number", the analyser is deaf, whatever it hears. -/
theorem heard_spoiled (total : transform.Total) (spoils : transform.Spoils) (least : 2 ≤ size)
    (blocks : List (List Single)) :
    let heard := heard (Fourier.sound transform) size
    (∀ bin < size / 2, Sane (heard blocks).smoothed bin ↔
      ∀ earlier, earlier ≠ [] → earlier <+: blocks → ∀ found,
        Fourier.strengths transform (heard earlier).history = some found → Sane found bin) ∧
      ∀ earlier, earlier <+: blocks →
        (∃ sample ∈ (heard earlier).history, sample.isNaN = true) →
        Deaf size (heard blocks) ∧
          ∀ block, (heard (blocks ++ [block])).beat = (heard blocks).beat * decay := by
  refine ⟨fun bin inside => sane_smoothed least inside blocks, ?_⟩
  rintro earlier ⟨later, rfl⟩ spoiled
  have deaf := heard_deaf total spoils least spoiled later
  refine ⟨deaf, ?_⟩
  intro block
  have keeps := keeps_heard (Fourier.sound transform) least (earlier ++ later)
  have next := heard_deaf total spoils least spoiled (later ++ [block])
  have transformed := keeps.transformed total least block
  rw [← keeps.slid] at transformed
  rw [← List.append_assoc, heard_concat] at next
  rw [heard_concat]
  exact deaf.beat transformed next

/-- All of the history is sound again, and the analyser stays deaf. -/
theorem heard_spoiled_recovered :
    let heard := heard (Fourier.sound Halving.discrete) 2
    let nan : Single := ⟨0x7fc00000⟩
    let blocks := [[nan], [.one, .one]]
    Halving.discrete.Total ∧ Halving.discrete.Spoils ∧ 2 ≤ 2 ∧ nan.isNaN = true ∧
      (heard blocks).history = [.one, .one] ∧ Deaf 2 (heard blocks) ∧
      ∀ block, (heard (blocks ++ [block])).beat = (heard blocks).beat * decay := by
  intro heard nan blocks
  have keeps (blocks : List (List Single)) :=
    keeps_heard (Fourier.sound Halving.discrete) (Nat.le_refl 2) blocks
  have spoiled : ∃ sample ∈ (heard [[nan]]).history, sample.isNaN = true := by
    rw [(keeps [[nan]]).history]
    exact ⟨nan, by decide, by decide⟩
  refine ⟨Halving.total, Halving.spoils, by decide, by decide, ?_, ?_⟩
  · exact (keeps blocks).history.trans (by decide)
  · exact (heard_spoiled Halving.total Halving.spoils (by decide) blocks).2 [[nan]]
      ⟨[[.one, .one]], rfl⟩ spoiled

end Analyser

end LiveFragment.Channel
