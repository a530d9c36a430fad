import LiveFragment.Proofs.Backend.Books

namespace LiveFragment.Backend.Headless

/-- The handle of the next texture. -/
def nextTexture (backend : Headless) : TextureHandle := ⟨backend.lastId + 1⟩

/-- A handle that was given out and names no texture any more. -/
structure Spent (backend : Headless) (handle : TextureHandle) : Prop where
  issued : handle.id ≤ backend.lastId
  dead : backend.texture? handle = none

/-- What texture calls leave of a backend. -/
structure Later (before after : Headless) : Prop where
  judge : after.judge = before.judge
  programs : after.programs = before.programs
  lost : after.lost = before.lost
  issued : before.lastId ≤ after.lastId
  spent : ∀ handle, before.Spent handle → after.Spent handle

theorem Later.refl (backend : Headless) : backend.Later backend :=
  ⟨rfl, rfl, rfl, Nat.le_refl _, fun _ spent => spent⟩

theorem Later.trans {first second third : Headless} (before : first.Later second)
    (after : second.Later third) : first.Later third :=
  ⟨after.judge.trans before.judge, after.programs.trans before.programs, after.lost.trans before.lost,
    Nat.le_trans before.issued after.issued,
    fun handle spent => after.spent handle (before.spent handle spent)⟩

variable {backend : Headless} {desc : TextureDesc} {pixels : Bytes} {handle : TextureHandle}

theorem Spent.ne_next (spent : backend.Spent handle) : handle ≠ backend.nextTexture := by
  rintro rfl
  exact Nat.not_succ_le_self _ spent.issued

theorem Valid.issued (valid : backend.Valid) {record : TextureRecord}
    (found : backend.texture? handle = some record) : handle.id ≤ backend.lastId :=
  valid.textures handle (mem_live_iff.mpr (by simp [found]))

theorem create_later (backend : Headless) (desc : TextureDesc) (pixels : Bytes) :
    backend.Later (backend.createTexture desc pixels).2 := by
  unfold createTexture
  split
  · exact .refl backend
  · split
    · exact .refl backend
    · refine ⟨rfl, rfl, rfl, Nat.le_succ _, fun handle spent => ⟨Nat.le_succ_of_le spent.issued, ?_⟩⟩
      simp only [texture?, lookup_cons]
      exact (if_neg spent.ne_next).trans spent.dead

theorem setTexture_later {record : TextureRecord} (found : backend.texture? handle = some record)
    (next : TextureRecord) : backend.Later (backend.setTexture handle next) := by
  refine ⟨rfl, rfl, rfl, Nat.le_refl _, fun other spent => ⟨spent.issued, ?_⟩⟩
  have apart : other ≠ handle := by
    rintro rfl
    exact Option.some_ne_none record (found.symm.trans spent.dead)
  rw [texture?, setTexture, lookup_replace, if_neg apart]
  exact spent.dead

theorem update_later (backend : Headless) (handle : TextureHandle) (desc : TextureDesc)
    (pixels : Bytes) : backend.Later (backend.updateTexture handle desc pixels).2 := by
  unfold updateTexture
  split
  · exact .refl backend
  · split
    · exact .refl backend
    · split
      · exact .refl backend
      · rename_i found
        split
        · exact .refl backend
        · exact setTexture_later found _

theorem release_later (backend : Headless) (handle : TextureHandle) :
    backend.Later (backend.releaseTexture handle) := by
  refine ⟨rfl, rfl, rfl, Nat.le_refl _, fun other spent => ⟨spent.issued, ?_⟩⟩
  rw [texture?, releaseTexture, lookup_filter]
  split
  · rfl
  · exact spent.dead

theorem textureClosed_later (before : Headless) : TextureClosed before.Later where
  create backend desc pixels later := later.trans (create_later backend desc pixels)
  update backend handle desc pixels later := later.trans (update_later backend handle desc pixels)
  release backend handle later := later.trans (release_later backend handle)

theorem create_present (present : backend.lost = false) (fits : desc.checkPixels pixels = .ok ()) :
    ∃ next, backend.createTexture desc pixels = (.ok backend.nextTexture, next) := by
  simp only [createTexture, present, fits, Bool.false_eq_true, ↓reduceIte]
  exact ⟨_, rfl⟩

theorem update_present (present : backend.lost = false) (fits : desc.checkPixels pixels = .ok ())
    {record : TextureRecord} (found : backend.texture? handle = some record)
    (shape : record.desc = desc) :
    ∃ next, backend.updateTexture handle desc pixels = (.ok (), next) := by
  simp only [updateTexture, present, fits, found, shape, ne_eq, not_true_eq_false,
    Bool.false_eq_true, ↓reduceIte]
  exact ⟨_, rfl⟩

end LiveFragment.Backend.Headless
