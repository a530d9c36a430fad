import LiveFragment.Proofs.Backend.Alive

namespace LiveFragment.Backend.Headless

/-- What of a backend no texture call changes: its validator, its programs, and whether the device is
lost. -/
structure Still (judge : String → Option String) (programs : List ProgramHandle) (lost : Bool)
    (backend : Headless) : Prop where
  judge : backend.judge = judge
  programs : backend.programs = programs
  lost : backend.lost = lost

theorem textureClosed (judge : String → Option String) (programs : List ProgramHandle)
    (lost : Bool) : TextureClosed (Still judge programs lost) := by
  have kept {before after : Headless} (later : before.Later after)
      (same : before.Still judge programs lost) : after.Still judge programs lost :=
    ⟨later.judge.trans same.judge, later.programs.trans same.programs, later.lost.trans same.lost⟩
  exact ⟨fun backend desc pixels => kept (create_later backend desc pixels),
    fun backend handle desc pixels => kept (update_later backend handle desc pixels),
    fun backend handle => kept (release_later backend handle)⟩

variable {backend next : Headless} {text : String}

/-- What compiles is taken by the validator, on a device that is there. -/
theorem compileProgram_some {handle : ProgramHandle}
    (taken : backend.compileProgram text = (.ok handle, next)) :
    backend.lost = false ∧ backend.judge text = none := by
  unfold compileProgram at taken
  split at taken
  · cases taken
  · rename_i present
    split at taken
    · cases taken
    · rename_i accepted
      exact ⟨by simpa using present, accepted⟩

theorem compileProgram_ok (valid : backend.Valid) {handle : ProgramHandle}
    (taken : backend.compileProgram text = (.ok handle, next)) :
    next.judge = backend.judge ∧ next.programs = handle :: backend.programs ∧
      handle ∉ backend.programs := by
  unfold compileProgram at taken
  split at taken
  · cases taken
  · split at taken
    · cases taken
    · obtain ⟨same, rfl⟩ := Prod.mk.inj taken
      obtain rfl := Except.ok.inj same
      refine ⟨rfl, rfl, ?_⟩
      intro member
      exact Nat.not_succ_le_self _ (valid.programs _ member)

theorem compileProgram_error {error : BackendError}
    (refused : backend.compileProgram text = (.error error, next)) : next = backend := by
  unfold compileProgram at refused
  split at refused
  · exact (Prod.mk.inj refused).2.symm
  · split at refused
    · exact (Prod.mk.inj refused).2.symm
    · cases refused

/-- A device that is there takes every text that the validator takes. -/
theorem compileProgram_present (present : backend.lost = false)
    (accepted : backend.judge text = none) :
    ∃ handle next, backend.compileProgram text = (.ok handle, next) := by
  simp only [compileProgram, present, accepted, Bool.false_eq_true, ↓reduceIte]
  exact ⟨_, _, rfl⟩

theorem draw_programs (backend : Headless) (call : DrawCall) :
    (backend.draw call).2.judge = backend.judge ∧
      (backend.draw call).2.programs = backend.programs := by
  unfold draw
  split
  · exact ⟨rfl, rfl⟩
  · split
    · exact ⟨rfl, rfl⟩
    · split <;> exact ⟨rfl, rfl⟩

theorem readPixels_backend (backend : Headless) (order : ScanlineOrder) :
    (backend.readPixels order).2 = backend := by
  unfold readPixels
  split <;> rfl

/-- A drawing whose program and textures are alive succeeds on a device that is there. -/
theorem draw_ok {call : DrawCall} (present : backend.lost = false)
    (program : call.program ∈ backend.programs)
    (textures : ∀ handle ∈ call.channels.toList, (backend.texture? handle).isSome) :
    (backend.draw call).1 = .ok () := by
  have known : (call.channels.toList.find? fun handle => (backend.texture? handle).isNone) =
      none := by
    rw [List.find?_eq_none]
    intro handle member
    rw [Bool.not_eq_true, Option.isNone_eq_false_iff]
    exact textures handle member
  simp [draw, present, program, known]

end LiveFragment.Backend.Headless
