import LiveFragment.Proofs.Backend.Pixels
import LiveFragment.Proofs.Backend.Programs
import LiveFragment.Proofs.Backend.Simulation

namespace LiveFragment.Backend

/-- What can happen to a backend: it is asked for something, or its device goes away. -/
inductive Happening
  | asked (operation : Operation)
  | lost

namespace Answer

def error? : Answer → Option BackendError
  | program (.error error) | texture (.error error) | picture (.error error)
  | done (.error error) => some error
  | _ => none

/-- The id of the handle that is given out. -/
def issued? : Answer → Option Nat
  | program (.ok handle) => some handle.id
  | texture (.ok handle) => some handle.id
  | _ => none

theorem issued?_of_error {answer : Answer} {error : BackendError}
    (told : answer.error? = some error) : answer.issued? = none := by
  cases answer with
  | program result | texture result =>
    cases result with
    | error _ => rfl
    | ok _ => cases told
  | _ => rfl

end Answer

namespace Happening

/-- The bytes of its pixels fit the word that they are counted in. -/
def Fits : Happening → Prop
  | asked (.createTexture desc _) | asked (.updateTexture _ desc _) =>
    desc.trueLength < UInt64.size
  | _ => True

/-- Something is asked for that needs the device. -/
def Works : Happening → Prop
  | asked (.compileProgram _) | asked (.createTexture ..) | asked (.updateTexture ..)
  | asked (.draw _) | asked (.readPixels _) => True
  | _ => False

/-- After this a texture handle means nothing any more. -/
def RetiresTexture (handle : TextureHandle) : Happening → Prop
  | asked (.releaseTexture other) => other = handle
  | asked .restore => True
  | _ => False

/-- After this a program handle means nothing any more. -/
def RetiresProgram (handle : ProgramHandle) : Happening → Prop
  | asked (.releaseProgram other) => other = handle
  | asked .restore => True
  | _ => False

end Happening

namespace Headless

/-- What a backend answers, and what becomes of it. -/
def serve (backend : Headless) : Happening → Answer × Headless
  | .lost => (.silent, backend.lose)
  | .asked operation => operation.perform backend

/-- A backend after some happenings. -/
def after (backend : Headless) (happenings : List Happening) : Headless :=
  happenings.foldl (fun backend happening => (backend.serve happening).2) backend

theorem after_append (backend : Headless) (earlier later : List Happening) :
    backend.after (earlier ++ later) = (backend.after earlier).after later :=
  List.foldl_append

/-- The ids of all handles that are given out on the way. -/
def issued (backend : Headless) : List Happening → List Nat
  | [] => []
  | happening :: rest =>
    (backend.serve happening).1.issued?.toList ++ issued (backend.serve happening).2 rest

/-- All that can become of a backend in one step. -/
inductive Step (backend : Headless) : Happening → Answer → Headless → Prop
  | refuse {happening : Happening} {answer : Answer} (error : BackendError)
    (told : answer.error? = some error) : Step backend happening answer backend
  | compile (text : String) :
    Step backend (.asked (.compileProgram text)) (.program (.ok ⟨backend.lastId + 1⟩))
      { backend with
        lastId := backend.lastId + 1
        programs := ⟨backend.lastId + 1⟩ :: backend.programs }
  | create {desc : TextureDesc} {pixels : Bytes} (fits : desc.checkPixels pixels = .ok ()) :
    Step backend (.asked (.createTexture desc pixels)) (.texture (.ok ⟨backend.lastId + 1⟩))
      { backend with
        lastId := backend.lastId + 1
        textures := (⟨backend.lastId + 1⟩, ⟨desc, pixels, 0⟩) :: backend.textures
        allocations := backend.allocations + 1 }
  | update {handle : TextureHandle} {record : TextureRecord} {pixels : Bytes}
    (fits : record.desc.checkPixels pixels = .ok ())
    (found : backend.texture? handle = some record) :
    Step backend (.asked (.updateTexture handle record.desc pixels)) (.done (.ok ()))
      (backend.setTexture handle ⟨record.desc, pixels, record.updates + 1⟩)
  | releaseProgram (handle : ProgramHandle) :
    Step backend (.asked (.releaseProgram handle)) .silent (backend.releaseProgram handle)
  | releaseTexture (handle : TextureHandle) :
    Step backend (.asked (.releaseTexture handle)) .silent (backend.releaseTexture handle)
  | resize (width height : UInt32) :
    Step backend (.asked (.resize width height)) (.done (.ok ())) { backend with width, height }
  | draw (call : DrawCall) :
    Step backend (.asked (.draw call)) (.done (.ok ()))
      { backend with drawn := backend.drawn + 1, lastDraw := some call }
  | read (order : ScanlineOrder) (bytes : Nat) :
    Step backend (.asked (.readPixels order)) (.picture (.ok bytes)) backend
  | restore :
    Step backend (.asked .restore) (.done (.ok ()))
      { backend with programs := [], textures := [], lost := false }
  | lose : Step backend .lost .silent backend.lose

theorem serve_step (backend : Headless) (happening : Happening) :
    Step backend happening (backend.serve happening).1 (backend.serve happening).2 := by
  cases happening with
  | lost => exact .lose
  | asked operation =>
    cases operation with
    | compileProgram text =>
      simp only [serve, Operation.perform, Backend.compileProgram, compileProgram]
      split
      · exact .refuse _ rfl
      · split
        · exact .refuse _ rfl
        · exact .compile text
    | createTexture desc pixels =>
      simp only [serve, Operation.perform, Backend.createTexture, createTexture]
      split
      · exact .refuse _ rfl
      · split
        · exact .refuse _ rfl
        · rename_i fits
          exact .create fits
    | updateTexture handle desc pixels =>
      simp only [serve, Operation.perform, Backend.updateTexture, updateTexture]
      split
      · exact .refuse _ rfl
      · split
        · exact .refuse _ rfl
        · rename_i fits
          split
          · exact .refuse _ rfl
          · rename_i record found
            split
            · exact .refuse _ rfl
            · rename_i same
              obtain rfl := not_not.mp same
              exact .update fits found
    | draw call =>
      simp only [serve, Operation.perform, Backend.draw, Headless.draw]
      split
      · exact .refuse _ rfl
      · split
        · exact .refuse _ rfl
        · split
          · exact .refuse _ rfl
          · exact .draw call
    | readPixels order =>
      simp only [serve, Operation.perform, Backend.readPixels, Headless.readPixels]
      split
      · exact .refuse _ rfl
      · exact .read order _
    | releaseProgram handle => exact .releaseProgram handle
    | releaseTexture handle => exact .releaseTexture handle
    | resize width height => exact .resize width height
    | restore => exact .restore

variable {backend next : Headless} {happening : Happening}
  {answer : Answer}

theorem Step.refused (step : Step backend happening answer next) {error : BackendError}
    (told : answer.error? = some error) : next = backend := by
  cases step with
  | refuse => rfl
  | _ => cases told

theorem Step.issued (step : Step backend happening answer next) :
    next.lastId = backend.lastId + answer.issued?.toList.length ∧
      answer.issued?.toList = List.range' (backend.lastId + 1) answer.issued?.toList.length := by
  cases step with
  | refuse error told =>
    rw [Answer.issued?_of_error told]
    exact ⟨rfl, rfl⟩
  | _ => exact ⟨rfl, rfl⟩

theorem issued_eq (backend : Headless) (happenings : List Happening) :
    (backend.after happenings).lastId =
        backend.lastId + (backend.issued happenings).length ∧
      backend.issued happenings =
        List.range' (backend.lastId + 1) (backend.issued happenings).length := by
  induction happenings generalizing backend with
  | nil => exact ⟨rfl, rfl⟩
  | cons happening rest ih =>
    obtain ⟨last, own⟩ := (serve_step backend happening).issued
    obtain ⟨behind, others⟩ := ih (backend.serve happening).2
    rw [last] at behind others
    rw [issued, List.length_append]
    refine ⟨behind.trans (Nat.add_assoc ..), ?_⟩
    rw [← List.range'_append_1, ← own, Nat.add_right_comm, ← others]

theorem issued_le (backend : Headless) {happenings : List Happening} {id : Nat}
    (member : id ∈ backend.issued happenings) : id ≤ (backend.after happenings).lastId := by
  obtain ⟨last, ids⟩ := backend.issued_eq happenings
  rw [ids, List.mem_range'_1] at member
  omega

/-- A handle that was given out and names no program any more. -/
structure SpentProgram (backend : Headless) (handle : ProgramHandle) : Prop where
  issued : handle.id ≤ backend.lastId
  dead : handle ∉ backend.programs

/-- What has been given out and is gone does not come back. -/
structure Past (before after : Headless) : Prop where
  textures : ∀ handle, before.Spent handle → after.Spent handle
  programs : ∀ handle, before.SpentProgram handle → after.SpentProgram handle

theorem Past.refl (backend : Headless) : backend.Past backend :=
  ⟨fun _ spent => spent, fun _ spent => spent⟩

theorem Past.trans {first second third : Headless} (before : first.Past second)
    (after : second.Past third) : first.Past third :=
  ⟨fun handle spent => after.textures handle (before.textures handle spent),
    fun handle spent => after.programs handle (before.programs handle spent)⟩

theorem Later.past {before after : Headless} (later : before.Later after) : before.Past after :=
  ⟨later.spent, fun _ spent =>
    ⟨Nat.le_trans spent.issued later.issued, later.programs ▸ spent.dead⟩⟩

theorem Step.past (step : Step backend happening answer next) : backend.Past next := by
  cases step with
  | compile text =>
    refine ⟨fun handle spent => ⟨Nat.le_succ_of_le spent.issued, spent.dead⟩, ?_⟩
    intro handle spent
    refine ⟨Nat.le_succ_of_le spent.issued, List.not_mem_cons_of_ne_of_not_mem ?_ spent.dead⟩
    rintro rfl
    exact Nat.not_succ_le_self _ spent.issued
  | create fits =>
    refine ⟨?_, fun handle spent => ⟨Nat.le_succ_of_le spent.issued, spent.dead⟩⟩
    intro handle spent
    refine ⟨Nat.le_succ_of_le spent.issued, ?_⟩
    rw [texture?, lookup_cons]
    exact (if_neg spent.ne_next).trans spent.dead
  | update fits found => exact (setTexture_later found _).past
  | releaseProgram handle =>
    refine ⟨fun other spent => ⟨spent.issued, spent.dead⟩, fun other spent => ⟨spent.issued, ?_⟩⟩
    exact fun member => spent.dead (List.mem_filter.mp member).1
  | releaseTexture handle => exact (release_later backend handle).past
  | restore =>
    exact ⟨fun _ spent => ⟨spent.issued, rfl⟩, fun _ spent => ⟨spent.issued, List.not_mem_nil⟩⟩
  | _ =>
    exact ⟨fun _ spent => ⟨spent.issued, spent.dead⟩, fun _ spent => ⟨spent.issued, spent.dead⟩⟩

theorem after_past (backend : Headless) (happenings : List Happening) :
    backend.Past (backend.after happenings) := by
  induction happenings generalizing backend with
  | nil => exact .refl backend
  | cons happening rest ih =>
    exact (serve_step backend happening).past.trans (ih (backend.serve happening).2)

/-- A texture that is released, or that a restore forgets, is gone. -/
theorem spent_of_retires {handle : TextureHandle} (issued : handle.id ≤ backend.lastId)
    (retires : happening.RetiresTexture handle) :
    (backend.serve happening).2.Spent handle := by
  unfold Happening.RetiresTexture at retires
  split at retires
  · obtain rfl := retires
    refine ⟨issued, ?_⟩
    exact (lookup_filter ..).trans (if_pos rfl)
  · exact ⟨issued, rfl⟩
  · exact retires.elim

theorem spentProgram_of_retires {handle : ProgramHandle}
    (issued : handle.id ≤ backend.lastId) (retires : happening.RetiresProgram handle) :
    (backend.serve happening).2.SpentProgram handle := by
  unfold Happening.RetiresProgram at retires
  split at retires
  · obtain rfl := retires
    refine ⟨issued, ?_⟩
    intro member
    exact of_decide_eq_true (List.mem_filter.mp member).2 rfl
  · exact ⟨issued, List.not_mem_nil⟩
  · exact retires.elim

/-- A handle that means no texture: to release it changes nothing, and no update or drawing with it
succeeds. -/
structure Void (backend : Headless) (handle : TextureHandle) : Prop where
  absent : backend.texture? handle = none
  release : backend.releaseTexture handle = backend
  update : ∀ desc pixels, ∃ error,
    backend.updateTexture handle desc pixels = (.error error, backend)
  draw : ∀ call, handle ∈ call.channels.toList →
    ∃ error, backend.draw call = (.error error, backend)

/-- A handle that means no program. -/
structure VoidProgram (backend : Headless) (handle : ProgramHandle) : Prop where
  absent : handle ∉ backend.programs
  release : backend.releaseProgram handle = backend
  draw : ∀ call, call.program = handle → ∃ error, backend.draw call = (.error error, backend)

/-- What is drawn is alive. -/
theorem of_draw_ok {call : DrawCall} (drawn : (backend.draw call).1 = .ok ()) :
    call.program ∈ backend.programs ∧
      ∀ handle ∈ call.channels.toList, (backend.texture? handle).isSome := by
  unfold Headless.draw at drawn
  split at drawn
  · cases drawn
  · split at drawn
    · cases drawn
    · rename_i known
      split at drawn
      · cases drawn
      · rename_i all
        refine ⟨by simpa using known, ?_⟩
        intro handle member
        have found := List.find?_eq_none.mp all handle member
        rwa [Bool.not_eq_true, Option.isNone_eq_false_iff] at found

theorem draw_error {call : DrawCall} (refused : (backend.draw call).1 ≠ .ok ()) :
    ∃ error, backend.draw call = (.error error, backend) := by
  unfold Headless.draw at refused ⊢
  split
  · exact ⟨_, rfl⟩
  · split
    · exact ⟨_, rfl⟩
    · rename_i present known
      rw [if_neg present, if_neg known] at refused
      split
      · exact ⟨_, rfl⟩
      · rename_i all
        rw [all] at refused
        exact absurd rfl refused

theorem Spent.void {handle : TextureHandle} (spent : backend.Spent handle) :
    backend.Void handle where
  absent := spent.dead
  release := by
    have all : backend.textures.filter (·.1 ≠ handle) = backend.textures := by
      rw [List.filter_eq_self]
      intro entry member
      rw [decide_eq_true_eq]
      rintro rfl
      have live : entry.1 ∈ backend.live := List.mem_map_of_mem member
      rw [mem_live_iff, spent.dead] at live
      cases live
    rw [releaseTexture, all]
  update desc pixels := by
    unfold updateTexture
    split
    · exact ⟨_, rfl⟩
    · split
      · exact ⟨_, rfl⟩
      · rw [spent.dead]
        exact ⟨_, rfl⟩
  draw call member := by
    apply draw_error
    intro drawn
    have alive := (of_draw_ok drawn).2 handle member
    rw [spent.dead] at alive
    cases alive

theorem SpentProgram.void {handle : ProgramHandle} (spent : backend.SpentProgram handle) :
    backend.VoidProgram handle where
  absent := spent.dead
  release := by
    have all : backend.programs.filter (· ≠ handle) = backend.programs := by
      rw [List.filter_eq_self]
      intro other member
      rw [decide_eq_true_eq]
      rintro rfl
      exact spent.dead member
    rw [releaseProgram, all]
  draw call same := by
    apply draw_error
    intro drawn
    exact spent.dead (same ▸ (of_draw_ok drawn).1)

/-- All bytes of each live texture are there. -/
def Whole (backend : Headless) : Prop :=
  ∀ handle record, backend.texture? handle = some record →
    record.pixels.size = record.desc.trueLength

theorem size_of_fits {desc : TextureDesc} {pixels : Bytes}
    (small : desc.trueLength < UInt64.size) (fits : desc.checkPixels pixels = .ok ()) :
    pixels.size = desc.trueLength :=
  (TextureDesc.checkPixels_eq_ok.mp fits).2.2.trans (Nat.mod_eq_of_lt small)

theorem Step.whole (step : Step backend happening answer next) (fits : happening.Fits)
    (whole : backend.Whole) : next.Whole := by
  cases step with
  | create passes =>
    intro handle record found
    rw [texture?, lookup_cons] at found
    split at found
    · obtain rfl := Option.some.inj found
      exact size_of_fits fits passes
    · exact whole handle record found
  | update passes held =>
    intro handle record found
    rw [texture?, setTexture, lookup_replace, ← texture?, held] at found
    split at found
    · obtain rfl := Option.some.inj found
      exact size_of_fits fits passes
    · exact whole handle record found
  | releaseTexture gone =>
    intro handle record found
    rw [texture?, Headless.releaseTexture, lookup_filter] at found
    split at found
    · cases found
    · exact whole handle record found
  | restore =>
    intro _ _ found
    cases found
  | _ => exact whole

theorem after_whole (whole : backend.Whole) {happenings : List Happening}
    (fits : ∀ happening ∈ happenings, happening.Fits) : (backend.after happenings).Whole := by
  induction happenings generalizing backend with
  | nil => exact whole
  | cons happening rest ih =>
    obtain ⟨own, others⟩ := List.forall_mem_cons.mp fits
    exact ih ((serve_step backend happening).whole own whole) others

theorem Whole.update (whole : backend.Whole) {handle : TextureHandle} {desc : TextureDesc}
    {pixels : Bytes} (small : desc.trueLength < UInt64.size)
    (taken : backend.updateTexture handle desc pixels = (.ok (), next)) :
    ∃ record, backend.texture? handle = some record ∧ record.pixels.size = pixels.size := by
  unfold updateTexture at taken
  split at taken
  · cases taken
  · split at taken
    · cases taken
    · rename_i fits
      split at taken
      · cases taken
      · rename_i record found
        split at taken
        · cases taken
        · rename_i same
          refine ⟨record, found, ?_⟩
          rw [whole handle record found, not_not.mp same, size_of_fits small fits]

theorem serve_lost (lost : backend.lost = true) (works : happening.Works) :
    (backend.serve happening).1.error? = some .deviceLost := by
  unfold Happening.Works at works
  split at works
  case h_6 => exact works.elim
  all_goals
    simp [serve, Operation.perform, Backend.compileProgram, compileProgram,
      Backend.createTexture, createTexture, Backend.updateTexture, updateTexture, Backend.draw,
      Headless.draw, Backend.readPixels, Headless.readPixels, lost, Answer.error?, Except.map]

/-- Only a restore brings a lost device back. -/
theorem Step.lost (step : Step backend happening answer next) (lost : backend.lost = true)
    (gone : happening ≠ .asked .restore) : next.lost = true := by
  cases step with
  | restore => exact absurd rfl gone
  | lose => rfl
  | _ => exact lost

theorem after_lost (lost : backend.lost = true) {happenings : List Happening}
    (gone : .asked .restore ∉ happenings) : (backend.after happenings).lost = true := by
  induction happenings generalizing backend with
  | nil => exact lost
  | cons happening rest ih =>
    rw [List.mem_cons, not_or] at gone
    exact ih ((serve_step backend happening).lost lost (Ne.symm gone.1)) gone.2

theorem issued_nodup (backend : Headless) (happenings : List Happening) :
    (backend.issued happenings).Nodup := by
  rw [(backend.issued_eq happenings).2]
  exact List.nodup_range'

/-- A texture handle that was given out and is retired means nothing from then on. -/
theorem after_void (backend : Headless)
    {earlier later : List Happening} {gone : Happening} {handle : TextureHandle}
    (issued : handle.id ∈ backend.issued earlier) (retires : gone.RetiresTexture handle) :
    (backend.after (earlier ++ gone :: later)).Void handle := by
  rw [after_append]
  have spent := spent_of_retires (backend.issued_le issued) retires
  exact ((after_past _ later).textures handle spent).void

theorem after_voidProgram (backend : Headless)
    {earlier later : List Happening} {gone : Happening} {handle : ProgramHandle}
    (issued : handle.id ∈ backend.issued earlier) (retires : gone.RetiresProgram handle) :
    (backend.after (earlier ++ gone :: later)).VoidProgram handle := by
  rw [after_append]
  have spent := spentProgram_of_retires (backend.issued_le issued) retires
  exact ((after_past _ later).programs handle spent).void

theorem new_whole (judge : String → Option String) (width height : UInt32) :
    (new judge width height).Whole :=
  fun _ _ found => nomatch found

/-- What is true of a backend after some happenings, however they come. -/
structure Orderly (start : Headless) (happenings : List Happening) : Prop where
  /-- No handle is given out twice, be it of a program or of a texture. -/
  distinct : (start.issued happenings).Nodup
  /-- A texture handle from before it was released, or before a restore, means nothing. -/
  textures : ∀ earlier gone later handle, happenings = earlier ++ gone :: later →
    handle.id ∈ start.issued earlier → gone.RetiresTexture handle →
    (start.after happenings).Void handle
  programs : ∀ earlier gone later handle, happenings = earlier ++ gone :: later →
    handle.id ∈ start.issued earlier → gone.RetiresProgram handle →
    (start.after happenings).VoidProgram handle
  /-- The pixels of a live texture are as many as its description says. -/
  whole : (start.after happenings).Whole
  /-- An update that is taken copies between buffers of one length. -/
  update : ∀ handle desc pixels next, desc.trueLength < UInt64.size →
    (start.after happenings).updateTexture handle desc pixels = (.ok (), next) →
    ∃ record, (start.after happenings).texture? handle = some record ∧
      record.pixels.size = pixels.size
  /-- What fails next changes nothing. -/
  refused : ∀ happening error,
    ((start.after happenings).serve happening).1.error? = some error →
    ((start.after happenings).serve happening).2 = start.after happenings
  /-- Between a loss and the next restore nothing is done that needs the device. -/
  lost : ∀ earlier later happening, happenings = earlier ++ .lost :: later →
    .asked .restore ∉ later → happening.Works →
    ((start.after happenings).serve happening).1.error? = some .deviceLost

theorem new_orderly (judge : String → Option String) (width height : UInt32)
    {happenings : List Happening} (fits : ∀ happening ∈ happenings, happening.Fits) :
    Orderly (new judge width height) happenings where
  distinct := issued_nodup _ happenings
  textures earlier gone later handle split issued retires :=
    split ▸ after_void _ issued retires
  programs earlier gone later handle split issued retires :=
    split ▸ after_voidProgram _ issued retires
  whole := after_whole (new_whole judge width height) fits
  update handle desc pixels next small taken :=
    (after_whole (new_whole judge width height) fits).update small taken
  refused happening error told := (serve_step _ happening).refused told
  lost earlier later happening split gone works := by
    subst split
    refine serve_lost ?_ works
    rw [after_append]
    set held := (new judge width height).after earlier
    have lost : held.lose.lost = true := rfl
    exact after_lost lost gone

/-- A texture is made before and after the device goes away, and a wrong text between them. -/
theorem new_orderly_restored :
    let judge := fun text => if text = "" then some "empty" else none
    let desc : TextureDesc := ⟨1, 1, .rgba8⟩
    let pixels : Bytes := #[1, 2, 3, 4]
    let happenings : List Happening :=
      [.asked (.createTexture desc pixels), .asked (.compileProgram ""), .lost, .asked .restore,
        .asked (.compileProgram "x"), .asked (.createTexture desc pixels)]
    (∀ happening ∈ happenings, happening.Fits) ∧
      (new judge 2 2).issued happenings = [1, 2, 3] ∧
      Orderly (new judge 2 2) happenings := by
  intro judge desc pixels happenings
  have fits : ∀ happening ∈ happenings, happening.Fits := by
    have small : desc.trueLength < UInt64.size := by decide
    simp [happenings, Happening.Fits, small]
  exact ⟨fits, by decide, new_orderly judge 2 2 fits⟩

end Headless

end LiveFragment.Backend
