import LiveFragment.Backend.Basic

namespace LiveFragment

open Backend

namespace Backend

/-- The kinds of calls that can be made to fail. -/
inductive Call
  | create
  | update
  | draw
  | resize
  | restore
  | read
deriving DecidableEq, Repr, Inhabited

/-- Of the calls of a kind, `skip` go through and the `count` after those fail. -/
structure Outage where
  call : Call
  error : BackendError
  skip : Nat
  count : Nat
deriving DecidableEq, Repr

structure Scheduled (σ : Type) where
  inner : σ
  outages : List Outage
  /-- The answers to the next compilations; none of them is accepted. -/
  verdicts : List BackendError
deriving Repr

namespace Scheduled

variable {σ : Type}

/-- Passes a call by the outages in order. Those before the one that stops it count it as gone
through. -/
def pass (call : Call) : List Outage → Option BackendError × List Outage
  | [] => (none, [])
  | outage :: rest =>
    if outage.call = call ∧ outage.skip = 0 ∧ outage.count ≠ 0 then
      (some outage.error, { outage with count := outage.count - 1 } :: rest)
    else
      let outage :=
        if outage.call = call then { outage with skip := outage.skip - 1 } else outage
      let (error, rest) := pass call rest
      (error, outage :: rest)

/-- Makes a call unless an outage stops it. -/
def attempt {α : Type} (backend : Scheduled σ) (call : Call)
    (run : σ → Except BackendError α × σ) : Except BackendError α × Scheduled σ :=
  match pass call backend.outages with
  | (some error, outages) => (.error error, { backend with outages })
  | (none, outages) =>
    let (result, inner) := run backend.inner
    (result, { backend with inner, outages })

/-- Compiles a program unless a verdict forbids it. A lost device uses up its verdict too. -/
def compileProgram [Backend σ] (backend : Scheduled σ) (text : String) :
    Except BackendError ProgramHandle × Scheduled σ :=
  match backend.verdicts with
  | error :: verdicts =>
    (.error (if Backend.isLost backend.inner then .deviceLost else error),
      { backend with verdicts })
  | [] =>
    let (result, inner) := Backend.compileProgram backend.inner text
    (result, { backend with inner })

end Scheduled

end Backend

instance {σ : Type} [Backend σ] : Backend (Scheduled σ) where
  compileProgram := Scheduled.compileProgram
  releaseProgram backend handle :=
    { backend with inner := Backend.releaseProgram backend.inner handle }
  createTexture backend desc pixels :=
    backend.attempt .create fun inner => Backend.createTexture inner desc pixels
  updateTexture backend handle desc pixels :=
    backend.attempt .update fun inner => Backend.updateTexture inner handle desc pixels
  releaseTexture backend handle :=
    { backend with inner := Backend.releaseTexture backend.inner handle }
  resize backend width height :=
    backend.attempt .resize fun inner => Backend.resize inner width height
  draw backend call := backend.attempt .draw fun inner => Backend.draw inner call
  readPixels backend order := backend.attempt .read fun inner => Backend.readPixels inner order
  restore backend := backend.attempt .restore Backend.restore
  isLost backend := Backend.isLost backend.inner
  isBroken backend := Backend.isBroken backend.inner

end LiveFragment
