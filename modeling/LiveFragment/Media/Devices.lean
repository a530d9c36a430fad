import LiveFragment.Media.Frame
import LiveFragment.Media.Handoff
import LiveFragment.Number.Single

namespace LiveFragment.Media

open LiveFragment.Number

/-- What a host answers when it is asked to open something. -/
inductive Opening
  | ready
  /-- The opening completes later. -/
  | pending
  | failing (error : AcquireError)
  /-- The host has no such inputs. -/
  | unsupported
deriving DecidableEq, Repr, Inhabited

/-- What was asked for. -/
inductive Wanted
  | camera (device : Option String)
  | microphone
  | stream (source : String)
deriving DecidableEq, Repr, Inhabited

/-- The answer of a host without live inputs. -/
def Wanted.unsupported : Wanted → AcquireError
  | camera _ => .deviceUnavailable "no camera support in this host"
  | microphone => .deviceUnavailable "no microphone support in this host"
  | stream source =>
    .deviceUnavailable
      ("cannot connect to '" ++ source ++ "': no stream support in this host")

/-- An acquisition is over at once, or is in flight under the number of the opening. -/
inductive Acquisition
  | ready (outcome : Except AcquireError Nat)
  | inFlight (id : Nat)
deriving Inhabited

structure Devices where
  /-- The answers to the next openings; openings beyond them are not supported. -/
  plan : List Opening
  /-- All openings so far, in order. -/
  opened : List Wanted
  /-- The acquisitions that were ever in flight. -/
  handoffs : List (Nat × Handoff Nat)
  /-- The acquisitions whose completing side is still there. -/
  completers : List Nat
  /-- Frames that cameras have not given out yet. -/
  frames : List (Nat × List Frame)
  /-- Samples that microphones have not given out yet. -/
  samples : List (Nat × List Single)
  /-- The resources that were stopped, in order. -/
  stopped : List Nat
deriving Inhabited

/-- Changes what is filed under a number. -/
def refile {α : Type} (id : Nat) (value : α) (entries : List (Nat × α)) : List (Nat × α) :=
  (id, value) :: entries.filter (·.1 ≠ id)

namespace Devices

def none : Devices := ⟨[], [], [], [], [], [], []⟩

/-- Opens an input. -/
def acquire (devices : Devices) (wanted : Wanted) : Acquisition × Devices :=
  let id := devices.opened.length
  let opening := devices.plan.headD .unsupported
  let devices :=
    { devices with plan := devices.plan.tail, opened := devices.opened ++ [wanted] }
  match opening with
  | .ready => (.ready (.ok id), devices)
  | .failing error => (.ready (.error error), devices)
  | .unsupported => (.ready (.error wanted.unsupported), devices)
  | .pending =>
    (.inFlight id,
      { devices with
        handoffs := refile id .waiting devices.handoffs
        completers := id :: devices.completers })

def handoff (devices : Devices) (id : Nat) : Handoff Nat :=
  (devices.handoffs.lookup id).getD .waiting

/-- Completes an acquisition, with its resource or an error. The answer tells whether the outcome
was taken; there is none when nothing can be completed under the number. -/
def complete (devices : Devices) (id : Nat) (error : Option AcquireError) :
    Option Bool × Devices :=
  if devices.completers.contains id then
    let outcome : Except AcquireError Nat :=
      match error with
      | some error => .error error
      | .none => .ok id
    let (taken, cell) := (devices.handoff id).complete outcome
    (some taken,
      { devices with
        handoffs := refile id cell devices.handoffs
        completers := devices.completers.filter (· ≠ id) })
  else (.none, devices)

/-- Gives an acquisition up. The answer tells whether it could still be completed. -/
def abandon (devices : Devices) (id : Nat) : Bool × Devices :=
  if devices.completers.contains id then
    (true,
      { devices with
        handoffs := refile id (devices.handoff id).abandon devices.handoffs
        completers := devices.completers.filter (· ≠ id) })
  else (false, devices)

/-- Asks for the outcome of an acquisition. -/
def poll (devices : Devices) (id : Nat) : Option (Except AcquireError Nat) × Devices :=
  let (outcome, cell) := (devices.handoff id).poll
  (outcome, { devices with handoffs := refile id cell devices.handoffs })

def stop (devices : Devices) (id : Nat) : Devices :=
  { devices with stopped := devices.stopped ++ [id] }

/-- Cancels an acquisition. A resource that had arrived unnoticed is stopped. -/
def cancel (devices : Devices) (id : Nat) : Devices :=
  let (resource, cell) := (devices.handoff id).cancel
  let devices := { devices with handoffs := refile id cell devices.handoffs }
  match resource with
  | some resource => devices.stop resource
  | .none => devices

/-- Queues a frame of a camera. -/
def pushFrame (devices : Devices) (id : Nat) (frame : Frame) : Devices :=
  let queued := (devices.frames.lookup id).getD []
  { devices with frames := refile id (queued ++ [frame]) devices.frames }

/-- Takes the oldest frame of a camera. -/
def takeFrame (devices : Devices) (id : Nat) : Option Frame × Devices :=
  match devices.frames.lookup id with
  | some (frame :: rest) =>
    (some frame, { devices with frames := refile id rest devices.frames })
  | _ => (.none, devices)

/-- Adds samples of a microphone. -/
def pushSamples (devices : Devices) (id : Nat) (samples : List Single) : Devices :=
  let queued := (devices.samples.lookup id).getD []
  { devices with samples := refile id (queued ++ samples) devices.samples }

/-- Takes all samples of a microphone. -/
def drain (devices : Devices) (id : Nat) : List Single × Devices :=
  ((devices.samples.lookup id).getD [],
    { devices with samples := refile id [] devices.samples })

end Devices

end LiveFragment.Media
