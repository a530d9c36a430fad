import LiveFragment.Media.Error

namespace LiveFragment.Media

inductive Handoff (α : Type)
  | waiting
  | delivered (outcome : Except AcquireError α)
  | abandoned
  | cancelled
deriving Inhabited

namespace Handoff

variable {α : Type}

/-- Delivers an outcome. It is taken only while the other side waits; else it is handed back. -/
def deliver (outcome : Except AcquireError α) : Handoff α → Bool × Handoff α
  | waiting => (true, delivered outcome)
  | cell => (false, cell)

/-- The completing side goes away. -/
def abandon : Handoff α → Handoff α
  | waiting => abandoned
  | cell => cell

/-- Completing is delivering and then going away. -/
def complete (outcome : Except AcquireError α) (cell : Handoff α) : Bool × Handoff α :=
  let (taken, cell) := cell.deliver outcome
  (taken, cell.abandon)

/-- The error of an acquisition that was given up. -/
def abandonedError : AcquireError :=
  .deviceUnavailable "acquisition abandoned before completing"

/-- Asks for the outcome; there is none while it is not known. The cell waits again afterwards. -/
def poll : Handoff α → Option (Except AcquireError α) × Handoff α
  | delivered outcome => (some outcome, waiting)
  | abandoned => (some (.error abandonedError), waiting)
  | waiting => (none, waiting)
  | cancelled => (none, waiting)

/-- Gives up waiting. A resource that had already arrived is returned. -/
def cancel : Handoff α → Option α × Handoff α
  | delivered (.ok resource) => (some resource, cancelled)
  | _ => (none, cancelled)

end Handoff

end LiveFragment.Media
