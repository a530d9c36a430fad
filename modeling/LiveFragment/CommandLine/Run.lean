import LiveFragment.CommandLine.Arguments
import LiveFragment.CommandLine.ConfigFile
import LiveFragment.CommandLine.Rendering
import LiveFragment.CommandLine.Report

namespace LiveFragment.CommandLine

open LiveFragment.Backend

variable {γ : Type} [Graphics γ] {m : Type → Type} [Monad m]

/-- Runs a task on the text of a file. -/
def withSource (host : Host γ m) (file : String) (task : String → Report) : m Report := do
  match ← host.read file with
  | .error error => return .failed (.sourceUnread file error)
  | .ok source => return task source

/-- Opens a device and renders a job on it. -/
def renderWith (host : Host γ m) (config : Config) (job : RenderJob) (source : String) :
    m Report := do
  let options := job.engineOptions config (← host.pictures) host.services
  match Device.new host.judge host.gpu options.width options.height with
  | .error error => return .failed (.device error)
  | .ok device =>
    match renderOn device options host.start job source with
    | .error failure => return .failed failure
    | .ok frame =>
      return if ← host.save job.out frame then .silent else .failed (.unwritten job.out)

def render (host : Host γ m) (explicit : Option String) (job : RenderJob) : m Report := do
  match job.fault? with
  | some failure => return .failed failure
  | none =>
    match ← loadConfig host explicit with
    | .error failure => return .failed failure
    | .ok config =>
      match ← host.read job.file with
      | .error error => return .failed (.sourceUnread job.file error)
      | .ok source => renderWith host config job source

def run (host : Host γ m) (invocation : Invocation) : m Report :=
  match invocation.task with
  | .check file => withSource host file (Report.ofCheck host.judge file)
  | .params file => withSource host file Report.ofParams
  | .render job => render host invocation.config job

end LiveFragment.CommandLine
