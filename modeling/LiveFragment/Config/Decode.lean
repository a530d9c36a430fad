import LiveFragment.Config.Basic
import LiveFragment.Document

/-! Configurations from documents. Each group of fields is a table, or a list of the fields' values
in their order. Fields that are not given keep their standard value, but the version has none.
Fields are read in the order of the document, and the first fault counts. -/

namespace LiveFragment.Config

open LiveFragment.Number

/-- Why a document is no configuration. -/
inductive ReadFault
  | malformed
  /-- The fault of the one field that is a duration. -/
  | duration (fault : Duration.Fault)
deriving DecidableEq, Repr

def require {α : Type} : Option α → Except ReadFault α
  | some value => .ok value
  | none => .error .malformed

/-- How a field of a group changes the group. -/
structure Field (σ : Type) where
  name : String
  read : Document.Origin → σ → Document → Except ReadFault σ

namespace Field

/-- Reads the fields of a table. A known field appears at most once; other fields are passed over,
as far as they can be read at all. -/
def readTable {σ : Type} (origin : Document.Origin) (known : List (Field σ)) :
    List String → σ → List (String × Document) → Except ReadFault (σ × List String)
  | seen, group, [] => .ok (group, seen)
  | seen, group, (name, document) :: rest =>
    match known.find? (·.name == name) with
    | none =>
      if document.isReadable then readTable origin known seen group rest else .error .malformed
    | some field =>
      if seen.contains name then .error .malformed
      else
        match field.read origin group document with
        | .error fault => .error fault
        | .ok group => readTable origin known (name :: seen) group rest

/-- Reads the values of fields in their order. A JSON list has no further items. -/
def readList {σ : Type} (origin : Document.Origin) :
    List (Field σ) → List String → σ → List Document → Except ReadFault (σ × List String)
  | _, seen, group, [] => .ok (group, seen)
  | [], seen, group, _ :: _ =>
    match origin with
    | .toml => .ok (group, seen)
    | .json | .held => .error .malformed
  | field :: fields, seen, group, document :: rest =>
    match field.read origin group document with
    | .error fault => .error fault
    | .ok group => readList origin fields (field.name :: seen) group rest

/-- Reads a group, and tells which of its fields were given. A date has none of them. -/
def readGroup {σ : Type} (origin : Document.Origin) (known : List (Field σ)) (start : σ) :
    Document → Except ReadFault (σ × List String)
  | .table fields => readTable origin known [] start fields
  | .list items => readList origin known [] start items
  | .moment => .ok (start, [])
  | _ => .error .malformed

/-- A field that is read by itself and put in its place. -/
def of {σ α : Type} (name : String) (set : σ → α → σ)
    (read : Document.Origin → Document → Except ReadFault α) : Field σ where
  name := name
  read := fun origin group document => (read origin document).map (set group)

end Field

def word32 (_ : Document.Origin) (document : Document) : Except ReadFault UInt32 :=
  (require (document.wordOf? 32)).map UInt32.ofNat

/-- A value that may be null. -/
def nullable {α : Type} (read : Document → Option α) (_ : Document.Origin) :
    Document → Except ReadFault (Option α)
  | .null => .ok none
  | document => (require (read document)).map some

def textOf? : Document → Option String
  | .text content => some content
  | _ => none

/-- A duration: a number of seconds, or words. -/
def duration (origin : Document.Origin) : Document → Except ReadFault Duration
  | .text content => (Duration.parse content).mapError .duration
  | .integer seconds =>
    if seconds < 0 then .error (.duration .negative)
    else .ok (.ofWholeSeconds (.ofNat seconds.toNat))
  | .real literal =>
    let seconds := literal.toDouble
    if origin ≠ .toml ∧ !seconds.isFinite then .error .malformed
    else if !seconds.isFinite ∨ seconds.signBit then .error (.duration .negative)
    else
      match Duration.ofSeconds? seconds with
      | some duration => .ok duration
      | none => .error (.duration .tooLong)
  | _ => .error .malformed

def viewportFields : List (Field Viewport) := [
  .of "width" (fun group value => { group with width := value }) word32,
  .of "height" (fun group value => { group with height := value }) word32]

def timingFields : List (Field Timing) := [
  .of "speed" (fun group value => { group with speed := value })
    fun origin document => require (document.single? origin),
  .of "fps_window" (fun group value => { group with window := value }) duration]

def channelsFields : List (Field Channels) := [
  .of "texture_dir" (fun group value => { group with library := value }) (nullable textOf?),
  .of "noise_size" (fun group value => { group with noiseSize := value }) word32,
  .of "noise_seed" (fun group value => { group with noiseSeed := value })
    (nullable fun document => (document.wordOf? 64).map UInt64.ofNat)]

def gpuFields : List (Field Gpu) := [
  .of "power" (fun group value => { group with power := value })
    fun origin document => require (document.word? origin Power.ofName?),
  .of "memory" (fun group value => { group with memory := value })
    fun origin document => require (document.word? origin MemoryUse.ofName?)]

/-- A group within the configuration; it starts from its standard values. -/
def group {σ : Type} (known : List (Field σ)) (start : σ) (origin : Document.Origin)
    (document : Document) : Except ReadFault σ :=
  (Field.readGroup origin known start document).map (·.1)

def fields : List (Field Config) := [
  .of "version" (fun config value => { config with version := value }) word32,
  .of "viewport" (fun config value => { config with viewport := value })
    (group viewportFields standard.viewport),
  .of "timing" (fun config value => { config with timing := value })
    (group timingFields standard.timing),
  .of "channels" (fun config value => { config with channels := value })
    (group channelsFields standard.channels),
  .of "gpu" (fun config value => { config with gpu := value })
    (group gpuFields standard.gpu)]

/-- The configuration that a document spells, usable or not. -/
def ofDocument (origin : Document.Origin) (document : Document) : Except ReadFault Config :=
  match Field.readGroup origin fields standard document with
  | .error fault => .error fault
  | .ok (config, given) =>
    if given.contains "version" then .ok config else .error .malformed

end LiveFragment.Config
