import Narrative.CommandLine.Arguments
import Narrative.Compaction
import Narrative.Files
import Narrative.Save.Slots
import Narrative.Schema.Outline
import Narrative.Session
import Narrative.Trace
import Narrative.Yaml.Layout

namespace Narrative.CommandLine

/-- Why a command failed. -/
inductive Trouble
  | settings (name : String) (fault : SettingsFault)
  | unwrittenSettings (fault : SettingsFault)
  | draft (name : String) (failure : Failure)
  | script (name : String) (failure : Failure)
  | story (failure : Failure)
  | unreadable (name : String) (fault : FileFault)
  | unwritten (name : String) (fault : FileFault)
  | save (name text : String) (fault : Fault)
  | record (fault : RecordFault)
  | path (text : String) (fault : Fault)
  | notADirectory (name : String)
  | store (fault : StoreFault)

namespace Trouble

/-- What failed, and why if that is more. -/
def messages : Trouble → List String
  | settings name fault => ["load config " ++ name, fault.message]
  | unwrittenSettings fault => [fault.message]
  | draft name failure => ["parse " ++ name, failure.message]
  | script name failure => ["compile " ++ name, failure.message]
  | story failure => [failure.message]
  | unreadable name fault => ["read " ++ name, fault.message]
  | unwritten name fault => ["write " ++ name, fault.message]
  | save name text fault => ["parse save " ++ name, fault.message text]
  | record fault => [fault.message]
  | path text fault => ["parse path", fault.message text]
  | notADirectory name => [name ++ " is not a directory"]
  | store fault => [fault.message]

def report (t : Trouble) : String :=
  "Error: " ++ String.intercalate "\n\nCaused by:\n    " t.messages ++ "\n"

end Trouble

structure Outcome where
  exit : Nat
  output : String
  errors : String
  deriving DecidableEq, Repr

def lineEnded (text : String) : String := if text.endsWith "\n" then text else text ++ "\n"

/-- The slot of a listing in four columns at least. -/
def slotLine (l : SlotLabel) : String :=
  let number := Text.Decimal.natText l.slot.toNat
  let kind := match l.kind with
    | .auto => "Auto"
    | .manual => "Manual"
  (if l.quick then "q" else " ") ++ String.ofList (List.replicate (4 - number.length) ' ') ++ number ++
    "  " ++ kind ++ "  " ++ Text.Decimal.natText l.updated.toNat ++ "  scene=" ++ l.scene.getD "-" ++
    "  items=" ++ Text.Decimal.natText l.pathLength.toNat ++ "\n"

def traceJson (outcome : PlayOutcome) (steps : List TraceStep) : Json := .obj [
  ("trace_format_version", .int 1),
  ("script_schema_version", .str Draft.version),
  ("outcome", .str outcome.word),
  ("trace", .obj [("steps", .arr (steps.map TraceStep.toJson))])]

section

variable {m : Type → Type} [Monad m] (files : Files m)

/-- What a command does: it may fail. -/
abbrev Work (m : Type → Type) := ExceptT Trouble m

def orElse {α ε : Type} (trouble : ε → Trouble) : Except ε α → Work m α
  | .ok a => pure a
  | .error e => throw (trouble e)

def loadScript (limits : Limits) (name : String) : Work m Script := do
  let draft ←
    if ← files.isDirectory name then do
      orElse (.draft name) (Draft.ofDirectory limits (← files.below name) ".")
    else
      match ← files.read name with
      | .error fault => throw (.draft name (.io fault))
      | .ok bytes =>
        match Folder.textOf bytes with
        | .error fault => throw (.draft name (.io fault))
        | .ok text => orElse (.draft name) (Draft.ofText limits text)
  orElse (.script name) (draft.compile limits)

/-- A save from the file of a slot, which must belong to the script, or from JSON. -/
def loadSave (script : Script) (name : String) : Work m Save := do
  let bytes ← orElse (.unreadable name) (← files.read name)
  if FileName.extension? name = some "vnps" then do
    let r ← orElse .record (SaveRecord.ofBytes bytes)
    orElse .record (r.checkScript script.id)
    return r.save
  else do
    let text ← orElse (.unreadable name) (Folder.textOf bytes)
    orElse (.save name text) (Save.ofText text)

/-- Prints a text, or writes it into a file as it is. -/
def deliver (output : Option String) (text : String) : Work m String := do
  match output with
  | none => return lineEnded text
  | some name =>
    orElse (.unwritten name) (← files.writeDeep name text.toUTF8.toList)
    return ""

/-- Runs a command and tells what to print. -/
def Command.run (settings : Settings) : Command → Work m String
  | validate name => do
    let script ← loadScript files settings.limits name
    return "ok: " ++ Text.Decimal.natText script.names.length ++ " scenes, script id " ++
      Text.Hex.ofBytes script.id.toList ++ "\n"
  | trace name steps choices output => do
    let script ← loadScript files settings.limits name
    let (steps, outcome) ← orElse .story (Trace.ofScript script settings choices steps)
    deliver files output (Yaml.ofJson (traceJson outcome steps))
  | restore name script => do
    let script ← loadScript files settings.limits script
    let save ← loadSave files script name
    let (_, plan) ← orElse .story ((Session.start "cli" script settings).restore save.toCheckpoint)
    return plan.toJson.pretty ++ "\n"
  | prefetch name path => do
    let script ← loadScript files settings.limits name
    let p ← orElse (.path path) (Path.ofText path)
    let start := { Session.start "prefetch" script settings with preview := true }
    let (s, _) ← orElse .story (start.restore ⟨p, .empty, []⟩)
    return (Json.arr (s.upcomingAssets.map Asset.toJson)).pretty ++ "\n"
  | slots name => do
    if ! (← files.isDirectory name) then throw (.notADirectory name)
    let listings ← orElse .store (Slots.list (← files.below name)).2
    return String.join (listings.map fun l => slotLine l.label)
  | schema output => deliver files output Schema.scriptJson.pretty
  | .settings none => do deliver files none (← orElse .unwrittenSettings settings.text)
  | .settings (some name) => do
    orElse .unwrittenSettings (← (Settings.writeFile files name {} : m _))
    return ""

def Invocation.run (i : Invocation) : Work m String := do
  let settings ← match i.config with
    | none => pure {}
    | some name => do orElse (.settings name) (← (Settings.ofFile files name : m _))
  i.command.run files settings

/-- Runs the program. It ends with 1 if the command fails and with 2 if there is none. -/
def run (args : List String) : m Outcome := do
  match Invocation.ofArguments args with
  | .error .misuse => return ⟨2, "", Usage.programHelp⟩
  | .error (.answer text) => return ⟨0, text, ""⟩
  | .ok i =>
    match ← (i.run files).run with
    | .ok text => return ⟨0, text, ""⟩
    | .error trouble => return ⟨1, "", trouble.report⟩

end

end Narrative.CommandLine
