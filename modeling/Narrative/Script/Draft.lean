import Narrative.Failure
import Narrative.Instruction.Document
import Narrative.Script.Basic
import Narrative.Settings

namespace Narrative

/-- A script as it is read, before it is checked. -/
structure Draft where
  scenes : Keyed (List Instruction)
  ordered : Keyed.Ordered scenes

namespace Draft

def empty : Draft := ⟨[], .nil⟩

def ofScenes (scenes : List (String × List Instruction)) : Draft :=
  ⟨Keyed.ofList scenes, Keyed.ordered_ofList scenes⟩

/-- The version that drafts are written in. -/
def version : String := "1.0"

/-- What stands before the first point of a version. -/
def major (version : String) : List Char := version.toList.takeWhile (· ≠ '.')

def toDatum (d : Draft) : Datum :=
  .record [.text version, .dict (Instruction.variantsToData d.scenes)]

/-- The version a document names, if any, and its draft. -/
def ofDatum? : Datum → Option (Option String × Draft)
  | .record [found, .dict scenes] => do
    some (← Datum.orNull Datum.text? found, ofScenes (← Instruction.variantsOf? scenes))
  | _ => none

/-- A draft of a compatible version, not too long. The length is looked at before the text. -/
def ofText (limits : Limits) (text : String) : Except Failure Draft :=
  if limits.scriptBytes < text.utf8ByteSize then
    .error (.resourceLimit (.bytes text.utf8ByteSize limits.scriptBytes))
  else
    match Schema.ofText (.named .script) ofDatum? text with
    | .error fault => .error (.document text fault)
    | .ok (none, d) => .ok d
    | .ok (some found, d) =>
      if major found = major version then .ok d
      else .error (.schemaIncompatible found version)

def toJson (d : Draft) : Json := Format.toJson Schema.book (.named .script) d.toDatum

def text (d : Draft) : String := d.toJson.pretty

/-- Where both have a scene, the later one is taken. -/
def merge (d later : Draft) : Draft :=
  ⟨Keyed.union d.scenes later.scenes, Keyed.ordered_union later.scenes d.ordered⟩

/-- Parts are ordered by the parts of their names. -/
def ofFiles (limits : Limits) (files : List (List String × Bytes)) : Except Failure Draft := do
  let read (d : Draft) (file : List String × Bytes) : Except Failure Draft := do
    match Folder.textOf file.2 with
    | .ok text => .ok (d.merge (← ofText limits text))
    | .error fault => .error (.io fault)
  (files.mergeSort fun a b => FileName.precedes a.1 b.1).foldlM read empty

def ofFile (limits : Limits) (folder : Folder) (name : String) : Except Failure Draft := do
  match folder.readText name with
  | .ok text => ofText limits text
  | .error fault => .error (.io fault)

/-- All JSON files in a directory and the directories inside it, merged in order. -/
def ofDirectory (limits : Limits) (folder : Folder) (name : String) : Except Failure Draft :=
  match folder.locate name with
  | .error _ => .ok empty
  | .ok here =>
    let inside := folder.contents.filter fun e =>
      here.isPrefixOf (FileName.parts e.1) && FileName.extension? e.1 = some "json"
    ofFiles limits (inside.map fun e => (FileName.parts e.1, e.2))

end Draft

end Narrative
