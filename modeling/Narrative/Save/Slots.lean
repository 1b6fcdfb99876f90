import Narrative.Save.Label

namespace Narrative

inductive Slot
  | numbered (n : UInt16)
  | quick
  deriving DecidableEq, Repr

namespace Slot

/-- The number of a slot in at least three digits. -/
def digits (n : UInt16) : List Char :=
  let ds := Text.Decimal.digits n.toNat
  List.replicate (3 - ds.length) '0' ++ ds

def stem : Slot → String
  | numbered n => "slot_" ++ String.ofList (digits n)
  | quick => "quicksave"

def file (s : Slot) : String := "slots/" ++ s.stem ++ ".vnps"

def temporaryFile (s : Slot) : String := "slots/" ++ s.stem ++ ".tmp"

def labelFile (s : Slot) : String := "meta/" ++ s.stem ++ ".json"

def temporaryLabelFile (s : Slot) : String := "meta/" ++ s.stem ++ ".tmp"

def number : Slot → UInt16
  | numbered n => n
  | quick => 0

def isQuick : Slot → Bool
  | quick => true
  | numbered _ => false

/-- The slot a label names. -/
def ofLabel (l : SlotLabel) : Slot := if l.quick then quick else numbered l.slot

end Slot

def backupOf (name : String) : String := name ++ ".bak"

/-- One change of a folder, made as a whole or not at all. The directory of a name is taken to be
there. -/
inductive FileStep
  | createDirectory (name : String)
  | copy (source target : String)
  | write (name : String) (bytes : Bytes)
  | remove (name : String)
  | rename (source target : String)
  deriving DecidableEq, Repr

namespace FileStep

/-- Makes a file of a name, unless a directory has it. -/
def place (f : Folder) (name : String) (bytes : Bytes) : Except FileFault Folder :=
  match Keyed.lookup name f with
  | some .directory => .error .isADirectory
  | _ => .ok (Keyed.insert name (.file bytes) f)

def apply (f : Folder) : FileStep → Except FileFault Folder
  | createDirectory name =>
    match Keyed.lookup name f with
    | some (.file _) => .error .alreadyExists
    | _ => .ok (Keyed.insert name .directory f)
  | copy source target =>
    match Keyed.lookup source f with
    | some (.file bytes) => place f target bytes
    | some .directory => .error .notAFile
    | none => .error .notFound
  | write name bytes => place f name bytes
  | remove name =>
    match Keyed.lookup name f with
    | some (.file _) => .ok (Keyed.erase name f)
    | some .directory => .error .isADirectory
    | none => .error .notFound
  | rename source target =>
    match Keyed.lookup source f with
    | some (.file bytes) => place (Keyed.erase source f) target bytes
    | some .directory => .error .notAFile
    | none => .error .notFound

/-- Makes changes up to the first that fails. -/
def run (f : Folder) : List FileStep → Folder × Option FileFault
  | [] => (f, none)
  | step :: rest =>
    match apply f step with
    | .ok f => run f rest
    | .error fault => (f, some fault)

/-- Replaces a file, or makes it. -/
def replace (f : Folder) (directory name temporary : String) (bytes : Bytes) : List FileStep :=
  let there := Keyed.contains name f
  [createDirectory directory] ++ (if there then [copy name (backupOf name)] else []) ++
    [write temporary bytes] ++ (if there then [remove name] else []) ++ [rename temporary name]

end FileStep

namespace Slots

/-- A slot that can be listed: its label and the file of its save. -/
structure Listing where
  label : SlotLabel
  file : String
  deriving DecidableEq, Repr

/-- What is left of a folder, and the result of what was done to it. -/
abbrev Done (α : Type) := Folder × Except StoreFault α

/-- Makes changes and gives a result if all of them could be made. -/
def after {α : Type} (f : Folder) (steps : List FileStep) (result : Folder → Except StoreFault α) :
    Done α :=
  match FileStep.run f steps with
  | (f, none) => (f, result f)
  | (f, some fault) => (f, .error (.io fault))

def layout : List FileStep := [.createDirectory "slots", .createDirectory "meta"]

/-- The changes that put a record into a slot: the save first, then its label. -/
def saveSteps (f : Folder) (slot : Slot) (bytes : Bytes) (label : SlotLabel) : List FileStep :=
  layout ++ FileStep.replace f "slots" slot.file slot.temporaryFile bytes ++
    FileStep.replace f "meta" slot.labelFile slot.temporaryLabelFile label.text.toUTF8.toList

def save (f : Folder) (slot : Slot) (r : SaveRecord) (now : UInt64) : Done Listing :=
  match r.toBytes with
  | .error cause => after f layout fun _ => .error (.save cause)
  | .ok bytes =>
    let label := SlotLabel.ofRecord slot.number slot.isQuick now r
    after f (saveSteps f slot bytes label) fun _ => .ok ⟨label, slot.file⟩

/-- A directory in place of the file counts as well. -/
def has (f : Folder) (slot : Slot) : Bool := Keyed.contains slot.file f

/-- The record of a slot, or that of its backup if its own file is damaged. -/
def load (f : Folder) (slot : Slot) : Except StoreFault SaveRecord :=
  match f.read slot.file with
  | .error cause => .error (.io cause)
  | .ok bytes =>
    match SaveRecord.ofBytes bytes with
    | .ok r => .ok r
    | .error primary =>
      match f.read (backupOf slot.file) with
      | .error .notFound => .error (.recoveryFailed primary none)
      | .error cause => .error (.io cause)
      | .ok bytes =>
        match SaveRecord.ofBytes bytes with
        | .ok r => .ok r
        | .error backup => .error (.recoveryFailed primary (some backup))

/-- Backups stay. -/
def removeSteps (f : Folder) (slot : Slot) : List FileStep :=
  ([slot.file, slot.labelFile].filter fun name => Keyed.contains name f).map .remove

def remove (f : Folder) (slot : Slot) : Done Unit :=
  after f (removeSteps f slot) fun _ => .ok ()

/-- A label is anything with a name such as `meta/slot_001.json`. -/
def isLabelName (name : String) : Bool :=
  let rest := name.toList.drop 5
  ['m', 'e', 't', 'a', '/'].isPrefixOf name.toList && ! rest.contains '/' &&
    ['.', 'j', 's', 'o', 'n'].isSuffixOf rest && 5 < rest.length

/-- The listing of a label; none if it cannot be read or its slot holds nothing. -/
def listing? (f : Folder) (bytes : Bytes) : Option Listing := do
  let label ← SlotLabel.ofBytes? bytes
  let slot := Slot.ofLabel label
  if has f slot then some ⟨label, slot.file⟩ else none

/-- All slots with both files, the latest first. No directory may stand in place of a label. -/
def listAll (f : Folder) : Except StoreFault (List Listing) := do
  let labels ← (f.filter fun e => isLabelName e.1).mapM fun e =>
    match e.2 with
    | .file bytes => .ok bytes
    | .directory => .error (.io .isADirectory)
  .ok ((labels.filterMap (listing? f)).mergeSort fun a b => b.label.updated ≤ a.label.updated)

def list (f : Folder) : Done (List Listing) := after f layout listAll

/-- The save in a slot, if there is one. It must belong to the script. -/
def loadFor (f : Folder) (slot : Slot) (id : ScriptId) : Except StoreFault (Option Save) := do
  if ! has f slot then return none
  let r ← load f slot
  match r.checkScript id with
  | .ok () => .ok (some r.save)
  | .error cause => .error (.save cause)

def saveFor (f : Folder) (slot : Slot) (id : ScriptId) (s : Save) (now : UInt64) : Done Unit :=
  let (f, result) := save f slot ⟨id, s⟩ now
  (f, result.map fun _ => ())

end Slots

end Narrative
