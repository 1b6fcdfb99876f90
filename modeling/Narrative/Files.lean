import Narrative.Folder
import Narrative.Settings.Document

namespace Narrative

/-- Ways to reach files by their names, be they in a `Folder` or on a disk. -/
structure Files (m : Type → Type) where
  /-- There is a file or a directory of this name. -/
  holds : String → m Bool
  isDirectory : String → m Bool
  read : String → m (Except FileFault Bytes)
  /-- What is below a directory, by names from there. -/
  below : String → m Folder
  /-- Writes a file into a directory that is there. -/
  write : String → Bytes → m (Except FileFault Unit)
  /-- Writes a file and makes the directories on the way to it. -/
  writeDeep : String → Bytes → m (Except FileFault Unit)

namespace Folder

/-- What is below a directory. -/
def below (f : Folder) (name : String) : Folder :=
  match f.locate name with
  | .error _ => []
  | .ok parts =>
    Keyed.ofList (f.filterMap fun e =>
      let inside := FileName.parts e.1
      if parts.isPrefixOf inside ∧ inside ≠ parts then
        some (FileName.ofParts (inside.drop parts.length), e.2)
      else none)

/-- Goes down along the parts of a name and makes the directories that are not there. -/
def descendAnew : Folder → List String → List String → Except FileFault (Folder × List String)
  | f, here, [] => .ok (f, here)
  | f, here, part :: more =>
    if part = "" ∨ part = "." then descendAnew f here more
    else if part = ".." then
      if here.isEmpty then .error .notFound else descendAnew f here.dropLast more
    else if f.isFile (here ++ [part]) then .error .notADirectory
    else descendAnew (f.makeDirectories (here ++ [part])) (here ++ [part]) more

def writeDeep (f : Folder) (name : String) (bytes : Bytes) : Except FileFault Folder := do
  let steps := name.splitOn "/"
  let last := steps.getLastD ""
  if last ∈ ["", ".", ".."] then .error .isADirectory
  else if name.startsWith "/" then .error .notFound
  else
    let (f, here) ← f.descendAnew [] steps.dropLast
    if f.isDirectory (here ++ [last]) then .error .isADirectory
    else .ok (f.put (here ++ [last]) bytes)

/-- A change of a folder that may fail and leaves the folder alone then. -/
def changed (change : Folder → Except FileFault Folder) : StateM Folder (Except FileFault Unit) :=
  fun f =>
    match change f with
    | .ok f => (.ok (), f)
    | .error fault => (.error fault, f)

/-- Reaching the files of a folder. -/
def files : Files (StateM Folder) where
  holds name f := (f.holds name, f)
  isDirectory name f := (f.holdsDirectory name, f)
  read name f := (f.read name, f)
  below name f := (f.below name, f)
  write name bytes := changed (fun f => f.write name bytes)
  writeDeep name bytes := changed (fun f => f.writeDeep name bytes)

end Folder

namespace Settings

variable {m : Type → Type} [Monad m]

def ofFile (files : Files m) (name : String) : m (Except SettingsFault Settings) := do
  if ! (← files.holds name) then return .error (.notFound name)
  match ← files.read name with
  | .error fault => return .error (.io fault)
  | .ok bytes =>
    match Folder.textOf bytes with
    | .error fault => return .error (.io fault)
    | .ok text => return ofText text

def writeFile (files : Files m) (name : String) (s : Settings) : m (Except SettingsFault Unit) := do
  match s.text with
  | .error fault => return .error fault
  | .ok text =>
    match ← files.write name text.toUTF8.toList with
    | .error fault => return .error (.io fault)
    | .ok () => return .ok ()

end Settings

end Narrative
