import Narrative.Keyed

namespace Narrative

inductive FileFault
  | notFound
  | notADirectory
  | isADirectory
  | alreadyExists
  /-- Something to be copied is no file. -/
  | notAFile
  | notText
  deriving DecidableEq, Repr

namespace FileFault

def message : FileFault → String
  | notFound => "No such file or directory (os error 2)"
  | notADirectory => "Not a directory (os error 20)"
  | isADirectory => "Is a directory (os error 21)"
  | alreadyExists => "File exists (os error 17)"
  | notAFile => "the source path is neither a regular file nor a symlink to a regular file"
  | notText => "stream did not contain valid UTF-8"

def kind : FileFault → String
  | notFound => "NotFound"
  | notADirectory => "NotADirectory"
  | isADirectory => "IsADirectory"
  | alreadyExists => "AlreadyExists"
  | notAFile => "InvalidInput"
  | notText => "InvalidData"

end FileFault

abbrev Bytes := List UInt8

inductive Folder.Item
  | file (bytes : Bytes)
  | directory
  deriving DecidableEq, Repr

/-- The items of a folder by their names, which are free of empty parts and dots. Each directory on
the way to an item is an item too. -/
abbrev Folder := Keyed Folder.Item

/-- The parts of a name. -/
def FileName.parts (name : String) : List String :=
  (name.splitOn "/").filter fun part => part ≠ "" && part ≠ "."

def FileName.ofParts (parts : List String) : String := String.intercalate "/" parts

/-- What follows the last point of the last part of a name. A point at its start does not count. -/
def FileName.extension? (name : String) : Option String :=
  match (FileName.parts name).getLast? with
  | none => none
  | some part =>
    if part = ".." then none
    else match (part.splitOn ".").reverse with
      | last :: first :: more => if more = [] && first = "" then none else some last
      | _ => none

/-- Names are ordered by their parts, a directory before what is inside it. -/
def FileName.precedes : List String → List String → Bool
  | [], _ => true
  | _ :: _, [] => false
  | a :: more, b :: rest => a < b || (a = b && precedes more rest)

namespace Folder

/-- The files alone. -/
def contents (f : Folder) : Keyed Bytes :=
  f.filterMap fun e =>
    match e.2 with
    | .file bytes => some (e.1, bytes)
    | .directory => none

/-- The folder itself is a directory. -/
def item? (f : Folder) (parts : List String) : Option Item :=
  if parts.isEmpty then some .directory else Keyed.lookup (FileName.ofParts parts) f

def isDirectory (f : Folder) (parts : List String) : Bool := f.item? parts = some .directory

def isFile (f : Folder) (parts : List String) : Bool :=
  match f.item? parts with
  | some (.file _) => true
  | _ => false

/-- Makes the directories on the way along some parts, and the last one. -/
def makeDirectories (f : Folder) (parts : List String) : Folder :=
  (List.range parts.length).foldl
    (fun f n => Keyed.insert (FileName.ofParts (parts.take (n + 1))) .directory f) f

/-- Puts a file where nothing is in its way. -/
def put (f : Folder) (parts : List String) (bytes : Bytes) : Folder :=
  Keyed.insert (FileName.ofParts parts) (.file bytes) (f.makeDirectories parts.dropLast)

def ofFiles (files : List (String × Bytes)) : Folder :=
  files.foldl (fun f e => f.put (FileName.parts e.1) e.2) []

/-- Goes down from a directory along the parts of a name, two points leading back up. -/
def descend (f : Folder) : List String → List String → Except FileFault (List String)
  | here, [] => .ok here
  | here, part :: more =>
    match f.item? here with
    | none => .error .notFound
    | some (.file _) => .error .notADirectory
    | some .directory =>
      if part = "" || part = "." then descend f here more
      else if part = ".." then
        if here.isEmpty then .error .notFound else descend f here.dropLast more
      else descend f (here ++ [part]) more

/-- The parts that lead straight to a name. A name from the root of all folders leads out of this
one. -/
def locate (f : Folder) (name : String) : Except FileFault (List String) :=
  if name.startsWith "/" || name = "" then .error .notFound
  else f.descend [] (name.splitOn "/")

def holdsDirectory (f : Folder) (name : String) : Bool :=
  match f.locate name with
  | .ok parts => f.isDirectory parts
  | .error _ => false

def holds (f : Folder) (name : String) : Bool :=
  match f.locate name with
  | .ok parts => (f.item? parts).isSome
  | .error _ => false

def read (f : Folder) (name : String) : Except FileFault Bytes := do
  match f.item? (← f.locate name) with
  | some (.file bytes) => .ok bytes
  | some .directory => .error .isADirectory
  | none => .error .notFound

def textOf (bytes : Bytes) : Except FileFault String :=
  match String.fromUTF8? ⟨bytes.toArray⟩ with
  | some text => .ok text
  | none => .error .notText

def readText (f : Folder) (name : String) : Except FileFault String := do textOf (← f.read name)

/-- Writes a file into a directory that is there. -/
def write (f : Folder) (name : String) (bytes : Bytes) : Except FileFault Folder := do
  let parts ← f.locate name
  if f.isDirectory parts || name.endsWith "/" then .error .isADirectory
  else .ok (f.put parts bytes)

end Folder

end Narrative
