import Narrative.CommandLine.Run

namespace Narrative.Disk

/-- Not a directory is 20 and is a directory 21. -/
def faultOf : IO.Error → FileFault
  | .inappropriateType _ code _ => if code = 20 then .notADirectory else .isADirectory
  | .alreadyExists .. => .alreadyExists
  | _ => .notFound

def attempt {α : Type} (action : IO α) : IO (Except FileFault α) := do
  try
    return .ok (← action)
  catch e =>
    return .error (faultOf e)

def read (name : String) : IO (Except FileFault Bytes) :=
  attempt do return (← IO.FS.readBinFile name).toList

def write (name : String) (bytes : Bytes) : IO (Except FileFault Unit) :=
  attempt (IO.FS.writeBinFile name ⟨bytes.toArray⟩)

/-- What stands before the last slash of a name. -/
def parent (name : String) : String :=
  String.ofList ((name.toList.reverse.dropWhile (· ≠ '/')).drop 1).reverse

def writeDeep (name : String) (bytes : Bytes) : IO (Except FileFault Unit) := do
  if (parent name).isEmpty then write name bytes
  else
    match ← attempt (IO.FS.createDirAll (parent name)) with
    | .ok () => write name bytes
    | .error fault => return .error fault

partial def inputLines (input : IO.FS.Stream) (lines : List String) : IO (List String) := do
  let line ← input.getLine
  if line.isEmpty then return lines.reverse
  else inputLines input (String.ofList (line.toList.filter (· ≠ '\n')) :: lines)

/-- The files among the names on standard input that lie below a directory. -/
def below (name : String) : IO Folder := do
  let inside := if name.endsWith "/" then name.toList else name.toList ++ ['/']
  let names := (← inputLines (← IO.getStdin) []).filter fun line => inside.isPrefixOf line.toList
  let found ← names.filterMapM fun line => do
    return (← read line).toOption.map fun bytes =>
      (String.ofList (line.toList.drop inside.length), bytes)
  return Folder.ofFiles found

def files : Files IO where
  holds name := do
    match ← read name with
    | .ok _ => return true
    | .error fault => return fault = .isADirectory
  isDirectory name := do
    match ← read name with
    | .ok _ => return false
    | .error fault => return fault = .isADirectory
  read := read
  below := below
  write := write
  writeDeep := writeDeep

end Narrative.Disk

def main (args : List String) : IO UInt32 := do
  let outcome ← Narrative.CommandLine.run Narrative.Disk.files args
  IO.print outcome.output
  IO.eprint outcome.errors
  return UInt32.ofNat outcome.exit
