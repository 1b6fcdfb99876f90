import Narrative.Json.Basic
import Narrative.Number.Shortest
import Narrative.Yaml.Style

namespace Narrative.Yaml

def spaces (indent : Nat) : List Char := List.replicate indent ' '

/-- The escape of a character between double marks. -/
def escape (c : Char) : List Char :=
  match c.toNat with
  | 0 => ['\\', '0']
  | 7 => ['\\', 'a']
  | 8 => ['\\', 'b']
  | 9 => ['\\', 't']
  | 10 => ['\\', 'n']
  | 11 => ['\\', 'v']
  | 12 => ['\\', 'f']
  | 13 => ['\\', 'r']
  | 27 => ['\\', 'e']
  | 34 => ['\\', '"']
  | 92 => ['\\', '\\']
  | 0x85 => ['\\', 'N']
  | 0x2028 => ['\\', 'L']
  | 0x2029 => ['\\', 'P']
  | n => '\\' :: (if n < 0x100 then 'x' :: hex 2 n else if n < 0x10000 then 'u' :: hex 4 n
      else 'U' :: hex 8 n)
where
  hex (count n : Nat) : List Char :=
    match count with
    | 0 => []
    | count + 1 => hex count (n / 16) ++ [(Text.Hex.digit (n % 16)).toUpper]

def escaped (c : Char) : List Char :=
  if ! isPrintable c || isBreak c || c = '"' || c = '\\' then escape c else [c]

/-- After a line break the text goes on below itself. -/
def inSingle (indent : Nat) (afterBreak : Bool) : List Char → List Char
  | [] => if afterBreak then spaces indent else []
  | c :: r =>
    if isBreak c then c :: inSingle indent true r
    else (if afterBreak then spaces indent else []) ++ (if c = '\'' then ['\'', '\''] else [c]) ++
      inSingle indent false r

/-- The lines of a block, each of them ended. -/
def inBlock (indent : Nat) (afterBreak : Bool) : List Char → List Char
  | [] => if afterBreak then [] else ['\n']
  | c :: r =>
    if isBreak c then c :: inBlock indent true r
    else (if afterBreak then spaces indent else []) ++ c :: inBlock indent false r

/-- What is told about the start of a block, whose indent cannot be seen there. -/
def startHint (s : List Char) : List Char :=
  if s.head?.any fun c => isSpace c || isBreak c then ['2'] else []

/-- What is told about the end of a block: it has no line break there, or more than one. -/
def endHint (s : List Char) : List Char :=
  match s.reverse with
  | [] => ['-']
  | last :: before =>
    if ! isBreak last then ['-']
    else match before with
      | [] => ['+']
      | c :: _ => if isBreak c then ['+'] else []

/-- A text with the end of its line. -/
def textLine (indent : Nat) (s : String) : List Char :=
  let cs := s.toList
  match styleOf s with
  | .plain => cs ++ ['\n']
  | .single => '\'' :: (inSingle indent false cs ++ ['\'', '\n'])
  | .double => '"' :: (cs.flatMap escaped ++ ['"', '\n'])
  | .block => '|' :: (startHint cs ++ endHint cs ++ '\n' :: inBlock indent true cs)

/-- A key longer than this, or one of several lines, is led by a question mark. -/
def maxKeyBytes : Nat := 128

def isSimpleKey (key : String) : Bool :=
  ! key.toList.any isBreak && key.utf8ByteSize ≤ maxKeyBytes

/-- A value without parts, with the end of its line. -/
def scalarLine (indent : Nat) : Json → List Char
  | .null => ['n', 'u', 'l', 'l', '\n']
  | .bool true => ['t', 'r', 'u', 'e', '\n']
  | .bool false => ['f', 'a', 'l', 's', 'e', '\n']
  | .int n => Text.Decimal.ofInt n ++ ['\n']
  | .real x => x.text.toList ++ ['\n']
  | .str s => textLine indent s
  | .arr _ => ['[', ']', '\n']
  | .obj _ => ['\x7b', '\x7d', '\n']

/-- A key with its value, which is written on the line of the colon if it is told to. -/
def entry (indent : Nat) (key : String) (value : Bool → List Char) : List Char :=
  if isSimpleKey key then (textLine (indent + 2) key).dropLast ++ ':' :: value false
  else '?' :: ' ' :: (textLine (indent + 2) key ++ spaces indent ++ ':' :: value true)

mutual

/-- A value after a key, or beside a dash or a colon of its own. -/
def write (beside : Bool) (indent : Nat) : Json → List Char
  | .arr (j :: rest) =>
    let inner := if beside then indent + 2 else indent
    (if beside then [' '] else '\n' :: spaces indent) ++
      '-' :: (write true inner j ++ writeItems inner rest)
  | .obj ((key, j) :: rest) =>
    let inner := indent + 2
    (if beside then [' '] else '\n' :: spaces inner) ++
      (entry inner key (fun beside => write beside inner j) ++ writeEntries inner rest)
  | j => ' ' :: scalarLine (indent + 2) j

def writeItems (indent : Nat) : List Json → List Char
  | [] => []
  | j :: rest => spaces indent ++ '-' :: (write true indent j ++ writeItems indent rest)

def writeEntries (indent : Nat) : List (String × Json) → List Char
  | [] => []
  | (key, j) :: rest =>
    spaces indent ++ (entry indent key (fun beside => write beside indent j) ++ writeEntries indent rest)

end

/-- A document of one value. -/
def ofJson : Json → String
  | .arr [] => String.ofList (scalarLine 0 (.arr []))
  | .obj [] => String.ofList (scalarLine 0 (.obj []))
  | .arr items => String.ofList (writeItems 0 items)
  | .obj entries => String.ofList (writeEntries 0 entries)
  | j => String.ofList (scalarLine 0 j)

end Narrative.Yaml
