import Narrative.Toml.Scalar

namespace Narrative.Toml

/-- Passes blanks, line ends and comments, which stand between the items of a list. -/
def skipGap : Bool → List Char → Option (List Char)
  | _, '\n' :: r => skipGap false r
  | _, '\r' :: '\n' :: r => skipGap false r
  | true, c :: r => if isPlain c then skipGap true r else none
  | true, [] => none
  | false, '#' :: r => skipGap true r
  | false, c :: r => if isBlank c then skipGap false r else some (c :: r)
  | false, [] => some []

/-- Nothing but a comment may stand before the end of a line. -/
def endLine (s : List Char) : Option (List Char) :=
  let s := match skipBlank s with
    | '#' :: r => r.dropWhile isPlain
    | r => r
  match s with
  | [] => some []
  | s => lineEnd? s

def isBare (c : Char) : Bool := c.isAlphanum || c = '_' || c = '-'

def readName : Scanner String
  | '"' :: r => readShort '"' (r.length + 1) [] r
  | '\'' :: r => readShort '\'' (r.length + 1) [] r
  | s =>
    let name := s.takeWhile isBare
    if name.isEmpty then none else some (String.ofList name, s.dropWhile isBare)

/-- How deep lists and tables in braces may be nested and how many names a key may have, either less
one. -/
def depthLimit : Nat := 80

/-- Names with dots between them. Each takes at least one character. -/
def readNames : Nat → Scanner (List String)
  | 0, _ => none
  | steps + 1, s => do
    let (name, s) ← readName (skipBlank s)
    match skipBlank s with
    | '.' :: r => do
      let (more, s) ← readNames steps r
      some (name :: more, s)
    | s => some ([name], s)

def readKey (s : List Char) : Option ((String × List String) × List Char) :=
  match readNames (s.length + 1) s with
  | some (name :: more, s) => if more.length + 1 < depthLimit then some ((name, more), s) else none
  | _ => none

/-- A value that holds no others. -/
def readScalar : Scanner Toml
  | '"' :: r => (readText '"' r).map fun t => (.text t.1, t.2)
  | '\'' :: r => (readText '\'' r).map fun t => (.text t.1, t.2)
  | 't' :: 'r' :: 'u' :: 'e' :: r => some (.bool true, r)
  | 'f' :: 'a' :: 'l' :: 's' :: 'e' :: r => some (.bool false, r)
  | s =>
    match readMoment s with
    | some r => some (.moment, r)
    | none => readNumber s

/-- The items of a list up to its closing bracket and past it. A comma may follow the last. -/
def readItems (item : Scanner Toml) : Nat → Scanner (List Toml)
  | 0, _ => none
  | steps + 1, s => do
    match ← skipGap false s with
    | ']' :: r => some ([], r)
    | s => do
      let (value, s) ← item s
      match ← skipGap false s with
      | ',' :: r => do
        let (more, s) ← readItems item steps r
        some (value :: more, s)
      | ']' :: r => some ([value], r)
      | _ => none

/-- A key, an equals sign and a value. -/
def readPair (item : Scanner Toml) (s : List Char) :
    Option ((String × List String × Toml) × List Char) := do
  let ((key, more), s) ← readKey s
  let s ← readMark '=' s
  let (value, s) ← item (skipBlank s)
  some ((key, more, value), s)

/-- The pairs of a table in braces up to the closing brace and past it, all on one line. -/
def readPairs (item : Scanner Toml) : Nat → Entries → Scanner Entries
  | 0, _, _ => none
  | steps + 1, t, s => do
    let ((key, more, value), s) ← readPair item s
    let t ← t.put value key more
    match skipBlank s with
    | ',' :: r => readPairs item steps t r
    | '\x7d' :: r => some (t, r)
    | _ => none

/-- A value whose own values are read by `inner`, if it may have any. -/
def readAt (inner : Option (Scanner Toml)) : Scanner Toml
  | '[' :: r => do
    let (items, rest) ← readItems (← inner) (r.length + 1) r
    some (.list items, rest)
  | '\x7b' :: r => do
    let item ← inner
    match skipBlank r with
    | '\x7d' :: rest => some (.table .braces [], rest)
    | s => do
      let (t, rest) ← readPairs item (s.length + 1) [] s
      some (.table .braces t, rest)
  | s => readScalar s

def read : Nat → Scanner Toml
  | 0 => readAt none
  | levels + 1 => readAt (some (read levels))

def readValue : Scanner Toml := read (depthLimit - 1)

/-- What has been read, and the header that the next pair belongs to. -/
structure Progress where
  root : Entries
  header : List String

namespace Progress

def put (d : Progress) (key : String) (more : List String) (value : Toml) : Option Progress := do
  some { d with root := ← d.root.under (Entries.put value key more) d.header }

/-- Goes to the table at the end of a header, which is opened. -/
def enter (d : Progress) (opening : String → Entries → Option Entries) (header : List String) :
    Option Progress := do
  let key ← header.getLast?
  some ⟨← d.root.under (opening key) header.dropLast, header⟩

end Progress

/-- A header between its brackets. -/
def readHeader (close : List Char) (s : List Char) : Option (List String × List Char) := do
  let ((key, more), s) ← readKey s
  if close.isPrefixOf s then some (key :: more, ← endLine (s.drop close.length)) else none

/-- Reads line by line. Each line takes at least one character. -/
def readLines : Nat → Progress → List Char → Option Progress
  | 0, _, _ => none
  | steps + 1, d, s =>
    match skipBlank s with
    | [] => some d
    | '[' :: '[' :: r => do
      let (header, s) ← readHeader [']', ']'] r
      readLines steps (← d.enter Entries.openItem header) s
    | '[' :: r => do
      let (header, s) ← readHeader [']'] r
      readLines steps (← d.enter Entries.openTable header) s
    | c :: r =>
      if c = '#' ∨ c = '\n' ∨ c = '\r' then do readLines steps d (← endLine (c :: r))
      else do
        let ((key, more, value), s) ← readPair readValue (c :: r)
        readLines steps (← d.put key more value) (← endLine s)

/-- The table that a text is, if it is TOML. A byte order mark may lead it. -/
def ofText (text : String) : Option Entries :=
  let s := match text.toList with
    | '\ufeff' :: r => r
    | s => s
  (readLines (s.length + 1) ⟨[], []⟩ s).map Progress.root

end Narrative.Toml
