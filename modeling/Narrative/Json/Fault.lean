import Narrative.Json.Basic
import Narrative.Number.Shortest
import Narrative.Text

namespace Narrative

/-- Why a text is not JSON. -/
inductive Malformation
  | endInList
  | endInObject
  | endInString
  | endInValue
  | noColon
  | noListEnd
  | noObjectEnd
  | noWord
  | noValue
  | badEscape
  | badNumber
  | numberTooLarge
  | controlCharacter
  | keyNotText
  | loneSurrogate
  | trailingComma
  | trailingCharacters
  | escapeCutShort
  | tooDeep
  deriving DecidableEq, Repr

def Malformation.message : Malformation → String
  | endInList => "EOF while parsing a list"
  | endInObject => "EOF while parsing an object"
  | endInString => "EOF while parsing a string"
  | endInValue => "EOF while parsing a value"
  | noColon => "expected `:`"
  | noListEnd => "expected `,` or `]`"
  | noObjectEnd => "expected `,` or `\x7d`"
  | noWord => "expected ident"
  | noValue => "expected value"
  | badEscape => "invalid escape"
  | badNumber => "invalid number"
  | numberTooLarge => "number out of range"
  | controlCharacter => "control character (\\u0000-\\u001F) found while parsing a string"
  | keyNotText => "key must be a string"
  | loneSurrogate => "lone leading surrogate in hex escape"
  | trailingComma => "trailing comma"
  | trailingCharacters => "trailing characters"
  | escapeCutShort => "unexpected end of hex escape"
  | tooDeep => "recursion limit exceeded"

/-- What a reader met in place of what it expected. -/
inductive Found
  | null
  | bool (b : Bool)
  | int (n : Int)
  | real (text : String)
  | text (s : String)
  | sequence
  | map
  | bareCase
  deriving DecidableEq, Repr

def Found.message : Found → String
  | null => "null"
  | bool b => "boolean `" ++ (if b then "true" else "false") ++ "`"
  | int n => "integer `" ++ Text.Decimal.intText n ++ "`"
  | real t => "floating point `" ++ t ++ "`"
  | text s => "string " ++ Text.shown s
  | sequence => "sequence"
  | map => "map"
  | bareCase => "unit variant"

def Json.found : Json → Found
  | .null => .null
  | .bool b => .bool b
  | .int n => .int n
  | .real x => .real x.text
  | .str s => .text s
  | .arr _ => .sequence
  | .obj _ => .map

/-- How a value fails to fit. -/
inductive Mismatch
  | wrongType (found : Found) (expected : String)
  | wrongValue (found : Found) (expected : String)
  | wrongLength (length : Nat) (expected : String)
  | unknownCase (name : String) (known : List String)
  | missingField (name : String)
  | repeatedField (name : String)
  deriving DecidableEq, Repr

/-- Alternatives in backquotes. -/
def Mismatch.alternatives : List String → String
  | [] => "there are no variants"
  | [a] => "expected `" ++ a ++ "`"
  | [a, b] => "expected `" ++ a ++ "` or `" ++ b ++ "`"
  | many => "expected one of " ++ String.intercalate ", " (many.map fun a => "`" ++ a ++ "`")

def Mismatch.message : Mismatch → String
  | wrongType f e => "invalid type: " ++ f.message ++ ", expected " ++ e
  | wrongValue f e => "invalid value: " ++ f.message ++ ", expected " ++ e
  | wrongLength n e => "invalid length " ++ Text.Decimal.natText n ++ ", expected " ++ e
  | unknownCase n known => "unknown variant `" ++ n ++ "`, " ++ alternatives known
  | missingField n => "missing field `" ++ n ++ "`"
  | repeatedField n => "duplicate field `" ++ n ++ "`"

/-- A malformed text is faulted a number of bytes after the point from which `rest` is left. -/
inductive Fault
  | malformed (cause : Malformation) (rest : List Char) (bytes : Nat)
  | unfit (mismatch : Mismatch)
  deriving DecidableEq, Repr

namespace Fault

/-- A fault at the end of what was read. -/
def after (cause : Malformation) (rest : List Char) : Fault := malformed cause rest 0

/-- A fault that includes the first byte not yet read, if there is one. -/
def on (cause : Malformation) (rest : List Char) : Fault := malformed cause rest 1

def byteLength (s : List Char) : Nat := s.foldr (fun c n => c.utf8Size + n) 0

/-- How many bytes of a text stand before the fault and in the faulted byte. -/
def bytesRead (text : List Char) (rest : List Char) (bytes : Nat) : Nat :=
  min (byteLength text - byteLength rest + bytes) (byteLength text)

/-- The line, from 1, and the number of bytes on it, after some bytes of a text. -/
def position (text : String) (count : Nat) : Nat × Nat :=
  let read := text.toUTF8.toList.take count
  (1 + read.count 10, (read.reverse.takeWhile (· ≠ 10)).length)

/-- Line and column of a fault; a value that does not fit has none. -/
def place? (text : String) : Fault → Option (Nat × Nat)
  | malformed _ rest bytes => some (position text (bytesRead text.toList rest bytes))
  | unfit _ => none

def message (text : String) (f : Fault) : String :=
  match f with
  | malformed cause rest bytes =>
    let p := position text (bytesRead text.toList rest bytes)
    cause.message ++ " at line " ++ Text.Decimal.natText p.1 ++ " column " ++ Text.Decimal.natText p.2
  | unfit m => m.message

/-- The lines of a text, each with the newline that ends it. -/
def lines : List Char → List (List Char)
  | [] => []
  | c :: rest =>
    if c = '\n' then [c] :: lines rest
    else match lines rest with
      | [] => [[c]]
      | line :: more => (c :: line) :: more

/-- The column counts bytes, but it is looked up among the characters of the line; past the last of
them the last byte is marked. -/
def byteInLine (line : List Char) (column : Nat) : Nat :=
  if column - 1 < line.length then byteLength (line.take (column - 1)) else byteLength line - 1

/-- A line that the text does not have is marked at the last byte of the text, and a column of zero
at the first. -/
def markAt (text : List Char) (line column : Nat) : Nat :=
  if column = 0 then 0
  else match (lines text)[line - 1]? with
    | some chars => byteLength ((lines text).take (line - 1)).flatten + byteInLine chars column
    | none => byteLength text - 1

/-- The offset of the mark, one byte long; a value that does not fit has none. -/
def mark? (text : String) (f : Fault) : Option Nat :=
  (f.place? text).map fun p => markAt text.toList p.1 p.2

end Fault

end Narrative
