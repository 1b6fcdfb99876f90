import Narrative.Json.Fault
import Narrative.Text

namespace Narrative

/-- A reader answers with a value and the rest of the text. -/
abbrev Reader (α : Type) := List Char → Except Fault (α × List Char)

namespace Json

def isBlank (c : Char) : Bool := c = ' ' || c = '\n' || c = '\t' || c = '\r'

def skipBlank (s : List Char) : List Char := s.dropWhile isBlank

/-- Reads the remaining letters of a word whose first letter chose it. -/
def readWord : List Char → List Char → Except Fault (List Char)
  | [], s => .ok s
  | _ :: _, [] => .error (.after .endInValue [])
  | w :: word, c :: s => if c = w then readWord word s else .error (.on .noWord (c :: s))

/-- Four hexadecimal digits. A character outside them is faulted only once four bytes are there. -/
def readHex (s : List Char) : Except Fault (Nat × List Char) :=
  let fault : Fault :=
    if Fault.byteLength s < 4 then .after .endInString [] else .malformed .badEscape s 4
  match s with
  | a :: b :: c :: d :: rest =>
    match Text.Hex.value? a, Text.Hex.value? b, Text.Hex.value? c, Text.Hex.value? d with
    | some a, some b, some c, some d => .ok (4096 * a + 256 * b + 16 * c + d, rest)
    | _, _, _, _ => .error fault
  | _ => .error fault

def isLeading (n : Nat) : Bool := 0xD800 ≤ n && n ≤ 0xDBFF

def isTrailing (n : Nat) : Bool := 0xDC00 ≤ n && n ≤ 0xDFFF

/-- The second half of a surrogate pair, after the first. -/
def readTrailing (lead : Nat) (s : List Char) : Except Fault (Char × List Char) :=
  match s with
  | '\\' :: 'u' :: rest => do
    let (n, rest) ← readHex rest
    if isTrailing n then .ok (Char.ofNat ((lead - 0xD800) * 1024 + (n - 0xDC00) + 0x10000), rest)
    else .error (.after .loneSurrogate rest)
  | '\\' :: [] => .error (.after .endInString [])
  | '\\' :: rest => .error (.on .escapeCutShort rest)
  | [] => .error (.after .endInString [])
  | s => .error (.on .escapeCutShort s)

/-- The character an escape stands for, after the backslash. -/
def readEscape (s : List Char) : Except Fault (Char × List Char) :=
  match s with
  | [] => .error (.after .endInString [])
  | '"' :: r => .ok ('"', r)
  | '\\' :: r => .ok ('\\', r)
  | '/' :: r => .ok ('/', r)
  | 'b' :: r => .ok (Char.ofNat 8, r)
  | 'f' :: r => .ok (Char.ofNat 12, r)
  | 'n' :: r => .ok ('\n', r)
  | 'r' :: r => .ok ('\r', r)
  | 't' :: r => .ok ('\t', r)
  | 'u' :: r => do
    let (n, rest) ← readHex r
    if isTrailing n then .error (.after .loneSurrogate rest)
    else if isLeading n then readTrailing n rest
    else .ok (Char.ofNat n, rest)
  | s => .error (.on .badEscape s)

/-- The characters of a string up to its closing quotation mark. Each step takes at least one
character, so the length of the text bounds the steps. -/
def readChars : Nat → List Char → List Char → Except Fault (String × List Char)
  | _, _, [] => .error (.after .endInString [])
  | 0, _, s => .error (.after .endInString s)
  | _ + 1, seen, '"' :: rest => .ok (String.ofList seen.reverse, rest)
  | steps + 1, seen, '\\' :: rest => do
    let (c, rest) ← readEscape rest
    readChars steps (c :: seen) rest
  | steps + 1, seen, c :: rest =>
    if c.toNat < 32 then .error (.on .controlCharacter (c :: rest))
    else readChars steps (c :: seen) rest

/-- A string after its opening quotation mark. -/
def readString (s : List Char) : Except Fault (String × List Char) := readChars s.length [] s

def wordMax : Nat := UInt64.size - 1

/-- Takes digits as long as the number fits 64 bits. -/
def readSignificand (n : Nat) : List Char → Nat × List Char
  | [] => (n, [])
  | c :: s =>
    match Text.Decimal.value? c with
    | some d => if n * 10 + d ≤ wordMax then readSignificand (n * 10 + d) s else (n, c :: s)
    | none => (n, c :: s)

def startsWithDigit : List Char → Bool
  | c :: _ => Text.Decimal.isDigit c
  | [] => false

def skipDigits (s : List Char) : List Char := s.dropWhile Text.Decimal.isDigit

/-- How many digits a text starts with. -/
def digitCount (s : List Char) : Nat := (s.takeWhile Text.Decimal.isDigit).length

def realOf (negative : Bool) (significand : Nat) (exponent : Int) (rest : List Char) :
    Except Fault (Json × List Char) :=
  match Binary64.ofDecimal negative significand exponent with
  | some x => .ok (real x, rest)
  | none => .error (.after .numberTooLarge rest)

def exponentMax : Nat := 2147483647

/-- Exponent digits, up to a bound past which only the sign of the exponent matters. -/
def readExponentDigits (n : Nat) : List Char → Option Nat × List Char
  | [] => (some n, [])
  | c :: s =>
    match Text.Decimal.value? c with
    | some d => if n * 10 + d ≤ exponentMax then readExponentDigits (n * 10 + d) s else (none, s)
    | none => (some n, c :: s)

/-- The exponent after its mark. -/
def readExponent (negative : Bool) (significand : Nat) (start : Int) (s : List Char) :
    Except Fault (Json × List Char) :=
  let (down, s) := match s with
    | '+' :: r => (false, r)
    | '-' :: r => (true, r)
    | r => (false, r)
  match s with
  | [] => .error (.after .endInValue [])
  | c :: _ =>
    if ! Text.Decimal.isDigit c then .error (.on .badNumber s)
    else match readExponentDigits 0 s with
      | (some n, rest) => realOf negative significand (if down then start - n else start + n) rest
      | (none, rest) =>
        if significand ≠ 0 ∧ ! down then .error (.after .numberTooLarge rest)
        else realOf negative 0 0 (skipDigits rest)

/-- The digits after the point. Digits past 64 bits are dropped. -/
def readFraction (negative : Bool) (significand : Nat) (start : Int) (s : List Char) :
    Except Fault (Json × List Char) :=
  if ! startsWithDigit s then
    match s with
    | [] => .error (.after .endInValue [])
    | s => .error (.on .badNumber s)
  else
    let (n, rest) := readSignificand significand s
    let exponent := start - ((s.length - rest.length : Nat) : Int)
    match skipDigits rest with
    | 'e' :: r => readExponent negative n exponent r
    | 'E' :: r => readExponent negative n exponent r
    | r => realOf negative n exponent r

/-- What follows the integer part; `dropped` of its digits did not fit 64 bits. -/
def readTail (negative : Bool) (significand dropped : Nat) (s : List Char) :
    Except Fault (Json × List Char) :=
  match s with
  | '.' :: r => readFraction negative significand dropped r
  | 'e' :: r => readExponent negative significand dropped r
  | 'E' :: r => readExponent negative significand dropped r
  | r =>
    if dropped ≠ 0 then realOf negative significand dropped r
    else if ! negative then .ok (int significand, r)
    else if significand = 0 ∨ UInt64.size / 2 < significand then
      .ok (real (Binary64.ofNat true significand), r)
    else .ok (int (-significand), r)

/-- A number after its sign. -/
def readNumber (negative : Bool) (s : List Char) : Except Fault (Json × List Char) :=
  match s with
  | [] => .error (.after .endInValue [])
  | '0' :: r => if startsWithDigit r then .error (.on .badNumber r) else readTail negative 0 0 r
  | c :: r =>
    if ! Text.Decimal.isDigit c then .error (.on .badNumber (c :: r))
    else
      let (n, rest) := readSignificand 0 (c :: r)
      readTail negative n (digitCount rest) (skipDigits rest)

/-- The value that starts here, if it is not a container. -/
def readScalar (s : List Char) : Except Fault (Json × List Char) :=
  match s with
  | [] => .error (.after .endInValue [])
  | 'n' :: r => do .ok (null, ← readWord ['u', 'l', 'l'] r)
  | 't' :: r => do .ok (bool true, ← readWord ['r', 'u', 'e'] r)
  | 'f' :: r => do .ok (bool false, ← readWord ['a', 'l', 's', 'e'] r)
  | '-' :: r => readNumber true r
  | '"' :: r => do let (t, rest) ← readString r; .ok (str t, rest)
  | c :: r => if Text.Decimal.isDigit c then readNumber false (c :: r) else .error (.on .noValue (c :: r))

/-- Where the next item of an array starts; none before the closing bracket. -/
def nextItem (first : Bool) (s : List Char) : Except Fault (Option (List Char)) :=
  match skipBlank s with
  | [] => .error (.after .endInList [])
  | ']' :: _ => .ok none
  | c :: r =>
    if first then .ok (some (c :: r))
    else if c = ',' then
      match skipBlank r with
      | [] => .error (.after .endInValue [])
      | ']' :: t => .error (.on .trailingComma (']' :: t))
      | t => .ok (some t)
    else .error (.on .noListEnd (c :: r))

/-- Closes an array of which no more items are wanted. -/
def closeArray (s : List Char) : Except Fault (List Char) :=
  match skipBlank s with
  | [] => .error (.after .endInList [])
  | ']' :: r => .ok r
  | ',' :: r =>
    match skipBlank r with
    | ']' :: t => .error (.on .trailingComma (']' :: t))
    | t => .error (.on .trailingCharacters t)
  | s => .error (.on .trailingCharacters s)

/-- The next key of an object, and the text after its closing quotation mark; none before the
closing brace. -/
def nextKey (first : Bool) (s : List Char) : Except Fault (Option (String × List Char)) :=
  let key (s : List Char) : Except Fault (Option (String × List Char)) :=
    match s with
    | '"' :: r => do .ok (some (← readString r))
    | s => .error (.on .keyNotText s)
  match skipBlank s with
  | [] => .error (.after .endInObject [])
  | '\x7d' :: _ => .ok none
  | c :: r =>
    if first then key (c :: r)
    else if c = ',' then
      match skipBlank r with
      | [] => .error (.after .endInValue [])
      | '\x7d' :: t => .error (.on .trailingComma ('\x7d' :: t))
      | t => key t
    else .error (.on .noObjectEnd (c :: r))

def readColon (s : List Char) : Except Fault (List Char) :=
  match skipBlank s with
  | [] => .error (.after .endInObject [])
  | ':' :: r => .ok r
  | s => .error (.on .noColon s)

/-- Reads items up to the closing bracket and past it. Each item takes at least one character. -/
def readItems {α : Type} (item : Reader α) : Nat → Bool → List Char → Except Fault (List α × List Char)
  | 0, _, s => .error (.after .endInList s)
  | steps + 1, first, s => do
    match ← nextItem first s with
    | none => .ok ([], (skipBlank s).drop 1)
    | some s =>
      let (a, s) ← item s
      let (more, s) ← readItems item steps false s
      .ok (a :: more, s)

/-- Folds the entries of an object up to the closing brace and past it. The step gets a key and the
text after it. -/
def foldEntries {σ : Type} (step : σ → String → Reader σ) :
    Nat → Bool → σ → List Char → Except Fault (σ × List Char)
  | 0, _, _, s => .error (.after .endInObject s)
  | steps + 1, first, acc, s => do
    match ← nextKey first s with
    | none => .ok (acc, (skipBlank s).drop 1)
    | some (key, s) =>
      let (acc, s) ← step acc key s
      foldEntries step steps false acc s

/-- A value whose containers are read by `inner`, if one more level may be opened. -/
def readAt (inner : Option (Reader Json)) (s : List Char) : Except Fault (Json × List Char) :=
  match skipBlank s, inner with
  | '[' :: r, some item => do
    let (items, rest) ← readItems item (r.length + 1) true r
    .ok (arr items, rest)
  | '\x7b' :: r, some item => do
    let step (acc : List (String × Json)) (key : String) (s : List Char) :
        Except Fault (List (String × Json) × List Char) := do
      let (j, s) ← item (← readColon s)
      .ok ((key, j) :: acc, s)
    let (entries, rest) ← foldEntries step (r.length + 1) true [] r
    .ok (obj entries.reverse, rest)
  | '[' :: r, none => .error (.on .tooDeep ('[' :: r))
  | '\x7b' :: r, none => .error (.on .tooDeep ('\x7b' :: r))
  | s, _ => readScalar s

/-- Reads a value that opens at most `levels` containers inside each other. -/
def read : Nat → Reader Json
  | 0 => readAt none
  | levels + 1 => readAt (some (read levels))

/-- How many containers may be open at once. -/
def maxLevels : Nat := 127

/-- Only blanks may follow a document. -/
def finish {α : Type} (r : α × List Char) : Except Fault α :=
  match skipBlank r.2 with
  | [] => .ok r.1
  | s => .error (.on .trailingCharacters s)

def ofText (text : String) : Except Fault Json := do finish (← read maxLevels text.toList)

end Json

end Narrative
