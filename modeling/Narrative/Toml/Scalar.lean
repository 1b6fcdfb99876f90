import Narrative.Number.Binary64
import Narrative.Text
import Narrative.Toml.Basic

namespace Narrative.Toml

abbrev Scanner (α : Type) := List Char → Option (α × List Char)

/-- What may stand in a text or a comment. -/
def isPlain (c : Char) : Bool := c = '\t' || (32 ≤ c.toNat && c.toNat ≠ 127)

def isBlank (c : Char) : Bool := c = ' ' || c = '\t'

def skipBlank (s : List Char) : List Char := s.dropWhile isBlank

/-- A line ends with a line feed, which a carriage return may precede. -/
def lineEnd? : List Char → Option (List Char)
  | '\n' :: r => some r
  | '\r' :: '\n' :: r => some r
  | _ => none

/-- So many hexadecimal digits, added to the number they follow. -/
def hexNumber : Nat → Nat → Scanner Nat
  | 0, n, s => some (n, s)
  | _ + 1, _, [] => none
  | count + 1, n, c :: s =>
    match Text.Hex.value? c with
    | some d => hexNumber count (16 * n + d) s
    | none => none

/-- A character by its code point. -/
def codePoint (count : Nat) (s : List Char) : Option (Char × List Char) := do
  let (n, rest) ← hexNumber count 0 s
  if n.isValidChar then some (Char.ofNat n, rest) else none

/-- The character an escape stands for, after the backslash. -/
def readEscape : Scanner Char
  | 'b' :: r => some (Char.ofNat 8, r)
  | 'f' :: r => some (Char.ofNat 12, r)
  | 'n' :: r => some ('\n', r)
  | 'r' :: r => some ('\r', r)
  | 't' :: r => some ('\t', r)
  | '"' :: r => some ('"', r)
  | '\\' :: r => some ('\\', r)
  | 'u' :: r => codePoint 4 r
  | 'U' :: r => codePoint 8 r
  | _ => none

/-- A text on one line up to its closing mark. Only between double marks are there escapes. Each
step takes at least one character. -/
def readShort (mark : Char) : Nat → List Char → Scanner String
  | 0, _, _ => none
  | _ + 1, _, [] => none
  | steps + 1, seen, c :: r =>
    if c = mark then some (String.ofList seen.reverse, r)
    else if c = '\\' ∧ mark = '"' then
      match readEscape r with
      | some (c, r) => readShort mark steps (c :: seen) r
      | none => none
    else if isPlain c then readShort mark steps (c :: seen) r
    else none

/-- A backslash at the end of a line takes away the line end and all blanks and line ends after it. -/
def joinLines? (s : List Char) : Option (List Char) :=
  (lineEnd? (skipBlank s)).map skipLines
where
  skipLines : List Char → List Char
    | ' ' :: r => skipLines r
    | '\t' :: r => skipLines r
    | '\n' :: r => skipLines r
    | '\r' :: '\n' :: r => skipLines r
    | s => s

/-- A text of several lines up to its three closing marks; one or two marks before them belong to the
text. Every line end is read as a line feed. -/
def readLong (mark : Char) : Nat → List Char → Scanner String
  | 0, _, _ => none
  | _ + 1, _, [] => none
  | steps + 1, seen, c :: r =>
    if c = mark ∧ [mark, mark].isPrefixOf r then
      let extra := min 2 ((r.drop 2).takeWhile (· = mark)).length
      some (String.ofList (seen.reverse ++ List.replicate extra mark), r.drop (2 + extra))
    else if c = '\\' ∧ mark = '"' then
      match joinLines? r with
      | some r => readLong mark steps seen r
      | none =>
        match readEscape r with
        | some (c, r) => readLong mark steps (c :: seen) r
        | none => none
    else
      match lineEnd? (c :: r) with
      | some r => readLong mark steps ('\n' :: seen) r
      | none => if isPlain c then readLong mark steps (c :: seen) r else none

/-- The rest of a text after its first mark. A line end right after three marks is left out. -/
def readText (mark : Char) (s : List Char) : Option (String × List Char) :=
  if [mark, mark].isPrefixOf s then
    let s := s.drop 2
    let s := (lineEnd? s).getD s
    readLong mark (s.length + 1) [] s
  else readShort mark (s.length + 1) [] s

/-- Digits of which single underscores may stand between two. -/
def readDigits (isDigit : Char → Bool) : Scanner (List Char)
  | [] => none
  | c :: r => if isDigit c then some (more [c] r) else none
where
  more (seen : List Char) : List Char → List Char × List Char
    | '_' :: c :: r => if isDigit c then more (c :: seen) r else (seen.reverse, '_' :: c :: r)
    | c :: r => if isDigit c then more (c :: seen) r else (seen.reverse, c :: r)
    | [] => (seen.reverse, [])

def number (base : Nat) (ds : List Char) : Nat :=
  ds.foldl (fun n c => base * n + (Text.Hex.value? c).getD 0) 0

/-- Integers have 64 bits with their sign. -/
def integer? (n : Int) : Option Toml :=
  if Int64.minValue.toInt ≤ n ∧ n ≤ Int64.maxValue.toInt then some (.int n) else none

/-- An integer in hexadecimal, octal or binary digits after its mark. -/
def readBased (base : Nat) (s : List Char) : Option (Toml × List Char) := do
  let (ds, rest) ← readDigits (fun c => (Text.Hex.value? c).any (· < base)) s
  some (← integer? (number base ds), rest)

/-- The nearest number to `± digits · 10 ^ exponent`. Only below zero may it be too large for a finite
one. -/
def nearest? (negative : Bool) (digits : Nat) (exponent : Int) : Option Toml :=
  match Binary64.ofScientific? digits exponent, negative with
  | some m, _ => some (.real (.finite ⟨negative, m.1, m.2⟩))
  | none, true => some (.real (.infinite true))
  | none, false => none

def readSign : List Char → Bool × List Char
  | '-' :: r => (true, r)
  | '+' :: r => (false, r)
  | r => (false, r)

/-- The digits before a point or an exponent: no zero leads others. -/
def readWhole : Scanner (List Char)
  | '0' :: r => some (['0'], r)
  | s => readDigits Text.Decimal.isDigit s

def readExponent (s : List Char) : Option (Int × List Char) := do
  let (negative, s) := readSign s
  let (ds, rest) ← readDigits Text.Decimal.isDigit s
  some (if negative then -(number 10 ds : Int) else number 10 ds, rest)

/-- A number in decimal digits after its sign. -/
def readDecimal (negative : Bool) (s : List Char) : Option (Toml × List Char) := do
  let (whole, rest) ← readWhole s
  let signed (n : Nat) : Int := if negative then -(n : Int) else n
  let scaled (ds : List Char) (places : Nat) (s : List Char) : Option (Toml × List Char) := do
    let (e, rest) ← match s with
      | 'e' :: r => readExponent r
      | 'E' :: r => readExponent r
      | r => some (0, r)
    some (← nearest? negative (number 10 ds) (e - places), rest)
  match rest with
  | '.' :: r => do
    let (part, rest) ← readDigits Text.Decimal.isDigit r
    scaled (whole ++ part) part.length rest
  | 'e' :: _ => scaled whole 0 rest
  | 'E' :: _ => scaled whole 0 rest
  | _ => do some (← integer? (signed (number 10 whole)), rest)

/-- Any number. -/
def readNumber : Scanner Toml
  | '0' :: 'x' :: r => readBased 16 r
  | '0' :: 'o' :: r => readBased 8 r
  | '0' :: 'b' :: r => readBased 2 r
  | s =>
    match readSign s with
    | (negative, 'i' :: 'n' :: 'f' :: r) => some (.real (.infinite negative), r)
    | (_, 'n' :: 'a' :: 'n' :: r) => some (.real .notANumber, r)
    | (negative, r) => readDecimal negative r

/-- So many decimal digits and the number they are. -/
def readPlaces (count : Nat) (s : List Char) : Option (Nat × List Char) :=
  let ds := s.take count
  if ds.length = count ∧ ds.all Text.Decimal.isDigit then some (number 10 ds, s.drop count) else none

/-- Two digits within bounds. -/
def readPart (least most : Nat) (s : List Char) : Option (Nat × List Char) := do
  let (n, rest) ← readPlaces 2 s
  if least ≤ n ∧ n ≤ most then some (n, rest) else none

def isLeap (year : Nat) : Bool := year % 4 = 0 && (year % 100 ≠ 0 || year % 400 = 0)

def daysIn (year month : Nat) : Nat :=
  if month = 2 then (if isLeap year then 29 else 28)
  else if month ∈ [4, 6, 9, 11] then 30
  else 31

def readMark (mark : Char) : List Char → Option (List Char)
  | c :: r => if c = mark then some r else none
  | [] => none

def readDate (s : List Char) : Option (List Char) := do
  let (year, s) ← readPlaces 4 s
  let (month, s) ← readPart 1 12 (← readMark '-' s)
  let (_, s) ← readPart 1 (daysIn year month) (← readMark '-' s)
  some s

/-- A minute may have a leap second; parts of a second have any number of digits. -/
def readTime (s : List Char) : Option (List Char) := do
  let (_, s) ← readPart 0 23 s
  let (_, s) ← readPart 0 59 (← readMark ':' s)
  let (_, s) ← readPart 0 60 (← readMark ':' s)
  match s with
  | '.' :: c :: r =>
    if Text.Decimal.isDigit c then some (r.dropWhile Text.Decimal.isDigit) else some s
  | s => some s

def readOffset : List Char → Option (List Char)
  | [] => none
  | c :: r =>
    if c = 'Z' ∨ c = 'z' then some r
    else if c = '+' ∨ c = '-' then do
      let (_, s) ← readPart 0 23 r
      let (_, s) ← readPart 0 59 (← readMark ':' s)
      some s
    else none

/-- A date, a time, or a date with a time, which may tell how far it is from universal time. -/
def readMoment (s : List Char) : Option (List Char) :=
  match readDate s with
  | none => readTime s
  | some rest =>
    match rest with
    | c :: r =>
      if c = 'T' ∨ c = 't' ∨ c = ' ' then
        match readTime r with
        | some r => some ((readOffset r).getD r)
        | none => some rest
      else some rest
    | [] => some []

end Narrative.Toml
