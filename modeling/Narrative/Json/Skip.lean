import Narrative.Json.Reader

namespace Narrative.Json

/-- The containers that are open, innermost first. -/
inductive Bracket
  | list
  | object
  deriving DecidableEq

def Bracket.unfinished : Bracket → Malformation
  | list => .endInList
  | object => .endInObject

def Bracket.noEnd : Bracket → Malformation
  | list => .noListEnd
  | object => .noObjectEnd

/-- Passes a string after its opening quotation mark. -/
def skipString : Nat → List Char → Except Fault (List Char)
  | _, [] => .error (.after .endInString [])
  | 0, s => .error (.after .endInString s)
  | _ + 1, '"' :: rest => .ok rest
  | steps + 1, '\\' :: rest =>
    match rest with
    | [] => .error (.after .endInString [])
    | 'u' :: r => do skipString steps (← readHex r).2
    | c :: r =>
      if c ∈ ['"', '\\', '/', 'b', 'f', 'n', 'r', 't'] then skipString steps r
      else .error (.on .badEscape (c :: r))
  | steps + 1, c :: rest =>
    if c.toNat < 32 then .error (.after .controlCharacter (c :: rest)) else skipString steps rest

/-- Passes the digits that have to follow a mark. -/
def skipSomeDigits (s : List Char) : Except Fault (List Char) :=
  if startsWithDigit s then .ok (skipDigits s) else .error (.on .badNumber s)

def skipExponent (s : List Char) : Except Fault (List Char) :=
  match s with
  | '+' :: r => skipSomeDigits r
  | '-' :: r => skipSomeDigits r
  | r => skipSomeDigits r

def skipNumberTail (s : List Char) : Except Fault (List Char) :=
  match s with
  | 'e' :: r => skipExponent r
  | 'E' :: r => skipExponent r
  | r => .ok r

/-- Passes a number after its sign. -/
def skipNumber (s : List Char) : Except Fault (List Char) := do
  let s ← match s with
    | '0' :: r => if startsWithDigit r then .error (.on .badNumber r) else .ok r
    | s => skipSomeDigits s
  match s with
  | '.' :: r => do skipNumberTail (← skipSomeDigits r)
  | s => skipNumberTail s

def skipScalar (s : List Char) : Except Fault (List Char) :=
  match s with
  | [] => .error (.after .endInValue [])
  | 'n' :: r => readWord ['u', 'l', 'l'] r
  | 't' :: r => readWord ['r', 'u', 'e'] r
  | 'f' :: r => readWord ['a', 'l', 's', 'e'] r
  | '-' :: r => skipNumber r
  | '"' :: r => skipString r.length r
  | c :: r => if Text.Decimal.isDigit c then skipNumber (c :: r) else .error (.on .noValue (c :: r))

/-- Passes a key and the colon after it. -/
def skipKey (s : List Char) : Except Fault (List Char) :=
  match skipBlank s with
  | [] => .error (.after .endInObject [])
  | '"' :: r => do readColon (← skipString r.length r)
  | s => .error (.on .keyNotText s)

/-- Whether a value, the first item of the innermost container or what follows an item comes next. -/
inductive Awaited
  | value
  | first
  | next

def closes : Bracket → Char → Bool
  | .list, c => c = ']'
  | .object, c => c = '\x7d'

/-- Only the outline of a value is checked: numbers may be out of range and surrogates stand alone. -/
def skipFrom : Nat → Awaited → List Bracket → List Char → Except Fault (List Char)
  | 0, _, _, s => .error (.after .endInValue s)
  | steps + 1, .value, opened, s =>
    match skipBlank s with
    | '[' :: r => skipFrom steps .first (.list :: opened) r
    | '\x7b' :: r => skipFrom steps .first (.object :: opened) r
    | s => do skipFrom steps .next opened (← skipScalar s)
  | _ + 1, _, [], s => .ok s
  | steps + 1, awaited, b :: opened, s =>
    match skipBlank s, awaited with
    | [], _ => .error (.after b.unfinished [])
    | c :: r, awaited =>
      if closes b c then skipFrom steps .next opened r
      else do
        let s ← match awaited with
          | .next => if c = ',' then .ok r else .error (.on b.noEnd (c :: r))
          | _ => .ok (c :: r)
        match b with
        | .list => skipFrom steps .value (b :: opened) s
        | .object => do skipFrom steps .value (b :: opened) (← skipKey s)

/-- Passes one value. -/
def skip (s : List Char) : Except Fault (List Char) := skipFrom (2 * s.length + 2) .value [] s

/-- The keys of a text that is an object, whatever values it has. -/
def keysOf (text : String) : List String :=
  let note (keys : List String) (key : String) (s : List Char) : Except Fault (List String × List Char) :=
    do .ok (keys ++ [key], ← skip (← readColon s))
  match skipBlank text.toList with
  | '\x7b' :: t =>
    match foldEntries note (t.length + 1) true [] t with
    | .ok (keys, _) => keys
    | .error _ => []
  | _ => []

end Narrative.Json
