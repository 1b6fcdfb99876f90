import Narrative.Number.Binary64
import Narrative.Text

namespace Narrative.Yaml

inductive Style
  | plain
  | single
  | double
  | block
  deriving DecidableEq, Repr

/-- Words that stand for nothing, for a truth value or for a number. -/
def words : List String := [
  "", "~", "null", "Null", "NULL", "true", "True", "TRUE", "false", "False", "FALSE",
  ".inf", ".Inf", ".INF", "+.inf", "+.Inf", "+.INF", "-.inf", "-.Inf", "-.INF",
  ".nan", ".NaN", ".NAN"]

def isDigits (s : List Char) : Bool := ! s.isEmpty && s.all Text.Decimal.isDigit

def withoutPlus : List Char → List Char
  | '+' :: r => r
  | r => r

/-- Digits in a base, at least one and the number below a bound. -/
def isBased (base bound : Nat) (s : List Char) : Bool :=
  ! s.isEmpty && s.all (fun c => (Text.Hex.value? c).any (· < base)) &&
    s.foldl (fun n c => base * n + (Text.Hex.value? c).getD 0) 0 < bound

/-- An integer with the mark of its base. -/
def isMarked (bound : Nat) : List Char → Bool
  | '0' :: 'x' :: r => isBased 16 bound r
  | '0' :: 'o' :: r => isBased 8 bound r
  | '0' :: 'b' :: r => isBased 2 bound r
  | _ => false

/-- There are this many integers of 128 bits. -/
def wideBound : Nat := UInt64.size * UInt64.size

/-- Integers of 128 bits, with or without a sign. -/
def isMarkedInteger : List Char → Bool
  | '-' :: r => isMarked (wideBound / 2 + 1) r
  | s => isMarked wideBound (withoutPlus s)

def number (ds : List Char) : Nat := ds.foldl (fun n c => 10 * n + (Text.Decimal.value? c).getD 0) 0

/-- The exponent that a text is; zero if it is empty. -/
def exponent? : List Char → Option Int
  | [] => some 0
  | c :: r =>
    if c = 'e' ∨ c = 'E' then
      let (down, ds) := match r with
        | '-' :: ds => (true, ds)
        | ds => (false, withoutPlus ds)
      if isDigits ds then some (if down then -(number ds : Int) else number ds) else none
    else none

/-- A decimal number that is not too large: digits with or without a point, of which there is at least
one, and an exponent or none. -/
def isFinite (s : List Char) : Bool :=
  let whole := s.takeWhile Text.Decimal.isDigit
  let (part, rest) := match s.dropWhile Text.Decimal.isDigit with
    | '.' :: r => (r.takeWhile Text.Decimal.isDigit, r.dropWhile Text.Decimal.isDigit)
    | r => ([], r)
  match exponent? rest with
  | none => false
  | some e =>
    isDigits (whole ++ part) &&
      (Binary64.ofScientific? (number (whole ++ part)) (e - part.length)).isSome

def isDecimalNumber : List Char → Bool
  | '-' :: r => isFinite r
  | s => isFinite (withoutPlus s)

def withoutSign : List Char → List Char
  | '-' :: r => r
  | s => withoutPlus s

/-- Digits after a leading zero. They are text, but older readers take them for octal. -/
def isZeroLed (s : List Char) : Bool :=
  match withoutSign s with
  | '0' :: r => isDigits r
  | _ => false

/-- Whether a text would be read as something else than text if it stood between no marks. -/
def looksTyped (s : String) : Bool :=
  words.contains s || isZeroLed s.toList || isMarkedInteger s.toList || isDecimalNumber s.toList

def isBreak (c : Char) : Bool := c ∈ ['\n', '\r', '\u0085', '\u2028', '\u2029']

/-- What may be written without an escape. -/
def isPrintable (c : Char) : Bool :=
  let n := c.toNat
  n = 10 || (32 ≤ n && n < 127) || (160 ≤ n && n ≠ 0xFEFF && n ≠ 0xFFFE && n ≠ 0xFFFF)

/-- A blank, a line break or the end follows. -/
def isGap : Option Char → Bool
  | none => true
  | some c => c = ' ' || c = '\t' || isBreak c

/-- A colon before a gap ends a key, and a hash after one starts a comment. -/
def hasInnerMark (before : Char) : List Char → Bool
  | [] => false
  | c :: r => (c = ':' && isGap r.head?) || (c = '#' && isGap (some before)) || hasInnerMark c r

/-- Something at the start says that what follows is no plain text. -/
def hasLeadingMark : List Char → Bool
  | [] => false
  | c :: r =>
    "#,[]\x7b\x7d&*!|>'\"%@`".toList.contains c || (c ∈ ['?', ':', '-'] && isGap r.head?)

def hasIndicator (s : List Char) : Bool :=
  ['-', '-', '-'].isPrefixOf s || ['.', '.', '.'].isPrefixOf s || hasLeadingMark s ||
    match s with
    | [] => false
    | c :: r => hasInnerMark c r

/-- Somewhere one of the first follows directly on one of the second. -/
def follows (first second : Char → Bool) : List Char → Bool
  | a :: b :: r => (second a && first b) || follows first second (b :: r)
  | _ => false

def isSpace (c : Char) : Bool := c = ' '

def plainAllowed (s : List Char) : Bool :=
  ! (s.head?.any fun c => isSpace c || isBreak c) && ! (s.getLast?.any fun c => isSpace c || isBreak c) &&
    ! s.any isBreak && s.all isPrintable && ! hasIndicator s

/-- Between single marks nothing can be escaped, and blanks beside a line break are lost. -/
def singleAllowed (s : List Char) : Bool :=
  s.all isPrintable && ! follows isSpace isBreak s && ! follows isBreak isSpace s

def blockAllowed (s : List Char) : Bool :=
  ! s.isEmpty && ! s.getLast?.any isSpace && s.all isPrintable && ! follows isBreak isSpace s

/-- A text of several lines is a block if it can be. -/
def styleOf (s : String) : Style :=
  let cs := s.toList
  if s.contains '\n' then (if blockAllowed cs then .block else .double)
  else if ! looksTyped s && plainAllowed cs then .plain
  else if singleAllowed cs then .single
  else .double

end Narrative.Yaml
