import Narrative.Number.Binary64
import Narrative.Number.Shortest
import Narrative.Text

namespace Narrative

/-- An object keeps its entries in the order they were written, repeated keys included. A number
without a point or an exponent is an integer. -/
inductive Json where
  | null
  | bool (b : Bool)
  | int (n : Int)
  | real (x : Binary64)
  | str (s : String)
  | arr (items : List Json)
  | obj (entries : List (String × Json))

namespace Json

mutual

/-- How many arrays and objects enclose the innermost value. -/
def depth : Json → Nat
  | arr items => itemsDepth items + 1
  | obj entries => entriesDepth entries + 1
  | _ => 0

def itemsDepth : List Json → Nat
  | [] => 0
  | j :: rest => max (depth j) (itemsDepth rest)

def entriesDepth : List (String × Json) → Nat
  | [] => 0
  | (_, j) :: rest => max (depth j) (entriesDepth rest)

end

/-- The first entry under a key. -/
def field? (key : String) : Json → Option Json
  | obj entries => (entries.find? (·.1 = key)).map Prod.snd
  | _ => none

def names (names : List String) : Json := arr (names.map str)

def text? : Json → Option String
  | str s => some s
  | _ => none

def int? : Json → Option Int
  | int n => some n
  | _ => none

def bool? : Json → Option Bool
  | bool b => some b
  | _ => none

def ofOption {α : Type} (f : α → Json) : Option α → Json
  | none => null
  | some a => f a

/-- A control character without a short form is written with four hexadecimal digits. -/
def escape (c : Char) : List Char :=
  if c = '"' then ['\\', '"']
  else if c = '\\' then ['\\', '\\']
  else if 32 ≤ c.toNat then [c]
  else match c.toNat with
    | 8 => ['\\', 'b']
    | 9 => ['\\', 't']
    | 10 => ['\\', 'n']
    | 12 => ['\\', 'f']
    | 13 => ['\\', 'r']
    | n => ['\\', 'u', '0', '0', Text.Hex.digit (n / 16), Text.Hex.digit (n % 16)]

def quoted (s : String) : List Char := '"' :: (s.toList.flatMap escape ++ ['"'])

def scalar : Json → List Char
  | null => ['n', 'u', 'l', 'l']
  | bool true => ['t', 'r', 'u', 'e']
  | bool false => ['f', 'a', 'l', 's', 'e']
  | int n => Text.Decimal.ofInt n
  | real x => x.text.toList
  | str s => quoted s
  | _ => []

/-- What stands before the items of a container, between them, before its end, and after a colon. -/
structure Spacing where
  lead : Nat → List Char
  close : Nat → List Char
  colon : List Char

def tight : Spacing := ⟨fun _ => [], fun _ => [], [':']⟩

def newline (level : Nat) : List Char := '\n' :: List.replicate (2 * level) ' '

def indented : Spacing := ⟨fun level => newline (level + 1), newline, [':', ' ']⟩

mutual

/-- Writes a value that stands inside `level` containers. -/
def write (w : Spacing) (level : Nat) : Json → List Char
  | arr [] => ['[', ']']
  | arr (j :: rest) =>
    '[' :: (w.lead level ++ write w (level + 1) j ++ writeItems w level rest ++ w.close level ++ [']'])
  | obj [] => ['\x7b', '\x7d']
  | obj ((k, j) :: rest) =>
    '\x7b' :: (w.lead level ++ quoted k ++ w.colon ++ write w (level + 1) j ++
      writeEntries w level rest ++ w.close level ++ ['\x7d'])
  | j => scalar j

def writeItems (w : Spacing) (level : Nat) : List Json → List Char
  | [] => []
  | j :: rest => ',' :: (w.lead level ++ write w (level + 1) j ++ writeItems w level rest)

def writeEntries (w : Spacing) (level : Nat) : List (String × Json) → List Char
  | [] => []
  | (k, j) :: rest =>
    ',' :: (w.lead level ++ quoted k ++ w.colon ++ write w (level + 1) j ++ writeEntries w level rest)

end

def compact (j : Json) : String := String.ofList (write tight 0 j)

def pretty (j : Json) : String := String.ofList (write indented 0 j)

end Json

end Narrative
