import Narrative.Number.Binary64

namespace Narrative

/-- How a table came about, which decides what may still be added to it. -/
inductive Toml.Origin
  /-- It has a header of its own. -/
  | header
  /-- A longer header led through it. -/
  | passed
  /-- A key with dots led through it. -/
  | dotted
  /-- It is written in braces and complete. -/
  | braces
  deriving DecidableEq, Repr

inductive Toml.Real
  | finite (x : Binary64)
  | infinite (negative : Bool)
  | notANumber
  deriving DecidableEq, Repr

/-- A date or a time is known as such and no further. -/
inductive Toml where
  | text (s : String)
  | int (n : Int)
  | real (x : Toml.Real)
  | bool (b : Bool)
  | moment
  | list (items : List Toml)
  | table (origin : Toml.Origin) (entries : List (String × Toml))
  /-- Tables under headers in double brackets, at least one. -/
  | tables (items : List (List (String × Toml)))

namespace Toml

/-- A table without its origin: names in the order they came up, each once. -/
abbrev Entries := List (String × Toml)

namespace Entries

def find? (key : String) (t : Entries) : Option Toml := (List.find? (·.1 = key) t).map Prod.snd

/-- Gives an entry another value. -/
def set (key : String) (value : Toml) (t : Entries) : Entries :=
  t.map fun e => if e.1 = key then (key, value) else e

def add (key : String) (value : Toml) (t : Entries) : Entries := t ++ [(key, value)]

def remove (key : String) (t : Entries) : Entries := t.filter fun e => e.1 ≠ key

/-- Changes the last of some tables. -/
def changeLast (change : Entries → Option Entries) (items : List Entries) : Option (List Entries) :=
  match items.getLast? with
  | none => none
  | some t => (change t).map fun t => items.dropLast ++ [t]

/-- Adds a value under a key with dots, which makes the tables it leads through. A table that has a
header is closed to it, and what is there already is not replaced. -/
def put (value : Toml) : String → List String → Entries → Option Entries
  | key, [], t => if (t.find? key).isSome then none else some (t.add key value)
  | key, next :: more, t =>
    match t.find? key with
    | none => (put value next more []).map fun inner => t.add key (.table .dotted inner)
    | some (.table .dotted inner) =>
      (put value next more inner).map fun inner => t.set key (.table .dotted inner)
    | some (.table .passed inner) =>
      if more.isEmpty then none
      else (put value next more inner).map fun inner => t.set key (.table .passed inner)
    | some (.tables items) =>
      if more.isEmpty then none
      else (changeLast (put value next more) items).map fun items => t.set key (.tables items)
    | some _ => none

/-- Changes the table at the end of a header, which leads through the last of several tables. -/
def under (change : Entries → Option Entries) : List String → Entries → Option Entries
  | [], t => change t
  | key :: more, t =>
    match t.find? key with
    | none => (under change more []).map fun inner => t.add key (.table .passed inner)
    | some (.table .braces _) => none
    | some (.table origin inner) =>
      (under change more inner).map fun inner => t.set key (.table origin inner)
    | some (.tables items) =>
      (changeLast (under change more) items).map fun items => t.set key (.tables items)
    | some _ => none

/-- Opens the table of a header. One that has been led through counts from here on. -/
def openTable (key : String) (t : Entries) : Option Entries :=
  match t.find? key with
  | none => some (t.add key (.table .header []))
  | some (.table .passed inner) => some ((t.remove key).add key (.table .header inner))
  | some _ => none

/-- Opens one more of several tables. -/
def openItem (key : String) (t : Entries) : Option Entries :=
  match t.find? key with
  | none => some (t.add key (.tables [[]]))
  | some (.tables items) => some (t.set key (.tables (items ++ [[]])))
  | some _ => none

end Entries

end Toml

end Narrative
