import Narrative.Json.Fault

namespace Narrative

/-- The ranges of integers, each with the name an error gives it. -/
inductive Width
  | u16
  | u64
  | i64
  | size
  deriving DecidableEq, Repr

namespace Width

def name : Width → String
  | u16 => "u16"
  | u64 => "u64"
  | i64 => "i64"
  | size => "usize"

def least : Width → Int
  | i64 => Int64.minValue.toInt
  | _ => 0

def greatest : Width → Int
  | u16 => UInt16.size - 1
  | i64 => Int64.maxValue.toInt
  | _ => UInt64.size - 1

def holds (w : Width) (n : Int) : Bool := w.least ≤ n && n ≤ w.greatest

end Width

/-- What may stand in a place of a document. Recursive formats go through names. -/
inductive Format (ρ : Type) where
  | bool
  | int (width : Width)
  | text
  | list (item : Format ρ)
  /-- A list of named values in which lists may stand for their items. -/
  | grouped (item : ρ) (expecting : String)
  | dict (value : Format ρ)
  | named (name : ρ)

/-- A field that may be missing is `null` or the zero of its format then; only the former may also
be written as `null`. -/
inductive Presence
  | required
  | nullable
  | defaulted
  deriving DecidableEq

structure Field (ρ : Type) where
  name : String
  format : Format ρ
  presence : Presence

/-- A record as an object of its fields, or as the list of their values. -/
structure Record (ρ : Type) where
  title : String
  fields : List (Field ρ)

/-- What a name stands for. -/
inductive Shape (ρ : Type) where
  | record (r : Record ρ)
  /-- A list of exactly these items. -/
  | tuple (title : String) (items : List (Format ρ))
  /-- One of some words. -/
  | word (words : List String)
  /-- An object of one entry, whose key tells the format of its value. -/
  | wrapped (cases : List (String × Format ρ))
  /-- An object in which one key tells the other fields; `none` for an alternative without fields. -/
  | tagged (title : String) (key : String) (cases : List (String × Option (Record ρ)))
  /-- A list led by a word, or by `null`, that tells whether an operand follows and its format. -/
  | led (expecting : String) (cases : List (Option String × Option (Format ρ)))

/-- The meaning of the names in formats. -/
abbrev Book (ρ : Type) := ρ → Shape ρ

/-- What a document says once its format has been taken away. A record is the list of its values in
the order of its fields, an alternative is its name with its parts. -/
inductive Datum where
  | null
  | bool (b : Bool)
  | int (n : Int)
  | text (s : String)
  | list (items : List Datum)
  | dict (entries : List (String × Datum))
  | record (fields : List Datum)
  | case (tag : Option String) (parts : List Datum)

namespace Format

variable {ρ : Type}

/-- The value of a field that is missing and has a default. -/
def zero : Format ρ → Datum
  | bool => .bool false
  | int _ => .int 0
  | text => .text ""
  | dict _ => .dict []
  | _ => .list []

end Format

namespace Field

variable {ρ : Type}

def required (name : String) (format : Format ρ) : Field ρ := ⟨name, format, .required⟩

def nullable (name : String) (format : Format ρ) : Field ρ := ⟨name, format, .nullable⟩

def defaulted (name : String) (format : Format ρ) : Field ρ := ⟨name, format, .defaulted⟩

/-- What a missing field says. -/
def absent? (f : Field ρ) : Option Datum :=
  match f.presence with
  | .required => none
  | .nullable => some .null
  | .defaulted => some f.format.zero

end Field

namespace Record

variable {ρ : Type}

def counted (n : Nat) (thing : String) : String :=
  Text.Decimal.natText n ++ " " ++ thing ++ (if n = 1 then "" else "s")

def expecting (r : Record ρ) : String := r.title ++ " with " ++ counted r.fields.length "element"

def field? (r : Record ρ) (name : String) : Option (Field ρ) := r.fields.find? (·.name = name)

/-- Puts the values found into the order of the fields. -/
def assemble (found : List (String × Datum)) : List (Field ρ) → Except Mismatch (List Datum)
  | [] => .ok []
  | f :: rest => do
    let d ← match (found.find? (·.1 = f.name)), f.absent? with
      | some (_, d), _ => .ok d
      | none, some d => .ok d
      | none, none => .error (.missingField f.name)
    .ok (d :: (← assemble found rest))

end Record

/-- A tuple's title with its length. -/
def tupleExpecting (title : String) (n : Nat) : String :=
  title ++ " with " ++ Record.counted n "element"

/-- An integer in the range of its width. -/
def Width.check (w : Width) (j : Json) : Except Mismatch Datum :=
  match j with
  | .int n => if w.holds n then .ok (.int n) else .error (.wrongValue (.int n) w.name)
  | j => .error (.wrongType j.found w.name)

namespace Datum

def ofText? : Option String → Datum
  | none => null
  | some s => text s

def ofTexts (names : List String) : Datum := list (names.map text)

def ofWord (n : UInt64) : Datum := int n.toNat

def ofInt64 (n : Int64) : Datum := int n.toInt

def word? : Datum → Option UInt64
  | int n => some (UInt64.ofNat n.toNat)
  | _ => none

def int64? : Datum → Option Int64
  | int n => some (Int64.ofInt n)
  | _ => none

def bool? : Datum → Option Bool
  | bool b => some b
  | _ => none

def text? : Datum → Option String
  | text s => some s
  | _ => none

def texts? : Datum → Option (List String)
  | list items => items.mapM text?
  | _ => none

/-- A value or `null`. -/
def orNull {α : Type} (meaning : Datum → Option α) : Datum → Option (Option α)
  | null => some none
  | d => (meaning d).map some

end Datum

end Narrative
