import Narrative.Format.Basic
import Narrative.Keyed

namespace Narrative

inductive Origin
  | whole
  | ahead
  deriving DecidableEq

namespace Format

variable {ρ : Type}

/-- Items left over after `wanted` of `total` have been read. -/
def surplus (origin : Origin) (total wanted : Nat) : Mismatch :=
  match origin with
  | .whole => .wrongLength total "fewer elements in array"
  | .ahead => .wrongLength total (Record.counted wanted "element" ++ " in sequence")

/-- The nested values, by the origin they have. -/
abbrev Inner (ρ : Type) := Origin → Format ρ → Json → Except Mismatch Datum

def fieldOf (inner : Format ρ → Json → Except Mismatch Datum) (f : Field ρ) (j : Json) :
    Except Mismatch Datum :=
  match f.presence, j with
  | .nullable, .null => .ok .null
  | _, j => inner f.format j

/-- Fields by position; those missing at the end are absent. -/
def fieldsInOrder (inner : Format ρ → Json → Except Mismatch Datum) (expecting : String) :
    Nat → List (Field ρ) → List Json → Except Mismatch (List Datum)
  | _, [], _ => .ok []
  | i, f :: fields, j :: items => do
    let d ← fieldOf inner f j
    .ok (d :: (← fieldsInOrder inner expecting (i + 1) fields items))
  | i, f :: fields, [] =>
    match f.absent? with
    | some d => do .ok (d :: (← fieldsInOrder inner expecting (i + 1) fields []))
    | none => .error (.wrongLength i expecting)

/-- Fields by name, in the order written; unknown ones are passed over. -/
def fieldsByName (inner : Format ρ → Json → Except Mismatch Datum) (r : Record ρ) :
    List (String × Datum) → List (String × Json) → Except Mismatch (List (String × Datum))
  | found, [] => .ok found
  | found, (key, j) :: rest =>
    match r.field? key with
    | none => fieldsByName inner r found rest
    | some f => do
      if found.any (·.1 = key) then .error (.repeatedField key)
      fieldsByName inner r ((key, ← fieldOf inner f j) :: found) rest

def recordOf (origin : Origin) (inner : Format ρ → Json → Except Mismatch Datum) (r : Record ρ)
    (j : Json) : Except Mismatch (List Datum) :=
  match j with
  | .obj entries => do Record.assemble (← fieldsByName inner r [] entries) r.fields
  | .arr items => do
    let ds ← fieldsInOrder inner r.expecting 0 r.fields items
    if r.fields.length < items.length then .error (surplus origin items.length r.fields.length)
    .ok ds
  | j => .error (.wrongType j.found r.title)

def tupleOf (inner : Format ρ → Json → Except Mismatch Datum) (expecting : String) :
    Nat → List (Format ρ) → List Json → Except Mismatch (List Datum)
  | _, [], _ => .ok []
  | i, _ :: _, [] => .error (.wrongLength i expecting)
  | i, f :: formats, j :: items => do
    let d ← inner f j
    .ok (d :: (← tupleOf inner expecting (i + 1) formats items))

/-- One entry of an object that stands for an alternative with a value. -/
def soleEntry : Json → Except Mismatch (String × Option Json)
  | .str s => .ok (s, none)
  | .obj [(key, j)] => .ok (key, some j)
  | .obj _ => .error (.wrongValue .map "map with a single key")
  | j => .error (.wrongType j.found "string or map")

/-- What stands beside a bare word; an object without entries says as little as `null`. -/
def unitOf (origin : Origin) : Json → Except Mismatch Unit
  | .null => .ok ()
  | .obj [] => if origin = .ahead then .ok () else .error (.wrongType .map "unit")
  | j => .error (.wrongType j.found "unit")

def wordOf (origin : Origin) (words : List String) (j : Json) : Except Mismatch Datum := do
  let (word, beside) ← soleEntry j
  if word ∉ words then .error (.unknownCase word words)
  match beside with
  | none => .ok ()
  | some j => unitOf origin j
  .ok (.case (some word) [])

def wrappedOf (inner : Format ρ → Json → Except Mismatch Datum) (cases : List (String × Format ρ))
    (j : Json) : Except Mismatch Datum := do
  let (tag, beside) ← soleEntry j
  match cases.find? (·.1 = tag), beside with
  | none, _ => .error (.unknownCase tag (cases.map Prod.fst))
  | some _, none => .error (.wrongType .bareCase "newtype variant")
  | some (_, f), some j => do .ok (.case (some tag) [← inner f j])

/-- The name of an alternative, or its number where numbers are taken. -/
def tagOf {β : Type} (origin : Origin) (cases : List (String × β)) (j : Json) :
    Except Mismatch (String × β) :=
  match j, origin with
  | .str s, _ =>
    match cases.find? (·.1 = s) with
    | some c => .ok c
    | none => .error (.unknownCase s (cases.map Prod.fst))
  | .int n, .ahead =>
    if n < 0 then .error (.wrongType j.found "variant identifier")
    else match cases[n.toNat]? with
      | some c => .ok c
      | none =>
        .error (.wrongValue (.int n)
          ("variant index 0 <= i < " ++ Text.Decimal.natText cases.length))
  | j, _ => .error (.wrongType j.found "variant identifier")

/-- The parts of an alternative, once its tag has been taken away. -/
def bodyOf (inner : Inner ρ) (body : Option (Record ρ)) (j : Json) : Except Mismatch (List Datum) :=
  match body, j with
  | some r, j => recordOf .ahead (inner .ahead) r j
  | none, .arr (_ :: items) => .error (surplus .ahead (items.length + 1) 0)
  | none, _ => .ok []

/-- An alternative whose tag stands under a key of an object, or first in a list. -/
def taggedOf (origin : Origin) (inner : Inner ρ) (title key : String)
    (cases : List (String × Option (Record ρ))) (j : Json) : Except Mismatch Datum := do
  let (tag, others) ← match j with
    | .obj entries =>
      match entries.filter (·.1 = key) with
      | [] => .error (.missingField key)
      | (_, t) :: more => do
        let c ← tagOf origin cases t
        if ! more.isEmpty then .error (.repeatedField key)
        .ok (c, .obj (entries.filter (·.1 ≠ key)))
    | .arr [] => .error (.missingField key)
    | .arr (t :: items) => do .ok (← tagOf origin cases t, .arr items)
    | j => .error (.wrongType j.found ("internally tagged enum " ++ title))
  .ok (.case (some tag.1) (← bodyOf inner tag.2 others))

/-- The word or `null` that leads a list. -/
def leadOf : Json → Except Mismatch (Option String)
  | .null => .ok none
  | .str s => .ok (some s)
  | j => .error (.wrongType j.found "a string")

/-- The operand that a leading word asks for. -/
def operandOf? (cases : List (Option String × Option (Format ρ))) (tag : Option String) :
    Except Mismatch (Option (Format ρ)) :=
  match cases.find? (·.1 = tag) with
  | some (_, operand) => .ok operand
  | none => .error (.unknownCase (tag.getD "") (cases.filterMap Prod.fst))

def ledOf (origin : Origin) (inner : Format ρ → Json → Except Mismatch Datum) (expecting : String)
    (cases : List (Option String × Option (Format ρ))) (j : Json) : Except Mismatch Datum :=
  match j with
  | .arr [] => .error (.wrongLength 0 expecting)
  | .arr (t :: rest) => do
    let tag ← leadOf t
    match ← operandOf? cases tag, rest with
    | none, [] => .ok (.case tag [])
    | none, _ => .error (surplus origin (rest.length + 1) 1)
    | some _, [] => .error (.wrongLength 1 expecting)
    | some f, j :: more => do
      let d ← inner f j
      if ! more.isEmpty then .error (surplus origin (rest.length + 1) 2)
      .ok (.case tag [d])
  | j => .error (.wrongType j.found expecting)

/-- An item of a grouped list: the values it contributes. -/
def groupOf (inner : Format ρ → Json → Except Mismatch Datum) (item : ρ) (expecting : String)
    (j : Json) : Except Mismatch (List Datum) :=
  match j with
  | .obj _ => do .ok [← inner (.named item) j]
  | .arr _ => do
    match ← inner (.grouped item expecting) j with
    | .list ds => .ok ds
    | d => .ok [d]
  | j => .error (.wrongType j.found expecting)

def shapeOf (origin : Origin) (inner : Inner ρ) (shape : Shape ρ) (j : Json) :
    Except Mismatch Datum :=
  match shape with
  | .record r => do .ok (.record (← recordOf origin (inner origin) r j))
  | .tuple title formats =>
    match j with
    | .arr items => do
      let ds ← tupleOf (inner origin) (tupleExpecting title formats.length) 0 formats items
      if formats.length < items.length then .error (surplus origin items.length formats.length)
      .ok (.record ds)
    | j => .error (.wrongType j.found title)
  | .word words => wordOf origin words j
  | .wrapped cases => wrappedOf (inner origin) cases j
  | .tagged title key cases => taggedOf origin inner title key cases j
  | .led expecting cases => ledOf origin (inner origin) expecting cases j

/-- A value whose nested values are read by `inner`. -/
def valueAt (book : Book ρ) (inner : Inner ρ) (origin : Origin) (f : Format ρ) (j : Json) :
    Except Mismatch Datum :=
  match f with
  | .bool =>
    match j with
    | .bool b => .ok (.bool b)
    | j => .error (.wrongType j.found "a boolean")
  | .int w => w.check j
  | .text =>
    match j with
    | .str s => .ok (.text s)
    | j => .error (.wrongType j.found "a string")
  | .list item =>
    match j with
    | .arr items => do .ok (.list (← items.mapM (inner origin item)))
    | j => .error (.wrongType j.found "a sequence")
  | .grouped item expecting =>
    match j with
    | .arr items => do
      .ok (.list (← items.mapM (groupOf (inner origin) item expecting)).flatten)
    | j => .error (.wrongType j.found "a sequence")
  | .dict value =>
    match j with
    | .obj entries => do
      .ok (.dict (Keyed.ofList (← entries.mapM fun e => do .ok (e.1, ← inner origin value e.2))))
    | j => .error (.wrongType j.found "a map")
  | .named name => shapeOf origin inner (book name) j

/-- Reads a value nested at most `levels` deep. -/
def valueIn (book : Book ρ) : Nat → Inner ρ
  | 0, _, _, j => .error (.wrongType j.found "nothing")
  | levels + 1, origin, f, j => valueAt book (valueIn book levels) origin f j

/-- What a value says under a format. -/
def ofJson (book : Book ρ) (origin : Origin) (f : Format ρ) (j : Json) : Except Mismatch Datum :=
  valueIn book (j.depth + 1) origin f j

end Format

end Narrative
