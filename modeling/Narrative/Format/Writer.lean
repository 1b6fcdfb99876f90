import Narrative.Format.Basic
import Narrative.Json.Basic

namespace Narrative.Format

variable {ρ : Type}

/-- The format of the items of a list. -/
def itemFormat : Format ρ → Format ρ
  | list item => item
  | grouped item _ => named item
  | f => f

/-- The format of the values of a map. -/
def valueFormat : Format ρ → Format ρ
  | dict value => value
  | f => f

def caseRecord (cases : List (String × Option (Record ρ))) (tag : Option String) : List (Field ρ) :=
  match cases.find? (fun c => some c.1 = tag) with
  | some (_, some r) => r.fields
  | _ => []

mutual

def toJson (book : Book ρ) (f : Format ρ) : Datum → Json
  | .null => .null
  | .bool b => .bool b
  | .int n => .int n
  | .text s => .str s
  | .list items => .arr (itemsToJson book f.itemFormat items)
  | .dict entries => .obj (entriesToJson book f.valueFormat entries)
  | .record parts =>
    match f with
    | .named name =>
      match book name with
      | .record r => .obj (fieldsToJson book r.fields parts)
      | .tuple _ formats => .arr (partsToJson book formats parts)
      | _ => .null
    | _ => .null
  | .case tag parts =>
    match f with
    | .named name =>
      match book name with
      | .word _ => .str (tag.getD "")
      | .wrapped cases =>
        match partsToJson book ((cases.filter fun c => some c.1 = tag).map Prod.snd) parts with
        | [j] => .obj [(tag.getD "", j)]
        | _ => .null
      | .tagged _ key cases =>
        .obj ((key, .str (tag.getD "")) :: fieldsToJson book (caseRecord cases tag) parts)
      | .led _ cases =>
        .arr ((match tag with | none => .null | some t => .str t) ::
          partsToJson book ((cases.filter fun c => c.1 = tag).filterMap Prod.snd) parts)
      | _ => .null
    | _ => .null

def itemsToJson (book : Book ρ) (f : Format ρ) : List Datum → List Json
  | [] => []
  | d :: rest => toJson book f d :: itemsToJson book f rest

def entriesToJson (book : Book ρ) (f : Format ρ) : List (String × Datum) → List (String × Json)
  | [] => []
  | (key, d) :: rest => (key, toJson book f d) :: entriesToJson book f rest

def partsToJson (book : Book ρ) : List (Format ρ) → List Datum → List Json
  | f :: formats, d :: rest => toJson book f d :: partsToJson book formats rest
  | _, _ => []

def fieldsToJson (book : Book ρ) : List (Field ρ) → List Datum → List (String × Json)
  | f :: fields, d :: rest => (f.name, toJson book f.format d) :: fieldsToJson book fields rest
  | _, _ => []

end

end Narrative.Format
