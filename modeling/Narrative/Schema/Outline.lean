import Narrative.Keyed
import Narrative.Schema

namespace Narrative

/-- The keys of an object, and what its tag says if it has one. -/
structure Outline.Keys where
  tag : Option String
  properties : NameSet
  required : NameSet
  deriving DecidableEq, Repr

inductive Outline
  | object (keys : Outline.Keys)
  | cases (keys : List Outline.Keys)
  | words (words : List String)
  deriving DecidableEq, Repr

namespace Outline

def Keys.ofFields (fields : List (Field Schema)) : Keys where
  tag := none
  properties := NameSet.ofList (fields.map Field.name)
  required := NameSet.ofList ((fields.filter fun f => f.presence = .required).map Field.name)

/-- The tag is itself a key that must be there. -/
def Keys.tagged (k : Keys) (key tag : String) : Keys :=
  ⟨some tag, k.properties.insert key, k.required.insert key⟩

def fields : Option (Record Schema) → List (Field Schema)
  | some r => r.fields
  | none => []

/-- The outline of records, of tagged alternatives and of words. -/
def ofShape? : Shape Schema → Option Outline
  | .record r => some (object (Keys.ofFields r.fields))
  | .tagged _ key options =>
    some (cases (options.map fun o => (Keys.ofFields (fields o.2)).tagged key o.1))
  | .word ws => some (words ws)
  | _ => none

end Outline

namespace Schema

def scriptTitle : String := "ScriptEnvelope"

/-- The formats that scripts are made of, by the names other programs know them by. -/
def definitions : List (String × Schema) := [
  ("ChoiceBranch", branch),
  ("CmpOp", comparison),
  ("Cond", predicate),
  ("Instruction", instruction),
  ("Selector", selector),
  ("SelectorCase", selectorCase)]

def outline? (s : Schema) : Option Outline := Outline.ofShape? (book s)

def typeJson (name : String) : Json := .obj [("type", .str name)]

def integerJson : Width → List (String × Json)
  | .u16 => [("format", .str "uint16"), ("minimum", .int 0), ("type", .str "integer")]
  | .u64 => [("format", .str "uint64"), ("minimum", .int 0), ("type", .str "integer")]
  | .size => [("format", .str "uint"), ("minimum", .int 0), ("type", .str "integer")]
  | .i64 => [("format", .str "int64"), ("type", .str "integer")]

def referenceJson (s : Schema) : Json :=
  match definitions.find? (·.2 = s) with
  | some d => .obj [("$ref", .str ("#/definitions/" ++ d.1))]
  | none => .obj []

def listJson (item : Json) : Json := .obj [("items", item), ("type", .str "array")]

/-- Groups in instruction lists are a convenience that the schema does not mention. -/
def formatJson : Format Schema → Json
  | .bool => typeJson "boolean"
  | .int w => .obj (integerJson w)
  | .text => typeJson "string"
  | .list item => listJson (formatJson item)
  | .grouped item _ => listJson (referenceJson item)
  | .dict value => .obj [("additionalProperties", formatJson value), ("type", .str "object")]
  | .named s => referenceJson s

def zeroJson : Format Schema → Json
  | .bool => .bool false
  | .int _ => .int 0
  | .text => .str ""
  | .dict _ => .obj []
  | _ => .arr []

def fieldJson (f : Field Schema) : Json :=
  match f.presence, formatJson f.format with
  | .required, j => j
  | .defaulted, .obj entries => .obj (("default", zeroJson f.format) :: entries)
  | .nullable, j => .obj [("anyOf", .arr [j, typeJson "null"])]
  | .defaulted, j => j

/-- An object with these fields and with what a tag adds. -/
def recordJson (fields : List (Field Schema)) (tag : Option (String × String)) : List (String × Json) :=
  let properties := fields.map (fun f => (f.name, fieldJson f)) ++ match tag with
    | some (key, word) => [(key, .obj [("enum", .names [word]), ("type", .str "string")])]
    | none => []
  let required := fields.filter (fun f => f.presence = .required) |>.map Field.name
  let all := NameSet.ofList (required ++ (tag.map Prod.fst).toList)
  [("properties", .obj (Keyed.ofList properties)), ("required", .names all.names), ("type", .str "object")]

def shapeJson : Shape Schema → Json
  | .record r => .obj (recordJson r.fields none)
  | .tagged _ key options => .obj [("oneOf", .arr (options.map fun o =>
      .obj (recordJson (Outline.fields o.2) (some (key, o.1)))))]
  | .word ws => .obj [("enum", .names ws), ("type", .str "string")]
  | _ => .obj []

/-- The JSON schema of scripts. -/
def scriptJson : Json :=
  .obj (Keyed.ofList ([("title", .str scriptTitle),
    ("definitions", .obj (definitions.map fun d => (d.1, shapeJson (book d.2))))] ++
    recordJson scriptRecord.fields none))

end Schema

end Narrative
