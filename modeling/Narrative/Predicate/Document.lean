import Narrative.Predicate.Basic
import Narrative.Schema

namespace Narrative

open Datum (ofInt64)

def Comparison.word : Comparison → String
  | eq => "eq"
  | ne => "ne"
  | lt => "lt"
  | le => "le"
  | gt => "gt"
  | ge => "ge"

def Comparison.toDatum (c : Comparison) : Datum := .case (some c.word) []

def Comparison.ofDatum? : Datum → Option Comparison
  | .case (some word) [] => [eq, ne, lt, le, gt, ge].find? fun c => c.word = word
  | _ => none

namespace Predicate

mutual

def toDatum : Predicate → Datum
  | flag key isSet => .case (some "flag") [.text key, .bool isSet]
  | compare key c value => .case (some "var_cmp") [.text key, c.toDatum, ofInt64 value]
  | all parts => .case (some "all") [.list (toData parts)]
  | any parts => .case (some "any") [.list (toData parts)]
  | not part => .case (some "not") [toDatum part]

def toData : List Predicate → List Datum
  | [] => []
  | p :: rest => toDatum p :: toData rest

end

mutual

def ofDatum? : Datum → Option Predicate
  | .case (some tag) parts =>
    match tag, parts with
    | "flag", [.text key, .bool isSet] => some (flag key isSet)
    | "var_cmp", [.text key, c, value] => do
      some (compare key (← Comparison.ofDatum? c) (← value.int64?))
    | "all", [.list ps] => do some (all (← ofData? ps))
    | "any", [.list ps] => do some (any (← ofData? ps))
    | "not", [p] => do some (not (← ofDatum? p))
    | _, _ => none
  | _ => none

def ofData? : List Datum → Option (List Predicate)
  | [] => some []
  | d :: rest => do some ((← ofDatum? d) :: (← ofData? rest))

end

/-- A predicate that may be missing. -/
def optional : Option Predicate → Datum
  | none => .null
  | some p => p.toDatum

def ofText (text : String) : Except Fault Predicate :=
  Schema.ofText (.named .predicate) ofDatum? text

def toJson (p : Predicate) : Json := Format.toJson Schema.book (.named .predicate) p.toDatum

end Predicate

def SelectorCase.toDatum (c : SelectorCase) : Datum := .record [c.condition.toDatum, .text c.key]

def SelectorCase.ofDatum? : Datum → Option SelectorCase
  | .record [p, .text key] => do some ⟨← Predicate.ofDatum? p, key⟩
  | _ => none

namespace Selector

def toDatum : Selector → Datum
  | flag key => .case (some "flag") [.text key]
  | number key => .case (some "var") [.text key]
  | cases cs default => .case (some "cases") [.list (cs.map SelectorCase.toDatum), .text default]

def ofDatum? : Datum → Option Selector
  | .case (some tag) parts =>
    match tag, parts with
    | "flag", [.text key] => some (flag key)
    | "var", [.text key] => some (number key)
    | "cases", [.list cs, .text default] => do
      some (cases (← cs.mapM SelectorCase.ofDatum?) default)
    | _, _ => none
  | _ => none

def ofText (text : String) : Except Fault Selector := Schema.ofText (.named .selector) ofDatum? text

def toJson (s : Selector) : Json := Format.toJson Schema.book (.named .selector) s.toDatum

end Selector

end Narrative
