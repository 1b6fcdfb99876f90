import Narrative.Keyed
import Narrative.Schema

namespace Narrative

inductive StateValue
  | bool (b : Bool)
  | int (n : Int64)
  | text (s : String)
  deriving DecidableEq, Repr

/-- A key that is missing, or that holds a value of another kind, reads as unset or zero. -/
structure PlayerState where
  values : Keyed StateValue
  ordered : Keyed.Ordered values
  deriving DecidableEq, Repr

namespace PlayerState

def empty : PlayerState := ⟨[], .nil⟩

/-- Of several values for one key the last counts. -/
def ofPairs (pairs : List (String × StateValue)) : PlayerState :=
  ⟨Keyed.ofList pairs, Keyed.ordered_ofList pairs⟩

def get? (key : String) (s : PlayerState) : Option StateValue := Keyed.lookup key s.values

def set (key : String) (value : StateValue) (s : PlayerState) : PlayerState :=
  ⟨Keyed.insert key value s.values, Keyed.ordered_insert key value s.ordered⟩

def remove (key : String) (s : PlayerState) : PlayerState :=
  ⟨Keyed.erase key s.values, Keyed.ordered_erase key s.ordered⟩

def flag (key : String) (s : PlayerState) : Bool := s.get? key = some (.bool true)

def number (key : String) (s : PlayerState) : Int64 :=
  match s.get? key with
  | some (.int n) => n
  | _ => 0

def text? (key : String) (s : PlayerState) : Option String :=
  match s.get? key with
  | some (.text t) => some t
  | _ => none

def size (s : PlayerState) : Nat := s.values.length

end PlayerState

/-- The player state sorted by kind. -/
structure StateDigest where
  flags : Keyed Bool
  numbers : Keyed Int64
  texts : Keyed String
  deriving DecidableEq, Repr

def PlayerState.digest (s : PlayerState) : StateDigest where
  flags := s.values.filterMap fun | (k, .bool b) => some (k, b) | _ => none
  numbers := s.values.filterMap fun | (k, .int n) => some (k, n) | _ => none
  texts := s.values.filterMap fun | (k, .text t) => some (k, t) | _ => none

namespace StateValue

def toDatum : StateValue → Datum
  | bool b => .case (some "bool") [.bool b]
  | int n => .case (some "int") [.ofInt64 n]
  | text s => .case (some "text") [.text s]

def ofDatum? : Datum → Option StateValue
  | .case (some "bool") [.bool b] => some (bool b)
  | .case (some "int") [d] => d.int64?.map int
  | .case (some "text") [.text s] => some (text s)
  | _ => none

def ofText (s : String) : Except Fault StateValue := Schema.ofText (.named .stateValue) ofDatum? s

def toJson (v : StateValue) : Json := Format.toJson Schema.book (.named .stateValue) v.toDatum

end StateValue

namespace PlayerState

def toDatum (s : PlayerState) : Datum := .dict (s.values.map fun e => (e.1, e.2.toDatum))

def ofDatum? : Datum → Option PlayerState
  | .dict entries => do
    some (ofPairs (← entries.mapM fun e => do some (e.1, ← StateValue.ofDatum? e.2)))
  | _ => none

def ofText (s : String) : Except Fault PlayerState := Schema.ofText Schema.states ofDatum? s

def ofJson (j : Json) : Except Mismatch PlayerState := Schema.ofJson Schema.states ofDatum? j

def toJson (s : PlayerState) : Json := Format.toJson Schema.book Schema.states s.toDatum

end PlayerState

def StateDigest.toJson (d : StateDigest) : Json := .obj [
  ("flags", .obj (d.flags.map fun e => (e.1, .bool e.2))),
  ("vars", .obj (d.numbers.map fun e => (e.1, .int e.2.toInt))),
  ("texts", .obj (d.texts.map fun e => (e.1, .str e.2)))]

end Narrative
