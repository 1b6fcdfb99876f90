import Narrative.State
import Narrative.Text

namespace Narrative

inductive Comparison
  | eq
  | ne
  | lt
  | le
  | gt
  | ge
  deriving DecidableEq, Repr

def Comparison.holds : Comparison → Int64 → Int64 → Bool
  | eq, a, b => a = b
  | ne, a, b => a ≠ b
  | lt, a, b => a < b
  | le, a, b => a ≤ b
  | gt, a, b => b < a
  | ge, a, b => b ≤ a

inductive Predicate
  | flag (key : String) (isSet : Bool)
  | compare (key : String) (relation : Comparison) (value : Int64)
  | all (parts : List Predicate)
  | any (parts : List Predicate)
  | not (part : Predicate)
  deriving Repr

namespace Predicate

mutual

def holds (s : PlayerState) : Predicate → Bool
  | flag key isSet => s.flag key == isSet
  | compare key c value => c.holds (s.number key) value
  | all parts => allHold s parts
  | any parts => anyHolds s parts
  | not part => ! holds s part

def allHold (s : PlayerState) : List Predicate → Bool
  | [] => true
  | p :: rest => holds s p && allHold s rest

def anyHolds (s : PlayerState) : List Predicate → Bool
  | [] => false
  | p :: rest => holds s p || anyHolds s rest

end

end Predicate

/-- A variant to take while a predicate holds. -/
structure SelectorCase where
  condition : Predicate
  key : String
  deriving Repr

inductive Selector
  /-- The variant `true` or `false`. -/
  | flag (key : String)
  /-- The variant named by the decimal digits of a number. -/
  | number (key : String)
  /-- The variant of the first case that holds. -/
  | cases (cases : List SelectorCase) (default : String)
  deriving Repr

def Selector.select (s : PlayerState) : Selector → String
  | flag key => if s.flag key then "true" else "false"
  | number key => Text.Decimal.intText (s.number key).toInt
  | cases cs default =>
    match cs.find? fun c => c.condition.holds s with
    | some c => c.key
    | none => default

end Narrative
