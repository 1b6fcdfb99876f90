import Narrative.Format.Basic
import Narrative.Number.Shortest
import Narrative.Settings
import Narrative.Toml.Reader

namespace Narrative

/-- One of the numbers that a value of some type holds. -/
structure Knob (α : Type) where
  name : String
  value : α → Nat
  turn : Nat → α → α

/-- Numbers under one name. -/
structure Section (α : Type) where
  title : String
  knobs : List (Knob α)

namespace Toml

def Real.text : Real → String
  | .finite x => x.plainText
  | .infinite true => "-inf"
  | .infinite false => "inf"
  | .notANumber => "NaN"

def found : Toml → Found
  | text s => .text s
  | int n => .int n
  | real x => .real x.text
  | bool b => .bool b
  | moment => .map
  | list _ => .sequence
  | table .. => .map
  | tables _ => .sequence

def size : Toml → Except Mismatch Nat
  | int n => if n < 0 then .error (.wrongValue (.int n) Width.size.name) else .ok n.toNat
  | t => .error (.wrongType t.found Width.size.name)

end Toml

namespace Section

variable {α : Type}

/-- Takes the first values of a list as the numbers in their order. -/
def ofList : List (Knob α) → List Toml → α → Except Mismatch α
  | k :: knobs, t :: more, a => do ofList knobs more (k.turn (← t.size) a)
  | _, _, a => .ok a

/-- Turns the knobs that a table names. A date is a table without numbers. -/
def ofToml (s : Section α) (a : α) : Toml → Except Mismatch α
  | .table _ entries => entries.foldlM (fun a e =>
      match s.knobs.find? (·.name = e.1) with
      | some k => do .ok (k.turn (← e.2.size) a)
      | none => .ok a) a
  | .moment => .ok a
  | .list items => ofList s.knobs items a
  | .tables items => ofList s.knobs (items.map (.table .header)) a
  | t => .error (.wrongType t.found ("struct " ++ s.title))

/-- The integers that can be written have 64 bits with their sign. -/
def line (k : Knob α) (a : α) : Except SettingsFault String :=
  if k.value a < UInt64.size / 2 then .ok (k.name ++ " = " ++ Text.Decimal.natText (k.value a) ++ "\n")
  else .error .unwritable

def lines (knobs : List (Knob α)) (a : α) : Except SettingsFault String := do
  .ok (String.join (← knobs.mapM fun k => line k a))

end Section

namespace Settings

def undoLimitKnob : Knob Settings := ⟨"undo_limit", undoLimit, fun n s => { s with undoLimit := n }⟩

def scanSection : Section ScanLimits where
  title := "ScanLimits"
  knobs := [
    ⟨"max_steps", ScanLimits.steps, fun n s => { s with steps := n }⟩,
    ⟨"max_depth", ScanLimits.depth, fun n s => { s with depth := n }⟩]

def limitsSection : Section Limits where
  title := "ResourceLimiter"
  knobs := [
    ⟨"max_scenes", Limits.scenes, fun n l => { l with scenes := n }⟩,
    ⟨"max_instructions", Limits.instructions, fun n l => { l with instructions := n }⟩,
    ⟨"max_text_length", Limits.textLength, fun n l => { l with textLength := n }⟩,
    ⟨"max_nesting_depth", Limits.nestingDepth, fun n l => { l with nestingDepth := n }⟩,
    ⟨"max_script_bytes", Limits.scriptBytes, fun n l => { l with scriptBytes := n }⟩]

/-- Takes up one entry of a document. -/
def ofEntry (s : Settings) (e : String × Toml) : Except Mismatch Settings :=
  if e.1 = undoLimitKnob.name then do .ok (undoLimitKnob.turn (← e.2.size) s)
  else if e.1 = "scan" then do .ok { s with scan := ← scanSection.ofToml {} e.2 }
  else if e.1 = "limits" then do .ok { s with limits := ← limitsSection.ofToml {} e.2 }
  else .ok s

/-- What a text leaves out has its usual value, and what it has besides is not looked at. -/
def ofText (text : String) : Except SettingsFault Settings :=
  match Toml.ofText text with
  | none => .error .malformed
  | some entries =>
    match entries.foldlM ofEntry {} with
    | .ok s => .ok s
    | .error mismatch => .error (.unfit mismatch)

def text (s : Settings) : Except SettingsFault String := do
  .ok ((← Section.line undoLimitKnob s) ++
    "\n[scan]\n" ++ (← Section.lines scanSection.knobs s.scan) ++
    "\n[limits]\n" ++ (← Section.lines limitsSection.knobs s.limits))

end Settings

end Narrative
