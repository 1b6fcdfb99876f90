import Narrative.Format.Basic
import Narrative.Format.Reader
import Narrative.Format.Writer

namespace Narrative

/-- The named formats. -/
inductive Schema
  | script
  | instruction
  | choice
  | branch
  | custom
  | predicate
  | comparison
  | selector
  | selectorCase
  | stateValue
  | pathItem
  | save
  | stamp
  | saveKind
  | slotLabel
  deriving DecidableEq, Repr

namespace Schema

open Format Narrative.Field

/-- An instruction list, in which lists of instructions may stand for their instructions. -/
def instructions : Format Schema :=
  .grouped .instruction "an instruction object or an array of instructions"

def texts : Format Schema := .list .text

def dialogue : Record Schema where
  title := "struct Dialogue"
  fields := [nullable "character" .text, required "text" .text, nullable "emotion" .text]

def choiceRecord : Record Schema where
  title := "struct Choice"
  fields := [nullable "prompt" .text, required "branches" (.list (.named .branch))]

def conditionRecord : Record Schema where
  title := "struct Condition"
  fields := [required "selector" (.named .selector), required "variants" (.dict instructions)]

def clear : Record Schema where
  title := "struct Clear"
  fields := [defaulted "keep_characters" texts, defaulted "keep_audio" texts]

def customRecord : Record Schema where
  title := "struct CustomAction"
  fields := [required "handler" .text, defaulted "args" texts, nullable "id" .text,
    defaulted "latest_only" .bool, defaulted "skip_on_restore" .bool,
    defaulted "requires_user_action" .bool]

/-- The fields of an alternative that has no record of its own. -/
def alternative (name : String) (fields : List (Field Schema)) : Option (Record Schema) :=
  some ⟨"struct variant " ++ name, fields⟩

def sourceOnly (name : String) : Option (Record Schema) := alternative name [required "source" .text]

def instructionCases : List (String × Option (Record Schema)) := [
  ("dialogue", some dialogue),
  ("text", alternative "Instruction::Text" [required "text" .text]),
  ("input", alternative "Instruction::Input" [required "question" .text, required "variable" .text]),
  ("choice", some choiceRecord),
  ("vibrate", alternative "Instruction::Vibrate" [required "pattern" (.list (.int .u64))]),
  ("condition", some conditionRecord),
  ("block", alternative "Instruction::Block" [required "scene" .text]),
  ("exit", none),
  ("jump", alternative "Instruction::Jump" [required "scene" .text]),
  ("end", none),
  ("show_background", alternative "Instruction::ShowBackground" [required "background" .text]),
  ("show_character", alternative "Instruction::ShowCharacter"
    [required "character" .text, nullable "emotion" .text, nullable "style" .text]),
  ("hide_character", alternative "Instruction::HideCharacter"
    [required "character" .text, nullable "duration_ms" (.int .u64)]),
  ("animate_character", alternative "Instruction::AnimateCharacter"
    [required "character" .text, defaulted "classes" texts, defaulted "timeout_ms" (.int .u64)]),
  ("play_music", sourceOnly "Instruction::PlayMusic"),
  ("pause_music", sourceOnly "Instruction::PauseMusic"),
  ("stop_music", sourceOnly "Instruction::StopMusic"),
  ("play_sound", alternative "Instruction::PlaySound"
    [required "source" .text, defaulted "looped" .bool]),
  ("pause_sound", sourceOnly "Instruction::PauseSound"),
  ("stop_sound", sourceOnly "Instruction::StopSound"),
  ("voice", sourceOnly "Instruction::Voice"),
  ("stop_voice", none),
  ("preload", sourceOnly "Instruction::Preload"),
  ("wait", alternative "Instruction::Wait" [required "ms" (.int .u64)]),
  ("clear", some clear),
  ("set_flag", alternative "Instruction::SetFlag" [required "key" .text, required "value" .bool]),
  ("set_var", alternative "Instruction::SetVar"
    [required "key" .text, required "value" (.int .i64)]),
  ("custom", some customRecord)]

def predicateCases : List (String × Option (Record Schema)) := [
  ("flag", alternative "Cond::Flag" [required "key" .text, required "is_set" .bool]),
  ("var_cmp", alternative "Cond::VarCmp"
    [required "key" .text, required "op" (.named .comparison), required "value" (.int .i64)]),
  ("all", alternative "Cond::All" [required "conds" (.list (.named .predicate))]),
  ("any", alternative "Cond::Any" [required "conds" (.list (.named .predicate))]),
  ("not", alternative "Cond::Not" [required "cond" (.named .predicate)])]

def selectorCases : List (String × Option (Record Schema)) := [
  ("flag", alternative "Selector::Flag" [required "key" .text]),
  ("var", alternative "Selector::Var" [required "key" .text]),
  ("cases", alternative "Selector::Cases"
    [required "cases" (.list (.named .selectorCase)), required "default" .text])]

def states : Format Schema := .dict (.named .stateValue)

def path : Format Schema := .list (.named .pathItem)

def scriptRecord : Record Schema where
  title := "struct ScriptEnvelope"
  fields := [nullable "script_schema_version" .text, required "scenes" (.dict instructions)]

def branchRecord : Record Schema where
  title := "struct ChoiceBranch"
  fields := [required "label" .text, required "actions" instructions,
    nullable "active" (.named .predicate), nullable "visible" (.named .predicate),
    nullable "on_select" .text, nullable "illustration" .text]

def selectorCaseRecord : Record Schema where
  title := "struct SelectorCase"
  fields := [required "when" (.named .predicate), required "key" .text]

def slotLabelRecord : Record Schema where
  title := "struct SaveSlotMetadata"
  fields := [required "slot_id" (.int .u16), required "quick" .bool,
    required "updated_unix_ms" (.int .u64), required "script_id_hex" .text,
    required "kind" (.named .saveKind), nullable "scene" .text, required "path_len" (.int .size),
    required "snapshot_count" (.int .size)]

/-- A path item is an index, led by `null`, or a word with what it enters or jumps to. -/
def pathItemCases : List (Option String × Option (Format Schema)) := [
  (none, some (.int .i64)),
  (some "jump", some .text),
  (some "choice", some (.int .size)),
  (some "condition", some .text),
  (some "block", some .text),
  (some "choice:exit", none),
  (some "condition:exit", none),
  (some "block:exit", none)]

def book : Book Schema
  | script => .record scriptRecord
  | instruction => .tagged "Instruction" "type" instructionCases
  | choice => .record choiceRecord
  | branch => .record branchRecord
  | custom => .record customRecord
  | predicate => .tagged "Cond" "kind" predicateCases
  | comparison => .word ["eq", "ne", "lt", "le", "gt", "ge"]
  | selector => .tagged "Selector" "kind" selectorCases
  | selectorCase => .record selectorCaseRecord
  | stateValue => .wrapped [("bool", .bool), ("int", .int .i64), ("text", .text)]
  | pathItem => .led "a path item tuple such as [null, 3] or [\"choice\", 0]" pathItemCases
  | save => .tuple "tuple struct Save" [path, states, .named .stamp, .list states]
  | stamp => .tuple "tuple struct SaveMeta" [.int .u64, .named .saveKind]
  | saveKind => .word ["auto", "manual"]
  | slotLabel => .record slotLabelRecord

/-- Reads a document and the thing it says. Each document that fits says something. -/
def ofText {α : Type} (f : Format Schema) (meaning : Datum → Option α) (text : String) :
    Except Fault α := do
  match meaning (← Format.ofText book f text) with
  | some a => .ok a
  | none => .error (.unfit (.missingField ""))

/-- The same for a JSON value given as a whole. -/
def ofJson {α : Type} (f : Format Schema) (meaning : Datum → Option α) (j : Json) :
    Except Mismatch α := do
  match meaning (← Format.ofJson book .whole f j) with
  | some a => .ok a
  | none => .error (.missingField "")

end Schema

end Narrative
