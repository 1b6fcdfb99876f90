import Narrative.Json.Fault
import Narrative.Path.Basic
import Narrative.Save.Fault
import Narrative.Settings
import Narrative.Text

namespace Narrative

open Text.Decimal (natText)

/-- What the author of a script has to mend, though it reads well. -/
inductive ScriptFlaw
  | missingStart (scene : String)
  | unknownScene (scene target : String)
  | emptyChoice (scene : String)
  | emptyBranch (scene branch : String)
  | emptyCondition (scene : String)
  | emptyBlock (scene target : String)
  | nestingTooDeep (scene : String) (limit : Nat)
  deriving DecidableEq, Repr

namespace ScriptFlaw

def message : ScriptFlaw → String
  | missingStart s => "missing '" ++ s ++ "' scene"
  | unknownScene s target => "scene '" ++ s ++ "' references unknown scene '" ++ target ++ "'"
  | emptyChoice s => "scene '" ++ s ++ "' has a choice without branches"
  | emptyBranch s branch => "scene '" ++ s ++ "' has an empty branch '" ++ branch ++ "'"
  | emptyCondition s => "scene '" ++ s ++ "' has a condition without variants"
  | emptyBlock s target => "scene '" ++ s ++ "' enters empty block scene '" ++ target ++ "'"
  | nestingTooDeep s limit => "scene '" ++ s ++ "' nests branches deeper than " ++ natText limit

def code : ScriptFlaw → String
  | missingStart _ => "story.authoring.missing_start"
  | unknownScene .. => "story.authoring.unknown_scene"
  | emptyChoice _ => "story.authoring.empty_choice"
  | emptyBranch .. => "story.authoring.empty_branch"
  | emptyCondition _ => "story.authoring.empty_condition"
  | emptyBlock .. => "story.authoring.empty_block"
  | nestingTooDeep .. => "story.authoring.nesting"

end ScriptFlaw

/-- A bound that a script passes, with the bound. -/
inductive Excess
  | bytes (count limit : Nat)
  | scenes (count limit : Nat)
  | instructions (limit : Nat)
  | text (instruction : String) (bytes limit : Nat)
  deriving DecidableEq, Repr

def Excess.message : Excess → String
  | bytes n limit => "script is " ++ natText n ++ " bytes, limit is " ++ natText limit
  | scenes n limit => natText n ++ " scenes, limit is " ++ natText limit
  | instructions limit => "more than " ++ natText limit ++ " instructions"
  | text name n limit => name ++ " text of " ++ natText n ++ " bytes, limit is " ++ natText limit

/-- Every way in which working with a story fails. -/
inductive Failure
  | authoring (flaw : ScriptFlaw)
  | unresolvable (fault : PathFault)
  | notAtInstruction
  | invalidChoice (branch : UInt64)
  | resourceLimit (excess : Excess)
  | schemaIncompatible (found expected : String)
  | io (fault : FileFault)
  | storage (fault : StoreFault)
  | document (text : String) (fault : Fault)
  | settings (fault : SettingsFault)
  deriving DecidableEq, Repr

namespace Failure

def message : Failure → String
  | authoring flaw => "script authoring error: " ++ flaw.message
  | unresolvable fault => "path cannot be resolved: " ++ fault.message
  | notAtInstruction => "no instruction at the current position"
  | invalidChoice n => "choice branch " ++ Text.Decimal.natText n.toNat ++ " is not available"
  | resourceLimit excess => "resource limit exceeded: " ++ excess.message
  | schemaIncompatible found expected =>
    "schema incompatible: found " ++ found ++ ", expected " ++ expected
  | io fault => "io error: " ++ fault.message
  | storage fault => "save storage error: " ++ fault.message
  | document text fault => "serialization error: " ++ fault.message text
  | settings fault => "configuration error: " ++ fault.message

def code : Failure → String
  | authoring _ => "story.authoring"
  | unresolvable _ => "story.unresolvable"
  | notAtInstruction => "story.not_at_instruction"
  | invalidChoice _ => "story.invalid_choice"
  | resourceLimit _ => "story.resource_limit"
  | schemaIncompatible .. => "story.schema"
  | io _ => "story.io"
  | storage _ => "story.storage"
  | document .. => "story.serialization"
  | settings _ => "story.config"

def help? : Failure → Option String
  | authoring _ => some "fix the script; saves are not at fault"
  | unresolvable _ => some "the save does not match this script; start a fresh path"
  | _ => none

end Failure

end Narrative
