import Narrative.Path.Basic

namespace Narrative

def BranchKind.word : BranchKind → String
  | choice => "choice"
  | condition => "condition"
  | block => "block"

def BranchKind.exitWord : BranchKind → String
  | choice => "choice:exit"
  | condition => "condition:exit"
  | block => "block:exit"

namespace PathItem

/-- An item is a short list: `[null, 3]`, `["jump", "start"]`, `["choice:exit"]`. -/
def toDatum : PathItem → Datum
  | index n => .case none [.ofInt64 n]
  | jump scene => .case (some "jump") [.text scene]
  | enterChoice branch => .case (some BranchKind.choice.word) [.ofWord branch]
  | enterCondition key => .case (some BranchKind.condition.word) [.text key]
  | enterBlock scene => .case (some BranchKind.block.word) [.text scene]
  | exit kind => .case (some kind.exitWord) []

def ofDatum? : Datum → Option PathItem
  | .case none [d] => d.int64?.map index
  | .case (some "jump") [.text scene] => some (jump scene)
  | .case (some "choice") [d] => d.word?.map enterChoice
  | .case (some "condition") [.text key] => some (enterCondition key)
  | .case (some "block") [.text scene] => some (enterBlock scene)
  | .case (some "choice:exit") [] => some (exit .choice)
  | .case (some "condition:exit") [] => some (exit .condition)
  | .case (some "block:exit") [] => some (exit .block)
  | _ => none

def toJson (i : PathItem) : Json := Format.toJson Schema.book (.named .pathItem) i.toDatum

def ofJson (j : Json) : Except Mismatch PathItem := Schema.ofJson (.named .pathItem) ofDatum? j

end PathItem

namespace Path

def toDatum (p : Path) : Datum := .list (p.map PathItem.toDatum)

def ofDatum? : Datum → Option Path
  | .list ds => ds.mapM PathItem.ofDatum?
  | _ => none

def ofText (s : String) : Except Fault Path := Schema.ofText Schema.path ofDatum? s

def ofJson (j : Json) : Except Mismatch Path := Schema.ofJson Schema.path ofDatum? j

def toJson (p : Path) : Json := Format.toJson Schema.book Schema.path (toDatum p)

end Path

end Narrative
