import Narrative.Schema

namespace Narrative

/-- What a path can enter and leave again. -/
inductive BranchKind
  | choice
  | condition
  | block
  deriving DecidableEq, Repr

inductive PathItem
  | jump (scene : String)
  | index (n : Int64)
  | enterChoice (branch : UInt64)
  | enterCondition (key : String)
  | enterBlock (scene : String)
  | exit (kind : BranchKind)
  deriving DecidableEq, Repr

/-- Where the player is, as the list of steps that led there. -/
abbrev Path := List PathItem

namespace PathItem

def entered? : PathItem → Option BranchKind
  | enterChoice _ => some .choice
  | enterCondition _ => some .condition
  | enterBlock _ => some .block
  | _ => none

def exited? : PathItem → Option BranchKind
  | exit kind => some kind
  | _ => none

end PathItem

namespace Path

/-- The scene in which every story starts. -/
def startScene : String := "start"

/-- Just before the first instruction of a scene. -/
def entry (scene : String) : Path := [.jump scene, .index (-1)]

/-- The scene of the last jump. -/
def scene? (p : Path) : Option String :=
  p.reverse.findSome? fun | .jump s => some s | _ => none

/-- How many branches are open after an item. -/
def openAfter (count : Nat) : PathItem → Nat
  | .jump _ => 0
  | .index _ => count
  | .exit _ => count - 1
  | _ => count + 1

/-- How many branches have been entered and not been left since the last jump. -/
def openBranches (p : Path) : Nat := p.foldl openAfter 0

end Path

/-- Why a path leads nowhere, with the place of the first item that does not fit the script. -/
inductive PathFault
  | unknownScene (item : Nat) (scene : String)
  | unknownBranch (item : Nat) (branch : UInt64)
  | unknownVariant (item : Nat) (key : String)
  /-- The item enters something that is not there. -/
  | notABranch (item : Nat) (expected : BranchKind)
  | indexOutsideList (item : Nat)
  | unbalancedExit (item : Nat)
  | mismatchedExit (item : Nat) (expected found : BranchKind)
  deriving DecidableEq, Repr

def BranchKind.title : BranchKind → String
  | choice => "Choice"
  | condition => "Condition"
  | block => "Block"

namespace PathFault

open Text.Decimal (natText)

def message : PathFault → String
  | unknownScene i s => "unknown scene '" ++ s ++ "' at item " ++ natText i
  | unknownBranch i b => "choice has no branch " ++ natText b.toNat ++ " (item " ++ natText i ++ ")"
  | unknownVariant i key => "condition has no variant '" ++ key ++ "' (item " ++ natText i ++ ")"
  | notABranch i k =>
    "item " ++ natText i ++ " enters a " ++ k.title ++ " but the position holds something else"
  | indexOutsideList i =>
    "item " ++ natText i ++ " indexes something that is not an instruction list"
  | unbalancedExit i => "item " ++ natText i ++ " exits a branch that was never entered"
  | mismatchedExit i expected found =>
    "item " ++ natText i ++ " exits a " ++ found.title ++ " but the open branch is a " ++ expected.title

def code : PathFault → String
  | unknownScene .. => "story.path.unknown_scene"
  | unknownBranch .. => "story.path.unknown_branch"
  | unknownVariant .. => "story.path.unknown_variant"
  | notABranch .. => "story.path.not_a_branch"
  | indexOutsideList _ => "story.path.index_outside_list"
  | unbalancedExit _ => "story.path.unbalanced_exit"
  | mismatchedExit .. => "story.path.mismatched_exit"

end PathFault

end Narrative
