import Narrative.Compaction
import Narrative.Path.Navigate
import Narrative.Save.Basic
import Narrative.Scan
import Narrative.Script.Check

namespace Narrative

/-- One reader's way through a script. -/
structure Session extends Checkpoint where
  name : String
  script : Script
  settings : Settings
  policy : RestorePolicy
  /-- A preview remembers no states. -/
  preview : Bool
  /-- Positions to go back to, the latest first. -/
  undo : List Checkpoint
  keep : KeepSets
  /-- A restore plan is being replayed. -/
  restoring : Bool
  /-- Play has been asked to stop. -/
  cancelled : Bool

namespace Session

/-- Before the first instruction of a story. -/
def fresh : Checkpoint := ⟨Path.entry Path.startScene, .empty, []⟩

def start (name : String) (script : Script) (settings : Settings) : Session where
  toCheckpoint := fresh
  name := name
  script := script
  settings := settings
  policy := .marked
  preview := false
  undo := []
  keep := .empty
  restoring := false
  cancelled := false

def position (s : Session) : Except PathFault (Option Spot) := Path.resolve s.script s.path

/-- The instruction the path leads to; a path that leads nowhere has none. -/
def current? (s : Session) : Option Instruction :=
  match s.position with
  | .ok spot => spot.map Spot.instruction
  | .error _ => none

/-- Before the first instruction of a scene. -/
def isAtEntry (s : Session) : Bool := s.path.getLast? = some (.index (-1))

/-- Moves to a path and leaves the branches that are finished there. -/
def moveTo (s : Session) (p : Path) : Session := { s with path := Path.settle s.script p }

/-- Remembers where the session is. Of more positions than the limit the oldest are forgotten. -/
def record (s : Session) : Session :=
  { s with undo := (s.toCheckpoint :: s.undo).take s.settings.undoLimit }

/-- Goes on to the next instruction. A position that stopped play can be gone back to. -/
def advance (s : Session) : Session :=
  let s := if s.current?.any Instruction.isBlocking then s.record else s
  s.moveTo (Path.advance s.path)

/-- Takes a branch of the choice at hand. -/
def choose (s : Session) (branch : UInt64) : Except Failure Session :=
  match s.current? with
  | some (.choice c) =>
    if c.offers s.state branch.toNat then
      .ok (s.record.moveTo (Path.enterChoice branch s.path))
    else .error (.invalidChoice branch)
  | _ => .error .notAtInstruction

/-- Takes the variant that the state selects, and tells its key. A condition without that variant is
passed by. -/
def enterCondition (s : Session) : Except Failure (Session × Option String) :=
  match s.current? with
  | some (.condition c) =>
    let key := c.selector.select s.state
    match c.variant? key with
    | some _ => .ok (s.moveTo (Path.enterCondition key s.path), some key)
    | none => .ok (s.advance, none)
  | _ => .error .notAtInstruction

def enterBlock (s : Session) : Except Failure Session :=
  match s.current? with
  | some (.block scene) => .ok (s.moveTo (Path.enterBlock scene s.path))
  | _ => .error .notAtInstruction

def jump (s : Session) (scene : String) : Except Failure Session :=
  match s.script.scene? scene with
  | some _ => .ok { s with path := Path.entry scene }
  | none => .error (.authoring (.unknownScene ((Path.scene? s.path).getD "") scene))

/-- Leaves the innermost open branch, if there is one. -/
def exitBranch (s : Session) : Option Session :=
  (Path.leave s.script s.path).map s.moveTo

/-- Remembers the state for a line of dialogue. -/
def recordSnapshot (s : Session) : Session :=
  if s.preview then s else { s with snapshots := s.snapshots ++ [s.state] }

def save (s : Session) (time : UInt64) (kind : SaveKind) : Save := ⟨s.toCheckpoint, time, kind⟩

/-- What to replay to bring back the stage at the end of a path. -/
def plan (s : Session) (p : Path) : Except Failure RestorePlan :=
  match RestorePlan.ofPath s.policy s.script p with
  | .ok plan => .ok plan
  | .error fault => .error (.unresolvable fault)

/-- Goes to a position and plans the replay that belongs to it. -/
def adopt (s : Session) (c : Checkpoint) : Except Failure (Session × RestorePlan) := do
  let plan ← s.plan c.path
  .ok ({ s with toCheckpoint := c, keep := plan.keep }, plan)

/-- A session restored from a save cannot be taken back behind it. -/
def restore (s : Session) (c : Checkpoint) : Except Failure (Session × RestorePlan) := do
  let (s, plan) ← s.adopt c
  .ok ({ s with undo := [] }, plan)

def reset (s : Session) : Session := { s with toCheckpoint := fresh, undo := [], keep := .empty }

/-- Restores a save if there is one and it leads somewhere, and starts anew otherwise. -/
def restoreOrStart (s : Session) (saved : Option Checkpoint) : Session × RestorePlan :=
  match saved.map s.restore with
  | some (.ok r) => r
  | _ => (s.reset, .empty)

/-- Goes back to the last position remembered. A position that leads nowhere is forgotten. -/
def goBack (s : Session) : Session × Option RestorePlan :=
  match s.undo with
  | [] => (s, none)
  | c :: rest =>
    let s := { s with undo := rest }
    match s.adopt c with
    | .ok (s, plan) => (s, some plan)
    | .error _ => (s, none)

end Session

/-- A line of dialogue with the state it was shown in, if that is still known. -/
structure OverviewLine where
  dialogue : Dialogue
  state : Option PlayerState
  deriving DecidableEq, Repr

namespace Session

/-- The instructions that may run soon. A choice and whatever moves the path are looked at
themselves; any other instruction has already run. -/
def upcoming (s : Session) : List Spot :=
  let steers : Instruction → Bool
    | .choice _ => true
    | i => i.isControl
  let p := if s.current?.any steers then s.path else Path.advance s.path
  Scan.ahead s.script s.settings.scan p

/-- The assets that may be needed soon, each once. -/
def upcomingAssets (s : Session) : List Asset :=
  (s.upcoming.flatMap fun x => x.instruction.assets).foldl
    (fun found a => if a ∈ found then found else found ++ [a]) []

/-- Lines and states are matched from the latest on: lines before a jump are gone from the path, but
not their states. -/
def pairLines (lines : List Dialogue) (states : List PlayerState) : List OverviewLine :=
  let surplus := states.length - lines.length
  let missing := lines.length - states.length
  lines.zipIdx.map fun (d, n) =>
    ⟨d, if n < missing then none else states[n - missing + surplus]?⟩

/-- The lines of dialogue on the current path, the latest last. -/
def overview (s : Session) : List OverviewLine :=
  match History.ofPath s.script s.path with
  | .error _ => []
  | .ok h =>
    pairLines
      (h.filterMap fun e => match e.instruction with | .dialogue d => some d | _ => none)
      s.snapshots

end Session

end Narrative
