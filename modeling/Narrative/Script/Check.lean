import Narrative.Digest
import Narrative.Path.Basic
import Narrative.Script.Draft

namespace Narrative

namespace Instruction

/-- The length of the longest text an instruction shows, or of all arguments of a custom action. -/
def textBytes : Instruction → Nat
  | dialogue d => d.text.utf8ByteSize
  | text t => t.utf8ByteSize
  | input question _ => question.utf8ByteSize
  | choice c =>
    (c.branches.map fun b => b.label.utf8ByteSize).foldl max ((c.prompt.map String.utf8ByteSize).getD 0)
  | custom a => a.args.foldr (fun s n => s.utf8ByteSize + n) 0
  | _ => 0

end Instruction

namespace Draft

/-- The scene a jump or a block leads to. -/
def target (d : Draft) (scene target : String) : Except Failure (List Instruction) :=
  match Keyed.lookup target d.scenes with
  | some body => .ok body
  | none => .error (.authoring (.unknownScene scene target))

/-- What an instruction leads to is there, and so is something to choose from. -/
def checkTargets (d : Draft) (scene : String) : Instruction → Except Failure Unit
  | .jump t => do
    let _ ← d.target scene t
  | .block t => do
    if (← d.target scene t).isEmpty then .error (.authoring (.emptyBlock scene t))
  | .choice c => if c.branches.isEmpty then .error (.authoring (.emptyChoice scene)) else .ok ()
  | .condition c =>
    if c.variants.isEmpty then .error (.authoring (.emptyCondition scene)) else .ok ()
  | _ => .ok ()

/-- Checks an instruction apart from the lists inside it, and counts it. -/
def checkAlone (d : Draft) (limits : Limits) (scene : String) (count : Nat) (i : Instruction) :
    Except Failure Nat := do
  if limits.instructions < count + 1 then .error (.resourceLimit (.instructions limits.instructions))
  if limits.textLength < i.textBytes then
    .error (.resourceLimit (.text i.name i.textBytes limits.textLength))
  d.checkTargets scene i
  .ok (count + 1)

/-- Checks a list in which lists may be nested this many levels deep, itself included. The
instructions are counted on from those before. -/
def checkList (d : Draft) (limits : Limits) (scene : String) :
    Nat → Nat → List Instruction → Except Failure Nat
  | 0, _, _ => .error (.authoring (.nestingTooDeep scene limits.nestingDepth))
  | levels + 1, count, body =>
    body.foldlM (fun count i => do
      let count ← d.checkAlone limits scene count i
      i.nested.foldlM (fun count inner =>
        if inner.2.isEmpty then .error (.authoring (.emptyBranch scene inner.1))
        else checkList d limits scene levels count inner.2) count) count

def compile (limits : Limits) (d : Draft) : Except Failure Script := do
  if limits.scenes < d.scenes.length then
    .error (.resourceLimit (.scenes d.scenes.length limits.scenes))
  if ! Keyed.contains Path.startScene d.scenes then
    .error (.authoring (.missingStart Path.startScene))
  let _ ← d.scenes.foldlM (fun count scene =>
    d.checkList limits scene.1 (limits.nestingDepth + 1) count scene.2) 0
  .ok ⟨d.scenes, d.ordered⟩

end Draft

namespace Script

def toDraft (s : Script) : Draft := ⟨s.scenes, s.ordered⟩

/-- The scenes as compact JSON. -/
def canonicalText (s : Script) : String :=
  (Format.toJson Schema.book (.dict Schema.instructions)
    (.dict (Instruction.variantsToData s.scenes))).compact

/-- A script is known by the hash of its canonical text. -/
def id (s : Script) : ScriptId := Sha256.hash s.canonicalText.toUTF8.toList

/-- Reads and checks a script under the usual limits. -/
def ofText (text : String) : Except Failure Script := do
  (← Draft.ofText {} text).compile {}

end Script

end Narrative
