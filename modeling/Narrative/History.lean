import Narrative.Path.Walk

namespace Narrative

/-- An instruction of a history, with whatever tells where it comes from. -/
structure Entry (π : Type) where
  origin : π
  instruction : Instruction
  interactive : Bool
  /-- The story rests on this interactive instruction. -/
  preserved : Bool

abbrev History := List (Entry Place)

namespace Segment

def spots (g : Segment) : List Spot :=
  (g.passage.spots.take (g.last.toInt + 1).toNat).drop g.first.toInt.toNat

/-- Of the last segment the instruction at the index is the one the story rests on. -/
def entries (g : Segment) (isLast : Bool) : History :=
  g.spots.map fun s =>
    let interactive := s.instruction.isInteractive
    ⟨s.place, s.instruction, interactive,
      interactive && isLast && (s.place.index : Int) = g.last.toInt⟩

/-- What a history takes over from a list. A filtered one passes over the interactive instructions that
the story does not rest on. -/
def recorded (filtered : Bool) (g : Segment) (isLast : Bool) : History :=
  g.spots.filterMap fun s =>
    let interactive := s.instruction.isInteractive
    let preserved := interactive && isLast && (s.place.index : Int) = g.last.toInt
    if filtered && interactive && !preserved then none
    else some ⟨s.place, s.instruction, interactive, preserved⟩

end Segment

namespace History

def segments (s : Script) : Walk → Nat → Path → Except PathFault (List Segment)
  | _, _, [] => .ok []
  | w, item, x :: rest => do
    let more ← segments s (← w.step s item x) (item + 1) rest
    .ok ((w.segment? x).toList ++ more)

def ofSegments : List Segment → History
  | [] => []
  | [g] => g.entries true
  | g :: rest => g.entries false ++ ofSegments rest

def ofPath (s : Script) (p : Path) : Except PathFault History := do
  .ok (ofSegments (← segments s .start 0 p))

/-- Leaves out interactive instructions, save the one the story rests on. -/
def silent (h : History) : History := h.filter fun e => ! e.interactive || e.preserved

/-- The history of a path, whole or filtered, in one pass over its segments. -/
def reconstruct (s : Script) (filtered : Bool) (p : Path) : Except PathFault History := do
  let gs ← segments s .start 0 p
  .ok (gs.zipIdx.flatMap fun (g, n) => g.recorded filtered (n + 1 = gs.length))

end History

end Narrative
