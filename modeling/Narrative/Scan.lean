import Narrative.Path.Navigate
import Narrative.Settings

namespace Narrative

namespace Scan

/-- The instructions met on the way from a path, at most so many steps on. Choices and conditions
are followed by `deeper`, each branch on its own. -/
def along (s : Script) (deeper : Path → List Spot) : Nat → Path → List Spot
  | 0, _ => []
  | n + 1, p =>
    match Path.resolve s p with
    | .error _ => []
    | .ok none =>
      match Path.leave s p with
      | some left => along s deeper n left
      | none => []
    | .ok (some spot) =>
      match spot.instruction with
      | .choice c =>
        spot :: (List.range c.branches.length).flatMap fun b =>
          deeper (Path.enterChoice (UInt64.ofNat b) p)
      | .condition c => c.variants.flatMap fun v => deeper (Path.enterCondition v.1 p)
      | .finish => []
      | .jump scene => along s deeper n (Path.advance (Path.entry scene))
      | .block scene => along s deeper n (Path.enterBlock scene p)
      | .exit =>
        match Path.leave s p with
        | some left => along s deeper n left
        | none => []
      | i => if i.isBlocking then [spot] else spot :: along s deeper n (Path.advance p)

/-- The same with branches followed this many levels deep. -/
def visits (s : Script) (steps : Nat) : Nat → Path → List Spot
  | 0, _ => []
  | levels + 1, p => along s (visits s steps levels) steps p

/-- Leaves out what stands at a place met before. -/
def distinct : List Place → List Spot → List Spot
  | _, [] => []
  | seen, s :: rest =>
    if s.place ∈ seen then distinct seen rest else s :: distinct (s.place :: seen) rest

/-- The instructions ahead of a path, each once, in the order they are found. The one the path
leads to is among them. -/
def ahead (s : Script) (limits : ScanLimits) (p : Path) : List Spot :=
  distinct [] (visits s limits.steps (limits.depth + 1) p)

end Scan

end Narrative
