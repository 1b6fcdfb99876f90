import Narrative.Path.Walk

namespace Narrative.Path

/-- One instruction forward in the current list. -/
def advance (p : Path) : Path :=
  match p.getLast? with
  | some (.index n) => p.dropLast ++ [.index (nextIndex n)]
  | _ => p ++ [.index 0]

def enterChoice (branch : UInt64) (p : Path) : Path := p ++ [.enterChoice branch, .index 0]

def enterCondition (key : String) (p : Path) : Path := p ++ [.enterCondition key, .index 0]

def enterBlock (scene : String) (p : Path) : Path := p ++ [.enterBlock scene, .index 0]

/-- The greatest index of the list a path has selected. -/
def lastIndex? (s : Script) (p : Path) : Option Int64 :=
  match walk s p with
  | .ok ⟨.list passage _, _⟩ =>
    if passage.body.isEmpty then none else some (Int64.ofNat (passage.body.length - 1))
  | _ => none

/-- Drops or clamps items at the end of a path until it leads to an instruction. The path is given
with its last item first. -/
def shrink (s : Script) : Path → Option Path
  | [] => none
  | item :: before =>
    match resolve s (item :: before).reverse with
    | .error _ => none
    | .ok (some _) => some (item :: before).reverse
    | .ok none =>
      match item, lastIndex? s before.reverse with
      | .index n, some last =>
        if 0 < n ∧ last < n then some (before.reverse ++ [.index last]) else shrink s before
      | _, _ => shrink s before

/-- The innermost branch left open, with the index it was entered at, as far as the items tell. The
path is given with its last item first; `closed` are the exits met whose branches are still to
come. -/
def innermostOpen : List BranchKind → Path → Option (BranchKind × Int64)
  | _, [] => none
  | closed, item :: before =>
    match item with
    | .exit kind => innermostOpen (kind :: closed) before
    | .jump _ => none
    | .index _ => innermostOpen closed before
    | item =>
      match item.entered?, closed, before with
      | some kind, [], .index outer :: _ => some (kind, outer)
      | some kind, k :: closed, before =>
        if k = kind then innermostOpen closed before else none
      | _, _, _ => none

/-- Leaves the innermost open branch and points at the instruction after it. There is no such path
if no branch is open or the path leads nowhere. -/
def leave (s : Script) (p : Path) : Option Path :=
  match shrink s p.reverse with
  | none => none
  | some work =>
    match innermostOpen [] work.reverse with
    | none => none
    | some (kind, outer) =>
      let left := work ++ [.exit kind, .index (nextIndex outer)]
      match resolve s left with
      | .ok _ => some left
      | .error _ => none

/-- Leaves branches, at most so many, while the path leads past the end of a list. -/
def leaveFinished (s : Script) : Nat → Path → Path
  | 0, p => p
  | n + 1, p =>
    match resolve s p with
    | .ok none =>
      match leave s p with
      | some left => leaveFinished s n left
      | none => p
    | _ => p

/-- How many items enter a branch. -/
def entered (p : Path) : Nat := p.countP fun x => x.entered?.isSome

/-- Leaves all branches that are finished. There are no more of them than items that enter one. -/
def settle (s : Script) (p : Path) : Path := leaveFinished s (entered p) p

end Narrative.Path
