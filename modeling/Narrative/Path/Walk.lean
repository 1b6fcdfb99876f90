import Narrative.Path.Basic
import Narrative.Script.Basic

namespace Narrative

/-- The index after an index; the greatest one stays. -/
def nextIndex (n : Int64) : Int64 := if n = Int64.maxValue then n else n + 1

inductive Cursor
  /-- Before any jump. -/
  | nowhere
  /-- A list, of which the instructions before `start` have been passed. -/
  | list (passage : Passage) (start : Int64)
  /-- An instruction of a list, at an index. -/
  | spot (passage : Passage) (index : Int64) (spot : Spot)
  /-- Before the first instruction of a list or past its last. -/
  | outside

/-- An open branch: its kind, and the list it was entered from with the index to go on at. -/
structure Frame where
  passage : Passage
  kind : BranchKind
  resume : Int64

/-- The frames are those of the open branches, the innermost first. -/
structure Walk where
  cursor : Cursor
  frames : List Frame

/-- The instructions of one list that an index item runs through. -/
structure Segment where
  passage : Passage
  first : Int64
  last : Int64

namespace Walk

def start : Walk := ⟨.nowhere, []⟩

def spot? (w : Walk) : Option Spot :=
  match w.cursor with
  | .spot _ _ s => some s
  | _ => none

/-- Opens a branch at an instruction of a list. -/
def enter (w : Walk) (outer : Passage) (index : Int64) (kind : BranchKind) (inner : Passage) : Walk :=
  ⟨.list inner 0, ⟨outer, kind, nextIndex index⟩ :: w.frames⟩

/-- Points at an index of a list. -/
def select (w : Walk) (p : Passage) (index : Int64) : Walk :=
  match p.spot? index with
  | some s => ⟨.spot p index s, w.frames⟩
  | none => ⟨.outside, w.frames⟩

/-- Leaves the innermost open branch, which must be of the kind named. -/
def leave (item : Nat) (kind : BranchKind) (w : Walk) : Except PathFault Walk :=
  match w.frames with
  | [] => .error (.unbalancedExit item)
  | f :: frames =>
    if f.kind = kind then .ok ⟨.list f.passage f.resume, frames⟩
    else .error (.mismatchedExit item f.kind kind)

def scene (s : Script) (item : Nat) (name : String) : Except PathFault Passage :=
  match s.passage? name with
  | some p => .ok p
  | none => .error (.unknownScene item name)

/-- Follows one item, whose number in the path a fault tells. A block may be entered from any
instruction. -/
def step (s : Script) (w : Walk) (item : Nat) : PathItem → Except PathFault Walk
  | .jump name => do .ok ⟨.list (← scene s item name) 0, []⟩
  | .index n =>
    match w.cursor with
    | .list p _ => .ok (w.select p n)
    | _ => .error (.indexOutsideList item)
  | .enterChoice number =>
    match w.cursor with
    | .spot p n ⟨place, .choice c⟩ =>
      match c.branches[number.toNat]? with
      | some b =>
        .ok (w.enter p n .choice
          (Spot.inside ⟨place, .choice c⟩ (Turn.branch · number.toNat) b.actions))
      | none => .error (.unknownBranch item number)
    | _ => .error (.notABranch item .choice)
  | .enterCondition key =>
    match w.cursor with
    | .spot p n ⟨place, .condition c⟩ =>
      match c.variant? key with
      | some body =>
        .ok (w.enter p n .condition (Spot.inside ⟨place, .condition c⟩ (Turn.variant · key) body))
      | none => .error (.unknownVariant item key)
    | _ => .error (.notABranch item .condition)
  | .enterBlock name =>
    match w.cursor with
    | .spot p n _ => do .ok (w.enter p n .block (← scene s item name))
    | _ => .error (.notABranch item .block)
  | .exit kind => w.leave item kind

/-- What an item runs through, if it is an index. -/
def segment? (w : Walk) : PathItem → Option Segment
  | .index n =>
    match w.cursor with
    | .list p start => some ⟨p, start, n⟩
    | _ => none
  | _ => none

/-- Follows the items of a path from a number on. -/
def follow (s : Script) : Walk → Nat → Path → Except PathFault Walk
  | w, _, [] => .ok w
  | w, item, x :: rest => do follow s (← w.step s item x) (item + 1) rest

end Walk

namespace Path

def walk (s : Script) (p : Path) : Except PathFault Walk := Walk.follow s .start 0 p

/-- The instruction a path leads to, or none if it ends outside of a list. -/
def resolve (s : Script) (p : Path) : Except PathFault (Option Spot) := (walk s p).map Walk.spot?

end Path

end Narrative
