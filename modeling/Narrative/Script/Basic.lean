import Narrative.Instruction.Basic

namespace Narrative

/-- A script is known by a number of 256 bits. -/
abbrev ScriptId := Vector UInt8 32

structure Script where
  scenes : Keyed (List Instruction)
  ordered : Keyed.Ordered scenes

namespace Script

def scene? (s : Script) (name : String) : Option (List Instruction) := Keyed.lookup name s.scenes

def names (s : Script) : List String := Keyed.keys s.scenes

end Script

/-- A step from an instruction list into one that an instruction in it holds. -/
inductive Turn
  | branch (index number : Nat)
  | variant (index : Nat) (key : String)
  deriving DecidableEq, Repr

/-- Where an instruction list stands: in a scene, behind some turns, the last one first. -/
structure Address where
  scene : String
  turns : List Turn
  deriving DecidableEq, Repr

structure Place where
  address : Address
  index : Nat
  deriving DecidableEq, Repr

/-- An instruction list with its address. -/
structure Passage where
  address : Address
  body : List Instruction

/-- An instruction with its place. -/
structure Spot where
  place : Place
  instruction : Instruction

namespace Passage

def spots (p : Passage) : List Spot := p.body.zipIdx.map fun e => ⟨⟨p.address, e.2⟩, e.1⟩

/-- The instruction at an index; none before the list and past its end. -/
def spot? (p : Passage) (index : Int64) : Option Spot :=
  match index.toInt with
  | .ofNat n => p.body[n]?.map fun i => ⟨⟨p.address, n⟩, i⟩
  | .negSucc _ => none

end Passage

namespace Spot

/-- The list inside an instruction that a turn leads to. -/
def inside (s : Spot) (turn : Nat → Turn) (body : List Instruction) : Passage :=
  ⟨⟨s.place.address.scene, turn s.place.index :: s.place.address.turns⟩, body⟩

end Spot

def Script.passage? (s : Script) (scene : String) : Option Passage :=
  (s.scene? scene).map fun body => ⟨⟨scene, []⟩, body⟩

end Narrative
