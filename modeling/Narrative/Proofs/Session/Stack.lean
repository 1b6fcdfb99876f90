import Narrative.Proofs.Path.Segment
import Narrative.Session

namespace Narrative

/-- A list with the index of the instruction at hand. -/
structure Level where
  passage : Passage
  index : Int

/-- The open lists. There is always one, and those it was entered from are below. -/
structure Stack where
  top : Level
  below : List Level

/-- What a reader asks for. -/
inductive Move
  | advance
  | choose (branch : UInt64)
  | enterCondition
  | enterBlock
  | exitBranch
  | jump (scene : String)
  deriving DecidableEq, Repr

namespace Level

def spot? (l : Level) : Option Spot := l.passage.at? l.index

def next (l : Level) : Level := { l with index := l.index + 1 }

/-- The index is past the end. -/
def Finished (l : Level) : Prop := l.passage.body.length ≤ l.index

instance (l : Level) : Decidable l.Finished := inferInstanceAs (Decidable (_ ≤ _))

end Level

namespace Stack

/-- Before the first instruction of a list that nothing is below. -/
def opened (p : Passage) : Stack := ⟨⟨p, -1⟩, []⟩

def advance (k : Stack) : Stack := { k with top := k.top.next }

def push (p : Passage) (k : Stack) : Stack := ⟨⟨p, 0⟩, k.top :: k.below⟩

def leave? (k : Stack) : Option Stack :=
  match k.below with
  | [] => none
  | outer :: below => some ⟨outer.next, below⟩

def settleFrom (top : Level) : List Level → Stack
  | [] => ⟨top, []⟩
  | outer :: below => if top.Finished then settleFrom outer.next below else ⟨top, outer :: below⟩

/-- Leaves lists that are finished, as long as there is one below. -/
def settle (k : Stack) : Stack := settleFrom k.top k.below

/-- Pushes what an instruction of the top list holds. -/
def enter (x : Spot) (turn : Nat → Turn) (body : List Instruction) (k : Stack) : Stack :=
  (k.push (x.inside turn body)).settle

/-- What becomes of a stack, if the move is not refused. -/
def make? (s : Script) (state : PlayerState) (k : Stack) : Move → Option Stack
  | .advance => some k.advance.settle
  | .choose number =>
    match k.top.spot? with
    | some ⟨place, .choice c⟩ =>
      if c.offers state number.toNat then
        c.branches[number.toNat]?.map fun b =>
          k.enter ⟨place, .choice c⟩ (Turn.branch · number.toNat) b.actions
      else none
    | _ => none
  | .enterCondition =>
    match k.top.spot? with
    | some ⟨place, .condition c⟩ =>
      let key := c.selector.select state
      match c.variant? key with
      | some body => some (k.enter ⟨place, .condition c⟩ (Turn.variant · key) body)
      | none => some k.advance.settle
    | _ => none
  | .enterBlock =>
    match k.top.spot? with
    | some ⟨_, .block name⟩ => (s.passage? name).map fun p => (k.push p).settle
    | _ => none
  | .exitBranch => k.leave?.map settle
  | .jump name => (s.passage? name).map opened

/-- Nothing is finished that could be left. -/
def Settled (k : Stack) : Prop := k.below ≠ [] → ¬ k.top.Finished

theorem settled_settleFrom (top : Level) (below : List Level) :
    (settleFrom top below).Settled := by
  induction below generalizing top with
  | nil => exact fun h => absurd rfl h
  | cons outer below ih =>
    rw [settleFrom]
    split
    · exact ih outer.next
    · rename_i h
      exact fun _ => h

theorem settled_settle (k : Stack) : k.settle.Settled := settled_settleFrom k.top k.below

end Stack

/-- What happens to a session while it is read: a move, or a change of the player state. -/
inductive Event
  | move (m : Move)
  | alter (state : PlayerState)

/-- A stack with the player state that its moves depend on. -/
structure Reading where
  stack : Stack
  state : PlayerState

/-- A move that is refused changes nothing. -/
def Reading.step (s : Script) (r : Reading) : Event → Reading
  | .move m => { r with stack := (r.stack.make? s r.state m).getD r.stack }
  | .alter state => { r with state := state }

namespace Session

/-- What becomes of a session, if the move is not refused. -/
def make? (s : Session) : Move → Option Session
  | .advance => some s.advance
  | .choose branch => (s.choose branch).toOption
  | .enterCondition => (s.enterCondition.map Prod.fst).toOption
  | .enterBlock => s.enterBlock.toOption
  | .exitBranch => s.exitBranch
  | .jump scene => (s.jump scene).toOption

/-- A move that is refused changes nothing. -/
def step (s : Session) : Event → Session
  | .move m => (s.make? m).getD s
  | .alter state => { s with state := state }

end Session

end Narrative
