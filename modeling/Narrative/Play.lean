import Narrative.Session

namespace Narrative

inductive PlayOutcome
  /-- A choice is shown; play goes on once a branch is taken. -/
  | awaitingChoice
  | ended
  | stepLimit
  | cancelled
  deriving DecidableEq, Repr

inductive ReplayOutcome
  | completed
  | cancelled
  deriving DecidableEq, Repr

def PlayOutcome.word : PlayOutcome → String
  | awaitingChoice => "awaiting_choice"
  | ended => "ended"
  | stepLimit => "step_limit"
  | cancelled => "cancelled"

def ReplayOutcome.word : ReplayOutcome → String
  | completed => "completed"
  | cancelled => "cancelled"

/-- What an executor may look at while it runs an instruction. -/
structure Scope where
  state : PlayerState
  session : String
  /-- The state has been restored already, so instructions that change it have no effect. -/
  restoring : Bool
  preview : Bool

/-- What has become of the executor and of the player state, and whether play is to stop. -/
structure Reply (σ : Type) where
  executor : σ
  state : PlayerState
  cancels : Bool

/-- Runs the instructions of a session one by one. -/
structure Executor (σ : Type) where
  execute : σ → Instruction → Scope → Reply σ
  /-- Removes all from the stage but what is to be kept. -/
  clear : σ → KeepSets → σ

/-- A session together with the executor that runs it. -/
structure Performance (σ : Type) where
  session : Session
  executor : σ

namespace Performance

variable {σ : Type}

/-- Has an instruction run. -/
def perform (x : Executor σ) (p : Performance σ) (i : Instruction) : Performance σ :=
  let s := p.session
  let r := x.execute p.executor i ⟨s.state, s.name, s.restoring, s.preview⟩
  ⟨{ s with state := r.state, cancelled := s.cancelled || r.cancels }, r.executor⟩

def clearStage (x : Executor σ) (p : Performance σ) (keep : KeepSets) : Performance σ :=
  { p with executor := x.clear p.executor keep }

/-- Remembers the state for a line of dialogue and for nothing else. -/
def remember (p : Performance σ) : Instruction → Performance σ
  | .dialogue _ => { p with session := p.session.recordSnapshot }
  | _ => p

/-- Goes on from an instruction that only moves the path. -/
def steer (s : Session) : Instruction → Except Failure Session
  | .condition _ => do .ok (← s.enterCondition).1
  | .block _ => s.enterBlock
  | .jump scene => s.jump scene
  | .exit => .ok (s.exitBranch.getD s.advance)
  | _ => .ok s

/-- Plays on until a choice is shown, the story ends, or so many instructions have been met. The
instruction at hand is the first to run. -/
def play (x : Executor σ) : Nat → Performance σ → Except Failure PlayOutcome × Performance σ
  | 0, p => (.ok .stepLimit, p)
  | n + 1, p =>
    if p.session.cancelled then (.ok .cancelled, p)
    else match p.session.position with
    | .error fault => (.error (.unresolvable fault), p)
    | .ok none =>
      if p.session.isAtEntry then play x n { p with session := p.session.advance }
      else (.ok .ended, p)
    | .ok (some spot) =>
      let i := spot.instruction
      match i with
      | .finish => (.ok .ended, p)
      | .choice _ => (.ok .awaitingChoice, p.perform x i)
      | i =>
        if i.isControl then
          match steer p.session i with
          | .ok s => play x n { p with session := s }
          | .error failure => (.error failure, p)
        else
          let p := (p.remember i).perform x i
          play x n { p with session := p.session.advance }

def replayQueue (x : Executor σ) : List Instruction → Performance σ → ReplayOutcome × Performance σ
  | [], p => (.completed, p)
  | i :: rest, p =>
    if p.session.cancelled then (.cancelled, p)
    else if i.isControl then replayQueue x rest p
    else replayQueue x rest (p.perform x i)

/-- Runs a restore plan on a cleared stage. Instructions that only move the path are left out. -/
def replay (x : Executor σ) (plan : RestorePlan) (p : Performance σ) :
    ReplayOutcome × Performance σ :=
  if p.session.cancelled then (.cancelled, p)
  else
    let p := p.clearStage x plan.keep
    let (outcome, p) := replayQueue x plan.queue { p with session.restoring := true }
    (outcome, { p with session.restoring := false })

/-- Replays a plan and plays on. The instruction the story was restored to has run as the last one of
the plan, and a choice is on the screen already. -/
def resume (x : Executor σ) (plan : RestorePlan) (limit : Nat) (p : Performance σ) :
    Except Failure PlayOutcome × Performance σ :=
  match replay x plan p with
  | (.cancelled, p) => (.ok .cancelled, p)
  | (.completed, p) =>
    match p.session.current? with
    | some (.choice _) => (.ok .awaitingChoice, p)
    | some i =>
      play x limit (if i.isControl then p else { p with session := p.session.advance })
    | none => play x limit p

end Performance

end Narrative
