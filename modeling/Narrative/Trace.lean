import Narrative.Play
import Narrative.Stage

namespace Narrative

/-- Without a screen, an executor keeps track of the stage and notes what a player would see. -/
structure Headless where
  trace : List TraceStep
  stage : Stage
  deriving DecidableEq, Repr

namespace Headless

def fresh : Headless := ⟨[], .empty⟩

/-- Steps are numbered as long as 32 bits hold the number. -/
def stepNumber (count : Nat) : Nat := min count (UInt32.size - 1)

/-- The state is left alone during a replay. -/
def execute (h : Headless) (i : Instruction) (scope : Scope) : Reply Headless :=
  let state := if scope.restoring then scope.state else scope.state.apply i
  let step : TraceStep := ⟨stepNumber h.trace.length, View.ofInstruction state i, state.digest⟩
  ⟨⟨h.trace ++ [step], h.stage.apply i⟩, state, false⟩

def clear (h : Headless) (keep : KeepSets) : Headless := { h with stage := h.stage.retain keep }

def executor : Executor Headless := ⟨execute, clear⟩

end Headless

namespace Trace

/-- Plays on with so many steps left. Each choice is answered with the next answer, and with the
first branch once there are none left; a round that shows a choice writes at least one step, so the
rounds are no more than the steps. -/
def rounds : Nat → Nat → List UInt64 → Performance Headless →
    Except Failure (List TraceStep × PlayOutcome)
  | 0, _, _, p => .ok (p.executor.trace, .stepLimit)
  | n + 1, left, answers, p =>
    let (outcome, q) := p.play Headless.executor left
    let left := left - (q.executor.trace.length - p.executor.trace.length)
    match outcome with
    | .error failure => .error failure
    | .ok .awaitingChoice =>
      if left = 0 then .ok (q.executor.trace, .awaitingChoice)
      else do
        let s ← q.session.choose (answers.headD 0)
        rounds n left answers.tail { q with session := s }
    | .ok outcome => .ok (q.executor.trace, outcome)

/-- The trace of a script from its start, in at most so many steps. -/
def ofScript (s : Script) (settings : Settings) (answers : List UInt64) (steps : Nat) :
    Except Failure (List TraceStep × PlayOutcome) :=
  rounds (steps + 1) steps answers ⟨Session.start "trace" s settings, Headless.fresh⟩

end Trace

end Narrative
