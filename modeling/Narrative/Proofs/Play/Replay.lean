import Narrative.Proofs.Compaction
import Narrative.Proofs.Session.Chronicle
import Narrative.Trace

namespace Narrative

/-- Leaving out what waits for the player leaves out nothing of the stage. -/
theorem Stage.foldl_silent {h : History} (hm : History.Marked h) (s : Stage) :
    (h.silent.map Entry.instruction).foldl apply s = (h.map Entry.instruction).foldl apply s := by
  induction h generalizing s with
  | nil => rfl
  | cons e rest ih =>
    have hrest : History.Marked rest := fun x hx => hm x (List.mem_cons_of_mem _ hx)
    have he : e.interactive = e.instruction.isInteractive := hm e List.mem_cons_self
    rw [List.map_cons, List.foldl_cons, ← ih hrest, History.silent, List.filter_cons]
    split
    · rfl
    · rename_i hdrop
      have hinteractive : e.instruction.isInteractive = true := by
        rw [← he]
        cases hi : e.interactive with
        | true => rfl
        | false =>
          rw [hi] at hdrop
          exact absurd rfl hdrop
      rw [apply_of_isInteractive hinteractive]
      rfl

/-- What restoring a position and replaying it without a screen comes to. -/
def Session.rebuild? (s : Session) (c : Checkpoint) : Option (ReplayOutcome × Stage) :=
  match s.restore c with
  | .ok (restored, plan) =>
    let replayed := Performance.replay Headless.executor plan ⟨restored, .fresh⟩
    some (replayed.1, replayed.2.executor.stage)
  | .error _ => none

namespace Performance

variable {p : Performance Headless}

theorem replayQueue_stage (hp : p.session.cancelled = false) (queue : List Instruction) :
    (replayQueue Headless.executor queue p).1 = .completed ∧
      (replayQueue Headless.executor queue p).2.executor.stage =
        queue.foldl Stage.apply p.executor.stage := by
  induction queue generalizing p with
  | nil => exact ⟨rfl, rfl⟩
  | cons i rest ih =>
    rw [replayQueue, if_neg (Bool.eq_false_iff.mp hp), List.foldl_cons]
    split
    · rename_i hcontrol
      rw [Stage.apply_of_isControl hcontrol]
      exact ih hp
    · have hperformed : (p.perform Headless.executor i).session.cancelled = false := by
        change (p.session.cancelled || false) = false
        rw [hp]
        rfl
      exact ih hperformed

/-- A replay runs instructions that have had their effect on the state already. -/
theorem replayQueue_session (hp : p.session.cancelled = false)
    (hrestoring : p.session.restoring = true) (queue : List Instruction) :
    (replayQueue Headless.executor queue p).2.session = p.session := by
  induction queue generalizing p with
  | nil => rfl
  | cons i rest ih =>
    have hperformed : (p.perform Headless.executor i).session = p.session := by
      change { p.session with
        state := if p.session.restoring then p.session.state else p.session.state.apply i,
        cancelled := p.session.cancelled || false } = p.session
      rw [if_pos hrestoring, Bool.or_false]
    rw [replayQueue, if_neg (Bool.eq_false_iff.mp hp)]
    split
    · exact ih hp hrestoring
    · rw [ih (hperformed ▸ hp) (hperformed ▸ hrestoring), hperformed]

theorem replay_session (hp : p.session.cancelled = false) (plan : RestorePlan) :
    (replay Headless.executor plan p).1 = .completed ∧
      (replay Headless.executor plan p).2.session = { p.session with restoring := false } := by
  obtain ⟨houtcome, -⟩ := replayQueue_stage
    (p := { p.clearStage Headless.executor plan.keep with session.restoring := true }) hp plan.queue
  have hsession := replayQueue_session
    (p := { p.clearStage Headless.executor plan.keep with session.restoring := true }) hp rfl
    plan.queue
  rw [replay, if_neg (Bool.eq_false_iff.mp hp)]
  exact ⟨houtcome, congrArg (fun s => { s with restoring := false }) hsession⟩

/-- A replay that nobody stops runs the whole plan, on what is kept of the stage. -/
theorem replay_stage_retain (hp : p.session.cancelled = false) (plan : RestorePlan) :
    (replay Headless.executor plan p).1 = .completed ∧
      (replay Headless.executor plan p).2.executor.stage =
        plan.queue.foldl Stage.apply (p.executor.stage.retain plan.keep) := by
  obtain ⟨houtcome, hstage⟩ := replayQueue_stage
    (p := { p.clearStage Headless.executor plan.keep with session.restoring := true }) hp plan.queue
  rw [replay, if_neg (Bool.eq_false_iff.mp hp)]
  exact ⟨houtcome, hstage⟩

/-- Of a stage that is as good as empty nothing is kept. -/
theorem replay_stage (hp : p.session.cancelled = false) (hempty : p.executor.stage = .empty)
    (plan : RestorePlan) :
    (replay Headless.executor plan p).1 = .completed ∧
      (replay Headless.executor plan p).2.executor.stage =
        plan.queue.foldl Stage.apply .empty := by
  have hcleared : p.executor.stage.retain plan.keep = .empty := by
    rw [hempty]
    rfl
  obtain ⟨houtcome, hstage⟩ := replay_stage_retain hp plan
  rw [hcleared] at hstage
  exact ⟨houtcome, hstage⟩

/-- Restoring a path that has a plan gets the stage that the plan makes of an empty one. -/
theorem rebuild?_of_plan {s : Session} {c : Checkpoint} {plan : RestorePlan}
    (hplan : s.plan c.path = .ok plan) (hs : s.cancelled = false) :
    s.rebuild? c = some (.completed, plan.queue.foldl Stage.apply .empty) := by
  have hrestore : s.restore c =
      .ok ({ s with toCheckpoint := c, keep := plan.keep, undo := [] }, plan) := by
    rw [Session.restore, Session.adopt, hplan]
    rfl
  obtain ⟨houtcome, hstage⟩ := replay_stage
    (p := ⟨{ s with toCheckpoint := c, keep := plan.keep, undo := [] }, .fresh⟩) hs rfl plan
  rw [Session.rebuild?, hrestore]
  dsimp only
  rw [houtcome, hstage]

/-- Restoring a path whose history is known gets the stage that the history makes of an empty one. -/
theorem rebuild?_of_ofPath {s : Session} {c : Checkpoint} {h : History}
    (hc : History.ofPath s.script c.path = .ok h) (hs : s.cancelled = false) :
    s.rebuild? c = some (.completed, (h.map Entry.instruction).foldl Stage.apply .empty) := by
  have hmarked := History.marked_ofPath hc
  rw [rebuild?_of_plan (Session.plan_of_ofPath hc) hs, ← Stage.foldl_silent hmarked]
  exact congrArg (fun stage => some (ReplayOutcome.completed, stage))
    (Compaction.foldl_queue s.policy (History.marked_silent hmarked) .empty)

end Performance

end Narrative
