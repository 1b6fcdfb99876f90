import Narrative.Proofs.Play.Interruption
import Narrative.Proofs.Play.Replay

namespace Narrative

/-- An instruction that an executor was given to run, what it could look at, and whether it asked play to
stop. -/
structure Cue where
  instruction : Instruction
  scope : Scope
  cancels : Bool

/-- What an executor has been asked for. -/
inductive Demand
  | clear (keep : KeepSets)
  | cue (c : Cue)

/-- Runs instructions as another executor does, and writes down all that it is asked for. -/
def Executor.logging {σ : Type} (x : Executor σ) : Executor (σ × List Demand) where
  execute e i scope :=
    let r := x.execute e.1 i scope
    ⟨(r.executor, e.2 ++ [.cue ⟨i, scope, r.cancels⟩]), r.state, r.cancels⟩
  clear e keep := (x.clear e.1 keep, e.2 ++ [.clear keep])

/-- The state is left alone by what runs while it is being restored. -/
def Executor.Restores {σ : Type} (x : Executor σ) : Prop :=
  ∀ e i scope, scope.restoring = true → (x.execute e i scope).state = scope.state

theorem Headless.restores : Headless.executor.Restores := by
  intro h i scope hrestoring
  simp [Headless.executor, Headless.execute, hrestoring]

namespace Performance

variable {σ : Type} {x : Executor σ} {p q : Performance σ} {queue : List Instruction}
  {ran : List Cue} {outcome : ReplayOutcome}

/-- The cue that an instruction is run with. -/
def cue (x : Executor σ) (p : Performance σ) (i : Instruction) : Cue :=
  let s := p.session
  let scope : Scope := ⟨s.state, s.name, s.restoring, s.preview⟩
  ⟨i, scope, (x.execute p.executor i scope).cancels⟩

def logging (p : Performance σ) (log : List Demand) : Performance (σ × List Demand) :=
  ⟨p.session, (p.executor, log)⟩

/-- A replay of a queue, with the cues it gives and what it comes to. -/
inductive Replays (x : Executor σ) :
    List Instruction → Performance σ → List Cue → ReplayOutcome → Performance σ → Prop
  | complete {p : Performance σ} : Replays x [] p [] .completed p
  | stop {i : Instruction} {rest : List Instruction} {p : Performance σ}
    (hstop : p.session.cancelled = true) : Replays x (i :: rest) p [] .cancelled p
  | skip {i : Instruction} {rest : List Instruction} {p q : Performance σ} {ran : List Cue}
    {outcome : ReplayOutcome} (hfree : p.session.cancelled = false) (hcontrol : i.isControl = true)
    (hrest : Replays x rest p ran outcome q) : Replays x (i :: rest) p ran outcome q
  | run {i : Instruction} {rest : List Instruction} {p q : Performance σ} {ran : List Cue}
    {outcome : ReplayOutcome} (hfree : p.session.cancelled = false) (hcontrol : i.isControl = false)
    (hrest : Replays x rest (p.perform x i) ran outcome q) :
    Replays x (i :: rest) p (p.cue x i :: ran) outcome q

/-- Every replay of a queue is one of these, and its cues are what the executor gets. -/
theorem exists_replays (x : Executor σ) (queue : List Instruction) (p : Performance σ) :
    ∃ ran, Replays x queue p ran (replayQueue x queue p).1 (replayQueue x queue p).2 ∧
      ∀ log, replayQueue x.logging queue (p.logging log) =
        ((replayQueue x queue p).1,
          (replayQueue x queue p).2.logging (log ++ ran.map .cue)) := by
  induction queue generalizing p with
  | nil => exact ⟨[], .complete, fun log => by simp [replayQueue]⟩
  | cons i rest ih =>
    by_cases hstop : p.session.cancelled = true
    · refine ⟨[], ?_, fun log => ?_⟩
      · rw [replayQueue, if_pos hstop]
        exact .stop hstop
      · simp [replayQueue, logging, hstop]
    · have hfree : p.session.cancelled = false := Bool.eq_false_iff.mpr hstop
      by_cases hcontrol : i.isControl = true
      · obtain ⟨ran, hran, hlog⟩ := ih p
        refine ⟨ran, ?_, fun log => ?_⟩
        · rw [replayQueue, if_neg hstop, if_pos hcontrol]
          exact .skip hfree hcontrol hran
        · have hsession : (p.logging log).session = p.session := rfl
          rw [replayQueue, replayQueue, hsession, if_neg hstop, if_neg hstop, if_pos hcontrol,
            if_pos hcontrol, hlog]
      · obtain ⟨ran, hran, hlog⟩ := ih (p.perform x i)
        refine ⟨p.cue x i :: ran, ?_, fun log => ?_⟩
        · rw [replayQueue, if_neg hstop, if_neg hcontrol]
          exact .run hfree (Bool.eq_false_iff.mpr hcontrol) hran
        · have hsession : (p.logging log).session = p.session := rfl
          have hperform : (p.logging log).perform x.logging i =
              (p.perform x i).logging (log ++ [.cue (p.cue x i)]) := rfl
          rw [replayQueue, replayQueue, hsession, if_neg hstop, if_neg hstop, if_neg hcontrol,
            if_neg hcontrol, hperform, hlog, List.map_cons, List.append_assoc, List.singleton_append]

namespace Replays

/-- What runs is a first part of the queue without its control instructions; if it is not the whole queue,
play has been stopped. -/
theorem split (h : Replays x queue p ran outcome q) :
    ∃ done left, queue = done ++ left ∧
      ran.map Cue.instruction = done.filter (fun i => ! i.isControl) ∧
      (outcome = .completed ↔ left = []) ∧ (left ≠ [] → q.session.cancelled = true) := by
  induction h with
  | complete => exact ⟨[], [], by simp⟩
  | @stop i rest p hstop => exact ⟨[], i :: rest, by simp [hstop]⟩
  | @skip i rest p q ran outcome _ hcontrol _ ih =>
    obtain ⟨done, left, rfl, hran, houtcome, hleft⟩ := ih
    exact ⟨i :: done, left, rfl, by simp [hran, hcontrol], houtcome, hleft⟩
  | @run i rest p q ran outcome _ hcontrol _ ih =>
    obtain ⟨done, left, rfl, hran, houtcome, hleft⟩ := ih
    exact ⟨i :: done, left, rfl, by simp [hran, hcontrol, cue], houtcome, hleft⟩

/-- Play is stopped by the cues alone. -/
theorem cancelled (h : Replays x queue p ran outcome q) :
    q.session.cancelled = (p.session.cancelled || ran.any Cue.cancels) := by
  induction h with
  | complete | stop => simp
  | skip _ _ _ ih => exact ih
  | @run i rest p q ran outcome _ _ _ ih =>
    have hperform : (p.perform x i).session.cancelled =
        (p.session.cancelled || (p.cue x i).cancels) := rfl
    rw [ih, hperform, List.any_cons, Bool.or_assoc]

theorem eq_nil_of_cancelled (h : Replays x queue p ran outcome q)
    (hstop : p.session.cancelled = true) : ran = [] := by
  cases h with
  | complete | stop => rfl
  | skip hfree | run hfree => cases hfree.symm.trans hstop

/-- Nothing runs after what asks to stop. -/
theorem pairwise (h : Replays x queue p ran outcome q) :
    ran.Pairwise fun earlier _ => earlier.cancels = false := by
  induction h with
  | complete | stop => exact .nil
  | skip _ _ _ ih => exact ih
  | @run i rest p q ran outcome _ _ hrest ih =>
    refine List.pairwise_cons.mpr ⟨fun later hlater => ?_, ih⟩
    cases hcancels : (p.cue x i).cancels with
    | false => rfl
    | true =>
      have hstop : (p.perform x i).session.cancelled = true := by
        change (p.session.cancelled || (p.cue x i).cancels) = true
        rw [hcancels, Bool.or_true]
      rw [hrest.eq_nil_of_cancelled hstop] at hlater
      cases hlater

/-- Only the state and whether play is stopped are up to the executor. -/
theorem frame (h : Replays x queue p ran outcome q) :
    ∃ state cancelled, q.session = { p.session with state := state, cancelled := cancelled } := by
  induction h with
  | complete | stop => exact ⟨_, _, rfl⟩
  | skip _ _ _ ih => exact ih
  | run _ _ _ ih =>
    obtain ⟨state, cancelled, hsession⟩ := ih
    exact ⟨state, cancelled, hsession⟩

theorem scope (h : Replays x queue p ran outcome q) :
    ∀ c ∈ ran, c.scope.restoring = p.session.restoring ∧ c.scope.preview = p.session.preview ∧
      c.scope.session = p.session.name := by
  induction h with
  | complete | stop => exact List.forall_mem_nil _
  | skip _ _ _ ih => exact ih
  | run _ _ _ ih => exact List.forall_mem_cons.mpr ⟨⟨rfl, rfl, rfl⟩, ih⟩

theorem state (h : Replays x queue p ran outcome q) (hx : x.Restores)
    (hrestoring : p.session.restoring = true) : q.session.state = p.session.state := by
  induction h with
  | complete | stop => rfl
  | skip _ _ _ ih => exact ih hrestoring
  | @run i rest p q ran outcome _ _ _ ih =>
    have hperform : (p.perform x i).session.state = p.session.state := hx _ _ _ hrestoring
    rw [ih hrestoring, hperform]

end Replays

/-- A replay that has not been stopped before clears the stage, marks the session, replays the queue and
takes the mark off again. -/
theorem exists_replays_plan (x : Executor σ) (plan : RestorePlan)
    (hfree : p.session.cancelled = false) :
    ∃ ran outcome q,
      Replays x plan.queue { p.clearStage x plan.keep with session.restoring := true } ran outcome q ∧
      replay x plan p = (outcome, { q with session.restoring := false }) ∧
      replay x.logging plan (p.logging []) =
        (outcome, { q with session.restoring := false }.logging
          (.clear plan.keep :: ran.map .cue)) := by
  have hgo : ¬ p.session.cancelled = true := Bool.eq_false_iff.mp hfree
  obtain ⟨ran, hran, hlog⟩ := exists_replays x plan.queue
    { p.clearStage x plan.keep with session.restoring := true }
  have hcleared := hlog [.clear plan.keep]
  refine ⟨ran, _, _, hran, if_neg hgo, ?_⟩
  rw [replay]
  exact (if_neg hgo).trans (congrArg (fun r => (r.1, { r.2 with session.restoring := false })) hcleared)

/-- A replay runs just its plan. If play has been stopped before, nothing is asked of the executor and
nothing changes. Otherwise the stage is cleared once, then a first part of the plan runs, each
instruction that is not control once, in order and in a session that is marked as being restored, up to
the first that asks to stop; the replay is complete just if no part of the plan is left. Either way the
mark is gone afterwards and all but the state is as before, and so is the state if the executor heeds the
mark, as one without a screen does. -/
theorem replay_runs_plan (x : Executor σ) (plan : RestorePlan)
    (hp : p.session.restoring = false) :
    let replayed := replay x plan p
    let logged := replay x.logging plan (p.logging [])
    (∃ log, logged = (replayed.1, replayed.2.logging log)) ∧
    (p.session.cancelled = true → replayed = (.cancelled, p) ∧ logged.2.executor.2 = []) ∧
    (p.session.cancelled = false → ∃ (ran : List Cue) (done left : List Instruction),
      logged.2.executor.2 = .clear plan.keep :: ran.map .cue ∧ plan.queue = done ++ left ∧
      ran.map Cue.instruction = done.filter (fun i => ! i.isControl) ∧
      (∀ c ∈ ran, c.scope.restoring = true) ∧
      (ran.Pairwise fun earlier _ => earlier.cancels = false) ∧
      (replayed.1 = .completed ↔ left = []) ∧
      (left ≠ [] → replayed.2.session.cancelled = true) ∧
      replayed.2.session.cancelled = ran.any Cue.cancels) ∧
    (∃ state cancelled,
      replayed.2.session = { p.session with state := state, cancelled := cancelled }) ∧
    (x.Restores → replayed.2.session.state = p.session.state) ∧
    ∀ h : Headless, (replay Headless.executor plan ⟨p.session, h⟩).2.session = p.session := by
  intro replayed logged
  have hmark : { p.session with restoring := false } = p.session := by rw [← hp]
  have hheadless (h : Headless) :
      (replay Headless.executor plan ⟨p.session, h⟩).2.session = p.session := by
    cases hstop : p.session.cancelled with
    | true => rw [replay, if_pos hstop]
    | false => rw [(replay_session (p := ⟨p.session, h⟩) hstop plan).2, hmark]
  cases hstop : p.session.cancelled with
  | true =>
    have hreplayed : replayed = (.cancelled, p) := if_pos hstop
    have hlogged : logged = (.cancelled, p.logging []) := if_pos hstop
    rw [hreplayed, hlogged]
    refine ⟨⟨[], rfl⟩, fun _ => ⟨rfl, rfl⟩, ?_, ⟨_, _, rfl⟩, fun _ => rfl, hheadless⟩
    intro hfree
    cases hfree
  | false =>
    obtain ⟨ran, outcome, q, hran, (hreplayed : replayed = _), (hlogged : logged = _)⟩ :=
      exists_replays_plan x plan hstop
    obtain ⟨done, left, hqueue, hinstructions, houtcome, hleft⟩ := hran.split
    obtain ⟨state, cancelled, hsession⟩ := hran.frame
    have hcancelled := hran.cancelled
    have hmarked : (p.clearStage x plan.keep).session.cancelled = false := hstop
    rw [hmarked, Bool.false_or] at hcancelled
    have hframe : { q.session with restoring := false } =
        { p.session with state := state, cancelled := cancelled } := by
      rw [hsession]
      exact congrArg (fun s : Session => { s with state := state, cancelled := cancelled }) hmark
    rw [hreplayed, hlogged]
    refine ⟨⟨_, rfl⟩, ?_, ?_, ⟨state, cancelled, hframe⟩, fun hx => hran.state hx rfl, hheadless⟩
    · intro hstopped
      cases hstopped
    · intro _
      exact ⟨ran, done, left, rfl, hqueue, hinstructions, fun c hc => (hran.scope c hc).1,
        hran.pairwise, houtcome, hleft, hcancelled⟩

/-- An executor that asks to stop at once runs the first instruction that is not control, and does not set
the flag. -/
theorem replay_runs_plan_cut_short :
    let script : Script := ⟨Draft.sample.scenes, Draft.sample.ordered⟩
    let p : Performance Headless := ⟨Session.start "cut short" script {}, .fresh⟩
    let x := Headless.executor.restless
    let plan : RestorePlan :=
      ⟨[.jump "start", .setFlag "met" true, .exit, .showCharacter "ava" none none],
        ⟨.ofList ["ava"], .empty, .empty⟩⟩
    p.session.restoring = false ∧ p.session.cancelled = false ∧
    (replay x plan p).1 = .cancelled ∧ (replay x plan p).2.session.state = .empty ∧
    (replay x plan p).2.session.cancelled = true ∧
    ∃ c : Cue, (replay x.logging plan (p.logging [])).2.executor.2 = [.clear plan.keep, .cue c] ∧
      c.instruction = .setFlag "met" true ∧ c.scope.restoring = true ∧ c.cancels = true := by
  intro script p x plan
  have hrestores : x.Restores := fun e i scope hscope => Headless.restores e i scope hscope
  obtain ⟨-, -, hruns, -, hstate, -⟩ := replay_runs_plan x plan (p := p) rfl
  obtain ⟨ran, done, left, hlog, -, -, hmarked, -, -, -, -⟩ := hruns rfl
  have hcut : (replay x.logging plan (p.logging [])).2.executor.2 =
      [.clear plan.keep, .cue ⟨.setFlag "met" true, ⟨.empty, "cut short", true, false⟩, true⟩] := rfl
  rw [hcut] at hlog
  obtain ⟨-, hran⟩ := List.cons.inj hlog
  cases ran with
  | nil => cases hran
  | cons c more =>
    obtain ⟨hcue, -⟩ := List.cons.inj hran
    cases hcue
    exact ⟨rfl, rfl, rfl, hstate hrestores, rfl, _, hcut, rfl, hmarked _ List.mem_cons_self, rfl⟩

end Performance

end Narrative
