import Narrative.Proofs.Play.Beat
import Narrative.Proofs.Play.Replay
import Narrative.Proofs.Session.Undo

namespace Narrative

open Instruction (last? Effect)

namespace Stage

theorem shows_retain (s : Stage) (keep : KeepSets) (e : Effect) :
    (s.retain keep).shows e = (s.shows e && keep.names e) := by
  cases e <;> simp [retain, shows, KeepSets.names]

theorem names_keepSets (s : Stage) (e : Effect) : s.keepSets.names e = s.shows e := by
  cases e <;> rfl

theorem last?_background {queue : List Instruction} {i : Instruction}
    (h : last? .background queue = some i) : ∃ name, i = .showBackground name := by
  have hover := (Instruction.overrides_of_last? h).2
  cases i <;> simp_all [Instruction.overrides, Instruction.effect?, Effect.endedBy]

/-- The background that instructions make of an empty stage, or else the one that is there. -/
theorem background_foldl_or (s : Stage) (queue : List Instruction) :
    (queue.foldl apply s).background = (queue.foldl apply .empty).background.or s.background := by
  rw [background_foldl, background_foldl]
  cases hlast : last? .background queue with
  | none => rfl
  | some i =>
    obtain ⟨name, rfl⟩ := last?_background hlast
    rfl

theorem isSome_background_foldl (queue : List Instruction) :
    (queue.foldl apply .empty).background.isSome = true ↔
      ∃ name, .showBackground name ∈ queue := by
  rw [background_foldl]
  constructor
  · intro h
    cases hlast : last? .background queue with
    | none =>
      rw [hlast] at h
      cases h
    | some i =>
      obtain ⟨name, rfl⟩ := last?_background hlast
      exact ⟨name, (Instruction.overrides_of_last? hlast).1⟩
  · rintro ⟨name, hname⟩
    have hsome : (last? .background queue).isSome = true := by
      rw [Instruction.last?_isSome, List.any_eq_true]
      exact ⟨_, hname, rfl⟩
    obtain ⟨i, hlast⟩ := Option.isSome_iff_exists.mp hsome
    obtain ⟨found, rfl⟩ := last?_background hlast
    rw [hlast]
    rfl

/-- All that is kept of a stage is shown again by the instructions that name it, but for the background,
which is kept unless they show one. -/
theorem foldl_retain (s : Stage) {queue : List Instruction} {keep : KeepSets}
    (hkeep : keep = (queue.foldl apply .empty).keepSets) :
    queue.foldl apply (s.retain keep) =
      { queue.foldl apply .empty with
        background := (queue.foldl apply .empty).background.or s.background } := by
  apply ext_shows
  · exact background_foldl_or _ queue
  · intro e
    have hredrawn (background : Option String) :
        Stage.shows { queue.foldl apply .empty with background := background } e =
          (queue.foldl apply .empty).shows e := by
      cases e <;> rfl
    rw [hredrawn]
    cases he : e.isStaged with
    | false => cases e <;> first | rfl | cases he
    | true =>
      have hnames : keep.names e = (queue.foldl apply .empty).shows e := by
        rw [hkeep, names_keepSets]
      rw [shows_foldl _ _ he, shows_empty] at hnames
      rw [shows_foldl _ _ he, shows_foldl _ _ he, shows_empty, shows_retain, hnames]
      cases last? e queue with
      | none => exact Bool.and_false _
      | some i => rfl

/-- Instructions that show no background make the same of two stages just if these have the same one. -/
theorem foldl_retain_eq_iff (s t : Stage) {queue : List Instruction} {keep : KeepSets}
    (hkeep : keep = (queue.foldl apply .empty).keepSets) :
    queue.foldl apply (s.retain keep) = queue.foldl apply (t.retain keep) ↔
      s.background = t.background ∨ ∃ name, .showBackground name ∈ queue := by
  rw [foldl_retain s hkeep, foldl_retain t hkeep, ← isSome_background_foldl]
  cases (queue.foldl apply .empty).background <;> simp

end Stage

/-- A plan keeps just what its queue brings on stage. -/
theorem Session.keep_of_plan {s : Session} {p : Path} {plan : RestorePlan}
    (hplan : s.plan p = .ok plan) :
    plan.keep = (plan.queue.foldl Stage.apply .empty).keepSets := by
  cases hh : History.ofPath s.script p with
  | error fault =>
    rw [Session.plan, RestorePlan.ofPath, hh] at hplan
    cases hplan
  | ok h =>
    cases (Session.plan_of_ofPath hh).symm.trans hplan
    have hmarked := History.marked_silent (History.marked_ofPath hh)
    have hqueue := Compaction.foldl_queue s.policy hmarked .empty
    exact (Compaction.keepSets_queue s.policy hmarked).trans (congrArg Stage.keepSets hqueue.symm)

namespace Performance

/-- What going back and replaying on the stage as it is comes to. -/
def redraw? (live : Performance Headless) : Option (ReplayOutcome × Stage) :=
  match live.session.goBack with
  | (back, some plan) =>
    let replayed := replay Headless.executor plan ⟨back, live.executor⟩
    some (replayed.1, replayed.2.executor.stage)
  | (_, none) => none

theorem redraw?_of_plan {live : Performance Headless} {c : Checkpoint} {rest : List Checkpoint}
    {plan : RestorePlan} (hundo : live.session.undo = c :: rest)
    (hplan : live.session.plan c.path = .ok plan) (hlive : live.session.cancelled = false) :
    live.redraw? =
      some (.completed, plan.queue.foldl Stage.apply (live.executor.stage.retain plan.keep)) := by
  obtain ⟨houtcome, hstage⟩ := replay_stage_retain
    (p := ⟨{ live.session with toCheckpoint := c, keep := plan.keep, undo := rest }, live.executor⟩)
    hlive plan
  rw [redraw?, Session.goBack_of_plan hundo hplan]
  dsimp only
  rw [houtcome, hstage]

/-- Two replays of a plan that nobody stops end alike just if the background was the same before or is
shown by the plan; nothing else of what was on stage matters. So going back redraws on the live stage
what restoring draws on an empty one, unless a background stays that the way back does not know of. -/
theorem replay_eq_iff {s : Session} {c : Checkpoint} {plan : RestorePlan}
    (hplan : s.plan c.path = .ok plan) :
    (∀ x y : Performance Headless, x.session.cancelled = false → y.session.cancelled = false →
      let drawn := plan.queue.foldl Stage.apply .empty
      let onto := replay Headless.executor plan
      (onto x).1 = .completed ∧ (onto y).1 = .completed ∧
      (onto x).2.executor.stage =
        { drawn with background := drawn.background.or x.executor.stage.background } ∧
      ((onto x).2.executor.stage = (onto y).2.executor.stage ↔
        x.executor.stage.background = y.executor.stage.background ∨
          ∃ name, .showBackground name ∈ plan.queue)) ∧
    ∀ (live : Performance Headless) (rest : List Checkpoint), live.session.undo = c :: rest →
      live.session.script = s.script → live.session.policy = s.policy →
      live.session.cancelled = false → s.cancelled = false →
      (∃ stage, live.redraw? = some (.completed, stage)) ∧
      (live.redraw? = s.rebuild? c ↔
        live.executor.stage.background = none ∨ ∃ name, .showBackground name ∈ plan.queue) := by
  have hkeep := Session.keep_of_plan hplan
  constructor
  · intro x y hx hy drawn onto
    obtain ⟨houtcome, hstage⟩ := replay_stage_retain hx plan
    obtain ⟨houtcome', hstage'⟩ := replay_stage_retain hy plan
    refine ⟨houtcome, houtcome', hstage.trans (Stage.foldl_retain _ hkeep), ?_⟩
    rw [hstage, hstage']
    exact Stage.foldl_retain_eq_iff _ _ hkeep
  · intro live rest hundo hscript hpolicy hlive hs
    have hsame : live.session.plan c.path = .ok plan := by
      rw [← hplan, Session.plan, Session.plan, hscript, hpolicy]
    have hredraw := redraw?_of_plan hundo hsame hlive
    have hempty : Stage.retain plan.keep .empty = .empty := rfl
    have hnone : Stage.empty.background = none := rfl
    have heq := Stage.foldl_retain_eq_iff live.executor.stage .empty hkeep
    rw [hempty, hnone] at heq
    refine ⟨⟨_, hredraw⟩, ?_⟩
    rw [hredraw, rebuild?_of_plan hplan hs, Option.some_inj, Prod.mk.injEq]
    exact (and_iff_right rfl).trans heq

/-- Where no background was ever shown, going back from the second visit of the room to the first redraws
the stage, and so does a replay on a stage with others on it. -/
theorem replay_eq_iff_sample :
    let script : Script := ⟨Draft.sample.scenes, Draft.sample.ordered⟩
    let live := [.play 10, .choose 1, .play 10].foldl call
      ⟨Session.start "live" script {}, .fresh⟩
    let other : Headless := ⟨[], ⟨none, .ofList ["ben"], .ofList ["theme"], .empty⟩⟩
    ∃ c plan, live.session.undo = [c] ∧ live.session.plan c.path = .ok plan ∧
      live.redraw? = live.session.rebuild? c ∧
      (replay Headless.executor plan ⟨live.session, other⟩).2.executor.stage =
        (replay Headless.executor plan ⟨live.session, .fresh⟩).2.executor.stage := by
  intro script live other
  obtain ⟨c, hc⟩ : ∃ c : Checkpoint,
      c = ⟨[.jump "start", .index 1, .enterBlock "room", .index 0], .empty, []⟩ := ⟨_, rfl⟩
  have hundo : live.session.undo = [c] := by
    rw [hc]
    decide +kernel
  have hplan : (live.session.plan c.path).toOption.isSome = true := by
    rw [hc]
    decide +kernel
  have hfree : live.session.cancelled = false := by decide +kernel
  have hbackground : live.executor.stage.background = none := by decide +kernel
  clear_value live
  cases hfound : live.session.plan c.path with
  | error failure =>
    rw [hfound] at hplan
    cases hplan
  | ok plan =>
    obtain ⟨halike, hredraw⟩ := replay_eq_iff hfound
    have hothers := (halike ⟨live.session, other⟩ ⟨live.session, .fresh⟩ hfree hfree).2.2.2
    have hundone := (hredraw live [] hundo rfl rfl hfree hfree).2
    exact ⟨c, plan, hundo, hfound, hundone.mpr (.inl hbackground), hothers.mpr (.inl rfl)⟩

/-- A choice, behind it a background, and another choice. -/
def hallway : Draft := .ofScenes [
  ("start", [.choice ⟨none, [⟨"Enter", [.showBackground "hall.png",
    .choice ⟨none, [⟨"Stay", [.finish], none, none, none, none⟩]⟩], none, none, none, none⟩]⟩])]

/-- Going back from behind a background leaves it standing, and restoring the same position does not show
it. -/
theorem backdrop_left_by_undo :
    let script : Script := ⟨hallway.scenes, hallway.ordered⟩
    let live := [.play 10, .choose 0, .play 10].foldl call ⟨Session.start "live" script {}, .fresh⟩
    let c : Checkpoint := ⟨[.jump "start", .index 0], .empty, []⟩
    hallway.compile {} = .ok script ∧ live.session.undo = [c] ∧
      live.redraw? = some (.completed, ⟨some "hall.png", .empty, .empty, .empty⟩) ∧
      (Session.start "restored" script {}).rebuild? c = some (.completed, .empty) := by
  intro script live c
  refine ⟨rfl, ?_, ?_, ?_⟩
  · decide +kernel
  · decide +kernel
  · decide +kernel

end Performance

end Narrative
