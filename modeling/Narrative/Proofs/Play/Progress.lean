import Narrative.Proofs.Play.Beat
import Narrative.Proofs.Session.Steady
import Narrative.Trace

namespace Narrative

namespace Performance

variable {σ : Type} {script : Script} {x : Executor σ} {p : Performance σ}

/-- Play has stopped without a failure, in a session that is not lost, and waits only where a choice is
shown. -/
structure Stopped (script : Script) (outcome : Except Failure PlayOutcome)
    (p : Performance σ) : Prop where
  ok : ∃ o, outcome = .ok o
  steady : p.session.Steady script
  choice : outcome = .ok .awaitingChoice → ∃ c, p.session.current? = some (.choice c)

theorem stopped_of_ne {o : PlayOutcome} (h : p.session.Steady script)
    (ho : o ≠ .awaitingChoice) : Stopped script (.ok o) p :=
  ⟨⟨o, rfl⟩, h, fun hawaiting => absurd (Except.ok.inj hawaiting) ho⟩

theorem steady_perform (h : p.session.Steady script) (x : Executor σ) (i : Instruction) :
    (p.perform x i).session.Steady script := h.congr rfl rfl rfl

theorem steady_remember (h : p.session.Steady script) (i : Instruction) :
    (p.remember i).session.Steady script := by
  obtain ⟨snapshots, hremember⟩ := p.remember_eq i
  rw [hremember]
  exact h.congr rfl rfl rfl

/-- What one turn leaves behind. -/
theorem steady_beat (h : p.session.Steady script) (hs : script.Sound)
    (ha : script.Addressable) :
    match beat x p with
    | .on q => q.session.Steady script
    | .stop outcome q => Stopped script outcome q := by
  cases hcancelled : p.session.cancelled with
  | true =>
    rw [beat, if_pos hcancelled]
    exact stopped_of_ne h (by simp)
  | false =>
    obtain ⟨k, log, hfollows⟩ := h.follows
    have hcurrent := hfollows.current? (h.same ▸ ha)
    have hbeats := beats (x := x) hfollows (h.same ▸ hs) (h.same ▸ ha) hcancelled
    cases hbeat : beat x p with
    | on q =>
      rw [hbeat] at hbeats
      cases hbeats with
      | entry => exact h.make (m := .advance) hs ha rfl
      | jump _ _ hmake | turn _ _ _ hmake => exact h.make hs ha hmake
      | perform => exact (steady_perform (steady_remember h _) x _).make (m := .advance) hs ha rfl
    | stop outcome q =>
      rw [hbeat] at hbeats
      cases hbeats with
      | ended => exact stopped_of_ne h (by simp)
      | @choice place c hspot =>
        rw [hspot] at hcurrent
        exact ⟨⟨_, rfl⟩, steady_perform h x _, fun _ => ⟨c, hcurrent⟩⟩

theorem stopped_play (h : p.session.Steady script) (hs : script.Sound)
    (ha : script.Addressable) (n : Nat) :
    Stopped script (play x n p).1 (play x n p).2 := by
  induction n generalizing p with
  | zero => exact stopped_of_ne h (by simp)
  | succ n ih =>
    have hbeat := steady_beat (x := x) h hs ha
    rw [play_succ]
    cases hq : beat x p with
    | on q =>
      rw [hq] at hbeat
      exact ih hbeat
    | stop outcome q =>
      rw [hq] at hbeat
      exact hbeat

theorem steady_replayQueue (h : p.session.Steady script) (queue : List Instruction) :
    (replayQueue x queue p).2.session.Steady script := by
  induction queue generalizing p with
  | nil => exact h
  | cons i rest ih =>
    rw [replayQueue]
    split
    · exact h
    · split
      · exact ih h
      · exact ih (steady_perform h x i)

theorem steady_replay (h : p.session.Steady script) (plan : RestorePlan) :
    (replay x plan p).2.session.Steady script := by
  rw [replay]
  split
  · exact h
  · have hcleared :
        { (p.clearStage x plan.keep).session with restoring := true }.Steady script :=
      h.congr rfl rfl rfl
    exact (steady_replayQueue hcleared plan.queue).congr rfl rfl rfl

theorem stopped_resume (h : p.session.Steady script) (hs : script.Sound)
    (ha : script.Addressable) (plan : RestorePlan) (limit : Nat) :
    Stopped script (resume x plan limit p).1 (resume x plan limit p).2 := by
  have hreplayed := steady_replay (x := x) h plan
  rw [resume]
  rcases hreplay : replay x plan p with ⟨_ | _, q⟩
  case cancelled =>
    rw [hreplay] at hreplayed
    exact stopped_of_ne hreplayed (by simp)
  case completed =>
    rw [hreplay] at hreplayed
    dsimp only
    split
    · rename_i c hcurrent
      exact ⟨⟨_, rfl⟩, hreplayed, fun _ => ⟨c, hcurrent⟩⟩
    · split
      · exact stopped_play hreplayed hs ha limit
      · exact stopped_play (hreplayed.make (m := .advance) hs ha rfl) hs ha limit
    · exact stopped_play hreplayed hs ha limit

end Performance

/-- All that can come of the sessions of a script. Saves are taken from any of them and restored in any
other. -/
inductive Session.Reached (script : Script) : Session → Prop
  | start (name : String) (settings : Settings) :
    Reached script (Session.start name script settings)
  | move {s s' : Session} {m : Move} (h : Reached script s) (hmove : s.attempt m = .ok s') :
    Reached script s'
  | undo {s : Session} (h : Reached script s) : Reached script s.goBack.1
  /-- What a caller may set between two calls; play can be stopped from outside. -/
  | set {s : Session} (h : Reached script s) (policy : RestorePolicy) (preview cancelled : Bool) :
    Reached script { s with policy := policy, preview := preview, cancelled := cancelled }
  | play {σ : Type} {s : Session} (h : Reached script s) (x : Executor σ) (executor : σ)
    (limit : Nat) : Reached script (Performance.play x limit ⟨s, executor⟩).2.session
  | restore {s saved restored : Session} {plan : RestorePlan} (h : Reached script s)
    (hsaved : Reached script saved) {time : UInt64} {kind : SaveKind}
    (hrestore : s.restore (saved.save time kind).toCheckpoint = .ok (restored, plan)) :
    Reached script restored
  | replay {σ : Type} {s : Session} (h : Reached script s) (x : Executor σ) (executor : σ)
    (plan : RestorePlan) : Reached script (Performance.replay x plan ⟨s, executor⟩).2.session
  | resume {σ : Type} {s : Session} (h : Reached script s) (x : Executor σ) (executor : σ)
    (plan : RestorePlan) (limit : Nat) :
    Reached script (Performance.resume x plan limit ⟨s, executor⟩).2.session

namespace Session

theorem Reached.steady {script : Script} {s : Session} (h : Reached script s)
    (hs : script.Sound) (ha : script.Addressable) : s.Steady script := by
  induction h with
  | start name settings => exact .start hs
  | move _ hmove ih => exact ih.attempt hs ha hmove
  | undo _ ih => exact ih.goBack.1
  | set _ policy preview cancelled ih => exact ih.congr rfl rfl rfl
  | play _ x executor limit ih => exact (Performance.stopped_play ih hs ha limit).steady
  | restore _ _ hrestore ih ihsaved =>
    obtain ⟨plan, hplan, hsteady⟩ := ih.restore ihsaved.leads
    cases hplan.symm.trans hrestore
    exact hsteady
  | replay _ x executor plan ih => exact Performance.steady_replay ih plan
  | resume _ x executor plan limit ih =>
    exact (Performance.stopped_resume ih hs ha plan limit).steady

/-- Nothing goes wrong in a session, but for moves that are refused with good reason. -/
structure Safe (script : Script) (s : Session) : Prop where
  same : s.script = script
  position : ∃ spot, s.position = .ok spot
  move : ∀ m f, s.attempt m = .error f ↔ s.Refuses m f
  undo : s.goBack.2 = none ↔ s.undo = []
  restore : ∀ saved, Reached script saved → ∀ time kind,
    ∃ r, s.restore (saved.save time kind).toCheckpoint = .ok r
  play : ∀ {σ : Type} (x : Executor σ) executor limit,
    ∃ outcome, (Performance.play x limit ⟨s, executor⟩).1 = .ok outcome
  resume : ∀ {σ : Type} (x : Executor σ) executor plan limit,
    ∃ outcome, (Performance.resume x plan limit ⟨s, executor⟩).1 = .ok outcome

theorem Reached.safe {script : Script} {s : Session} (h : Reached script s)
    (hs : script.Sound) (ha : script.Addressable) : s.Safe script := by
  have hsteady := h.steady hs ha
  refine ⟨hsteady.same, hsteady.position ha, fun m f => attempt_eq_error, hsteady.goBack.2, ?_, ?_, ?_⟩
  · intro saved hsaved time kind
    obtain ⟨plan, hplan, -⟩ := hsteady.restore (hsaved.steady hs ha).leads
    exact ⟨_, hplan⟩
  · intro σ x executor limit
    exact (Performance.stopped_play (p := ⟨s, executor⟩) hsteady hs ha limit).ok
  · intro σ x executor plan limit
    exact (Performance.stopped_resume (p := ⟨s, executor⟩) hsteady hs ha plan limit).ok

end Session

namespace Trace

/-- Rounds of play fail for an answer that is not offered, and for nothing else. -/
theorem rounds_eq_error {script : Script} (hs : script.Sound) (ha : script.Addressable)
    {n left : Nat} {answers : List UInt64} {p : Performance Headless} {f : Failure}
    (h : p.session.Steady script) (herror : rounds n left answers p = .error f) :
    ∃ branch, f = .invalidChoice branch := by
  induction n generalizing left answers p with
  | zero => cases herror
  | succ n ih =>
    have hstopped := Performance.stopped_play (x := Headless.executor) h hs ha left
    rw [rounds] at herror
    rcases hplay : Performance.play Headless.executor left p with ⟨result, q⟩
    rw [hplay] at hstopped herror
    obtain ⟨⟨outcome, rfl⟩, hsteady, hchoice⟩ := hstopped
    cases outcome with
    | ended | stepLimit | cancelled => cases herror
    | awaitingChoice =>
      obtain ⟨c, hc⟩ := hchoice rfl
      dsimp only at herror
      split at herror
      · cases herror
      · cases hchosen : q.session.choose (answers.headD 0) with
        | ok s =>
          rw [hchosen] at herror
          exact ih (p := ⟨s, q.executor⟩) (hsteady.attempt (m := .choose _) hs ha hchosen) herror
        | error failure =>
          rw [hchosen] at herror
          cases herror
          have hrefused := (Session.attempt_eq_error (m := .choose _)).mp hchosen
          cases hrefused with
          | noChoice hnone => exact absurd hc (hnone c)
          | notOffered => exact ⟨_, rfl⟩

end Trace

namespace Session

/-- In a script that was checked nothing goes wrong but what is asked for in the wrong place. -/
theorem safe_of_reached {d : Draft} {limits : Limits} {script : Script}
    (hscript : d.compile limits = .ok script) (haddressable : script.Addressable) :
    (∀ s, Reached script s → s.Safe script) ∧
      ∀ settings answers steps f, Trace.ofScript script settings answers steps = .error f →
        ∃ branch, f = .invalidChoice branch := by
  have hsound := Draft.compile_sound hscript
  refine ⟨fun s hreached => hreached.safe hsound haddressable, ?_⟩
  intro settings answers steps f herror
  exact Trace.rounds_eq_error hsound haddressable (.start hsound) herror

theorem safe_of_reached_sample :
    let script : Script := ⟨Draft.sample.scenes, Draft.sample.ordered⟩
    Draft.sample.compile {} = .ok script ∧ script.Addressable ∧
      (∀ s, Reached script s → s.Safe script) ∧
      ∀ settings answers steps f, Trace.ofScript script settings answers steps = .error f →
        ∃ branch, f = .invalidChoice branch := by
  intro script
  have haddressable := Draft.compile_addressable Draft.sample_compiles (by decide)
  exact ⟨Draft.sample_compiles, haddressable,
    safe_of_reached Draft.sample_compiles haddressable⟩

end Session

end Narrative
