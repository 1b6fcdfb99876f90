import Narrative.Proofs.Play.Progress
import Narrative.Proofs.Play.Replay
import Narrative.Proofs.Play.Twin

namespace Narrative

/-- Behind the instruction at hand, if that is one to run. -/
def Session.behind (s : Session) : Session :=
  match s.current? with
  | some i => if i.isControl then s else s.advance
  | none => s

theorem Session.Twin.behind {s t : Session} (h : s.Twin t) : s.behind.Twin t.behind := by
  rw [Session.behind, Session.behind, h.current?]
  split
  · split
    · exact h
    · exact h.advance
  · exact h

/-- What restoring a position and going on from there without a screen comes to. -/
def Session.pickUp? (s : Session) (c : Checkpoint) (limit : Nat) :
    Option (Except Failure PlayOutcome × Performance Headless) :=
  match s.restore c with
  | .ok (restored, plan) =>
    some (Performance.resume Headless.executor plan limit ⟨restored, .fresh⟩)
  | .error _ => none

namespace Performance

/-- Plays on from behind the instruction at hand. A choice is waited for where it is. -/
def proceed (limit : Nat) (p : Performance Headless) :
    Except Failure PlayOutcome × Performance Headless :=
  match p.session.current? with
  | some (.choice _) => (.ok .awaitingChoice, p)
  | _ => play Headless.executor limit { p with session := p.session.behind }

variable {script : Script} {p q r live : Performance Headless} {i : Instruction}
  {outcome : PlayOutcome} {limit : Nat}

theorem twin_proceed (h : p.session.Twin q.session) (limit : Nat) :
    (proceed limit p).1 = (proceed limit q).1 ∧
      (proceed limit p).2.session.Twin (proceed limit q).2.session := by
  rw [proceed, proceed, h.current?]
  split
  · exact ⟨rfl, h⟩
  · exact twin_play h.behind limit

theorem resume_of_replay {plan : RestorePlan}
    (h : replay Headless.executor plan r = (.completed, q)) (limit : Nat) :
    resume Headless.executor plan limit r = proceed limit q := by
  rw [resume, h, proceed, Session.behind]
  dsimp only
  cases q.session.current? with
  | none => rfl
  | some i => cases i <;> rfl

/-- A replay leaves the session as it is, so going on after one is to proceed. -/
theorem resume_proceeds (hfree : r.session.cancelled = false)
    (htwin : { r.session with restoring := false }.Twin p.session) (plan : RestorePlan)
    (limit : Nat) :
    (resume Headless.executor plan limit r).1 = (proceed limit p).1 ∧
      (resume Headless.executor plan limit r).2.session.Twin (proceed limit p).2.session := by
  obtain ⟨hcompleted, hsession⟩ := replay_session hfree plan
  rw [resume_of_replay (Prod.ext hcompleted rfl)]
  rw [← hsession] at htwin
  exact twin_proceed htwin limit

/-- An instruction with nothing left to do to the state may have run or not. -/
theorem twin_performed (hlive : p.session.restoring = false)
    (hdone : p.session.state.apply i = p.session.state) :
    p.session.Twin ((p.remember i).perform Headless.executor i).session := by
  obtain ⟨snapshots, hremember⟩ := p.remember_eq i
  rw [hremember]
  refine ⟨rfl, rfl, ?_, (Bool.or_false _).symm, rfl⟩
  change p.session.state =
    if p.session.restoring then p.session.state else p.session.state.apply i
  rw [hlive, if_neg Bool.false_ne_true, hdone]

theorem proceed_of_isControl
    (hcontrol : ∀ i, p.session.current? = some i → i.isControl = true) (limit : Nat) :
    proceed limit p = play Headless.executor limit p := by
  rw [proceed, Session.behind]
  cases hcurrent : p.session.current? with
  | none => rfl
  | some i =>
    have hi := hcontrol i hcurrent
    cases i with
    | condition c | block name | jump name | exit | finish => rfl
    | _ => cases hi

theorem proceed_of_perform (hcurrent : p.session.current? = some i)
    (hcontrol : i.isControl = false) (hchoice : ∀ c, i ≠ .choice c) (limit : Nat) :
    proceed limit p =
      play Headless.executor limit { p with session := p.session.advance } := by
  rw [proceed, Session.behind, hcurrent]
  cases i with
  | choice c => exact absurd rfl (hchoice c)
  | condition c | block name | jump name | exit | finish => cases hcontrol
  | _ => rfl

/-- Live play takes one turn more than play from behind an instruction with nothing left to do, and
ends the same. -/
theorem play_behind {place : Place} (hfree : p.session.cancelled = false)
    (hlive : p.session.restoring = false)
    (hposition : p.session.position = .ok (some ⟨place, i⟩)) (hcontrol : i.isControl = false)
    (hchoice : ∀ c, i ≠ .choice c) (hdone : p.session.state.apply i = p.session.state) {n : Nat}
    (hplay : play Headless.executor (n + 1) p = (.ok outcome, live))
    (houtcome : outcome ≠ .stepLimit) :
    ∃ last, play Headless.executor (n + 1) { p with session := p.session.advance } =
        (.ok outcome, last) ∧ last.session.Twin live.session := by
  obtain ⟨ran, hbeat, htwin⟩ : ∃ ran, beat Headless.executor p = .on ran ∧
      p.session.advance.Twin ran.session :=
    ⟨_, beat_of_perform hfree hposition hcontrol hchoice, (twin_performed hlive hdone).advance⟩
  have hran : play Headless.executor n ran = (.ok outcome, live) := by
    rw [play_succ, hbeat] at hplay
    exact hplay
  obtain ⟨hsame, hlast⟩ := twin_play (p := ⟨p.session.advance, p.executor⟩) htwin n
  rcases hrest : play Headless.executor n ⟨p.session.advance, p.executor⟩ with ⟨o, last⟩
  rw [hrest, hran] at hsame hlast
  obtain rfl : o = .ok outcome := hsame
  have hstopped : (.ok outcome : Except Failure PlayOutcome) ≠ .ok .stepLimit := by
    simpa using houtcome
  exact ⟨last, play_of_le hrest (Nat.le_succ n) hstopped, hlast⟩

/-- To proceed ends as live play does, if the instruction at hand has nothing left to do. -/
theorem proceed_of_play (hfree : p.session.cancelled = false)
    (hlive : p.session.restoring = false)
    (hdone : ∀ i, p.session.current? = some i → p.session.state.apply i = p.session.state)
    (hplay : play Headless.executor limit p = (.ok outcome, live))
    (houtcome : outcome ≠ .stepLimit) :
    (proceed limit p).1 = .ok outcome ∧ (proceed limit p).2.session.Twin live.session := by
  by_cases hcontrol : ∀ i, p.session.current? = some i → i.isControl = true
  · rw [proceed_of_isControl hcontrol, hplay]
    exact ⟨rfl, .refl _⟩
  · obtain ⟨i, hi⟩ := not_forall.mp hcontrol
    obtain ⟨hcurrent, hcontrol⟩ := Classical.not_imp.mp hi
    rw [Bool.not_eq_true] at hcontrol
    obtain ⟨place, hposition⟩ := Session.position_of_current? hcurrent
    cases limit with
    | zero =>
      cases hplay
      exact absurd rfl houtcome
    | succ n =>
      by_cases hchoice : ∃ c, i = .choice c
      · obtain ⟨c, rfl⟩ := hchoice
        rw [play_succ, beat_of_choice hfree hposition] at hplay
        cases hplay
        rw [proceed, hcurrent]
        exact ⟨rfl, twin_performed hlive (hdone _ hcurrent)⟩
      · have hnone := not_exists.mp hchoice
        obtain ⟨last, hlast, htwin⟩ := play_behind hfree hlive hposition hcontrol hnone
          (hdone i hcurrent) hplay houtcome
        rw [proceed_of_perform hcurrent hcontrol hnone, hlast]
        exact ⟨rfl, htwin⟩

/-- What holds of a performance between two calls. Nothing has stopped it, and no replay is going on. -/
structure Undisturbed (script : Script) (p : Performance Headless) : Prop where
  steady : p.session.Steady script
  free : p.session.cancelled = false
  live : p.session.restoring = false

theorem Undisturbed.start {name : String} {settings : Settings} (hs : script.Sound) :
    Undisturbed script ⟨Session.start name script settings, .fresh⟩ :=
  ⟨.start hs, rfl, rfl⟩

theorem Undisturbed.make (h : Undisturbed script p) (hs : script.Sound)
    (ha : script.Addressable) {m : Move} {s : Session} (hmake : p.session.make? m = some s) :
    Undisturbed script { p with session := s } := by
  obtain ⟨-, -, hcancelled, -, hrestoring, -⟩ := Session.make?_frame hmake
  exact ⟨h.steady.make hs ha hmake, hcancelled.trans h.free, hrestoring.trans h.live⟩

theorem Undisturbed.perform (h : Undisturbed script p) (i : Instruction) :
    Undisturbed script ((p.remember i).perform Headless.executor i) := by
  obtain ⟨snapshots, hremember⟩ := p.remember_eq i
  rw [hremember]
  exact ⟨h.steady.congr rfl rfl rfl, (Bool.or_false _).trans h.free, h.live⟩

theorem Undisturbed.beat (h : Undisturbed script p) (hs : script.Sound)
    (ha : script.Addressable) :
    match beat Headless.executor p with
    | .on q => Undisturbed script q
    | .stop _ q => Undisturbed script q := by
  obtain ⟨k, log, hfollows⟩ := h.steady.follows
  have hbeats := beats (x := Headless.executor) hfollows (h.steady.same ▸ hs)
    (h.steady.same ▸ ha) h.free
  generalize Performance.beat Headless.executor p = b at hbeats
  cases hbeats with
  | entry => exact h.make (m := .advance) hs ha rfl
  | jump _ _ hmake | turn _ _ _ hmake => exact h.make hs ha hmake
  | perform => exact (h.perform _).make (m := .advance) hs ha rfl
  | ended => exact h
  | choice => exact h.perform (.choice _)

theorem Undisturbed.play (h : Undisturbed script p) (hs : script.Sound)
    (ha : script.Addressable) (n : Nat) :
    Undisturbed script (play Headless.executor n p).2 := by
  induction n generalizing p with
  | zero => exact h
  | succ n ih =>
    have hbeat := h.beat hs ha
    rw [play_succ]
    cases hq : Performance.beat Headless.executor p with
    | on q =>
      rw [hq] at hbeat
      exact ih hbeat
    | stop outcome q =>
      rw [hq] at hbeat
      exact hbeat

theorem Undisturbed.call (h : Undisturbed script p) (hs : script.Sound)
    (ha : script.Addressable) (c : Call) : Undisturbed script (p.call c) := by
  cases c with
  | play limit => exact h.play hs ha limit
  | choose branch =>
    rw [Performance.call]
    split
    · rename_i s hchoose
      exact h.make hs ha (Session.make?_of_choose hchoose)
    · exact h

theorem Undisturbed.run (h : Undisturbed script p) (hs : script.Sound)
    (ha : script.Addressable) (calls : List Call) :
    Undisturbed script (calls.foldl Performance.call p) := by
  induction calls generalizing p with
  | nil => exact h
  | cons c rest ih => exact ih (h.call hs ha c)

/-- A save of such a performance can be restored in any session of the script that is not disturbed
either, and going on there is to proceed here. -/
theorem Undisturbed.pickUp? (h : Undisturbed script p) {s : Session} (hs : s.Steady script)
    (hfree : s.cancelled = false) (limit : Nat) :
    ∃ resumed, s.pickUp? p.session.toCheckpoint limit = some resumed ∧
      resumed.1 = (proceed limit p).1 ∧
      resumed.2.session.Twin (proceed limit p).2.session := by
  obtain ⟨plan, hrestore, -⟩ := hs.restore h.steady.leads
  obtain ⟨restored, hrestored⟩ : ∃ t : Session, t = { s with
    toCheckpoint := p.session.toCheckpoint, keep := plan.keep, undo := [] } := ⟨_, rfl⟩
  have htwin : { restored with restoring := false }.Twin p.session := by
    rw [hrestored]
    exact ⟨hs.same.trans h.steady.same.symm, rfl, rfl, hfree.trans h.free.symm, h.live.symm⟩
  have hcalm : restored.cancelled = false := by
    rw [hrestored]
    exact hfree
  refine ⟨resume Headless.executor plan limit ⟨restored, .fresh⟩, ?_,
    resume_proceeds (r := ⟨restored, .fresh⟩) hcalm htwin plan limit⟩
  rw [Session.pickUp?, hrestore, ← hrestored]

/-- Wherever a save is taken, going on from it ends as live play does from there, on the same path and
with the same state, if the instruction at hand has no change of the state left to make. -/
theorem resume_of_play {d : Draft} {limits : Limits} (hscript : d.compile limits = .ok script)
    (haddressable : script.Addressable) {name : String} {settings : Settings}
    {calls : List Call}
    (hp : calls.foldl call ⟨Session.start name script settings, .fresh⟩ = p)
    (hplay : play Headless.executor limit p = (.ok outcome, live))
    (houtcome : outcome ≠ .stepLimit)
    (hdone : ∀ i, p.session.current? = some i → p.session.state.apply i = p.session.state)
    (other : String) (time : UInt64) (kind : SaveKind) :
    ∃ resumed,
      (Session.start other script settings).pickUp? (p.session.save time kind).toCheckpoint
        limit = some (.ok outcome, resumed) ∧
      resumed.session.path = live.session.path ∧
      resumed.session.state = live.session.state := by
  have hsound := Draft.compile_sound hscript
  have hbetween : Undisturbed script p := by
    rw [← hp]
    exact (Undisturbed.start hsound).run hsound haddressable calls
  obtain ⟨resumed, hpicked, hproceeds, hgone⟩ :=
    hbetween.pickUp? (s := Session.start other script settings) (.start hsound) rfl limit
  obtain ⟨hends, hsame⟩ := proceed_of_play hbetween.free hbetween.live hdone hplay houtcome
  have hlast := hgone.trans hsame
  rw [hends] at hproceeds
  exact ⟨resumed.2, hpicked.trans (congrArg some (Prod.ext hproceeds rfl)), hlast.path,
    hlast.state⟩

/-- A character comes on stage, and then there is gold. -/
def purse : Draft := .ofScenes [
  ("start", [.showCharacter "ava" none none, .setVar "gold" 5, .finish])]

theorem purse_compiles : purse.compile {} = .ok ⟨purse.scenes, purse.ordered⟩ := by
  rfl

/-- A save with the character at hand: the gold is still to come. -/
theorem resume_of_play_purse :
    ∃ live resumed,
      play Headless.executor 10 ([.play 1].foldl call
        ⟨Session.start "live" ⟨purse.scenes, purse.ordered⟩ {}, .fresh⟩) = (.ok .ended, live) ∧
      (Session.start "restored" ⟨purse.scenes, purse.ordered⟩ {}).pickUp?
        (([.play 1].foldl call ⟨Session.start "live" ⟨purse.scenes, purse.ordered⟩ {},
          .fresh⟩).session.save 0 .manual).toCheckpoint 10 = some (.ok .ended, resumed) ∧
      resumed.session.path = live.session.path ∧
      resumed.session.state = .ofPairs [("gold", .int 5)] := by
  have haddressable := Draft.compile_addressable purse_compiles (by decide)
  obtain ⟨live, hlive⟩ : ∃ live, play Headless.executor 10 ([.play 1].foldl call
      ⟨Session.start "live" ⟨purse.scenes, purse.ordered⟩ {}, .fresh⟩) = (.ok .ended, live) :=
    ⟨_, Prod.ext rfl rfl⟩
  have hdone : ∀ i, ([.play 1].foldl call ⟨Session.start "live" ⟨purse.scenes, purse.ordered⟩ {},
      .fresh⟩).session.current? = some i → PlayerState.empty.apply i = .empty := by
    intro i hcurrent
    cases hcurrent
    rfl
  obtain ⟨resumed, hpicked, hpath, hstate⟩ := resume_of_play purse_compiles haddressable rfl hlive
    (by decide) hdone "restored" 0 .manual
  have hgold : live.session.state = .ofPairs [("gold", .int 5)] := by
    rw [← show (play Headless.executor 10 _).2 = live from congrArg Prod.snd hlive]
    rfl
  exact ⟨live, resumed, hlive, hpicked, hpath, hstate.trans hgold⟩

/-- A save with the gold at hand: it is taken to have been got, and is not. -/
theorem gold_lost_by_resume :
    ∃ live resumed,
      purse.compile {} = .ok ⟨purse.scenes, purse.ordered⟩ ∧
      play Headless.executor 10 ([.play 2].foldl call
        ⟨Session.start "live" ⟨purse.scenes, purse.ordered⟩ {}, .fresh⟩) = (.ok .ended, live) ∧
      (Session.start "restored" ⟨purse.scenes, purse.ordered⟩ {}).pickUp?
        (([.play 2].foldl call ⟨Session.start "live" ⟨purse.scenes, purse.ordered⟩ {},
          .fresh⟩).session.save 0 .manual).toCheckpoint 10 = some (.ok .ended, resumed) ∧
      live.session.state = .ofPairs [("gold", .int 5)] ∧ resumed.session.state = .empty :=
  ⟨_, _, purse_compiles, Prod.ext rfl rfl, congrArg some (Prod.ext rfl rfl), rfl, rfl⟩

end Performance

end Narrative
