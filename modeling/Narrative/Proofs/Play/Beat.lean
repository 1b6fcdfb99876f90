import Narrative.Proofs.Session.Refinement
import Narrative.Trace

namespace Narrative

theorem Session.position_of_current? {s : Session} {i : Instruction} (h : s.current? = some i) :
    ∃ place, s.position = .ok (some ⟨place, i⟩) := by
  rw [current?] at h
  split at h
  · rename_i found hposition
    obtain ⟨⟨place, i⟩, rfl, rfl⟩ := Option.map_eq_some_iff.mp h
    exact ⟨place, hposition⟩
  · cases h

/-- What comes of one turn of play: play stops, or goes on. -/
inductive Beat (σ : Type)
  | stop (outcome : Except Failure PlayOutcome) (p : Performance σ)
  | on (p : Performance σ)

namespace Performance

variable {σ : Type}

def beat (x : Executor σ) (p : Performance σ) : Beat σ :=
  if p.session.cancelled then .stop (.ok .cancelled) p
  else match p.session.position with
  | .error fault => .stop (.error (.unresolvable fault)) p
  | .ok none =>
    if p.session.isAtEntry then .on { p with session := p.session.advance }
    else .stop (.ok .ended) p
  | .ok (some spot) =>
    match spot.instruction with
    | .finish => .stop (.ok .ended) p
    | .choice c => .stop (.ok .awaitingChoice) (p.perform x (.choice c))
    | i =>
      if i.isControl then
        match steer p.session i with
        | .ok s => .on { p with session := s }
        | .error failure => .stop (.error failure) p
      else
        let p := (p.remember i).perform x i
        .on { p with session := p.session.advance }

theorem play_succ (x : Executor σ) (n : Nat) (p : Performance σ) :
    play x (n + 1) p =
      match beat x p with
      | .stop outcome p' => (outcome, p')
      | .on p' => play x n p' := by
  rw [play, beat]
  split
  · rfl
  · cases p.session.position with
    | error fault => rfl
    | ok found =>
      cases found with
      | none =>
        dsimp only
        split <;> rfl
      | some spot =>
        obtain ⟨place, i⟩ := spot
        cases i with
        | finish | choice c => rfl
        | condition c | block scene | jump scene | exit =>
          dsimp only
          cases steer p.session _ <;> rfl
        | _ => rfl

/-- Play that has stopped before its last turn stops there with more turns to spare as well. -/
theorem play_of_le {x : Executor σ} {n m : Nat} {p q : Performance σ}
    {outcome : Except Failure PlayOutcome} (h : play x n p = (outcome, q)) (hle : n ≤ m)
    (houtcome : outcome ≠ .ok .stepLimit) : play x m p = (outcome, q) := by
  induction n generalizing m p with
  | zero =>
    cases h
    exact absurd rfl houtcome
  | succ n ih =>
    cases m with
    | zero => cases hle
    | succ m =>
      rw [play_succ] at h ⊢
      cases hbeat : beat x p with
      | stop outcome' p' =>
        rw [hbeat] at h
        exact h
      | on p' =>
        rw [hbeat] at h
        exact ih h (Nat.le_of_succ_le_succ hle)

/-- Remembering the state leaves everything else as it is. -/
theorem remember_eq (p : Performance σ) (i : Instruction) :
    ∃ snapshots,
      p.remember i = { p with session := { p.session with snapshots := snapshots } } := by
  unfold remember
  split
  · rw [Session.recordSnapshot]
    split <;> exact ⟨_, rfl⟩
  · exact ⟨p.session.snapshots, rfl⟩

/-- What one turn of play can be, in step with a stack. In a sound script no turn fails. -/
inductive Beats (x : Executor σ) (p : Performance σ) (k : Stack) : Beat σ → Prop
  | entry (hspot : k.top.spot? = none) : Beats x p k (.on { p with session := p.session.advance })
  | ended (hspot : ∀ spot, k.top.spot? = some spot → spot.instruction = .finish) :
    Beats x p k (.stop (.ok .ended) p)
  | choice {place : Place} {c : Choice Instruction}
    (hspot : k.top.spot? = some ⟨place, .choice c⟩) :
    Beats x p k (.stop (.ok .awaitingChoice) (p.perform x (.choice c)))
  | jump {spot : Spot} {name : String} {s : Session} (hspot : k.top.spot? = some spot)
    (hname : spot.instruction = .jump name) (hmake : p.session.make? (.jump name) = some s) :
    Beats x p k (.on { p with session := s })
  | turn {spot : Spot} {m : Move} {s : Session} (hspot : k.top.spot? = some spot)
    (hcontrol : spot.instruction.isControl = true)
    (hjump : ∀ name, spot.instruction ≠ .jump name) (hmake : p.session.make? m = some s)
    (hkept : ∀ log, m.kept log = log) : Beats x p k (.on { p with session := s })
  | perform {spot : Spot} (hspot : k.top.spot? = some spot)
    (hcontrol : spot.instruction.isControl = false) :
    Beats x p k (.on { (p.remember spot.instruction).perform x spot.instruction with
      session := ((p.remember spot.instruction).perform x spot.instruction).session.advance })

theorem beat_of_steer {x : Executor σ} {p : Performance σ} {spot : Spot} {s : Session}
    (hfree : p.session.cancelled = false) (hposition : p.session.position = .ok (some spot))
    (hcontrol : spot.instruction.isControl = true) (hfinish : spot.instruction ≠ .finish)
    (hsteer : steer p.session spot.instruction = .ok s) :
    beat x p = .on { p with session := s } := by
  obtain ⟨place, i⟩ := spot
  rw [beat, if_neg (Bool.eq_false_iff.mp hfree), hposition]
  cases i with
  | finish => exact absurd rfl hfinish
  | condition c | block name | jump name | exit =>
    dsimp only at hsteer
    simp [Instruction.isControl, hsteer]
  | _ => cases hcontrol

theorem beat_of_choice {x : Executor σ} {p : Performance σ} {place : Place}
    {c : Choice Instruction} (hfree : p.session.cancelled = false)
    (hposition : p.session.position = .ok (some ⟨place, .choice c⟩)) :
    beat x p = .stop (.ok .awaitingChoice) (p.perform x (.choice c)) := by
  rw [beat, if_neg (Bool.eq_false_iff.mp hfree), hposition]

theorem beat_of_perform {x : Executor σ} {p : Performance σ} {spot : Spot}
    (hfree : p.session.cancelled = false) (hposition : p.session.position = .ok (some spot))
    (hcontrol : spot.instruction.isControl = false)
    (hchoice : ∀ c, spot.instruction ≠ .choice c) :
    beat x p = .on { (p.remember spot.instruction).perform x spot.instruction with
      session :=
        ((p.remember spot.instruction).perform x spot.instruction).session.advance } := by
  obtain ⟨place, i⟩ := spot
  rw [beat, if_neg (Bool.eq_false_iff.mp hfree), hposition]
  cases i with
  | choice c => exact absurd rfl (hchoice c)
  | condition c | block name | jump name | exit | finish => cases hcontrol
  | _ => rfl

/-- In a sound script the instructions that move the path do so, with the move of their own. -/
theorem steer_moves {s : Session} {k : Stack} {log : List Spot} {spot : Spot}
    (h : s.Follows k log) (hs : s.script.Sound) (ha : s.script.Addressable)
    (hspot : k.top.spot? = some spot) (hcontrol : spot.instruction.isControl = true)
    (hfinish : spot.instruction ≠ .finish) :
    ∃ m s', s.make? m = some s' ∧ steer s spot.instruction = .ok s' ∧
      ((∃ name, spot.instruction = .jump name ∧ m = .jump name) ∨
        (∀ name, spot.instruction ≠ .jump name) ∧ ∀ log, m.kept log = log) := by
  have hcurrent := h.current? ha
  rw [hspot] at hcurrent
  have htargets := hs.targets _ h.stands.held _ (Passage.mem_of_at? hspot)
  obtain ⟨place, i⟩ := spot
  cases i with
  | finish => exact absurd rfl hfinish
  | condition c =>
    obtain ⟨r, hr⟩ : ∃ r, s.enterCondition = .ok r := by
      rw [Session.enterCondition, hcurrent]
      dsimp only [Option.map_some]
      split
      · exact ⟨_, rfl⟩
      · exact ⟨_, rfl⟩
    refine ⟨.enterCondition, r.1, ?_, ?_, .inr ⟨by simp, fun _ => rfl⟩⟩
    · rw [Session.make?, hr]
      rfl
    · rw [steer, hr]
      rfl
  | block name =>
    have hblock : s.enterBlock = .ok (s.moveTo (Path.enterBlock name s.path)) := by
      rw [Session.enterBlock, hcurrent]
      rfl
    refine ⟨.enterBlock, _, ?_, hblock, .inr ⟨by simp, fun _ => rfl⟩⟩
    rw [Session.make?, hblock]
    rfl
  | jump name =>
    obtain ⟨body, hbody⟩ := htargets
    have hjump : s.jump name = .ok { s with path := Path.entry name } := by
      rw [Session.jump, hbody]
    refine ⟨.jump name, _, ?_, hjump, .inl ⟨name, rfl, rfl⟩⟩
    rw [Session.make?, hjump]
    rfl
  | exit =>
    cases hexit : s.exitBranch with
    | some s' =>
      refine ⟨.exitBranch, s', hexit, ?_, .inr ⟨by simp, fun _ => rfl⟩⟩
      rw [steer, hexit]
      rfl
    | none =>
      refine ⟨.advance, s.advance, rfl, ?_, .inr ⟨by simp, fun _ => rfl⟩⟩
      rw [steer, hexit]
      rfl
  | _ => cases hcontrol

/-- What moves the path is a move, unless it leaves everything as it is. -/
theorem make?_of_steer {i : Instruction} {s s' : Session} (h : steer s i = .ok s') :
    s' = s ∨ ∃ m, s.make? m = some s' := by
  cases i with
  | condition c =>
    obtain ⟨r, hr, hs⟩ := Outcome.bind_eq_ok.mp h
    cases hs
    refine .inr ⟨.enterCondition, ?_⟩
    rw [Session.make?, hr]
    rfl
  | block name =>
    have henter : s.enterBlock = .ok s' := h
    refine .inr ⟨.enterBlock, ?_⟩
    rw [Session.make?, henter]
    rfl
  | jump name =>
    have hjump : s.jump name = .ok s' := h
    refine .inr ⟨.jump name, ?_⟩
    rw [Session.make?, hjump]
    rfl
  | exit =>
    rw [steer] at h
    cases hexit : s.exitBranch with
    | some left =>
      rw [hexit] at h
      cases h
      exact .inr ⟨.exitBranch, hexit⟩
    | none =>
      rw [hexit] at h
      cases h
      exact .inr ⟨.advance, rfl⟩
  | _ =>
    cases h
    exact .inl rfl

/-- In a sound script every turn does one of a few things, and none of them is to fail. -/
theorem beats {x : Executor σ} {p : Performance σ} {k : Stack} {log : List Spot}
    (h : p.session.Follows k log) (hs : p.session.script.Sound)
    (ha : p.session.script.Addressable) (hfree : p.session.cancelled = false) :
    Beats x p k (beat x p) := by
  have hposition := h.position ha
  cases hspot : k.top.spot? with
  | none =>
    rw [beat, if_neg (Bool.eq_false_iff.mp hfree), hposition, hspot]
    dsimp only
    split
    · exact .entry hspot
    · refine .ended fun spot hsome => ?_
      cases hspot.symm.trans hsome
  | some spot =>
    rw [hspot] at hposition
    by_cases hfinish : spot.instruction = .finish
    · rw [beat, if_neg (Bool.eq_false_iff.mp hfree), hposition]
      dsimp only
      rw [hfinish]
      refine .ended fun spot' hsome => ?_
      cases hspot.symm.trans hsome
      exact hfinish
    · cases hcontrol : spot.instruction.isControl with
      | true =>
        obtain ⟨m, s, hmake, hsteer, ⟨name, hname, rfl⟩ | ⟨hjump, hkept⟩⟩ :=
          steer_moves h hs ha hspot hcontrol hfinish
        · rw [beat_of_steer hfree hposition hcontrol hfinish hsteer]
          exact .jump hspot hname hmake
        · rw [beat_of_steer hfree hposition hcontrol hfinish hsteer]
          exact .turn hspot hcontrol hjump hmake hkept
      | false =>
        by_cases hchoice : ∃ c, spot.instruction = .choice c
        · obtain ⟨place, i⟩ := spot
          obtain ⟨c, rfl⟩ := hchoice
          rw [beat_of_choice hfree hposition]
          exact .choice hspot
        · rw [beat_of_perform hfree hposition hcontrol (not_exists.mp hchoice)]
          exact .perform hspot hcontrol

end Performance

/-- What a player does: has the story played on, or takes a branch of the choice shown. -/
inductive Call
  | play (limit : Nat)
  | choose (branch : UInt64)

/-- A branch that is not there to be taken changes nothing. -/
def Performance.call (p : Performance Headless) : Call → Performance Headless
  | .play limit => (play Headless.executor limit p).2
  | .choose branch =>
    match p.session.choose branch with
    | .ok s => { p with session := s }
    | .error _ => p

end Narrative
