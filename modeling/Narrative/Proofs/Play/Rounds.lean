import Narrative.Proofs.Play.Interruption
import Narrative.Trace

namespace Narrative.Trace

open Performance (play beat play_succ play_add)

/-- What one turn of play may do to a trace. -/
inductive Wrote (t : List TraceStep) : List TraceStep → Prop
  | nothing : Wrote t t
  | step (view : View) (state : StateDigest) :
    Wrote t (t ++ [⟨Headless.stepNumber t.length, view, state⟩])

/-- The steps of a trace have the numbers that belong to their places. -/
def Numbered (t : List TraceStep) : Prop :=
  t.map TraceStep.step = (List.range t.length).map Headless.stepNumber

/-- A trace has been taken further, by at most so many steps. -/
structure Continued (n : Nat) (t t' : List TraceStep) : Prop where
  grows : t <+: t'
  length : t'.length ≤ t.length + n
  numbered : Numbered t → Numbered t'

variable {n m k k' left left' : Nat} {t t' t'' : List TraceStep} {answers : List UInt64}
  {p q : Performance Headless} {r r' : Except Failure (List TraceStep × PlayOutcome)}

theorem Continued.refl (n : Nat) (t : List TraceStep) : Continued n t t :=
  ⟨List.prefix_refl t, Nat.le_add_right _ _, id⟩

theorem Continued.trans (h : Continued k t t') (h' : Continued m t' t'')
    (hle : t'.length - t.length + m ≤ n) : Continued n t t'' where
  grows := h.grows.trans h'.grows
  length := by
    have hmore := h.grows.length_le
    have hrest := h'.length
    omega
  numbered ht := h'.numbered (h.numbered ht)

theorem Wrote.continued (h : Wrote t t') : Continued 1 t t' := by
  cases h with
  | nothing => exact .refl 1 t
  | step view state =>
    refine ⟨List.prefix_append _ _, by simp, fun ht => ?_⟩
    rw [Numbered] at ht ⊢
    rw [List.map_append, ht, List.length_append, List.length_singleton, List.range_succ,
      List.map_append]
    rfl

/-- As long as there are numbers left, the steps are numbered one by one. -/
theorem Numbered.step_eq (ht : Numbered t) (hsize : t.length < UInt32.size) :
    t.map TraceStep.step = List.range t.length := by
  have hnumber : ∀ i ∈ List.range t.length, Headless.stepNumber i = i := by
    intro i hi
    have hlt := List.mem_range.mp hi
    exact Nat.min_eq_left (by omega)
  rw [ht, List.map_congr_left hnumber, List.map_id']

/-- A turn writes down one step or none, and a choice is written down. -/
theorem wrote_beat (p : Performance Headless) :
    match beat Headless.executor p with
    | .on q => Wrote p.executor.trace q.executor.trace
    | .stop outcome q => Wrote p.executor.trace q.executor.trace ∧
      (outcome = .ok .awaitingChoice → p.executor.trace.length < q.executor.trace.length) := by
  have hsilent (outcome : Except Failure PlayOutcome) (houtcome : outcome ≠ .ok .awaitingChoice) :
      Wrote p.executor.trace p.executor.trace ∧ (outcome = .ok .awaitingChoice →
        p.executor.trace.length < p.executor.trace.length) :=
    ⟨.nothing, fun heq => absurd heq houtcome⟩
  rw [beat]
  by_cases hcancelled : p.session.cancelled = true
  · rw [if_pos hcancelled]
    exact hsilent _ (by simp)
  · rw [if_neg hcancelled]
    cases p.session.position with
    | error fault => exact hsilent _ (by simp)
    | ok found =>
      cases found with
      | none =>
        dsimp only
        cases p.session.isAtEntry with
        | true => exact .nothing
        | false => exact hsilent _ (by simp)
      | some spot =>
        obtain ⟨place, i⟩ := spot
        cases i with
        | finish => exact hsilent _ (by simp)
        | choice c =>
          refine ⟨.step _ _, fun _ => ?_⟩
          simp [Performance.perform, Headless.executor, Headless.execute]
        | condition c | block scene | jump scene | exit =>
          dsimp only
          cases Performance.steer p.session _ with
          | ok s => exact .nothing
          | error failure => exact hsilent _ (by simp)
        | _ => exact .step _ _

/-- Play writes down no more steps than it has turns, and a choice that it stops at is one of them. -/
theorem continued_play (n : Nat) (p : Performance Headless) :
    Continued n p.executor.trace (play Headless.executor n p).2.executor.trace ∧
      ((play Headless.executor n p).1 = .ok .awaitingChoice →
        p.executor.trace.length < (play Headless.executor n p).2.executor.trace.length) := by
  induction n generalizing p with
  | zero =>
    refine ⟨.refl 0 _, fun hawaiting => ?_⟩
    cases hawaiting
  | succ n ih =>
    have hwrote := wrote_beat p
    rw [play_succ]
    cases hbeat : beat Headless.executor p with
    | on q =>
      rw [hbeat] at hwrote
      obtain ⟨hcontinued, hshown⟩ := ih q
      have hfirst := hwrote.continued
      have hlonger := hfirst.grows.length_le
      have hshort := hfirst.length
      refine ⟨hfirst.trans hcontinued (by omega), fun hawaiting => ?_⟩
      exact Nat.lt_of_le_of_lt hlonger (hshown hawaiting)
    | stop outcome q =>
      rw [hbeat] at hwrote
      obtain ⟨hwrote, hshown⟩ := hwrote
      exact ⟨hwrote.continued.trans (.refl 0 _) (by have := hwrote.continued.length; omega), hshown⟩

/-- Longer play writes down what shorter play does, and goes on. -/
theorem prefix_play (hle : n ≤ m) (p : Performance Headless) :
    (play Headless.executor n p).2.executor.trace <+:
      (play Headless.executor m p).2.executor.trace := by
  obtain ⟨d, rfl⟩ := Nat.exists_eq_add_of_le hle
  rw [play_add]
  split
  · rename_i q hplay
    rw [hplay]
    exact (continued_play d q).1.grows
  · exact List.prefix_refl _

/-- The steps that are left after a round of play. -/
def leftAfter (left : Nat) (p q : Performance Headless) : Nat :=
  left - (q.executor.trace.length - p.executor.trace.length)

/-- Rounds of play without a bound on their number: with so many steps left, so many choices are answered,
and the rounds come to this. -/
inductive Told : Nat → List UInt64 → Performance Headless → Nat →
    Except Failure (List TraceStep × PlayOutcome) → Prop
  | stopped {left : Nat} {answers : List UInt64} {p q : Performance Headless}
    {outcome : Except Failure PlayOutcome} (hplay : play Headless.executor left p = (outcome, q))
    (hstop : outcome ≠ .ok .awaitingChoice ∨ leftAfter left p q = 0) :
    Told left answers p 0 (outcome.map fun o => (q.executor.trace, o))
  | refused {left : Nat} {answers : List UInt64} {p q : Performance Headless} {failure : Failure}
    (hplay : play Headless.executor left p = (.ok .awaitingChoice, q))
    (hleft : leftAfter left p q ≠ 0)
    (hchoose : q.session.choose (answers.headD 0) = .error failure) :
    Told left answers p 1 (.error failure)
  | answered {left k : Nat} {answers : List UInt64} {p q : Performance Headless} {s : Session}
    {r : Except Failure (List TraceStep × PlayOutcome)}
    (hplay : play Headless.executor left p = (.ok .awaitingChoice, q))
    (hleft : leftAfter left p q ≠ 0)
    (hchoose : q.session.choose (answers.headD 0) = .ok s)
    (rest : Told (leftAfter left p q) answers.tail ⟨s, q.executor⟩ k r) :
    Told left answers p (k + 1) r

theorem rounds_of_awaitingChoice (fuel : Nat)
    (hplay : play Headless.executor left p = (.ok .awaitingChoice, q)) :
    rounds (fuel + 1) left answers p =
      if leftAfter left p q = 0 then .ok (q.executor.trace, .awaitingChoice)
      else q.session.choose (answers.headD 0) >>= fun s =>
        rounds fuel (leftAfter left p q) answers.tail ⟨s, q.executor⟩ := by
  rw [rounds, hplay]
  rfl

theorem leftAfter_lt (hplay : play Headless.executor left p = (.ok .awaitingChoice, q))
    (hleft : leftAfter left p q ≠ 0) : leftAfter left p q < left := by
  have hshown := (continued_play left p).2
  rw [hplay] at hshown
  have hlonger : p.executor.trace.length < q.executor.trace.length := hshown rfl
  rw [leftAfter] at hleft ⊢
  omega

/-- A round in which a choice is shown takes a step, so the rounds come to an end before the steps do. -/
theorem told_rounds {fuel : Nat} (hfuel : left < fuel) :
    ∃ k ≤ left, Told left answers p k (rounds fuel left answers p) := by
  induction fuel generalizing left answers p with
  | zero => cases hfuel
  | succ fuel ih =>
    rcases hplay : play Headless.executor left p with ⟨outcome, q⟩
    by_cases hchoice : outcome = .ok .awaitingChoice
    · subst hchoice
      rw [rounds_of_awaitingChoice fuel hplay]
      by_cases hleft : leftAfter left p q = 0
      · rw [if_pos hleft]
        exact ⟨0, Nat.zero_le left, .stopped hplay (.inr hleft)⟩
      · have hfewer := leftAfter_lt hplay hleft
        rw [if_neg hleft]
        cases hchoose : q.session.choose (answers.headD 0) with
        | error failure => exact ⟨1, by omega, .refused hplay hleft hchoose⟩
        | ok s =>
          have hshorter : leftAfter left p q < fuel := by omega
          have hrest : ∃ k ≤ leftAfter left p q, Told (leftAfter left p q) answers.tail
              ⟨s, q.executor⟩ k (rounds fuel (leftAfter left p q) answers.tail ⟨s, q.executor⟩) :=
            ih hshorter
          obtain ⟨k, hk, htold⟩ := hrest
          exact ⟨k + 1, by omega, .answered hplay hleft hchoose htold⟩
    · have hrounds : rounds (fuel + 1) left answers p =
          outcome.map fun o => (q.executor.trace, o) := by
        rw [rounds, hplay]
        cases outcome with
        | error failure => rfl
        | ok o =>
          cases o with
          | awaitingChoice => exact absurd rfl hchoice
          | ended | stepLimit | cancelled => rfl
      rw [hrounds]
      exact ⟨0, Nat.zero_le left, .stopped hplay (.inl hchoice)⟩

/-- The rounds come to one thing only. -/
theorem Told.unique (h : Told left answers p k r) (h' : Told left answers p k' r') :
    k' = k ∧ r' = r := by
  induction h generalizing k' r' with
  | stopped hplay hstop =>
    cases h' with
    | stopped hplay' =>
      cases hplay.symm.trans hplay'
      exact ⟨rfl, rfl⟩
    | refused hplay' hleft | answered hplay' hleft =>
      cases hplay.symm.trans hplay'
      exact absurd hstop (by simp [hleft])
  | refused hplay hleft hchoose =>
    cases h' with
    | stopped hplay' hstop =>
      cases hplay.symm.trans hplay'
      exact absurd hstop (by simp [hleft])
    | refused hplay' _ hchoose' =>
      cases hplay.symm.trans hplay'
      cases hchoose.symm.trans hchoose'
      exact ⟨rfl, rfl⟩
    | answered hplay' _ hchoose' =>
      cases hplay.symm.trans hplay'
      cases hchoose.symm.trans hchoose'
  | answered hplay hleft hchoose _ ih =>
    cases h' with
    | stopped hplay' hstop =>
      cases hplay.symm.trans hplay'
      exact absurd hstop (by simp [hleft])
    | refused hplay' _ hchoose' =>
      cases hplay.symm.trans hplay'
      cases hchoose.symm.trans hchoose'
    | answered hplay' _ hchoose' rest' =>
      cases hplay.symm.trans hplay'
      cases hchoose.symm.trans hchoose'
      obtain ⟨rfl, rfl⟩ := ih rest'
      exact ⟨rfl, rfl⟩

/-- What the rounds end with takes the trace further, by no more steps than there were left. -/
theorem Told.continued {o : PlayOutcome} (h : Told left answers p k r) (hr : r = .ok (t, o)) :
    Continued left p.executor.trace t := by
  induction h with
  | @stopped left answers p q outcome hplay =>
    have hcontinued := (continued_play left p).1
    rw [hplay] at hcontinued
    cases outcome with
    | error failure => cases hr
    | ok outcome =>
      cases hr
      exact hcontinued
  | refused => cases hr
  | @answered left k answers p q s r hplay _ _ _ ih =>
    have hcontinued := (continued_play left p).1
    rw [hplay] at hcontinued
    apply hcontinued.trans (ih hr)
    have hlength : q.executor.trace.length ≤ p.executor.trace.length + left := hcontinued.length
    rw [leftAfter]
    dsimp only
    omega

/-- What the rounds end with goes on from what the first of them has written down. -/
theorem Told.first {o : PlayOutcome} (h : Told left answers p k r) (hr : r = .ok (t, o)) :
    (play Headless.executor left p).2.executor.trace <+: t := by
  cases h with
  | @stopped _ _ _ q outcome hplay =>
    rw [hplay]
    cases outcome with
    | error failure => cases hr
    | ok outcome =>
      cases hr
      exact List.prefix_refl _
  | refused => cases hr
  | answered hplay _ _ rest =>
    rw [hplay]
    exact (rest.continued hr).grows

/-- With more steps the rounds are the same up to where the steps were used up. -/
theorem Told.prefix_of_le {o o' : PlayOutcome} (h : Told left answers p k r)
    (h' : Told left' answers p k' r') (hr : r = .ok (t, o)) (hr' : r' = .ok (t', o'))
    (hle : left ≤ left') : t <+: t' := by
  induction h generalizing left' k' r' with
  | @stopped left answers p q outcome hplay =>
    have hplayed := prefix_play hle p
    rw [hplay] at hplayed
    cases outcome with
    | error failure => cases hr
    | ok outcome =>
      cases hr
      exact hplayed.trans (h'.first hr')
  | refused => cases hr
  | @answered left k answers p q s r hplay hleft hchoose _ ih =>
    -- The shorter run stopped at a choice with steps to spare, so the longer one stops there too.
    have hsame := Performance.play_of_le hplay hle (by simp)
    have hmore : leftAfter left p q ≤ leftAfter left' p q := by
      rw [leftAfter, leftAfter]
      omega
    cases h' with
    | stopped hplay' hstop =>
      cases hsame.symm.trans hplay'
      have hnone : leftAfter left' p q = 0 := by simpa using hstop
      omega
    | refused => cases hr'
    | answered hplay' _ hchoose' rest' =>
      cases hsame.symm.trans hplay'
      cases hchoose.symm.trans hchoose'
      exact ih rest' hr hr' hmore

/-- Before the first round. -/
def opening (s : Script) (settings : Settings) : Performance Headless :=
  ⟨Session.start "trace" s settings, Headless.fresh⟩

/-- The rounds come to one end, after no more choices than there were steps. The trace has no more steps than
were given, numbered from 0 on, and with more of them it goes on where it stopped. -/
theorem trace_within_steps (s : Script) (settings : Settings) (answers : List UInt64)
    (hle : n ≤ m) (hm : m < 2 ^ 32) :
    (∃ k ≤ n, ∀ k' r, Told n answers (opening s settings) k' r ↔
      k' = k ∧ r = ofScript s settings answers n) ∧
    (∀ t o, ofScript s settings answers n = .ok (t, o) →
      t.length ≤ n ∧ t.map TraceStep.step = List.range t.length) ∧
    ∀ t o t' o', ofScript s settings answers n = .ok (t, o) →
      ofScript s settings answers m = .ok (t', o') → t <+: t' := by
  have htold (steps : Nat) :
      ∃ k ≤ steps, Told steps answers (opening s settings) k (ofScript s settings answers steps) :=
    told_rounds (Nat.lt_succ_self steps)
  obtain ⟨k, hk, hrounds⟩ := htold n
  refine ⟨⟨k, hk, fun k' r => ⟨hrounds.unique, ?_⟩⟩, ?_, ?_⟩
  · rintro ⟨rfl, rfl⟩
    exact hrounds
  · intro t o ht
    have hcontinued := hrounds.continued ht
    have hlength : t.length ≤ 0 + n := hcontinued.length
    have hnumbered : Numbered t := hcontinued.numbered rfl
    have hsize : UInt32.size = 2 ^ 32 := rfl
    exact ⟨by omega, hnumbered.step_eq (by omega)⟩
  · intro t o t' o' ht ht'
    obtain ⟨k', -, hrounds'⟩ := htold m
    exact hrounds.prefix_of_le hrounds' ht ht' hle

/-- Who leaves the room comes back to it. Five steps are used up on the way, and twenty are enough to stay
there the second time. -/
theorem trace_within_steps_sample :
    let script : Script := ⟨Draft.sample.scenes, Draft.sample.ordered⟩
    ∃ t t', ofScript script {} [1] 5 = .ok (t, .stepLimit) ∧
      ofScript script {} [1] 20 = .ok (t', .ended) ∧
      (∃ k ≤ 5, Told 5 [1] (opening script {}) k (.ok (t, .stepLimit))) ∧
      t'.length = 4 ∧ t.map TraceStep.step = [0, 1, 2] ∧ t <+: t' := by
  intro script
  have hfew : (ofScript script {} [1] 5).toOption.map (fun r => (r.1.length, r.2)) =
      some (3, .stepLimit) := by decide +kernel
  have hmany : (ofScript script {} [1] 20).toOption.map (fun r => (r.1.length, r.2)) =
      some (4, .ended) := by decide +kernel
  obtain ⟨⟨k, hk, htold⟩, hsteps, hgrows⟩ :=
    trace_within_steps script {} [1] (show 5 ≤ 20 by decide) (by decide)
  rcases ht : ofScript script {} [1] 5 with failure | ⟨t, o⟩
  · rw [ht] at hfew
    cases hfew
  · rcases ht' : ofScript script {} [1] 20 with failure | ⟨t', o'⟩
    · rw [ht'] at hmany
      cases hmany
    · rw [ht] at hfew
      rw [ht'] at hmany
      obtain ⟨hlength, rfl⟩ := Prod.mk.inj (Option.some.inj hfew)
      obtain ⟨hlength', rfl⟩ := Prod.mk.inj (Option.some.inj hmany)
      have hnumbered := (hsteps t _ ht).2
      rw [hlength] at hnumbered
      exact ⟨t, t', rfl, rfl, ⟨k, hk, (htold k _).mpr ⟨rfl, ht.symm⟩⟩, hlength', hnumbered,
        hgrows t _ t' _ ht ht'⟩

end Narrative.Trace
