import Narrative.Proofs.Play.Beat

namespace Narrative

namespace Executor

variable {σ τ : Type}

/-- Runs instructions as another executor does, as far as can be seen of its own state, and may ask play
to stop at any of them. -/
structure Echoes (y : Executor τ) (x : Executor σ) (view : τ → σ) : Prop where
  executor : ∀ e i scope,
    view (y.execute e i scope).executor = (x.execute (view e) i scope).executor
  state : ∀ e i scope, (y.execute e i scope).state = (x.execute (view e) i scope).state

/-- Runs instructions as another executor does, and never asks play to stop. -/
def tireless (x : Executor σ) : Executor σ where
  execute e i scope := { x.execute e i scope with cancels := false }
  clear := x.clear

/-- Runs instructions as another executor does, and asks play to stop at every one of them. -/
def restless (x : Executor σ) : Executor σ where
  execute e i scope := { x.execute e i scope with cancels := true }
  clear := x.clear

/-- Runs instructions as another executor does, and writes each down with all it could see of the
session, the player state among it. -/
def recording (x : Executor σ) : Executor (σ × List (Instruction × Scope)) where
  execute e i scope :=
    let r := x.execute e.1 i scope
    ⟨(r.executor, e.2 ++ [(i, scope)]), r.state, r.cancels⟩
  clear e keep := (x.clear e.1 keep, e.2)

theorem restless_echoes (x : Executor σ) : x.restless.Echoes x id where
  executor _ _ _ := rfl
  state _ _ _ := rfl

theorem Echoes.recording {y : Executor τ} {x : Executor σ} {view : τ → σ} (h : y.Echoes x view) :
    y.recording.Echoes x.recording (Prod.map view id) where
  executor e i scope := by
    have hrun := h.executor e.1 i scope
    simp [Executor.recording, hrun]
  state e i scope := h.state e.1 i scope

end Executor

namespace Session

/-- Nobody asks play to stop any longer. -/
def calm (s : Session) : Session := { s with cancelled := false }

variable {s : Session}

theorem calm_eq (h : s.cancelled = false) : s.calm = s := by
  rw [calm, ← h]

theorem advance_calm (s : Session) : s.calm.advance = s.advance.calm := by
  have hcurrent : s.calm.current? = s.current? := rfl
  rw [advance, advance, hcurrent]
  split <;> rfl

theorem cancelled_of_steer {i : Instruction} {s' : Session} (h : Performance.steer s i = .ok s') :
    s'.cancelled = s.cancelled := by
  rcases Performance.make?_of_steer h with rfl | ⟨m, hmake⟩
  · rfl
  · obtain ⟨-, -, hcancelled, -⟩ := make?_frame hmake
    exact hcancelled

end Session

namespace Performance

variable {σ τ : Type} {x : Executor σ} {y : Executor τ} {view : τ → σ}

/-- What is left of a performance when nobody asks it to stop any longer, as far as can be seen of its
executor. -/
def calm (view : τ → σ) (p : Performance τ) : Performance σ := ⟨p.session.calm, view p.executor⟩

theorem remember_calm (p : Performance τ) (i : Instruction) :
    (p.calm view).remember i = (p.remember i).calm view := by
  have hsnapshot : p.session.calm.recordSnapshot = p.session.recordSnapshot.calm := by
    rw [Session.recordSnapshot, Session.recordSnapshot, Session.calm]
    split <;> rfl
  cases i with
  | dialogue d => simp [calm, remember, hsnapshot]
  | _ => rfl

theorem perform_calm (hy : y.Echoes x view) (p : Performance τ) (i : Instruction) :
    (p.calm view).perform x.tireless i = (p.perform y i).calm view := by
  have hexecutor := hy.executor p.executor i
    ⟨p.session.state, p.session.name, p.session.restoring, p.session.preview⟩
  have hstate := hy.state p.executor i
    ⟨p.session.state, p.session.name, p.session.restoring, p.session.preview⟩
  simp [perform, calm, Session.calm, Executor.tireless, hexecutor, hstate]

/-- A turn of play comes to the same for an executor that never tires, but for being asked to stop. -/
theorem beat_calm (hy : y.Echoes x view) {p : Performance τ} (hfree : p.session.cancelled = false) :
    beat x.tireless (p.calm view) =
      match beat y p with
      | .on q => .on (q.calm view)
      | .stop outcome q => .stop outcome (q.calm view) := by
  have hcalm : p.session.calm = p.session := Session.calm_eq hfree
  have hsession : (p.calm view).session = p.session := hcalm
  rw [beat, beat, hsession, if_neg (Bool.eq_false_iff.mp hfree), if_neg (Bool.eq_false_iff.mp hfree)]
  cases p.session.position with
  | error fault => rfl
  | ok found =>
    cases found with
    | none =>
      dsimp only
      cases p.session.isAtEntry with
      | false => rfl
      | true =>
        have hadvance : p.session.advance = p.session.advance.calm := by
          rw [← Session.advance_calm, hcalm]
        simp [calm, ← hadvance]
    | some spot =>
      obtain ⟨place, i⟩ := spot
      cases i with
      | finish => rfl
      | choice c => simp [perform_calm hy]
      | condition c | block name | jump name | exit =>
        dsimp only
        cases hsteer : steer p.session _ with
        | error failure => rfl
        | ok s =>
          have hs : s.calm = s := by
            rw [Session.calm_eq]
            exact (Session.cancelled_of_steer hsteer).trans hfree
          simp [calm, hs, Instruction.isControl]
      | _ =>
        simp only [remember_calm, perform_calm hy]
        simp [calm, Session.advance_calm, Instruction.isControl]

/-- Play has been cut short: there may be more to come of the story. -/
def cutShort : Except Failure PlayOutcome → Bool
  | .ok .stepLimit | .ok .cancelled => true
  | _ => false

/-- A turn of its own accord stops play for good. -/
theorem cutShort_of_beat {p q : Performance σ} {outcome : Except Failure PlayOutcome}
    (hfree : p.session.cancelled = false) (h : beat x p = .stop outcome q) :
    cutShort outcome = false := by
  rw [beat, if_neg (Bool.eq_false_iff.mp hfree)] at h
  cases hposition : p.session.position with
  | error fault =>
    rw [hposition] at h
    cases h
    rfl
  | ok found =>
    rw [hposition] at h
    cases found with
    | none =>
      dsimp only at h
      split at h
      · cases h
      · cases h
        rfl
    | some spot =>
      obtain ⟨place, i⟩ := spot
      cases i with
      | finish | choice c =>
        cases h
        rfl
      | condition c | block name | jump name | exit =>
        dsimp only at h
        cases hsteer : steer p.session _ with
        | ok s =>
          rw [hsteer] at h
          cases h
        | error failure =>
          rw [hsteer] at h
          cases h
          rfl
      | _ => cases h

/-- Asked to stop, play does nothing, whether or not it still has turns. -/
theorem play_of_cancelled {p : Performance σ} (h : p.session.cancelled = true) (n : Nat) :
    cutShort (play x n p).1 = true ∧ (play x n p).2 = p := by
  cases n with
  | zero => exact ⟨rfl, rfl⟩
  | succ n =>
    have hplay : play x (n + 1) p = (.ok .cancelled, p) := by rw [play, if_pos h]
    rw [hplay]
    exact ⟨rfl, rfl⟩

/-- Plays on after what has been cut short, as one whom nobody asks to stop. -/
def playOn (x : Executor σ) (view : τ → σ) (m : Nat)
    (r : Except Failure PlayOutcome × Performance τ) : Except Failure PlayOutcome × Performance σ :=
  if cutShort r.1 then play x.tireless m (r.2.calm view) else (r.1, r.2.calm view)

theorem playOn_of_cut {r : Except Failure PlayOutcome × Performance τ} (h : cutShort r.1 = true)
    (m : Nat) : playOn x view m r = play x.tireless m (r.2.calm view) := by
  rw [playOn, if_pos h]

/-- Play goes on where it was cut short. The turns it has had, however many they are, come to the same
for an executor that never tires. -/
theorem play_calm (hy : y.Echoes x view) (n : Nat) (p : Performance τ) :
    ∃ k, ∀ m, play x.tireless (k + m) (p.calm view) = playOn x view m (play y n p) := by
  induction n generalizing p with
  | zero =>
    refine ⟨0, fun m => ?_⟩
    rw [Nat.zero_add]
    rfl
  | succ n ih =>
    cases hcancelled : p.session.cancelled with
    | true =>
      -- Asked to stop beforehand, play has had no turn at all.
      obtain ⟨hcut, hsame⟩ := play_of_cancelled (x := y) hcancelled (n + 1)
      refine ⟨0, fun m => ?_⟩
      rw [playOn_of_cut hcut, hsame, Nat.zero_add]
    | false =>
      have hbeat' := beat_calm hy hcancelled
      cases hbeat : beat y p with
      | on q =>
        rw [hbeat] at hbeat'
        obtain ⟨k, hk⟩ := ih q
        refine ⟨k + 1, fun m => ?_⟩
        rw [Nat.add_right_comm, play_succ, hbeat', play_succ, hbeat]
        exact hk m
      | stop outcome q =>
        rw [hbeat] at hbeat'
        have hcut := cutShort_of_beat hcancelled hbeat
        refine ⟨1, fun m => ?_⟩
        rw [Nat.add_comm, play_succ, hbeat', play_succ, hbeat, playOn, hcut]
        rfl

end Performance

/-- One call to play: how many turns it may take, and before which turn somebody other than the executor
asks it to stop, if anybody does. -/
structure Sitting where
  limit : Nat
  stop : Option Nat

namespace Performance

variable {σ τ : Type} {x : Executor σ} {y : Executor τ} {view : τ → σ}

/-- A limit only pauses play: so many turns, and then so many more, are all of them at once. -/
theorem play_add (y : Executor τ) (n m : Nat) (p : Performance τ) :
    play y (n + m) p =
      match play y n p with
      | (.ok .stepLimit, q) => play y m q
      | r => r := by
  induction n generalizing p with
  | zero =>
    rw [Nat.zero_add]
    rfl
  | succ n ih =>
    rw [Nat.add_right_comm, play_succ, play_succ]
    cases hcancelled : p.session.cancelled with
    | true =>
      rw [beat, if_pos hcancelled]
    | false =>
      cases hbeat : beat y p with
      | on q => exact ih q
      | stop outcome q =>
        have hcut := cutShort_of_beat hcancelled hbeat
        dsimp only
        split
        · rename_i heq
          cases heq
          cases hcut
        · rfl

/-- Somebody other than the executor asks play to stop. -/
def halted (p : Performance τ) : Performance τ :=
  { p with session := { p.session with cancelled := true } }

/-- Takes back that play was asked to stop, and plays. -/
def sit (y : Executor τ) (c : Sitting) (p : Performance τ) :
    Except Failure PlayOutcome × Performance τ :=
  let p := p.calm id
  match c.stop with
  | none => play y c.limit p
  | some turn =>
    match play y (min turn c.limit) p with
    | (.ok .stepLimit, q) => play y (c.limit - turn) q.halted
    | r => r

/-- Play in sittings that are cut short, all but the last, and what comes of it. -/
inductive Sittings (y : Executor τ) :
    Performance τ → Except Failure PlayOutcome × Performance τ → Prop
  | last {p : Performance τ} (c : Sitting) (hdone : cutShort (sit y c p).1 = false) :
    Sittings y p (sit y c p)
  | cut {p : Performance τ} {r : Except Failure PlayOutcome × Performance τ} (c : Sitting)
    (hcut : cutShort (sit y c p).1 = true) (rest : Sittings y (sit y c p).2 r) : Sittings y p r

theorem sit_calm (hy : y.Echoes x view) (c : Sitting) (p : Performance τ) :
    ∃ k, ∀ m, play x.tireless (k + m) (p.calm view) = playOn x view m (sit y c p) := by
  have hcalm : (p.calm id).calm view = p.calm view := rfl
  rw [← hcalm, sit]
  cases c.stop with
  | none => exact play_calm hy c.limit (p.calm id)
  | some turn =>
    obtain ⟨k, hk⟩ := play_calm hy (min turn c.limit) (p.calm id)
    refine ⟨k, fun m => ?_⟩
    rw [hk]
    dsimp only
    split
    · -- The turns that are left after the call to stop are not had.
      rename_i q hplay
      obtain ⟨hcut, hsame⟩ :=
        play_of_cancelled (x := y) (p := q.halted) rfl (c.limit - turn)
      rw [hplay, playOn_of_cut hcut, hsame]
      rfl
    · rfl

/-- All the sittings together come to the same as playing on for long enough. -/
theorem Sittings.play_calm (hy : y.Echoes x view) {p : Performance τ}
    {r : Except Failure PlayOutcome × Performance τ} (h : Sittings y p r) :
    ∃ n, ∀ m, play x.tireless (n + m) (p.calm view) = (r.1, r.2.calm view) := by
  induction h with
  | last c hdone =>
    obtain ⟨k, hk⟩ := sit_calm hy c _
    refine ⟨k, fun m => ?_⟩
    rw [hk, playOn, hdone]
    rfl
  | cut c hcut rest ih =>
    obtain ⟨k, hk⟩ := sit_calm hy c _
    obtain ⟨n, hn⟩ := ih
    refine ⟨k + n, fun m => ?_⟩
    rw [Nat.add_assoc, hk, playOn_of_cut hcut]
    exact hn m

/-- However often play is cut short, by limits or by being asked to stop, in the end it has come to the
same as play at one sitting: to the same outcome and session, with the same instructions run, each in
the same player state, and with the executor in the same state. -/
theorem play_of_sittings (hy : y.Echoes x view) {s : Session} {e : τ} {outcome : PlayOutcome}
    {q : Performance (τ × List (Instruction × Scope))}
    (h : Sittings y.recording ⟨s, (e, [])⟩ (.ok outcome, q)) :
    ∃ n, ∀ limit ≥ n,
      play x.tireless.recording limit ⟨{ s with cancelled := false }, (view e, [])⟩ =
        (.ok outcome, ⟨{ q.session with cancelled := false },
          (view q.executor.1, q.executor.2)⟩) := by
  obtain ⟨n, hn⟩ := h.play_calm hy.recording
  refine ⟨n, fun limit hlimit => ?_⟩
  obtain ⟨m, rfl⟩ := Nat.exists_eq_add_of_le hlimit
  exact hn m

/-- The executor asks play to stop at every instruction, somebody else does so before the second turn of
a sitting, and one sitting has no turn at all. -/
theorem play_of_sittings_sample :
    let s := Session.start "live" ⟨Draft.sample.scenes, Draft.sample.ordered⟩ {}
    ∃ q, Sittings Headless.executor.restless.recording ⟨s, (.fresh, [])⟩
        (.ok .awaitingChoice, q) ∧ q.executor.2.length = 2 ∧
      ∃ n, ∀ limit ≥ n,
        play Headless.executor.tireless.recording limit ⟨s, (.fresh, [])⟩ =
          (.ok .awaitingChoice, ⟨{ q.session with cancelled := false }, q.executor⟩) := by
  intro s
  let y := Headless.executor.restless.recording
  let first := sit y ⟨10, none⟩ ⟨s, (.fresh, [])⟩
  let second := sit y ⟨10, some 1⟩ first.2
  let third := sit y ⟨0, none⟩ second.2
  let fourth := sit y ⟨10, none⟩ third.2
  have hfirst : cutShort first.1 = true := by decide +kernel
  have hsecond : cutShort second.1 = true := by decide +kernel
  have hthird : cutShort third.1 = true := by decide +kernel
  have hfourth : cutShort fourth.1 = false := by decide +kernel
  have hlast : Sittings y third.2 fourth := .last ⟨10, none⟩ hfourth
  have hsittings : Sittings y ⟨s, (.fresh, [])⟩ fourth :=
    .cut ⟨10, none⟩ hfirst (.cut ⟨10, some 1⟩ hsecond (.cut ⟨0, none⟩ hthird hlast))
  have houtcome : fourth.1 = .ok .awaitingChoice := by decide +kernel
  have hlength : fourth.2.executor.2.length = 2 := by decide +kernel
  clear_value fourth
  obtain ⟨outcome, q⟩ := fourth
  cases houtcome
  exact ⟨q, hsittings, hlength, play_of_sittings Headless.executor.restless_echoes hsittings⟩

end Performance

end Narrative
