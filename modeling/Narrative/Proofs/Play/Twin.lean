import Narrative.Proofs.Play.Beat

namespace Narrative

/-- Two sessions with the same to come. What they have been through may differ. -/
structure Session.Twin (s t : Session) : Prop where
  script : s.script = t.script
  path : s.path = t.path
  state : s.state = t.state
  cancelled : s.cancelled = t.cancelled
  restoring : s.restoring = t.restoring

/-- Two answers that are the same failure, or sessions with the same to come. -/
inductive Session.Alike : Except Failure Session → Except Failure Session → Prop
  | ok {s t : Session} (h : s.Twin t) : Alike (.ok s) (.ok t)
  | error (failure : Failure) : Alike (.error failure) (.error failure)

namespace Session.Twin

variable {s s' t t' : Session}

theorem refl (s : Session) : s.Twin s := ⟨rfl, rfl, rfl, rfl, rfl⟩

theorem position (h : s.Twin t) : s.position = t.position := by
  simp [Session.position, h.script, h.path]

theorem current? (h : s.Twin t) : s.current? = t.current? := by
  simp [Session.current?, h.position]

theorem isAtEntry (h : s.Twin t) : s.isAtEntry = t.isAtEntry := by
  simp [Session.isAtEntry, h.path]

theorem moveTo (h : s.Twin t) (p : Path) : (s.moveTo p).Twin (t.moveTo p) where
  script := h.script
  path := by simp [Session.moveTo, h.script]
  state := h.state
  cancelled := h.cancelled
  restoring := h.restoring

/-- Remembering a position changes nothing of what is to come. -/
theorem advance_moveTo (s : Session) : s.advance.Twin (s.moveTo (Path.advance s.path)) := by
  rw [Session.advance]
  split <;> exact ⟨rfl, rfl, rfl, rfl, rfl⟩

theorem symm (h : s.Twin t) : t.Twin s :=
  ⟨h.script.symm, h.path.symm, h.state.symm, h.cancelled.symm, h.restoring.symm⟩

theorem trans (h : s.Twin t) (h' : t.Twin t') : s.Twin t' :=
  ⟨h.script.trans h'.script, h.path.trans h'.path, h.state.trans h'.state,
    h.cancelled.trans h'.cancelled, h.restoring.trans h'.restoring⟩

theorem advance (h : s.Twin t) : s.advance.Twin t.advance := by
  have hmoved : (s.moveTo (Path.advance s.path)).Twin (t.moveTo (Path.advance t.path)) := by
    rw [h.path]
    exact h.moveTo _
  exact ((advance_moveTo s).trans hmoved).trans (advance_moveTo t).symm

theorem enterCondition (h : s.Twin t) :
    Alike (s.enterCondition.map Prod.fst) (t.enterCondition.map Prod.fst) := by
  rw [Session.enterCondition, Session.enterCondition, h.current?, h.state, h.path]
  split
  · dsimp only
    split
    · exact .ok (h.moveTo _)
    · exact .ok h.advance
  · exact .error _

theorem enterBlock (h : s.Twin t) : Alike s.enterBlock t.enterBlock := by
  rw [Session.enterBlock, Session.enterBlock, h.current?, h.path]
  split
  · exact .ok (h.moveTo _)
  · exact .error _

theorem jump (h : s.Twin t) (name : String) : Alike (s.jump name) (t.jump name) := by
  rw [Session.jump, Session.jump, h.script, h.path]
  split
  · exact .ok ⟨rfl, rfl, h.state, h.cancelled, h.restoring⟩
  · exact .error _

theorem exitBranch (h : s.Twin t) :
    (s.exitBranch.getD s.advance).Twin (t.exitBranch.getD t.advance) := by
  rw [Session.exitBranch, Session.exitBranch, h.script, h.path]
  cases Path.leave t.script t.path with
  | none => exact h.advance
  | some p => exact h.moveTo p

theorem steer (h : s.Twin t) (i : Instruction) :
    Alike (Performance.steer s i) (Performance.steer t i) := by
  cases i with
  | condition c =>
    have hentered := h.enterCondition
    rw [Performance.steer, Performance.steer]
    cases hs : s.enterCondition <;> cases ht : t.enterCondition <;> rw [hs, ht] at hentered <;>
      exact hentered
  | block name => exact h.enterBlock
  | jump name => exact h.jump name
  | exit => exact .ok h.exitBranch
  | _ => exact .ok h

end Session.Twin

/-- Two turns that stop for the same reason or both go on, with the same to come. -/
inductive Beat.Twin {σ : Type} : Beat σ → Beat σ → Prop
  | stop {p q : Performance σ} (outcome : Except Failure PlayOutcome)
    (h : p.session.Twin q.session) : Twin (.stop outcome p) (.stop outcome q)
  | on {p q : Performance σ} (h : p.session.Twin q.session) : Twin (.on p) (.on q)

namespace Performance

variable {p q : Performance Headless}

/-- Without a screen, what an instruction does to the state does not hang on what has run before. -/
theorem twin_perform (h : p.session.Twin q.session) (i : Instruction) :
    (p.perform Headless.executor i).session.Twin (q.perform Headless.executor i).session where
  script := h.script
  path := h.path
  state := by
    change (if p.session.restoring then p.session.state else p.session.state.apply i) =
      if q.session.restoring then q.session.state else q.session.state.apply i
    rw [h.restoring, h.state]
  cancelled := by
    change (p.session.cancelled || false) = (q.session.cancelled || false)
    rw [h.cancelled]
  restoring := h.restoring

theorem twin_remember (h : p.session.Twin q.session) (i : Instruction) :
    (p.remember i).session.Twin (q.remember i).session := by
  obtain ⟨shown, hp⟩ := p.remember_eq i
  obtain ⟨shown', hq⟩ := q.remember_eq i
  rw [hp, hq]
  exact ⟨h.script, h.path, h.state, h.cancelled, h.restoring⟩

theorem twin_beat (h : p.session.Twin q.session) :
    (beat Headless.executor p).Twin (beat Headless.executor q) := by
  rw [beat, beat, h.cancelled, h.position, h.isAtEntry]
  split
  · exact .stop _ h
  · split
    · exact .stop _ h
    · split
      · exact .on h.advance
      · exact .stop _ h
    · rename_i spot hspot
      cases hi : spot.instruction with
      | finish => exact .stop _ h
      | choice c => exact .stop _ (twin_perform h _)
      | condition c | block name | jump name | exit =>
        have hsteered := h.steer spot.instruction
        rw [hi] at hsteered
        dsimp only
        generalize steer p.session _ = a at hsteered
        generalize steer q.session _ = b at hsteered
        cases hsteered with
        | ok hsteered => exact .on hsteered
        | error failure => exact .stop _ h
      | _ => exact .on (twin_perform (twin_remember h _) _).advance

/-- Play goes the same way in two sessions with the same to come, for any number of turns. -/
theorem twin_play (h : p.session.Twin q.session) (n : Nat) :
    (play Headless.executor n p).1 = (play Headless.executor n q).1 ∧
      (play Headless.executor n p).2.session.Twin (play Headless.executor n q).2.session := by
  induction n generalizing p q with
  | zero => exact ⟨rfl, h⟩
  | succ n ih =>
    have hbeats := twin_beat h
    rw [play_succ, play_succ]
    cases hp : beat Headless.executor p <;> cases hq : beat Headless.executor q <;>
      rw [hp, hq] at hbeats <;> cases hbeats
    case stop.stop.stop outcome p' q' htwin => exact ⟨rfl, htwin⟩
    case on.on.on p' q' htwin => exact ih htwin

end Performance

end Narrative
