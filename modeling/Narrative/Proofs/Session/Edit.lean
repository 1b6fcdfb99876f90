import Narrative.Proofs.Path.WellFormed
import Narrative.Proofs.Session.Undo

namespace Narrative

/-- A program that changes a session step by step. Where it gives up, the session stays as it is at that
moment. -/
abbrev Edit := EStateM Failure Session

namespace Edit

/-- An answer of the operation that a program carries out, once the session has been changed. -/
def outcome {α : Type} (s : Session) :
    Except Failure (Session × α) → EStateM.Result Failure Session α
  | .ok (t, a) => .ok a t
  | .error failure => .error failure s

def record : Edit Unit := modify Session.record

def follow (step : Path → Path) : Edit Unit := modify fun s => { s with path := step s.path }

def settle : Edit Unit := modify fun s => { s with path := Path.settle s.script s.path }

def advance : Edit Unit := do
  let s ← get
  if s.current?.any Instruction.isBlocking then record
  follow Path.advance
  settle

def choose (branch : UInt64) : Edit Unit := do
  let s ← get
  match s.current? with
  | some (.choice c) =>
    if c.offers s.state branch.toNat then
      record
      follow (Path.enterChoice branch)
      settle
    else throw (.invalidChoice branch)
  | _ => throw .notAtInstruction

def enterCondition : Edit (Option String) := do
  let s ← get
  match s.current? with
  | some (.condition c) =>
    let key := c.selector.select s.state
    match c.variant? key with
    | some _ =>
      follow (Path.enterCondition key)
      settle
      return some key
    | none =>
      advance
      return none
  | _ => throw .notAtInstruction

def enterBlock : Edit Unit := do
  let s ← get
  match s.current? with
  | some (.block scene) =>
    follow (Path.enterBlock scene)
    settle
  | _ => throw .notAtInstruction

def jump (scene : String) : Edit Unit := do
  let s ← get
  match s.script.scene? scene with
  | some _ => follow fun _ => Path.entry scene
  | none => throw (.authoring (.unknownScene ((Path.scene? s.path).getD "") scene))

/-- Tries on a copy of the path to leave the innermost open branch, and tells whether that could be
done. -/
def leaveBranch : Edit Bool := do
  let s ← get
  let some work := Path.shrink s.script s.path.reverse | return false
  let some (kind, outer) := Path.innermostOpen [] work.reverse | return false
  let left := work ++ [.exit kind, .index (nextIndex outer)]
  match Path.resolve s.script left with
  | .error _ => return false
  | .ok _ =>
    follow fun _ => left
    return true

def exitBranch : Edit Bool := do
  let left ← leaveBranch
  if left then settle
  return left

/-- Does what `Session.attempt` says. -/
def attempt : Move → Edit Unit
  | .advance => advance
  | .choose branch => choose branch
  | .enterCondition => do let _ ← enterCondition
  | .enterBlock => enterBlock
  | .exitBranch => do let _ ← exitBranch
  | .jump scene => jump scene

def adopt (c : Checkpoint) : Edit RestorePlan := do
  let s ← get
  match s.plan c.path with
  | .error failure => throw failure
  | .ok plan =>
    modify fun s => { s with path := c.path }
    modify fun s => { s with state := c.state }
    modify fun s => { s with snapshots := c.snapshots }
    modify fun s => { s with keep := plan.keep }
    return plan

def restore (c : Checkpoint) : Edit RestorePlan := do
  let plan ← adopt c
  modify fun s => { s with undo := [] }
  return plan

def startAnew : Edit RestorePlan := do
  modify fun s => { s with path := Path.entry Path.startScene }
  modify fun s => { s with state := .empty }
  modify fun s => { s with snapshots := [] }
  modify fun s => { s with undo := [] }
  modify fun s => { s with keep := .empty }
  return .empty

/-- What a restore that fails has made of the session is what is started anew. -/
def restoreOrStart : Option Checkpoint → Edit RestorePlan
  | some c => tryCatch (restore c) fun _ => startAnew
  | none => startAnew

section Run

variable {α β : Type} {x : Edit α} {s : Session}

theorem get_bind (next : Session → Edit β) (s : Session) : (get >>= next) s = next s s := rfl

/-- After an operation comes what is next, unless it has failed. -/
def after (s : Session) (next : α → Edit β) :
    Except Failure (Session × α) → EStateM.Result Failure Session β
  | .ok (t, a) => next a t
  | .error failure => .error failure s

theorem bind_of_outcome {r : Except Failure (Session × α)} (h : x s = outcome s r)
    (next : α → Edit β) : (x >>= next) s = after s next r := by
  simp only [bind, EStateM.bind, h]
  cases r with
  | ok found => rfl
  | error failure => rfl

end Run

theorem advance_run (s : Session) : advance s = outcome s (.ok (s.advance, ())) := by
  rw [Session.advance, advance, get_bind]
  by_cases hblocking : s.current?.any Instruction.isBlocking
  · rw [if_pos hblocking, if_pos hblocking]
    rfl
  · rw [if_neg hblocking, if_neg hblocking]
    rfl

theorem choose_run (branch : UInt64) (s : Session) :
    choose branch s = outcome s ((s.choose branch).map (·, ())) := by
  rw [Session.choose, choose, get_bind]
  cases s.current? with
  | none => rfl
  | some i =>
    cases i with
    | choice c =>
      dsimp only
      by_cases hoffers : c.offers s.state branch.toNat
      · rw [if_pos hoffers, if_pos hoffers]
        rfl
      · rw [if_neg hoffers, if_neg hoffers]
        rfl
    | _ => rfl

theorem enterCondition_run (s : Session) : enterCondition s = outcome s s.enterCondition := by
  rw [Session.enterCondition, enterCondition, get_bind]
  cases s.current? with
  | none => rfl
  | some i =>
    cases i with
    | condition c =>
      dsimp only
      cases c.variant? (c.selector.select s.state) with
      | some body => rfl
      | none => exact bind_of_outcome (advance_run s) _
    | _ => rfl

theorem enterBlock_run (s : Session) :
    enterBlock s = outcome s (s.enterBlock.map (·, ())) := by
  rw [Session.enterBlock, enterBlock, get_bind]
  cases s.current? with
  | none => rfl
  | some i => cases i <;> rfl

theorem jump_run (scene : String) (s : Session) :
    jump scene s = outcome s ((s.jump scene).map (·, ())) := by
  rw [Session.jump, jump, get_bind]
  cases s.script.scene? scene with
  | some body => rfl
  | none => rfl

theorem leaveBranch_run (s : Session) :
    leaveBranch s = outcome s (.ok
      (match Path.leave s.script s.path with
      | some left => ({ s with path := left }, true)
      | none => (s, false))) := by
  rw [Path.leave, leaveBranch, get_bind]
  cases Path.shrink s.script s.path.reverse with
  | none => rfl
  | some work =>
    dsimp only
    cases Path.innermostOpen [] work.reverse with
    | none => rfl
    | some found =>
      obtain ⟨kind, outer⟩ := found
      dsimp only
      cases Path.resolve s.script (work ++ [.exit kind, .index (nextIndex outer)]) with
      | ok found => rfl
      | error fault => rfl

theorem exitBranch_run (s : Session) :
    exitBranch s = outcome s (.ok (s.exitBranch.getD s, s.exitBranch.isSome)) := by
  refine (bind_of_outcome (leaveBranch_run s) _).trans ?_
  rw [Session.exitBranch]
  cases Path.leave s.script s.path with
  | some left => rfl
  | none => rfl

theorem attempt_run (m : Move) (s : Session) :
    attempt m s = outcome s ((s.attempt m).map (·, ())) := by
  cases m with
  | advance => exact advance_run s
  | choose branch => exact choose_run branch s
  | enterCondition =>
    refine (bind_of_outcome (enterCondition_run s) _).trans ?_
    rw [Session.attempt]
    cases s.enterCondition with
    | ok entered => rfl
    | error failure => rfl
  | enterBlock => exact enterBlock_run s
  | exitBranch => exact bind_of_outcome (exitBranch_run s) _
  | jump scene => exact jump_run scene s

theorem adopt_run (c : Checkpoint) (s : Session) : adopt c s = outcome s (s.adopt c) := by
  rw [Session.adopt, adopt, get_bind]
  cases s.plan c.path with
  | ok plan => rfl
  | error failure => rfl

theorem restore_run (c : Checkpoint) (s : Session) : restore c s = outcome s (s.restore c) := by
  refine (bind_of_outcome (adopt_run c s) _).trans ?_
  rw [Session.restore]
  cases s.adopt c with
  | ok adopted => rfl
  | error failure => rfl

theorem restoreOrStart_run (saved : Option Checkpoint) (s : Session) :
    restoreOrStart saved s = .ok (s.restoreOrStart saved).2 (s.restoreOrStart saved).1 := by
  cases saved with
  | none => rfl
  | some c =>
    have hrestore := restore_run c s
    rw [Session.restoreOrStart, Option.map_some, restoreOrStart]
    simp only [tryCatch, tryCatchThe, MonadExceptOf.tryCatch, EStateM.tryCatch]
    rw [hrestore]
    cases s.restore c with
    | ok restored => rfl
    | error failure => rfl

end Edit

/-- A history is missing where a path leads nowhere, for the same reason. -/
theorem History.segments_eq_error_iff {s : Script} {p : Path} {fault : PathFault} (w : Walk)
    (item : Nat) : segments s w item p = .error fault ↔ Walk.follow s w item p = .error fault := by
  induction p generalizing w item with
  | nil => simp [segments, Walk.follow]
  | cons x rest ih =>
    rw [segments, Walk.follow, Outcome.bind_eq_error, Outcome.bind_eq_error]
    refine or_congr Iff.rfl (exists_congr fun u => and_congr Iff.rfl ?_)
    rw [Outcome.bind_eq_error, ih]
    simp

theorem History.ofPath_eq_error_iff {s : Script} {p : Path} {fault : PathFault} :
    ofPath s p = .error fault ↔ Path.resolve s p = .error fault := by
  rw [ofPath, Outcome.bind_eq_error, segments_eq_error_iff, Path.resolve, Path.walk]
  cases Walk.follow s .start 0 p with
  | ok w => simp [Except.map]
  | error found => simp [Except.map]

namespace Session

variable {s : Session} {c : Checkpoint} {p : Path} {f : Failure} {plan : RestorePlan}

theorem plan_eq_error_iff :
    s.plan p = .error f ↔ ∃ fault, f = .unresolvable fault ∧
      Path.resolve s.script p = .error fault := by
  have hhistory (fault : PathFault) : RestorePlan.ofPath s.policy s.script p = .error fault ↔
      Path.resolve s.script p = .error fault := by
    rw [RestorePlan.ofPath, Outcome.bind_eq_error, History.ofPath_eq_error_iff]
    simp
  rw [plan]
  cases hplan : RestorePlan.ofPath s.policy s.script p with
  | ok plan =>
    constructor
    · intro h
      cases h
    · rintro ⟨fault, -, hresolve⟩
      cases hplan.symm.trans ((hhistory fault).mpr hresolve)
  | error fault =>
    have hresolve := (hhistory fault).mp hplan
    rw [hresolve]
    simp [eq_comm]

/-- A save can be restored unless its path leads nowhere. -/
theorem restore_eq_error_iff :
    s.restore c = .error f ↔ ∃ fault, f = .unresolvable fault ∧
      Path.resolve s.script c.path = .error fault := by
  rw [restore, adopt, Outcome.bind_eq_error, Outcome.bind_eq_error, plan_eq_error_iff]
  simp

theorem restore_eq_ok {t : Session} (h : s.restore c = .ok (t, plan)) :
    s.plan c.path = .ok plan ∧
      t = { s with toCheckpoint := c, undo := [], keep := plan.keep } := by
  rw [restore, Outcome.bind_eq_ok] at h
  obtain ⟨⟨u, found⟩, hadopt, h⟩ := h
  cases h
  obtain ⟨hplan, rfl⟩ := adopt_eq_ok.mp hadopt
  exact ⟨hplan, rfl⟩

/-- What fails leaves no trace. Done in place, step by step, a move or a restore that gives up leaves the
session as it was, whatever its path is like, and so does an exit where no branch can be left; when
nothing fails they do what the operations of a session say. A restore fails just if the path of the save
leads nowhere, and otherwise takes over the save, forgets all positions to go back to, and keeps what the
plan keeps. A save that leads nowhere is as good as none: a session starts anew. -/
theorem failure_leaves_no_trace (s : Session) :
    (∀ m, match Edit.attempt m s with
      | .ok _ t => s.attempt m = .ok t
      | .error f t => s.attempt m = .error f ∧ t = s) ∧
    (match Edit.exitBranch s with
      | .ok left t => if left then s.exitBranch = some t else s.exitBranch = none ∧ t = s
      | .error _ _ => False) ∧
    (∀ c, match Edit.restore c s with
      | .ok plan t => s.restore c = .ok (t, plan) ∧ s.plan c.path = .ok plan ∧
          t = { s with toCheckpoint := c, undo := [], keep := plan.keep }
      | .error f t => s.restore c = .error f ∧ t = s) ∧
    (∀ c f, s.restore c = .error f ↔
      ∃ fault, f = .unresolvable fault ∧ Path.resolve s.script c.path = .error fault) ∧
    ∀ c fault, Path.resolve s.script c.path = .error fault → ∃ t,
      Edit.restoreOrStart (some c) s = .ok .empty t ∧ s.restoreOrStart (some c) = (t, .empty) ∧
      t.toCheckpoint = (start s.name s.script s.settings).toCheckpoint ∧
      t.undo = (start s.name s.script s.settings).undo ∧
      t.keep = (start s.name s.script s.settings).keep := by
  refine ⟨fun m => ?_, ?_, fun c => ?_, fun c f => restore_eq_error_iff, ?_⟩
  · rw [Edit.attempt_run]
    cases s.attempt m with
    | ok t => exact rfl
    | error f => exact ⟨rfl, rfl⟩
  · rw [Edit.exitBranch_run]
    cases s.exitBranch with
    | some t => exact rfl
    | none => exact ⟨rfl, rfl⟩
  · rw [Edit.restore_run]
    cases hrestore : s.restore c with
    | ok restored =>
      obtain ⟨t, plan⟩ := restored
      exact ⟨rfl, restore_eq_ok hrestore⟩
    | error f => exact ⟨rfl, rfl⟩
  · intro c fault hfault
    have hrestore : s.restore c = .error (.unresolvable fault) :=
      restore_eq_error_iff.mpr ⟨fault, rfl, hfault⟩
    have hanew : s.restoreOrStart (some c) = (s.reset, .empty) := by
      rw [restoreOrStart, Option.map_some, hrestore]
    refine ⟨s.reset, ?_, hanew, rfl, rfl, rfl⟩
    rw [Edit.restoreOrStart_run, hanew]

/-- A reader who is lost keeps what was remembered, and starts anew only when asked to. -/
theorem failure_leaves_no_trace_lost :
    let script : Script := ⟨Draft.sample.scenes, Draft.sample.ordered⟩
    let lost : Checkpoint := ⟨Path.entry "nowhere", .empty, []⟩
    let s : Session :=
      { (start "lost" script {}).record with path := lost.path, snapshots := [.empty] }
    s.undo ≠ [] ∧ Edit.attempt (.choose 0) s = .error .notAtInstruction s ∧
      (∃ fault, Edit.restore lost s = .error (.unresolvable fault) s) ∧
      ∃ t, Edit.restoreOrStart (some lost) s = .ok .empty t ∧ t.path = Path.entry "start" ∧
        t.snapshots = [] ∧ t.undo = [] := by
  intro script lost s
  obtain ⟨hattempt, -, hrestore, hfails, hanew⟩ := failure_leaves_no_trace s
  have hchoose : Edit.attempt (.choose 0) s = .error .notAtInstruction s := by
    have hmove := hattempt (.choose 0)
    cases hrun : Edit.attempt (.choose 0) s with
    | ok found t =>
      rw [hrun] at hmove
      cases hmove
    | error f t =>
      rw [hrun] at hmove
      obtain ⟨hf, rfl⟩ := hmove
      cases hf
      rfl
  have hlost : Path.resolve script lost.path = .error (.unknownScene 0 "nowhere") := rfl
  have hfailed : s.restore lost = .error (.unresolvable (.unknownScene 0 "nowhere")) :=
    (hfails lost _).mpr ⟨_, rfl, hlost⟩
  have hrestored : Edit.restore lost s = .error (.unresolvable (.unknownScene 0 "nowhere")) s := by
    have hmove := hrestore lost
    cases hrun : Edit.restore lost s with
    | ok plan t =>
      rw [hrun, hfailed] at hmove
      cases hmove.1
    | error f t =>
      rw [hrun, hfailed] at hmove
      obtain ⟨hf, rfl⟩ := hmove
      cases hf
      rfl
  obtain ⟨t, hrun, -, hcheckpoint, hundo, -⟩ := hanew lost _ hlost
  have hpath : t.path = Path.entry "start" := congrArg Checkpoint.path hcheckpoint
  have hsnapshots : t.snapshots = [] := congrArg Checkpoint.snapshots hcheckpoint
  exact ⟨List.cons_ne_nil _ _, hchoose, ⟨_, hrestored⟩, t, hrun, hpath, hsnapshots, hundo⟩

end Session

end Narrative
