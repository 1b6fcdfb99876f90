import Mathlib.Data.List.TakeDrop
import Narrative.Proofs.Session.Steady

namespace Narrative

/-- What is done to a session while it is read, shown and taken back. -/
inductive Act
  | move (m : Move)
  | alter (state : PlayerState)
  | snapshot
  | undo

namespace Session

/-- A move that is refused changes nothing. -/
def act (s : Session) : Act → Session
  | .move m => (s.make? m).getD s
  | .alter state => { s with state := state }
  | .snapshot => s.recordSnapshot
  | .undo => s.goBack.1

/-- A point to go back to is recorded by an advance from where play stopped and by every choice that is
taken, if any points are kept at all. -/
def recordsPoint (s : Session) : Move → Bool
  | .advance => s.settings.undoLimit ≠ 0 && s.current?.any Instruction.isBlocking
  | .choose branch => s.settings.undoLimit ≠ 0 && (s.choose branch).toOption.isSome
  | _ => false

/-- The points to go back to after an act, of which the oldest are forgotten beyond the limit. -/
def undoAfter (s : Session) : Act → List Checkpoint
  | .move m =>
    if s.recordsPoint m then (s.toCheckpoint :: s.undo).take s.settings.undoLimit else s.undo
  | .undo => s.undo.tail
  | .alter _ | .snapshot => s.undo

variable {script : Script} {s : Session} {c : Checkpoint} {rest : List Checkpoint}

theorem adopt_eq_ok {t : Session} {plan : RestorePlan} :
    s.adopt c = .ok (t, plan) ↔
      s.plan c.path = .ok plan ∧ t = { s with toCheckpoint := c, keep := plan.keep } := by
  rw [Session.adopt, Outcome.bind_eq_ok]
  constructor
  · rintro ⟨plan', hplan, h⟩
    cases h
    exact ⟨hplan, rfl⟩
  · rintro ⟨hplan, rfl⟩
    exact ⟨plan, hplan, rfl⟩

/-- Going back takes one point away, whatever becomes of it. -/
theorem goBack_frame (s : Session) :
    s.goBack.1.undo = s.undo.tail ∧ s.goBack.1.settings = s.settings := by
  rw [goBack]
  split
  · rename_i hundo
    rw [hundo]
    exact ⟨rfl, rfl⟩
  · rename_i c rest hundo
    rw [hundo]
    dsimp only
    split
    · rename_i hadopt
      obtain ⟨-, rfl⟩ := adopt_eq_ok.mp hadopt
      exact ⟨rfl, rfl⟩
    · exact ⟨rfl, rfl⟩

theorem recordsPoint_eq (s : Session) (m : Move) :
    s.recordsPoint m = (s.settings.undoLimit ≠ 0 && ((s.make? m).isSome && s.records m)) := by
  cases m <;> simp [recordsPoint, make?, records]

/-- Each act changes the points as it should, if there are not too many of them before. -/
theorem undo_act (hroom : s.undo.length ≤ s.settings.undoLimit) (a : Act) :
    (s.act a).undo = s.undoAfter a := by
  cases a with
  | alter state => rfl
  | undo => exact s.goBack_frame.1
  | snapshot =>
    rw [act, recordSnapshot]
    split <;> rfl
  | move m =>
    rw [act, undoAfter, recordsPoint_eq]
    cases hmake : s.make? m with
    | none => simp
    | some s' =>
      obtain ⟨-, -, -, hundo, -⟩ := make?_frame hmake
      rw [Option.getD_some, hundo, record]
      by_cases hlimit : s.settings.undoLimit = 0
      · have hnone : s.undo = [] := List.length_eq_zero_iff.mp (by omega)
        simp [hlimit, hnone]
      · simp [hlimit]

theorem settings_act (s : Session) (a : Act) : (s.act a).settings = s.settings := by
  cases a with
  | alter state => rfl
  | snapshot =>
    rw [act, recordSnapshot]
    split <;> rfl
  | undo => exact s.goBack_frame.2
  | move m =>
    rw [act]
    cases hmake : s.make? m with
    | none => rfl
    | some s' => exact (make?_frame hmake).2.2.2.2.2

theorem Steady.act (h : s.Steady script) (hs : script.Sound) (ha : script.Addressable) (a : Act) :
    (s.act a).Steady script := by
  cases a with
  | move m =>
    rw [Session.act]
    cases hmake : s.make? m with
    | none => exact h
    | some s' => exact h.make hs ha hmake
  | alter state => exact h.congr rfl rfl rfl
  | snapshot =>
    rw [Session.act, recordSnapshot]
    split
    · exact h
    · exact h.congr rfl rfl rfl
  | undo => exact h.goBack.1

theorem goBack_of_plan {plan : RestorePlan} (hundo : s.undo = c :: rest)
    (hplan : s.plan c.path = .ok plan) :
    s.goBack = ({ s with toCheckpoint := c, keep := plan.keep, undo := rest }, some plan) := by
  have hadopt := adopt_eq_ok (s := { s with undo := rest }).mpr ⟨hplan, rfl⟩
  rw [Session.goBack, hundo]
  dsimp only
  rw [hadopt]

/-- A point of a steady session can be taken up, with the plan that belongs to its path. -/
theorem Steady.goBack_eq (h : s.Steady script) (hundo : s.undo = c :: rest) :
    ∃ plan, s.plan c.path = .ok plan ∧
      s.goBack = ({ s with toCheckpoint := c, keep := plan.keep, undo := rest }, some plan) := by
  obtain ⟨plan, hadopt⟩ := h.adopt (h.undo c (hundo ▸ List.mem_cons_self))
  have hplan := (adopt_eq_ok.mp hadopt).1
  exact ⟨plan, hplan, goBack_of_plan hundo hplan⟩

end Session

/-- A session with the points of all moves on record that have not been taken back, the latest first,
and how many of the oldest of them are out of reach. -/
structure Ledger where
  session : Session
  points : List Checkpoint
  lost : Nat

namespace Ledger

def start (name : String) (script : Script) (settings : Settings) : Ledger :=
  ⟨Session.start name script settings, [], 0⟩

/-- The points that can still be gone back to. -/
def reach (l : Ledger) : List Checkpoint := l.points.take (l.points.length - l.lost)

/-- A point comes on record with its move, and is struck off when the move is taken back. -/
def pointsAfter (l : Ledger) : Act → List Checkpoint
  | .move m =>
    if l.session.recordsPoint m then l.session.toCheckpoint :: l.points else l.points
  | .undo => if l.lost < l.points.length then l.points.tail else l.points
  | .alter _ | .snapshot => l.points

/-- The oldest points are lost, one for each by which those on record have ever passed the limit. -/
def step (l : Ledger) (a : Act) : Ledger :=
  let points := l.pointsAfter a
  ⟨l.session.act a, points, max l.lost (points.length - l.session.settings.undoLimit)⟩

/-- The session can go back to just the points in reach, and there is room for them. -/
structure Kept (script : Script) (settings : Settings) (l : Ledger) : Prop where
  steady : l.session.Steady script
  same : l.session.settings = settings
  undo : l.session.undo = l.reach
  lost_le : l.lost ≤ l.points.length
  room : l.points.length ≤ l.lost + settings.undoLimit

variable {script : Script} {settings : Settings} {l : Ledger}

theorem Kept.start {name : String} (hs : script.Sound) :
    Kept script settings (.start name script settings) :=
  ⟨.start hs, rfl, rfl, Nat.le_refl 0, Nat.zero_le _⟩

theorem Kept.length_undo (h : Kept script settings l) :
    l.session.undo.length ≤ settings.undoLimit := by
  have hroom := h.room
  rw [h.undo, reach, List.length_take]
  omega

/-- A new point pushes the oldest in reach out, if there is no room for both. -/
theorem take_push (point : Checkpoint) (points : List Checkpoint) {lost limit : Nat}
    (hlost : lost ≤ points.length) (hlimit : limit ≠ 0) :
    (point :: points.take (points.length - lost)).take limit =
      (point :: points).take
        (points.length + 1 - max lost (points.length + 1 - limit)) := by
  obtain ⟨room, rfl⟩ := Nat.exists_eq_succ_of_ne_zero hlimit
  have hreach : points.length + 1 - max lost (points.length + 1 - (room + 1)) =
      min room (points.length - lost) + 1 := by omega
  rw [hreach, List.take_succ_cons, List.take_succ_cons, List.take_take]

theorem lost_le_pointsAfter (h : l.lost ≤ l.points.length) (a : Act) :
    l.lost ≤ (l.pointsAfter a).length := by
  cases a with
  | move m =>
    rw [pointsAfter]
    split
    · exact Nat.le_succ_of_le h
    · exact h
  | undo =>
    rw [pointsAfter]
    split
    · rw [List.length_tail]
      omega
    · exact h
  | alter state | snapshot => exact h

/-- The session and the record change alike. -/
theorem Kept.reach_step (h : Kept script settings l) (a : Act) :
    (l.step a).reach = l.session.undoAfter a := by
  have hlost := h.lost_le
  have hroom := h.room
  -- Only a new point can push one out, so any other act leaves as many lost as before.
  have hstill : max l.lost (l.points.length - settings.undoLimit) = l.lost := by omega
  rw [reach, step, h.same]
  cases a with
  | move m =>
    rw [pointsAfter, Session.undoAfter, h.undo, reach, h.same]
    split
    · rename_i hrecords
      have hlimit : settings.undoLimit ≠ 0 := by
        rw [Session.recordsPoint_eq, h.same, Bool.and_eq_true, decide_eq_true_iff] at hrecords
        exact hrecords.1
      rw [take_push _ _ hlost hlimit, List.length_cons]
    · rw [hstill]
  | undo =>
    rw [pointsAfter, Session.undoAfter, h.undo, reach]
    split
    · rename_i hsome
      have htail : max l.lost (l.points.tail.length - settings.undoLimit) = l.lost := by
        rw [List.length_tail]
        omega
      rw [htail, List.tail_take_eq_take_tail, List.length_tail, Nat.sub_right_comm]
    · have hnone : l.points.length - l.lost = 0 := by omega
      rw [hstill, hnone]
      rfl
  | alter state | snapshot =>
    rw [pointsAfter, Session.undoAfter, h.undo, reach, hstill]

theorem Kept.step (h : Kept script settings l) (hs : script.Sound) (ha : script.Addressable)
    (a : Act) : Kept script settings (l.step a) := by
  have hpoints := lost_le_pointsAfter h.lost_le a
  exact {
    steady := h.steady.act hs ha a
    same := (l.session.settings_act a).trans h.same
    undo := (Session.undo_act (h.same ▸ h.length_undo) a).trans (h.reach_step a).symm
    lost_le := by
      rw [Ledger.step]
      dsimp only
      omega
    room := by
      rw [Ledger.step, h.same]
      dsimp only
      omega }

theorem Kept.run (h : Kept script settings l) (hs : script.Sound) (ha : script.Addressable)
    (acts : List Act) : Kept script settings (acts.foldl Ledger.step l) := by
  induction acts generalizing l with
  | nil => exact h
  | cons a rest ih => exact ih (h.step hs ha a)

/-- The session keeps the points in reach and no more than the limit. It records and strikes off as it
should, and goes back to the latest point as it was then, with the plan of its path. Without a point
it stays where it is. -/
theorem goes_back_to_reach {d : Draft} {limits : Limits} (hscript : d.compile limits = .ok script)
    (haddressable : script.Addressable) (name : String) (settings : Settings)
    (acts : List Act) :
    let l := acts.foldl Ledger.step (.start name script settings)
    l.session.undo = l.reach ∧ l.session.undo.length ≤ settings.undoLimit ∧
      (∀ a, (l.session.act a).undo = l.session.undoAfter a) ∧
      match l.reach with
      | [] => l.session.goBack = (l.session, none)
      | p :: rest => ∃ plan, l.session.plan p.path = .ok plan ∧
          l.session.goBack =
            ({ l.session with toCheckpoint := p, keep := plan.keep, undo := rest }, some plan) := by
  intro l
  have hsound := Draft.compile_sound hscript
  have hkept : Kept script settings l := (Kept.start hsound).run hsound haddressable acts
  have hroom := hkept.length_undo
  refine ⟨hkept.undo, hroom, fun a => Session.undo_act (hkept.same ▸ hroom) a, ?_⟩
  have hundo := hkept.undo
  split
  · rename_i hnone
    rw [hnone] at hundo
    rw [Session.goBack, hundo]
  · rename_i p rest hreach
    rw [hreach] at hundo
    exact hkept.steady.goBack_eq hundo

theorem goes_back_to_reach_sample :
    let script : Script := ⟨Draft.sample.scenes, Draft.sample.ordered⟩
    let settings : Settings := { undoLimit := 1 }
    Draft.sample.compile {} = .ok script ∧ script.Addressable ∧
      ∀ acts : List Act,
        let l := acts.foldl Ledger.step (.start "sample" script settings)
        l.session.undo = l.reach ∧ l.session.undo.length ≤ 1 ∧
          (∀ a, (l.session.act a).undo = l.session.undoAfter a) ∧
          match l.reach with
          | [] => l.session.goBack = (l.session, none)
          | p :: rest => ∃ plan, l.session.plan p.path = .ok plan ∧
              l.session.goBack =
                ({ l.session with toCheckpoint := p, keep := plan.keep, undo := rest },
                  some plan) := by
  intro script settings
  have haddressable := Draft.compile_addressable Draft.sample_compiles (by decide)
  exact ⟨Draft.sample_compiles, haddressable,
    goes_back_to_reach Draft.sample_compiles haddressable "sample" settings⟩

end Ledger

end Narrative
