import Narrative.Proofs.Play.Beat

namespace Narrative

/-- The instruction would move the path and cannot: a condition without the variant that is selected, or
an exit where no branch is open. -/
def Session.passesBy (s : Session) : Instruction → Bool
  | .condition c => (c.variant? (c.selector.select s.state)).isNone
  | .exit => s.exitBranch.isNone
  | _ => false

/-- What comes of the instruction that play has come to. -/
inductive Note
  /-- The executor gets it. -/
  | handed (spot : Spot)
  /-- It moves the path, and there was nowhere to move it to. -/
  | passedBy (spot : Spot)

/-- A scan does not look behind this: the player is asked for something, and it is not a branch. -/
def Instruction.stopsScan : Instruction → Bool
  | .choice _ => false
  | i => i.isBlocking

namespace Note

/-- A scan looks behind what the note is about. -/
def isOpen : Note → Bool
  | handed spot => !spot.instruction.stopsScan
  | passedBy _ => false

def handed? : Note → Option Spot
  | handed spot => some spot
  | passedBy _ => none

/-- What has been handed to the executor, up to and including the first instruction that a scan does not
look behind. -/
def sighted : List Note → List Spot
  | [] => []
  | n :: rest => n.handed?.toList ++ if n.isOpen then sighted rest else []

theorem mem_sighted_append {x : Spot} {a b : List Note} (h : x ∈ sighted (a ++ b)) :
    x ∈ sighted a ∨ a.all isOpen = true ∧ x ∈ sighted b := by
  induction a with
  | nil => exact .inr ⟨rfl, h⟩
  | cons n rest ih =>
    rw [List.cons_append, sighted, List.mem_append] at h
    rw [sighted, List.mem_append, List.all_cons, Bool.and_eq_true]
    cases hopen : n.isOpen with
    | false =>
      rw [hopen] at h
      exact .inl h
    | true =>
      rw [hopen] at h
      rcases h with h | h
      · exact .inl (.inl h)
      · exact (ih h).imp .inr fun ⟨hall, h⟩ => ⟨⟨rfl, hall⟩, h⟩

end Note

namespace Performance

variable {σ : Type}

/-- The note that is made of a turn of play. -/
def note? (p : Performance σ) : Option Note :=
  if p.session.cancelled then none
  else match p.session.position with
  | .ok (some spot) =>
    if spot.instruction.isControl then
      if p.session.passesBy spot.instruction then some (.passedBy spot) else none
    else some (.handed spot)
  | _ => none

theorem note?_of_position {p : Performance σ} {spot : Spot} (hfree : p.session.cancelled = false)
    (hposition : p.session.position = .ok (some spot)) :
    p.note? =
      if spot.instruction.isControl then
        if p.session.passesBy spot.instruction then some (.passedBy spot) else none
      else some (.handed spot) := by
  rw [note?, if_neg (Bool.eq_false_iff.mp hfree), hposition]

def playNotes (x : Executor σ) : Nat → Performance σ → List Note
  | 0, _ => []
  | n + 1, p =>
    p.note?.toList ++
      match beat x p with
      | .on q => playNotes x n q
      | .stop _ _ => []

/-- Does as the player asks. A branch that is not there to be taken changes nothing. -/
def serve (x : Executor σ) (p : Performance σ) : Call → Performance σ
  | .play limit => (play x limit p).2
  | .choose branch =>
    match p.session.choose branch with
    | .ok s => { p with session := s }
    | .error _ => p

/-- The notes of all play that the player asks for. -/
def notes (x : Executor σ) : List Call → Performance σ → List Note
  | [], _ => []
  | .play limit :: rest, p => playNotes x limit p ++ notes x rest (p.serve x (.play limit))
  | .choose branch :: rest, p => notes x rest (p.serve x (.choose branch))

end Performance

/-- Runs instructions as another executor does, and keeps a list of them. -/
def Executor.listing {σ : Type} (x : Executor σ) : Executor (σ × List Instruction) where
  execute e i scope :=
    let r := x.execute e.1 i scope
    ⟨(r.executor, e.2 ++ [i]), r.state, r.cancels⟩
  clear e keep := (x.clear e.1 keep, e.2)

def Note.ran (notes : List Note) : List Instruction :=
  (notes.filterMap Note.handed?).map Spot.instruction

theorem Note.ran_append (a b : List Note) : ran (a ++ b) = ran a ++ ran b := by
  rw [ran, List.filterMap_append, List.map_append, ran, ran]

namespace Performance

variable {σ : Type} {x : Executor σ}

def listing (p : Performance σ) (ran : List Instruction) : Performance (σ × List Instruction) :=
  ⟨p.session, (p.executor, ran)⟩

theorem beat_listing (p : Performance σ) (ran : List Instruction) :
    beat x.listing (p.listing ran) =
      match beat x p with
      | .on q => .on (q.listing (ran ++ Note.ran p.note?.toList))
      | .stop outcome q => .stop outcome (q.listing (ran ++ Note.ran p.note?.toList)) := by
  have hsession : (p.listing ran).session = p.session := rfl
  have hnone (q : Performance σ) : q.listing (ran ++ Note.ran []) = q.listing ran :=
    congrArg q.listing (List.append_nil ran)
  rw [beat, beat, note?, hsession]
  by_cases hcancelled : p.session.cancelled = true
  · rw [if_pos hcancelled, if_pos hcancelled, if_pos hcancelled]
    exact congrArg (Beat.stop _) (hnone p).symm
  · rw [if_neg hcancelled, if_neg hcancelled, if_neg hcancelled]
    cases p.session.position with
    | error fault => exact congrArg (Beat.stop _) (hnone p).symm
    | ok found =>
      cases found with
      | none =>
        dsimp only
        cases p.session.isAtEntry with
        | true => exact congrArg Beat.on (hnone { p with session := p.session.advance }).symm
        | false => exact congrArg (Beat.stop _) (hnone p).symm
      | some spot =>
        obtain ⟨place, i⟩ := spot
        cases i with
        | finish => exact congrArg (Beat.stop _) (hnone p).symm
        | condition c | block scene | jump scene | exit =>
          dsimp only
          cases steer p.session _ with
          | ok s =>
            cases p.session.passesBy _ <;>
              exact congrArg Beat.on (hnone { p with session := s }).symm
          | error failure =>
            cases p.session.passesBy _ <;> exact congrArg (Beat.stop _) (hnone p).symm
        | _ => rfl

theorem play_listing (n : Nat) (p : Performance σ) (ran : List Instruction) :
    play x.listing n (p.listing ran) =
      ((play x n p).1, (play x n p).2.listing (ran ++ Note.ran (playNotes x n p))) := by
  induction n generalizing p ran with
  | zero =>
    rw [playNotes, Note.ran, List.filterMap_nil, List.map_nil, List.append_nil]
    rfl
  | succ n ih =>
    rw [play_succ, play_succ, playNotes, beat_listing]
    cases beat x p with
    | on q =>
      dsimp only
      rw [ih, Note.ran_append, List.append_assoc]
    | stop outcome q =>
      dsimp only
      rw [List.append_nil]

/-- The notes tell just what the executor gets. -/
theorem serve_listing (calls : List Call) (p : Performance σ) (ran : List Instruction) :
    calls.foldl (serve x.listing) (p.listing ran) =
      (calls.foldl (serve x) p).listing (ran ++ Note.ran (notes x calls p)) := by
  induction calls generalizing p ran with
  | nil => exact congrArg p.listing (List.append_nil ran).symm
  | cons c rest ih =>
    cases c with
    | play limit =>
      rw [List.foldl_cons, List.foldl_cons, serve, play_listing, ih, notes, Note.ran_append,
        List.append_assoc]
      rfl
    | choose branch =>
      have hchoose : serve x.listing (p.listing ran) (.choose branch) =
          (serve x p (.choose branch)).listing ran := by
        rw [serve, serve]
        cases hchoose : p.session.choose branch with
        | ok s =>
          rw [listing, hchoose]
          rfl
        | error failure => rw [listing, hchoose]
      rw [List.foldl_cons, List.foldl_cons, hchoose, ih, notes]

end Performance

end Narrative
