import Narrative.Proofs.Keyed
import Narrative.Stage

namespace Narrative

namespace Instruction

/-- Effects that a stage keeps a record of. -/
def Effect.isStaged : Effect → Bool
  | character _ | music _ | sound _ | background => true
  | _ => false

/-- The last of some instructions to override an effect. -/
def last? (e : Effect) : List Instruction → Option Instruction
  | [] => none
  | i :: rest => (last? e rest).or (if i.overrides e then some i else none)

/-- Whether an instruction puts its thing on stage; all others that have one take it off. -/
def brings : Instruction → Bool
  | showCharacter .. | playMusic _ | playSound .. => true
  | _ => false

/-- The background that an instruction shows. -/
def backdrop? : Instruction → Option String
  | showBackground b => some b
  | _ => none

theorem last?_isSome (e : Effect) (l : List Instruction) :
    (last? e l).isSome = l.any fun i => i.overrides e := by
  induction l with
  | nil => rfl
  | cons i l ih =>
    rw [last?, Option.isSome_or, ih, List.any_cons, Bool.or_comm]
    cases i.overrides e <;> rfl

theorem overrides_of_last? {e : Effect} {l : List Instruction} {i : Instruction}
    (h : last? e l = some i) : i ∈ l ∧ i.overrides e = true := by
  induction l with
  | nil => cases h
  | cons j rest ih =>
    rw [last?, Option.or_eq_some_iff] at h
    rcases h with h | ⟨_, h⟩
    · exact ⟨List.mem_cons_of_mem _ (ih h).1, (ih h).2⟩
    · split at h
      · rename_i hj
        cases h
        exact ⟨List.mem_cons_self, hj⟩
      · cases h

/-- Apart from clearing the stage, an instruction overrides the one effect it has. -/
theorem effect?_of_overrides {i : Instruction} {e : Effect} (he : e.isStaged)
    (h : i.overrides e = true) : (∃ c, i = clear c) ∨ i.effect? = some e := by
  cases i with
  | clear c => exact .inl ⟨c, rfl⟩
  | _ => cases e <;> simp_all [overrides, Effect.isStaged]

theorem overrides_of_effect? {i : Instruction} {e : Effect} (h : i.effect? = some e) :
    i.overrides e = true := by
  cases i <;> simp_all [overrides, effect?] <;> subst h <;> simp

end Instruction

namespace Stage

open Instruction (last?)

/-- Whether a stage shows an effect; the background is told apart by its name. -/
def shows (s : Stage) : Instruction.Effect → Bool
  | .character c => s.characters.contains c
  | .music m => s.music.contains m
  | .sound n => s.sounds.contains n
  | _ => false

theorem ext_shows {s t : Stage} (hb : s.background = t.background)
    (h : ∀ e, s.shows e = t.shows e) : s = t := by
  have hc : s.characters = t.characters := NameSet.ext_contains fun x => h (.character x)
  have hm : s.music = t.music := NameSet.ext_contains fun x => h (.music x)
  have hs : s.sounds = t.sounds := NameSet.ext_contains fun x => h (.sound x)
  cases s
  cases t
  simp_all

theorem shows_empty (e : Instruction.Effect) : Stage.empty.shows e = false := by
  cases e <;> rfl

theorem shows_apply (s : Stage) (i : Instruction) {e : Instruction.Effect} (he : e.isStaged) :
    (s.apply i).shows e = if i.overrides e then i.brings else s.shows e := by
  cases e with
  | voice | preload _ | animation _ => cases he
  | _ =>
    cases i <;> simp [apply, shows, Instruction.overrides, Instruction.effect?,
      Instruction.Effect.endedBy, Instruction.brings] <;> grind

theorem background_apply (s : Stage) (i : Instruction) :
    (s.apply i).background =
      if i.overrides .background then i.backdrop? else s.background := by
  cases i <;> simp [apply, Instruction.overrides, Instruction.effect?,
    Instruction.Effect.endedBy, Instruction.backdrop?]

theorem shows_foldl (s : Stage) (l : List Instruction) {e : Instruction.Effect} (he : e.isStaged) :
    (l.foldl apply s).shows e = ((last? e l).map Instruction.brings).getD (s.shows e) := by
  induction l generalizing s with
  | nil => rfl
  | cons i rest ih =>
    rw [List.foldl_cons, ih, shows_apply s i he, last?]
    cases last? e rest with
    | some j => rfl
    | none => cases i.overrides e <;> rfl

theorem background_foldl (s : Stage) (l : List Instruction) :
    (l.foldl apply s).background =
      ((last? .background l).map Instruction.backdrop?).getD s.background := by
  induction l generalizing s with
  | nil => rfl
  | cons i rest ih =>
    rw [List.foldl_cons, ih, background_apply, last?]
    cases last? .background rest with
    | some j => rfl
    | none => cases i.overrides .background <;> rfl

/-- A stage knows no more of its past than the last word on each effect. -/
theorem foldl_apply_congr {l l' : List Instruction}
    (h : ∀ e, e.isStaged → last? e l = last? e l') (s : Stage) :
    l.foldl apply s = l'.foldl apply s := by
  apply ext_shows
  · rw [background_foldl, background_foldl, h .background rfl]
  · intro e
    cases he : e.isStaged with
    | true => rw [shows_foldl s l he, shows_foldl s l' he, h e he]
    | false => cases e <;> first | rfl | cases he

/-- What waits for the player leaves the stage as it is, and so does what only moves the path. -/
theorem apply_of_isInteractive {i : Instruction} (h : i.isInteractive = true) (s : Stage) :
    s.apply i = s := by
  cases i <;> first | rfl | cases h

theorem apply_of_isControl {i : Instruction} (h : i.isControl = true) (s : Stage) :
    s.apply i = s := by
  cases i <;> first | rfl | cases h

/-- Everything on a stage is taken off it or replaced by some instructions. -/
def GoneAfter (s : Stage) (l : List Instruction) : Prop :=
  (s.background.isSome = true → ∃ i ∈ l, i.overrides .background = true) ∧
    ∀ e, s.shows e = true → ∃ i ∈ l, i.overrides e = true

theorem isStaged_of_shows {s : Stage} {e : Instruction.Effect} (h : s.shows e = true) :
    e.isStaged = true := by
  cases e <;> first | rfl | cases h

theorem goneAfter_empty (l : List Instruction) : GoneAfter .empty l := by
  constructor
  · intro h
    cases h
  · intro e h
    cases e <;> cases h

/-- A stage leaves no trace just if everything on it goes. -/
theorem foldl_apply_eq_empty (s : Stage) (l : List Instruction) :
    l.foldl apply s = l.foldl apply .empty ↔ s.GoneAfter l := by
  have hover : ∀ e, (∃ i ∈ l, i.overrides e = true) ↔ (last? e l).isSome = true := fun e => by
    rw [Instruction.last?_isSome, List.any_eq_true]
  constructor
  · intro h
    constructor
    · intro hs
      have hb : (l.foldl apply s).background = (l.foldl apply .empty).background := by rw [h]
      rw [background_foldl, background_foldl] at hb
      rw [hover]
      cases hlast : last? .background l with
      | some i => rfl
      | none =>
        rw [hlast] at hb
        have hnone : s.background = none := hb
        rw [hnone] at hs
        cases hs
    · intro e hs
      have he := isStaged_of_shows hs
      have hb : (l.foldl apply s).shows e = (l.foldl apply .empty).shows e := by rw [h]
      rw [shows_foldl _ _ he, shows_foldl _ _ he, shows_empty] at hb
      rw [hover]
      cases hlast : last? e l with
      | some i => rfl
      | none =>
        rw [hlast] at hb
        cases hs.symm.trans hb
  · rintro ⟨hback, hgone⟩
    apply ext_shows
    · rw [background_foldl, background_foldl]
      cases hlast : last? .background l with
      | some i => rfl
      | none =>
        cases hb : s.background with
        | none => rfl
        | some b =>
          rw [hb, hover, hlast] at hback
          cases hback rfl
    · intro e
      cases he : e.isStaged with
      | false => cases e <;> first | rfl | cases he
      | true =>
        rw [shows_foldl _ _ he, shows_foldl _ _ he, shows_empty]
        cases hlast : last? e l with
        | some i => rfl
        | none =>
          refine Bool.eq_false_iff.mpr fun hs => ?_
          have hsome := (hover e).mp (hgone e hs)
          rw [hlast] at hsome
          cases hsome

end Stage

end Narrative
