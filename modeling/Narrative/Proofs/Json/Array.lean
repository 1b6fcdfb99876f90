import Mathlib.Data.List.Forall2
import Narrative.Proofs.Json.Object

namespace Narrative.Json

variable {w : Spacing} {level : Nat} {blanks s : List Char}

/-- What an item of a list may start with. -/
def Starts : List Char → Prop
  | [] => False
  | c :: _ => isBlank c = false ∧ c ≠ ']'

theorem Starts.append (h : Starts s) (rest : List Char) : Starts (s ++ rest) := by
  cases s with
  | nil => exact h.elim
  | cons c s => exact h

theorem nextItem_item (hblanks : ∀ c ∈ blanks, isBlank c = true) (h : Starts s) :
    nextItem true (blanks ++ s) = .ok (some s) ∧
      nextItem false (',' :: (blanks ++ s)) = .ok (some s) := by
  cases s with
  | nil => exact h.elim
  | cons c s =>
    obtain ⟨hblank, hclose⟩ := h
    have hskip : skipBlank (blanks ++ c :: s) = c :: s := by
      rw [skipBlank_append hblanks, skipBlank_cons hblank]
    have hcomma : skipBlank (',' :: (blanks ++ c :: s)) = _ := skipBlank_cons rfl _
    constructor
    · simp [nextItem, hskip]
    · simp [nextItem, hcomma, hskip, hclose]

theorem nextItem_close (hblanks : ∀ c ∈ blanks, isBlank c = true) (first : Bool)
    (rest : List Char) : nextItem first (blanks ++ ']' :: rest) = .ok none := by
  rw [nextItem, skipBlank_append hblanks, skipBlank_cons rfl]
  rfl

theorem closeArray_close (hblanks : ∀ c ∈ blanks, isBlank c = true) (rest : List Char) :
    closeArray (blanks ++ ']' :: rest) = .ok rest := by
  rw [closeArray, skipBlank_append hblanks, skipBlank_cons rfl]
  rfl

theorem ends_writeItems (hw : w.Blank) (level : Nat) (items : List Json) (rest : List Char) :
    Ends (writeItems w level items ++ (w.close level ++ ']' :: rest)) := by
  cases items with
  | nil =>
    have hbracket : Ends (']' :: rest) := by simp [Ends]
    rw [writeItems, List.nil_append]
    exact hbracket.append (hw.close level)
  | cons j items => simp [writeItems, Ends]

theorem length_le_writeItems (w : Spacing) (level : Nat) (items : List Json) :
    items.length ≤ (writeItems w level items).length := by
  induction items with
  | nil => exact Nat.le_refl 0
  | cons j items ih =>
    simp only [writeItems, List.length_cons, List.length_append]
    omega

variable {α : Type} {item : Reader α} {items : List Json} {as : List α}

/-- What is written for a value starts like an item of a list, and it is taken for what it says. -/
structure TakesItem (w : Spacing) (level : Nat) (item : Reader α) (j : Json) (a : α) : Prop where
  starts : Starts (write w level j)
  takes : Takes item (write w level j) a

theorem readItems_writeItems (hw : w.Blank)
    (h : List.Forall₂ (TakesItem w (level + 1) item) items as) {steps : Nat}
    (hsteps : items.length < steps) (rest : List Char) :
    readItems item steps false (writeItems w level items ++ (w.close level ++ ']' :: rest)) =
      .ok (as, rest) := by
  induction h generalizing steps with
  | nil =>
    obtain ⟨steps, rfl⟩ := Nat.exists_eq_succ_of_ne_zero (Nat.ne_of_gt hsteps)
    rw [writeItems, List.nil_append, readItems, nextItem_close (hw.close level), Outcome.ok_bind]
    dsimp only
    rw [skipBlank_append (hw.close level), skipBlank_cons rfl]
    rfl
  | @cons j a items as hfirst _ ih =>
    obtain ⟨steps, rfl⟩ := Nat.exists_eq_succ_of_ne_zero (Nat.ne_of_gt (Nat.zero_lt_of_lt hsteps))
    have hnext := (nextItem_item (hw.lead level) (hfirst.starts.append
      (writeItems w level items ++ (w.close level ++ ']' :: rest)))).2
    have htake := hfirst.takes _ (ends_writeItems hw level items rest)
    simp only [writeItems, List.cons_append, List.append_assoc]
    rw [readItems, hnext, Outcome.ok_bind]
    dsimp only
    rw [htake, Outcome.ok_bind]
    dsimp only
    rw [ih (Nat.lt_of_succ_lt_succ hsteps)]
    rfl

/-- The items of a list are read with as many steps as the text has characters. -/
theorem readItems_array (hw : w.Blank) (h : List.Forall₂ (TakesItem w (level + 1) item) items as)
    (rest : List Char) :
    ∃ t, write w level (arr items) ++ rest = '[' :: t ∧
      readItems item (t.length + 1) true t = .ok (as, rest) := by
  cases h with
  | nil =>
    refine ⟨']' :: rest, rfl, ?_⟩
    rw [readItems]
    rfl
  | @cons j a items as hfirst hothers =>
    refine ⟨w.lead level ++ (write w (level + 1) j ++
      (writeItems w level items ++ (w.close level ++ ']' :: rest))), ?_, ?_⟩
    · simp [write]
    · have hnext := (nextItem_item (hw.lead level) (hfirst.starts.append
        (writeItems w level items ++ (w.close level ++ ']' :: rest)))).1
      have htake := hfirst.takes _ (ends_writeItems hw level items rest)
      have hlength := length_le_writeItems w level items
      rw [readItems, hnext, Outcome.ok_bind]
      dsimp only
      rw [htake, Outcome.ok_bind]
      dsimp only
      rw [readItems_writeItems hw hothers]
      · rfl
      · simp only [List.length_append, List.length_cons]
        omega

end Narrative.Json
