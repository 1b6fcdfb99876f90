import Mathlib.Data.List.Nodup

namespace Narrative

variable {α β : Type}

theorem find?_of_mem {γ : Type} [DecidableEq γ] {key : α → γ} {items : List α} {a : α}
    (hkeys : (items.map key).Nodup) (ha : a ∈ items) :
    items.find? (fun b => key b = key a) = some a := by
  induction items with
  | nil => cases ha
  | cons b items ih =>
    rw [List.map_cons, List.nodup_cons] at hkeys
    rcases List.mem_cons.mp ha with rfl | ha
    · rw [List.find?_cons_of_pos (by simp)]
    · have hb : key b ≠ key a := fun heq => hkeys.1 (heq ▸ List.mem_map_of_mem ha)
      rw [List.find?_cons_of_neg (by simpa using hb)]
      exact ih hkeys.2 ha

theorem filter_of_mem {γ : Type} [DecidableEq γ] {key : α → γ} {items : List α} {a : α}
    (hkeys : (items.map key).Nodup) (ha : a ∈ items) :
    items.filter (fun b => key b = key a) = [a] := by
  induction items with
  | nil => cases ha
  | cons b items ih =>
    rw [List.map_cons, List.nodup_cons] at hkeys
    rcases List.mem_cons.mp ha with rfl | ha
    · rw [List.filter_cons_of_pos (by simp), List.filter_eq_nil_iff.mpr]
      intro c hc
      have hne : key c ≠ key a := fun heq => hkeys.1 (heq ▸ List.mem_map_of_mem hc)
      simpa using hne
    · have hb : key b ≠ key a := fun heq => hkeys.1 (heq ▸ List.mem_map_of_mem ha)
      rw [List.filter_cons_of_neg (by simpa using hb)]
      exact ih hkeys.2 ha

theorem length_le_flatMap {write : α → List β} (h : ∀ a, write a ≠ []) (as : List α) :
    as.length ≤ (as.flatMap write).length := by
  induction as with
  | nil => exact Nat.le_refl 0
  | cons a as ih =>
    have ha := List.length_pos_iff.mpr (h a)
    rw [List.flatMap_cons, List.length_append, List.length_cons]
    omega

theorem exists_map_of_forall {make : β → α} {p : β → Prop} {as : List α}
    (h : ∀ a ∈ as, ∃ b, p b ∧ a = make b) : ∃ bs : List β, as = bs.map make ∧ ∀ b ∈ bs, p b := by
  induction as with
  | nil => exact ⟨[], rfl, by simp⟩
  | cons a as ih =>
    obtain ⟨b, hb, rfl⟩ := h a List.mem_cons_self
    obtain ⟨bs, rfl, hbs⟩ := ih fun a ha => h a (List.mem_cons_of_mem _ ha)
    exact ⟨b :: bs, rfl, List.forall_mem_cons.mpr ⟨hb, hbs⟩⟩

/-- Two texts divided at the same mark are divided alike. -/
theorem eq_of_append_mark {mark : α} {a b x y : List α} (ha : mark ∉ a) (hb : mark ∉ b)
    (h : a ++ mark :: x = b ++ mark :: y) : a = b ∧ x = y := by
  induction a generalizing b with
  | nil =>
    cases b with
    | nil => exact ⟨rfl, (List.cons.inj h).2⟩
    | cons c b => exact absurd ((List.cons.inj h).1 ▸ List.mem_cons_self) hb
  | cons c a ih =>
    cases b with
    | nil => exact absurd ((List.cons.inj h).1 ▸ List.mem_cons_self) ha
    | cons c' b =>
      obtain ⟨rfl, hrest⟩ := List.cons.inj h
      obtain ⟨rfl, hend⟩ := ih (fun h => ha (List.mem_cons_of_mem _ h))
        (fun h => hb (List.mem_cons_of_mem _ h)) hrest
      exact ⟨rfl, hend⟩

end Narrative
