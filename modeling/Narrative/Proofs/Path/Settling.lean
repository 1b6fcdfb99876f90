import Narrative.Proofs.Path.Leaving

namespace Narrative

/-- So many rounds of a loop lead from one state to another. -/
inductive Rounds {α : Type} (round : α → α → Prop) : Nat → α → α → Prop
  | none (a : α) : Rounds round 0 a a
  | more {n : Nat} {a b c : α} (h : round a b) (hrest : Rounds round n b c) :
    Rounds round (n + 1) a c

namespace Rounds

variable {α : Type} {round : α → α → Prop} {n : Nat} {a b c : α}

/-- What no round changes is not changed by any number of them. -/
theorem eq_of_round {β : Type} {f : α → β} (hf : ∀ a b, round a b → f b = f a)
    (h : Rounds round n a b) : f b = f a := by
  induction h with
  | none a => rfl
  | more hround _ ih => exact ih.trans (hf _ _ hround)

/-- What no round makes greater is not made greater by any number of them. -/
theorem le_of_round {f : α → Nat} (hf : ∀ a b, round a b → f b ≤ f a)
    (h : Rounds round n a b) : f b ≤ f a := by
  induction h with
  | none a => exact Nat.le_refl _
  | more hround _ ih => exact Nat.le_trans ih (hf _ _ hround)

/-- One round after all others. -/
theorem concat (h : Rounds round n a b) (hround : round b c) : Rounds round (n + 1) a c := by
  induction h with
  | none a => exact .more hround (.none c)
  | more hfirst _ ih => exact .more hfirst (ih hround)

end Rounds

namespace Path

variable {s : Script} {p q before left : Path} {list : Passage} {n last : Int64} {count : Nat}

/-- One round of going back to an instruction, from the end of a list. An index behind the end is clamped
to the list, and any other last item is dropped. -/
inductive Shortens (s : Script) : Path → Path → Prop
  | clamp {before : Path} {n last : Int64} (hend : resolve s (before ++ [.index n]) = .ok none)
    (hlast : lastIndex? s before = some last) (hpast : 0 < n ∧ last < n) :
    Shortens s (before ++ [.index n]) (before ++ [.index last])
  | drop {before : Path} {item : PathItem} (hend : resolve s (before ++ [item]) = .ok none)
    (hinside : ∀ n last, item = .index n → lastIndex? s before = some last → ¬ (0 < n ∧ last < n)) :
    Shortens s (before ++ [item]) before

/-- One round of settling: the path leads past the end of a list, and a branch can be left. -/
def Settles (s : Script) (p left : Path) : Prop := resolve s p = .ok none ∧ leave s p = some left

theorem exists_list_of_lastIndex? (h : lastIndex? s before = some last) :
    ∃ list : Passage, (∃ first frames, walk s before = .ok ⟨.list list first, frames⟩) ∧
      list.body ≠ [] ∧ last = Int64.ofNat (list.body.length - 1) := by
  rw [lastIndex?] at h
  split at h
  · rename_i list first frames hwalk
    split at h
    · cases h
    · rename_i hbody
      cases h
      have hne : list.body ≠ [] := by simpa using hbody
      exact ⟨list, ⟨first, frames, hwalk⟩, hne, rfl⟩
  · cases h

theorem Indexes.resolve (h : Indexes s before list n) :
    Path.resolve s (before ++ [.index n]) = .ok (list.spot? n) := by
  obtain ⟨branches, hbefore⟩ := h.wellFormed
  obtain ⟨w, hw, hspot, -⟩ := hbefore.index n
  exact resolve_eq_ok_iff.mpr ⟨w, hw, hspot.symm⟩

/-- An index that is clamped is inside of its list. -/
theorem Indexes.resolve_clamped (h : Indexes s before list n) :
    ∃ x, Path.resolve s (before ++ [.index (clamped list n)]) = .ok (some x) := by
  have hlow := h.toInt_low
  have hpos := List.length_pos_iff.mpr h.nonempty
  have hinside : 0 ≤ (clamped list n).toInt ∧ (clamped list n).toInt < list.body.length := by
    rw [clamped]
    by_cases hn : n.toInt < list.body.length
    · rw [if_pos hn]
      exact ⟨hlow, hn⟩
    · have hlast := toInt_last (Int.not_lt.mp hn)
      rw [if_neg hn, hlast]
      omega
  obtain ⟨x, hx⟩ := Passage.at?_of_inside hinside.1 hinside.2
  have hclamped : Indexes s before list (clamped list n) :=
    ⟨h.reached, Int64.le_iff_toInt_le.mpr hinside.1, h.nonempty⟩
  refine ⟨x, ?_⟩
  rw [hclamped.resolve, Passage.spot?_eq_at?, hx]

/-- Past the end of its list an index is clamped to the last one. -/
theorem Indexes.of_lastIndex? (hend : Path.resolve s (before ++ [.index n]) = .ok none)
    (hlast : Path.lastIndex? s before = some last) (hpast : 0 < n) :
    ∃ list, Indexes s before list n ∧ clamped list n = last := by
  obtain ⟨list, hreached, hbody, rfl⟩ := exists_list_of_lastIndex? hlast
  have hindexes : Indexes s before list n := ⟨hreached, Int64.le_of_lt hpast, hbody⟩
  rw [hindexes.resolve, Passage.spot?_eq_at?] at hend
  have hbehind : ¬ n.toInt < list.body.length := by
    intro hinside
    obtain ⟨x, hx⟩ := Passage.at?_of_inside hindexes.toInt_low hinside
    rw [hx] at hend
    cases hend
  exact ⟨list, hindexes, if_neg hbehind⟩

theorem Shortens.unfinished (h : Shortens s p q) : resolve s p = .ok none := by
  cases h with
  | clamp hend | drop hend => exact hend

/-- A round drops an item or is the last one. -/
theorem Shortens.length (h : Shortens s p q) :
    q.length + 1 = p.length ∨ (0 < p.length ∧ ∃ x, resolve s q = .ok (some x)) := by
  cases h with
  | @clamp before n last hend hlast hpast =>
    obtain ⟨list, hindexes, rfl⟩ := Indexes.of_lastIndex? hend hlast hpast.1
    exact .inr ⟨by simp, hindexes.resolve_clamped⟩
  | drop => exact .inl (by simp)

theorem Shortens.entered (h : Shortens s p q) : Path.entered q ≤ Path.entered p := by
  cases h with
  | clamp | drop => simp [Path.entered, PathItem.entered?]

theorem shrink_of_resolve {x : Spot} (h : resolve s p = .ok (some x)) :
    shrink s p.reverse = some p := by
  cases hp : p.reverse with
  | nil =>
    have hnil : p = [] := by simpa using hp
    rw [hnil] at h
    cases h
  | cons item rest =>
    have hback : (item :: rest).reverse = p := by rw [← hp, List.reverse_reverse]
    unfold shrink
    rw [hback, h]

/-- A round comes nearer to the instruction that is gone back to. -/
theorem Shortens.shrink (h : Shortens s p q) :
    Path.shrink s q.reverse = Path.shrink s p.reverse := by
  cases h with
  | @clamp before n last hend hlast hpast =>
    obtain ⟨list, hindexes, rfl⟩ := Indexes.of_lastIndex? hend hlast hpast.1
    obtain ⟨x, hx⟩ := hindexes.resolve_clamped
    rw [hindexes.shrink, shrink_of_resolve hx]
  | @drop before item hend hinside =>
    rw [List.reverse_concat]
    conv => rhs; unfold Path.shrink
    rw [List.reverse_cons, List.reverse_reverse, hend]
    dsimp only
    split
    · rename_i n last hlast
      rw [if_neg (hinside n last rfl hlast)]
    · rfl

/-- As long as the path leads to the end of a list there is another round. -/
theorem exists_shortens (hend : resolve s p = .ok none) (hp : p ≠ []) : ∃ q, Shortens s p q := by
  obtain ⟨before, item, rfl⟩ : ∃ before item, p = before ++ [item] :=
    ⟨_, _, (List.dropLast_concat_getLast hp).symm⟩
  by_cases hclamps : ∃ n last, item = .index n ∧ lastIndex? s before = some last ∧ 0 < n ∧ last < n
  · obtain ⟨n, last, rfl, hlast, hpast⟩ := hclamps
    exact ⟨_, .clamp hend hlast hpast⟩
  · have hinside : ∀ n last, item = .index n → lastIndex? s before = some last →
        ¬ (0 < n ∧ last < n) := fun n last hitem hlast hpast =>
      hclamps ⟨n, last, hitem, hlast, hpast⟩
    exact ⟨_, .drop hend hinside⟩

theorem length_le_of_shortens (h : Rounds (Shortens s) count p q) : count ≤ p.length := by
  induction h with
  | none p => exact Nat.zero_le _
  | @more count p q r hround hrest ih =>
    obtain hdropped | ⟨hpos, x, hx⟩ := hround.length
    · omega
    · -- A clamped index leads to an instruction, and there the loop stops.
      cases hrest with
      | none => exact hpos
      | more hnext =>
        have hend := hnext.unfinished
        rw [hx] at hend
        cases hend

/-- Going back comes to an end. -/
theorem exists_shortened (s : Script) (p : Path) :
    ∃ count q, Rounds (Shortens s) count p q ∧ ∀ r, ¬ Shortens s q r := by
  induction hlength : p.length using Nat.strongRecOn generalizing p with
  | ind length ih =>
    by_cases hround : ∃ q, Shortens s p q
    · obtain ⟨q, hq⟩ := hround
      obtain hdropped | ⟨-, x, hx⟩ := hq.length
      · obtain ⟨count, r, hrounds, hstop⟩ := ih q.length (by omega) q rfl
        exact ⟨count + 1, r, .more hq hrounds, hstop⟩
      · refine ⟨1, q, .more hq (.none q), fun r hr => ?_⟩
        have hend := hr.unfinished
        rw [hx] at hend
        cases hend
    · exact ⟨0, p, .none p, fun q hq => hround ⟨q, hq⟩⟩

/-- Where the rounds stop is what is gone back to, if it leads to an instruction. -/
theorem shrink_eq_some_iff (h : Rounds (Shortens s) count p q) (hstop : ∀ r, ¬ Shortens s q r)
    (work : Path) :
    shrink s p.reverse = some work ↔ work = q ∧ ∃ x, resolve s q = .ok (some x) := by
  have hsame : shrink s q.reverse = shrink s p.reverse :=
    h.eq_of_round (f := fun p : Path => shrink s p.reverse) fun _ _ hround => hround.shrink
  rw [← hsame]
  constructor
  · intro hwork
    cases hresolve : resolve s q with
    | error fault =>
      cases hq : q.reverse with
      | nil =>
        rw [hq] at hwork
        cases hwork
      | cons item rest =>
        have hback : (item :: rest).reverse = q := by rw [← hq, List.reverse_reverse]
        rw [hq] at hwork
        unfold shrink at hwork
        rw [hback, hresolve] at hwork
        cases hwork
    | ok found =>
      cases found with
      | none =>
        have hnil : q = [] := Classical.byContradiction fun hne =>
          (exists_shortens hresolve hne).elim hstop
        rw [hnil] at hwork
        cases hwork
      | some x =>
        rw [shrink_of_resolve hresolve] at hwork
        exact ⟨(Option.some.inj hwork).symm, x, rfl⟩
  · rintro ⟨rfl, x, hx⟩
    exact shrink_of_resolve hx

theorem openBranches_le_entered (p : Path) : openBranches p ≤ entered p := by
  have hfold (count : Nat) : p.foldl openAfter count ≤ count + entered p := by
    induction p generalizing count with
    | nil => simp
    | cons item rest ih =>
      have hrest := ih (openAfter count item)
      rw [List.foldl_cons, entered, List.countP_cons]
      rw [entered] at hrest
      cases item <;> simp [openAfter, PathItem.entered?] at hrest ⊢ <;> omega
  simpa [openBranches] using hfold 0

/-- Whatever the path was like, the path that is left at selects from a list, and has fewer open branches
than items of the first path enter one. -/
theorem leave_indexes (h : leave s p = some left) :
    ∃ before list n, left = before ++ [.index n] ∧ Indexes s before list n ∧
      openBranches left + 1 ≤ entered p := by
  obtain ⟨count, q, hrounds, hstop⟩ := exists_shortened s p
  have hshrink := shrink_eq_some_iff hrounds hstop
  cases hwork : shrink s p.reverse with
  | none =>
    rw [leave, hwork] at h
    cases h
  | some work =>
    obtain ⟨rfl, x, hx⟩ := (hshrink work).mp hwork
    have hentered : entered work ≤ entered p :=
      hrounds.le_of_round fun _ _ hround => hround.entered
    have hopen := openBranches_le_entered work
    have hsame : leave s work = some left := by
      rw [← h, leave, leave, hwork, shrink_of_resolve hx]
    obtain ⟨w, hw, hspot⟩ := resolve_eq_ok_iff.mp hx
    obtain ⟨selection, branches⟩ := w
    cases selection with
    | instruction list y =>
      obtain ⟨before, n, rfl, hbefore, hy⟩ := hw.of_instruction
      rw [Passage.spot?_eq_at?] at hy
      have hinside := Passage.inside_of_at? hy
      have hbody : list.body ≠ [] := by
        intro hempty
        rw [hempty, List.length_nil] at hinside
        omega
      have hindexes : Indexes s before list n :=
        ⟨hbefore.reached, Int64.le_iff_toInt_le.mpr hinside.1, hbody⟩
      obtain ⟨-, hleave, -⟩ | ⟨kind, k, outer, -, hleave, hleft, hcount, -⟩ := hindexes.leave_cases
      · cases hleave.symm.trans hsame
      · cases hleave.symm.trans hsame
        exact ⟨_, outer, nextIndex k, rfl, hleft, by omega⟩
    | _ => cases hspot

/-- From a path that selects from a list, each round leaves one of the branches that are open. -/
theorem Indexes.settles (h : Indexes s before list n)
    (hrounds : Rounds (Settles s) count (before ++ [.index n]) q) :
    count ≤ openBranches (before ++ [.index n]) := by
  induction count generalizing before list n with
  | zero => exact Nat.zero_le _
  | succ count ih =>
    cases hrounds with
    | more hround hrest =>
      obtain ⟨-, hleave, -⟩ | ⟨kind, k, outer, -, hleave, hleft, hopen, -⟩ := h.leave_cases
      · cases hleave.symm.trans hround.2
      · cases hleave.symm.trans hround.2
        have hmore := ih hleft hrest
        omega

/-- The first round may go back to before a branch was left or a scene was jumped to, and so open more of
them again than were open before, but not more than were ever entered. -/
theorem entered_of_settles (h : Rounds (Settles s) count p q) : count ≤ entered p := by
  cases h with
  | none => exact Nat.zero_le _
  | more hround hrest =>
    obtain ⟨before, list, n, rfl, hindexes, hopen⟩ := leave_indexes hround.2
    have hmore := hindexes.settles hrest
    omega

theorem settles_leaveFinished (s : Script) (fuel : Nat) (p : Path) :
    ∃ count ≤ fuel, Rounds (Settles s) count p (leaveFinished s fuel p) ∧
      (count < fuel → ∀ left, ¬ Settles s (leaveFinished s fuel p) left) := by
  induction fuel generalizing p with
  | zero => exact ⟨0, Nat.le_refl 0, .none p, fun hlt => absurd hlt (Nat.lt_irrefl 0)⟩
  | succ fuel ih =>
    by_cases hround : ∃ left, Settles s p left
    · obtain ⟨left, hend, hleave⟩ := hround
      obtain ⟨count, hle, hrounds, hstop⟩ := ih left
      rw [leaveFinished, hend]
      dsimp only
      rw [hleave]
      exact ⟨count + 1, Nat.succ_le_succ hle, .more ⟨hend, hleave⟩ hrounds,
        fun hlt => hstop (Nat.lt_of_succ_lt_succ hlt)⟩
    · have hstay : leaveFinished s (fuel + 1) p = p := by
        rw [leaveFinished]
        split
        · rename_i hend
          split
          · rename_i left hleave
            exact absurd ⟨left, hend, hleave⟩ hround
          · rfl
        · rfl
      rw [hstay]
      exact ⟨0, Nat.zero_le _, .none p, fun _ left hleft => hround ⟨left, hleft⟩⟩

/-- Settling always ends. From any path, well formed or not, going back to an instruction stops after at
most as many rounds as the path has items, with what `shrink` finds; and no more branches can be left one
after the other than items of the path enter one. So `settle` goes on until the path does not lead past
the end of a list or no branch can be left. -/
theorem settle_ends (s : Script) (p : Path) :
    (∃ count ≤ p.length, ∃ q, Rounds (Shortens s) count p q ∧ (∀ r, ¬ Shortens s q r) ∧
      (q = [] ∨ resolve s q ≠ .ok none) ∧
      ∀ work, shrink s p.reverse = some work ↔ work = q ∧ ∃ x, resolve s q = .ok (some x)) ∧
    (∀ count q, Rounds (Shortens s) count p q → count ≤ p.length) ∧
    (∀ count q, Rounds (Settles s) count p q → count ≤ entered p) ∧
    (∃ count ≤ entered p, Rounds (Settles s) count p (settle s p)) ∧
    (resolve s (settle s p) ≠ .ok none ∨ leave s (settle s p) = none) := by
  obtain ⟨count, q, hback, hstop⟩ := exists_shortened s p
  have hends : q = [] ∨ resolve s q ≠ .ok none := by
    by_cases hq : q = []
    · exact .inl hq
    · exact .inr fun hend => (exists_shortens hend hq).elim hstop
  obtain ⟨exits, hle, hsettle, hlast⟩ := settles_leaveFinished s (entered p) p
  have hdone : ∀ left, ¬ Settles s (settle s p) left := by
    intro left hleft
    have hmore := entered_of_settles (hsettle.concat hleft)
    exact hlast (by omega) left hleft
  refine ⟨⟨count, length_le_of_shortens hback, q, hback, hstop, hends,
      shrink_eq_some_iff hback hstop⟩,
    fun _ _ h => length_le_of_shortens h, fun _ _ h => entered_of_settles h,
    ⟨exits, hle, hsettle⟩, ?_⟩
  by_cases hend : resolve s (settle s p) = .ok none
  · refine .inr (Option.eq_none_iff_forall_not_mem.mpr fun left hleft => ?_)
    exact hdone left ⟨hend, hleft⟩
  · exact .inl hend

/-- Behind a jump no branch is open, but going back drops the jump and opens the block again. -/
example :
    let script : Script := ⟨Draft.sample.scenes, Draft.sample.ordered⟩
    let inside : Path := [.jump "start", .index 1, .enterBlock "room", .index 0]
    openBranches (inside ++ [.jump "start"]) = 0 ∧
      settle script (inside ++ [.jump "start"]) = inside ++ [.exit .block, .index 2] := by
  decide +kernel

end Path

end Narrative
