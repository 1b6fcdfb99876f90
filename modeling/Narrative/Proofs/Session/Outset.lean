import Mathlib.Data.List.Forall2
import Narrative.Proofs.Session.Steady

namespace Narrative

namespace Stack

variable {s : Script} {k k' : Stack} {p : Path} {log : List Spot} {state : PlayerState} {m : Move}

theorem started_settleFrom {top : Level} {below : List Level} (htop : 0 ≤ top.index)
    (hbelow : ∀ l ∈ below, 0 ≤ l.index) : 0 ≤ (settleFrom top below).top.index := by
  induction below generalizing top with
  | nil => exact htop
  | cons outer below ih =>
    obtain ⟨houter, hbelow⟩ := List.forall_mem_cons.mp hbelow
    rw [settleFrom]
    split
    · exact ih (Int.le_add_one houter) hbelow
    · exact htop

/-- Only the top list is stood before. -/
theorem Stands.started (h : k.Stands s p log) :
    -1 ≤ k.top.index ∧ ∀ l ∈ k.below, 0 ≤ l.index := by
  obtain @⟨before, first, index, frames, passed, trail, footing, hframes⟩ := h
  have hlow : List.Forall₂ (fun l f => 0 ≤ l.index ∧ Frame.Returns s l f) k.below frames :=
    hframes.imp fun l f hreturns => ⟨hreturns.low, hreturns⟩
  exact ⟨footing.low, (List.forall₂_and_left _ _ |>.mp hlow).1⟩

/-- Only a jump leads before the first instruction of a list. -/
theorem Stands.started_make? (h : k.Stands s p log) (hm : ∀ name, m ≠ .jump name)
    (hmake : k.make? s state m = some k') : 0 ≤ k'.top.index := by
  obtain ⟨htop, hbelow⟩ := h.started
  have hpush {inner : Passage} {x : Spot} (hx : k.top.spot? = some x) :
      0 ≤ (k.push inner).settle.top.index :=
    started_settleFrom (Int.le_refl 0)
      (List.forall_mem_cons.mpr ⟨(Passage.inside_of_at? hx).1, hbelow⟩)
  have hadvance : 0 ≤ k.advance.settle.top.index :=
    started_settleFrom (Int.add_le_add_right htop 1) hbelow
  cases m with
  | advance =>
    cases hmake
    exact hadvance
  | choose branch =>
    rw [Stack.make?] at hmake
    split at hmake
    · rename_i hx
      split at hmake
      · obtain ⟨b, -, rfl⟩ := Option.map_eq_some_iff.mp hmake
        exact hpush hx
      · cases hmake
    · cases hmake
  | enterCondition =>
    rw [Stack.make?] at hmake
    split at hmake
    · rename_i hx
      dsimp only at hmake
      split at hmake
      · cases hmake
        exact hpush hx
      · cases hmake
        exact hadvance
    · cases hmake
  | enterBlock =>
    rw [Stack.make?] at hmake
    split at hmake
    · rename_i hx
      obtain ⟨inner, -, rfl⟩ := Option.map_eq_some_iff.mp hmake
      exact hpush hx
    · cases hmake
  | exitBranch =>
    obtain ⟨left, hleave, rfl⟩ := Option.map_eq_some_iff.mp hmake
    rw [leave?] at hleave
    split at hleave
    · cases hleave
    · rename_i outer below hcons
      cases hleave
      rw [hcons] at hbelow
      obtain ⟨houter, hbelow⟩ := List.forall_mem_cons.mp hbelow
      exact started_settleFrom (Int.le_add_one houter) hbelow
  | jump name => exact absurd rfl (hm name)

end Stack

namespace Session

variable {script : Script} {s s' : Session} {k : Stack} {log : List Spot} {spot : Spot} {m : Move}

/-- The path from which a scan sees what the session comes to: before the first instruction of a scene
there is nothing to see. -/
def outset (s : Session) : Path := if s.isAtEntry then Path.advance s.path else s.path

theorem Follows.outset (h : s.Follows k log) (hstarted : 0 ≤ k.top.index) : s.outset = s.path := by
  obtain ⟨hstands, -⟩ := h
  have hentry : s.isAtEntry = false := by
    rw [isAtEntry]
    generalize s.path = p at hstands
    obtain @⟨before, first, index, frames, passed, trail, footing, -⟩ := hstands
    rw [List.reverse_cons, List.getLast?_concat]
    refine decide_eq_false fun hlast => ?_
    cases hlast
    have hindex := footing.index
    have hminus : (-1 : Int64).toInt = -1 := rfl
    omega
  rw [Session.outset, hentry, if_neg Bool.false_ne_true]

theorem outset_of_position (h : s.Steady script) (ha : script.Addressable)
    (hspot : s.position = .ok (some spot)) : s.outset = s.path := by
  obtain ⟨k, log, hfollows⟩ := h.follows
  have htop := hfollows.position (h.same ▸ ha)
  rw [hspot] at htop
  exact hfollows.outset (Passage.inside_of_at? (Except.ok.inj htop).symm).1

theorem outset_of_make? (h : s.Steady script) (hs : script.Sound) (ha : script.Addressable)
    (hm : ∀ name, m ≠ .jump name) (hmake : s.make? m = some s') : s'.outset = s'.path := by
  obtain ⟨k, log, hfollows⟩ := h.follows
  obtain rfl := h.same
  rcases Outcome.rel_cases (hfollows.make hs ha m) with ⟨hnone, -⟩ | ⟨t, k', hsome, hk', hfollows'⟩
  · cases hmake.symm.trans hnone
  · cases hmake.symm.trans hsome
    exact hfollows'.outset (hfollows.stands.started_make? hm hk')

theorem path_advance (s : Session) : s.advance.path = Path.settle s.script (Path.advance s.path) := by
  rw [advance]
  split <;> rfl

theorem current?_of_position (h : s.position = .ok (some spot)) :
    s.current? = some spot.instruction := by
  rw [current?, h]
  rfl

end Session

end Narrative
