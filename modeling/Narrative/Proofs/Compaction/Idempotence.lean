import Narrative.Proofs.Compaction
import Narrative.Proofs.Path.Trail
import Narrative.Proofs.Script.Sound

namespace Narrative

variable {π : Type}

/-- What a policy would keep it keeps as well when less comes after. -/
def RestorePolicy.Steadfast (policy : RestorePolicy) : Prop :=
  ∀ a (later fewer : List Instruction), fewer.Sublist later → policy a later = false →
    policy a fewer = false

theorem RestorePolicy.steadfast_marked : RestorePolicy.marked.Steadfast :=
  fun _ _ _ _ h => h

/-- What is not overridden by all that follows is not overridden by some of it. -/
theorem superseded_of_sublist {policy : RestorePolicy} (hpolicy : policy.Steadfast)
    {i : Instruction} {later fewer : List Instruction} (hfewer : fewer.Sublist later)
    (h : superseded policy i later = false) : superseded policy i fewer = false := by
  have hany (p : Instruction → Bool) (hp : later.any p = false) : fewer.any p = false := by
    rw [List.any_eq_false] at hp ⊢
    exact fun j hj => hp j (hfewer.subset hj)
  cases heffect : i.effect? with
  | some e =>
    rw [superseded_of_effect? heffect] at h ⊢
    exact hany _ h
  | none =>
    cases i with
    | custom a =>
      rw [superseded, Bool.or_eq_false_iff, Bool.and_eq_false_iff] at h ⊢
      exact ⟨h.1.imp_right (hany _), hpolicy a later fewer hfewer h.2⟩
    | _ => first | rfl | cases heffect

namespace Compaction

theorem preserved_of_mem_queue {policy : RestorePolicy} {h : List (Entry π)} {e : Entry π}
    (he : e ∈ queue policy h) (hi : e.interactive = true) : e.preserved = true := by
  induction h with
  | nil => cases he
  | cons x rest ih =>
    rw [queue] at he
    split at he
    · exact ih he
    · rename_i hkeep
      rcases List.mem_cons.mp he with rfl | he
      · simp_all
      · exact ih he

/-- Nothing that compaction has kept is dropped by compacting again. -/
theorem queue_queue {policy : RestorePolicy} (hpolicy : policy.Steadfast) (h : List (Entry π)) :
    queue policy (queue policy h) = queue policy h := by
  induction h with
  | nil => rfl
  | cons e rest ih =>
    rw [queue]
    split
    · exact ih
    · rename_i hkeep
      rw [Bool.not_eq_true, Bool.or_eq_false_iff] at hkeep
      have hfewer := (queue_sublist policy rest).map Entry.instruction
      rw [queue, hkeep.1, superseded_of_sublist hpolicy hfewer hkeep.2, ih]
      rfl

end Compaction

/-- Of the spots of a segment only the last can stand at its index. -/
theorem Segment.pairwise_spots (g : Segment) :
    g.spots.Pairwise fun x _ => (x.place.index : Int) ≠ g.last.toInt := by
  have hindex (i : Nat) (hi : i < g.passage.spots.length) : g.passage.spots[i].place.index = i := by
    simp [Passage.spots]
  have hrising : g.passage.spots.Pairwise fun x y => x.place.index < y.place.index := by
    refine List.pairwise_iff_getElem.mpr fun i j hi hj hij => ?_
    rw [hindex i hi, hindex j hj]
    exact hij
  have hspots : g.spots.Sublist g.passage.spots :=
    (List.drop_sublist _ _).trans (List.take_sublist _ _)
  refine (hrising.sublist hspots).imp_of_mem fun {x y} _ hy hlt => ?_
  obtain ⟨i, hi, rfl⟩ := List.mem_take_iff_getElem.mp (List.mem_of_mem_drop hy)
  rw [hindex] at hlt
  omega

namespace History

/-- The entries of a history are flagged as those of a path are: the story rests on the last one, if that
is interactive, or on none. -/
structure Flagged (h : List (Entry π)) : Prop where
  marked : Marked h
  interactive : ∀ e ∈ h, e.preserved = true → e.interactive = true
  last : h.Pairwise fun e _ => e.preserved = false

theorem Flagged.sublist {h fewer : List (Entry π)} (hh : Flagged h) (hfewer : fewer.Sublist h) :
    Flagged fewer where
  marked e he := hh.marked e (hfewer.subset he)
  interactive e he := hh.interactive e (hfewer.subset he)
  last := hh.last.sublist hfewer

theorem flagged_entries (g : Segment) (isLast : Bool) : Flagged (g.entries isLast) where
  marked := marked_entries g isLast
  interactive e he hpreserved := by
    obtain ⟨x, -, rfl⟩ := List.mem_map.mp he
    simp_all
  last := by
    refine List.pairwise_map.mpr (g.pairwise_spots.imp fun hx => ?_)
    simp [hx]

/-- Only the last of all segments tells what the story rests on. -/
theorem Flagged.append {h rest : List (Entry π)} (hh : Flagged h) (hrest : Flagged rest)
    (hnone : ∀ e ∈ h, e.preserved = false) : Flagged (h ++ rest) where
  marked e he := (List.mem_append.mp he).elim (hh.marked e) (hrest.marked e)
  interactive e he := (List.mem_append.mp he).elim (hh.interactive e) (hrest.interactive e)
  last := List.pairwise_append.mpr ⟨hh.last, hrest.last, fun e he _ _ => hnone e he⟩

theorem flagged_ofSegments (gs : List Segment) : Flagged (ofSegments gs) := by
  induction gs using ofSegments.induct with
  | case1 => exact ⟨by simp [Marked, ofSegments], by simp [ofSegments], .nil⟩
  | case2 g => exact flagged_entries g true
  | case3 g rest hrest ih =>
    have hnone : ∀ e ∈ g.entries false, e.preserved = false := by
      intro e he
      obtain ⟨x, -, rfl⟩ := List.mem_map.mp he
      simp
    rw [ofSegments]
    · exact (flagged_entries g false).append ih hnone
    · exact hrest

theorem flagged_ofPath {s : Script} {p : Path} {h : History} (hp : ofPath s p = .ok h) :
    Flagged h := by
  obtain ⟨gs, -, hgs⟩ := Outcome.bind_eq_ok.mp hp
  cases hgs
  exact flagged_ofSegments gs

/-- A history of some spots, flagged as that of a path is. -/
def ofSpots : List Spot → History
  | [] => []
  | x :: rest =>
    let interactive := x.instruction.isInteractive
    ⟨x.place, x.instruction, interactive, interactive && rest.isEmpty⟩ :: ofSpots rest

theorem Flagged.ofSpots {h : History} (hh : Flagged h)
    (hpreserved : ∀ e ∈ h, e.interactive = true → e.preserved = true) :
    History.ofSpots (h.map Entry.spot) = h := by
  induction h with
  | nil => rfl
  | cons e rest ih =>
    have hrest : History.ofSpots (rest.map Entry.spot) = rest :=
      ih (hh.sublist (List.sublist_cons_self e rest))
        fun e he => hpreserved e (List.mem_cons_of_mem _ he)
    have hmarked := hh.marked e List.mem_cons_self
    have heq : e.preserved = (e.interactive && (rest.map Entry.spot).isEmpty) := by
      cases rest with
      | nil =>
        rw [List.map_nil, List.isEmpty_nil, Bool.and_true]
        exact Bool.eq_iff_iff.mpr ⟨hh.interactive e List.mem_cons_self, hpreserved e List.mem_cons_self⟩
      | cons e' rest =>
        rw [List.map_cons, List.isEmpty_cons, Bool.and_false]
        exact List.rel_of_pairwise_cons hh.last List.mem_cons_self
    rw [List.map_cons, History.ofSpots, hrest]
    dsimp only [Entry.spot]
    rw [← hmarked, ← heq]

end History

namespace Compaction

theorem ofSpots_queue (policy : RestorePolicy) {h : History} (hh : History.Flagged h) :
    History.ofSpots ((queue policy h).map Entry.spot) = queue policy h :=
  (hh.sublist (queue_sublist policy h)).ofSpots fun _ he => preserved_of_mem_queue he

/-- Compacting the history of a path, filtered or not, and then the history of what is left, gives the
same queue, entry by entry, and with it the same plan. -/
theorem compaction_idempotent :
    RestorePolicy.marked.Steadfast ∧
    ∀ policy : RestorePolicy, policy.Steadfast → ∀ (s : Script) (p : Path) (whole : History),
      History.ofPath s p = .ok whole → ∀ filtered : Bool,
        let h := if filtered then whole.silent else whole
        let again := History.ofSpots ((queue policy h).map Entry.spot)
        queue policy again = queue policy h ∧
        RestorePlan.ofHistory policy again = RestorePlan.ofHistory policy h := by
  refine ⟨RestorePolicy.steadfast_marked, fun policy hpolicy s p whole hwhole filtered => ?_⟩
  intro h again
  have hflagged : History.Flagged h := by
    have hwhole := History.flagged_ofPath hwhole
    cases filtered with
    | true => exact hwhole.sublist List.filter_sublist
    | false => exact hwhole
  have hagain : again = queue policy h := ofSpots_queue policy hflagged
  have hqueue : queue policy again = queue policy h := by
    rw [hagain, queue_queue hpolicy]
  refine ⟨hqueue, ?_⟩
  rw [RestorePlan.ofHistory, RestorePlan.ofHistory, hqueue]

/-- Back at the choice in the room, neither the first choice nor the first of two shows is run again. -/
theorem compaction_idempotent_sample :
    let script : Script := ⟨Draft.sample.scenes, Draft.sample.ordered⟩
    let visit : Path := [.jump "start", .index 1, .enterBlock "room", .index 0]
    ∃ h, History.ofPath script (visit ++ [.enterChoice 1, .index 0] ++ visit) = .ok h ∧
      RestorePolicy.marked.Steadfast ∧
      (queue .marked h).map (fun e => (e.instruction.name, e.preserved)) =
        [("block", false), ("jump", false), ("show_character", false), ("block", false),
          ("choice", true)] ∧
      queue .marked (History.ofSpots ((queue .marked h).map Entry.spot)) = queue .marked h := by
  intro script visit
  have hmarked := compaction_idempotent.1
  obtain ⟨h, hh⟩ : ∃ h, History.ofPath script (visit ++ [.enterChoice 1, .index 0] ++ visit) = .ok h :=
    ⟨_, rfl⟩
  have hagain := (compaction_idempotent.2 .marked hmarked script _ h hh false).1
  refine ⟨h, hh, hmarked, ?_, hagain⟩
  cases hh
  decide

end Compaction

end Narrative
