import Narrative.Proofs.Path.Place
import Narrative.Proofs.Path.Segment
import Narrative.Proofs.Path.WellFormed

namespace Narrative

theorem Spot.Admits.entered? {s : Script} {x : Spot} {item : PathItem} {kind : BranchKind}
    {inner : Passage} (h : Spot.Admits s x item kind inner) : item.entered? = some kind := by
  cases h with
  | opens h => cases h <;> rfl
  | block => rfl

namespace Path

variable {s : Script} {p before : Path} {w : Whereabouts} {list outer : Passage} {n k : Int64}
  {item : PathItem} {kind : BranchKind} {rest : List (BranchKind × Passage)}

/-- Items that leave every branch they enter, and no other. -/
inductive Closed : Path → Prop
  | nil : Closed []
  | index (n : Int64) : Closed [.index n]
  | branch {item : PathItem} {kind : BranchKind} {inner : Path} (hitem : item.entered? = some kind)
    (h : Closed inner) : Closed (item :: inner ++ [.exit kind])
  | append {p q : Path} (hp : Closed p) (hq : Closed q) : Closed (p ++ q)

/-- The innermost branch that a path leaves open is of a kind, and was entered at an index. -/
def Innermost (p : Path) (kind : BranchKind) (k : Int64) : Prop :=
  ∃ before item after, p = before ++ .index k :: item :: after ∧ item.entered? = some kind ∧
    Closed after

theorem innermostOpen_entered (h : item.entered? = some kind) (closed : List BranchKind)
    (before : Path) :
    innermostOpen (kind :: closed) (item :: before) = innermostOpen closed before := by
  cases item <;> simp_all [innermostOpen, PathItem.entered?]

theorem innermostOpen_open (h : item.entered? = some kind) (k : Int64) (before : Path) :
    innermostOpen [] (item :: .index k :: before) = some (kind, k) := by
  cases item <;> simp_all [innermostOpen, PathItem.entered?]

/-- Looking back, what is closed is passed over. -/
theorem innermostOpen_closed (h : Closed p) (closed : List BranchKind) (before : Path) :
    innermostOpen closed (p.reverse ++ before) = innermostOpen closed before := by
  induction h generalizing closed before with
  | nil | index n => rfl
  | @branch item kind inner hitem _ ih =>
    have hreverse : (item :: inner ++ [PathItem.exit kind]).reverse ++ before =
        PathItem.exit kind :: (inner.reverse ++ item :: before) := by simp
    rw [hreverse, innermostOpen, ih, innermostOpen_entered hitem]
  | append _ _ ihp ihq => rw [List.reverse_append, List.append_assoc, ihq, ihp]

theorem Innermost.innermostOpen (h : Innermost p kind k) :
    innermostOpen [] p.reverse = some (kind, k) := by
  obtain ⟨before, item, after, rfl, hitem, hafter⟩ := h
  have hreverse : (before ++ .index k :: item :: after).reverse =
      after.reverse ++ item :: .index k :: before.reverse := by simp
  rw [hreverse, innermostOpen_closed hafter, innermostOpen_open hitem]

theorem Innermost.index (h : Innermost p kind k) (n : Int64) :
    Innermost (p ++ [.index n]) kind k := by
  obtain ⟨before, item, after, rfl, hitem, hafter⟩ := h
  exact ⟨before, item, after ++ [.index n], by simp, hitem, hafter.append (.index n)⟩

theorem openAfter_entered (h : item.entered? = some kind) (count : Nat) :
    openAfter count item = count + 1 := by
  cases item <;> simp_all [openAfter, PathItem.entered?]

theorem WellFormed.openBranches (h : WellFormed s (Spot.Admits s) p w) :
    openBranches p = w.branches.length := by
  induction h with
  | nil => rfl
  | @concat p x w w' h hx ih =>
    have hconcat : Path.openBranches (p ++ [x]) = openAfter w.branches.length x := by
      rw [Path.openBranches, List.foldl_append, List.foldl_cons, List.foldl_nil, ← ih,
        Path.openBranches]
    rw [hconcat]
    cases hx with
    | jump | select | pass | exit => rfl
    | enter hadmits => exact openAfter_entered hadmits.entered? _

/-- A path leaves as many branches open as a walk along it. -/
theorem openBranches_of_walk {u : Walk} (h : walk s p = .ok u) :
    Path.openBranches p = u.frames.length := by
  have hopen := (walk_eq_ok_iff.mp ⟨u, h, rfl⟩).openBranches
  rw [Walk.whereabouts, List.length_map] at hopen
  exact hopen

theorem WellFormed.innermostOpen_branches (h : WellFormed s (Spot.Admits s) p w) :
    innermostOpen (w.branches.map Prod.fst) p.reverse = none := by
  induction h with
  | nil => rfl
  | concat h hx ih =>
    rw [List.reverse_concat]
    cases hx with
    | jump => rfl
    | select | pass | exit => exact ih
    | enter hadmits => rw [List.map_cons, innermostOpen_entered hadmits.entered?, ih]

theorem WellFormed.of_instruction {x : Spot} {entrance : Entrance}
    (h : WellFormed s entrance p ⟨.instruction list x, rest⟩) :
    ∃ before n, p = before ++ [.index n] ∧ WellFormed s entrance before ⟨.list list, rest⟩ ∧
      list.spot? n = some x := by
  generalize hw : (⟨.instruction list x, rest⟩ : Whereabouts) = w at h
  cases h with
  | nil => cases hw
  | @concat before _ _ _ h hx =>
    cases hx with
    | @select list n x branches hspot =>
      cases hw
      exact ⟨before, n, rfl, h, hspot⟩
    | _ => cases hw

/-- Where a branch was entered, and that all entered since has been left. -/
theorem WellFormed.innermost (h : WellFormed s (Spot.Admits s) p w)
    (hw : w.branches = (kind, outer) :: rest) :
    ∃ before k item after x, p = before ++ .index k :: item :: after ∧ item.entered? = some kind ∧
      Closed after ∧ outer.spot? k = some x ∧
      WellFormed s (Spot.Admits s) before ⟨.list outer, rest⟩ := by
  -- An exit is left behind together with the whole branch it leaves, hence not by induction on `h`.
  induction hlength : p.length using Nat.strongRecOn generalizing p w kind outer rest with
  | ind length ih =>
    cases h with
    | nil => cases hw
    | @concat p x w w' h hx =>
      have hshort : p.length < length := by simp [← hlength]
      cases hx with
      | jump => cases hw
      | @select _ n _ _ _ | @pass _ n _ _ =>
        obtain ⟨before, k, item, after, x, rfl, hitem, hafter, hspot, hbefore⟩ :=
          ih p.length hshort h hw rfl
        exact ⟨before, k, item, after ++ [.index n], x, by simp, hitem, hafter.append (.index n),
          hspot, hbefore⟩
      | enter hadmits =>
        cases hw
        obtain ⟨before, k, rfl, hbefore, hspot⟩ := h.of_instruction
        exact ⟨before, k, x, [], _, by simp, hadmits.entered?, .nil, hspot, hbefore⟩
      | @exit selection left _ branches =>
        obtain ⟨middle, m, item', inner, x', rfl, hitem', hinner, -, hmiddle⟩ :=
          ih p.length hshort h rfl rfl
        have hshorter : middle.length < length := by
          simp only [List.length_append, List.length_cons] at hshort
          omega
        obtain ⟨before, k, item, after, x, rfl, hitem, hafter, hspot, hbefore⟩ :=
          ih middle.length hshorter hmiddle hw rfl
        have hclosed : Closed (after ++ ([.index m] ++ (item' :: inner ++ [.exit left]))) :=
          hafter.append ((Closed.index m).append (.branch hitem' hinner))
        exact ⟨before, k, item, _, x, by simp, hitem, hclosed, hspot, hbefore⟩

theorem leave_eq_none {work : Path} (hshrink : shrink s p.reverse = some work)
    (hscan : innermostOpen [] work.reverse = none) : leave s p = none := by
  rw [leave, hshrink]
  dsimp only
  rw [hscan]

theorem leave_eq_some {work : Path} {found : Option Spot}
    (hshrink : shrink s p.reverse = some work)
    (hscan : innermostOpen [] work.reverse = some (kind, k))
    (hresolve : resolve s (work ++ [.exit kind, .index (nextIndex k)]) = .ok found) :
    leave s p = some (work ++ [.exit kind, .index (nextIndex k)]) := by
  rw [leave, hshrink]
  dsimp only
  rw [hscan]
  dsimp only
  rw [hresolve]

/-- An index, clamped to the last of a list if it lies past the end. -/
def clamped (list : Passage) (n : Int64) : Int64 :=
  if n.toInt < list.body.length then n else Int64.ofNat (list.body.length - 1)

theorem toInt_last (h : (list.body.length : Int) ≤ n.toInt) :
    (Int64.ofNat (list.body.length - 1)).toInt = (list.body.length - 1 : Nat) := by
  have hshort := Int64.toInt_lt n
  exact Int64.toInt_ofNat_of_lt (by omega)

/-- Clamping an index leaves out none of the spots it runs through. -/
theorem spots_clamped (list : Passage) (first n : Int64) :
    Segment.spots ⟨list, first, clamped list n⟩ = Segment.spots ⟨list, first, n⟩ := by
  rw [clamped]
  split
  · rfl
  · rename_i hpast
    have hlast := toInt_last (Int.not_lt.mp hpast)
    exact Segment.spots_clamp (by omega) (by omega)

/-- A path to which an index is added selects from a list that is not empty, and does not select what
is before its first instruction. -/
structure Indexes (s : Script) (before : Path) (list : Passage) (n : Int64) : Prop where
  reached : ∃ first frames, walk s before = .ok ⟨.list list first, frames⟩
  low : 0 ≤ n
  nonempty : list.body ≠ []

theorem WellFormed.index {branches : List (BranchKind × Passage)}
    (h : WellFormed s (Spot.Admits s) before ⟨.list list, branches⟩) (n : Int64) :
    ∃ w, WellFormed s (Spot.Admits s) (before ++ [.index n]) w ∧ w.spot? = list.spot? n ∧
      w.branches = branches := by
  cases hspot : list.spot? n with
  | some x => exact ⟨_, h.concat (.select hspot), rfl, rfl⟩
  | none => exact ⟨_, h.concat (.pass hspot), rfl, rfl⟩

theorem WellFormed.exit (h : WellFormed s (Spot.Admits s) p w)
    (hw : w.branches = (kind, outer) :: rest) :
    WellFormed s (Spot.Admits s) (p ++ [.exit kind]) ⟨.list outer, rest⟩ := by
  obtain ⟨selection, branches⟩ := w
  cases hw
  exact h.concat .exit

theorem WellFormed.reached {branches : List (BranchKind × Passage)}
    (h : WellFormed s (Spot.Admits s) before ⟨.list list, branches⟩) :
    ∃ first frames, walk s before = .ok ⟨.list list first, frames⟩ := by
  obtain ⟨⟨cursor, frames⟩, hwalk, hw⟩ := walk_eq_ok_iff.mpr h
  obtain ⟨first, hcursor⟩ := Walk.selection_eq_list (congrArg Whereabouts.selection hw)
  cases hcursor
  exact ⟨first, frames, hwalk⟩

/-- Where an instruction stands, no list is so long that the next index would be out of range. -/
theorem WellFormed.toInt_nextIndex {branches : List (BranchKind × Passage)}
    (h : WellFormed s (Spot.Admits s) before ⟨.list list, branches⟩) (ha : s.Addressable)
    {x : Spot} (hx : list.spot? n = some x) : (nextIndex n).toInt = n.toInt + 1 := by
  obtain ⟨first, frames, hwalk⟩ := h.reached
  have hplaced := Walk.Placed.follow (w := .start) ⟨.nowhere, List.forall_mem_nil _⟩ hwalk
  have hshort : list.body.length < 2 ^ 63 := by
    cases hplaced.cursor with
    | list hlist => exact ha _ (Script.contains_of_listAt? hlist)
  rw [Passage.spot?_eq_at?] at hx
  obtain ⟨-, hhigh⟩ := Passage.inside_of_at? hx
  have hnext := Narrative.toInt_nextIndex n
  omega

namespace Indexes

theorem wellFormed (h : Indexes s before list n) :
    ∃ branches, WellFormed s (Spot.Admits s) before ⟨.list list, branches⟩ := by
  obtain ⟨first, frames, hwalk⟩ := h.reached
  exact ⟨_, walk_eq_ok_iff.mp ⟨_, hwalk, rfl⟩⟩

theorem toInt_low (h : Indexes s before list n) : 0 ≤ n.toInt := Int64.le_iff_toInt_le.mp h.low

theorem lastIndex? (h : Indexes s before list n) :
    Path.lastIndex? s before = some (Int64.ofNat (list.body.length - 1)) := by
  obtain ⟨first, frames, hwalk⟩ := h.reached
  have hempty : ¬ list.body.isEmpty := by simp [h.nonempty]
  rw [Path.lastIndex?, hwalk]
  exact if_neg hempty

/-- Going back from an index to an instruction clamps the index, and drops nothing. -/
theorem shrink (h : Indexes s before list n) :
    Path.shrink s (before ++ [PathItem.index n]).reverse =
      some (before ++ [.index (clamped list n)]) := by
  have hlow := h.toInt_low
  have hpos := List.length_pos_iff.mpr h.nonempty
  obtain ⟨branches, hbefore⟩ := h.wellFormed
  obtain ⟨w, hw, hspot, -⟩ := hbefore.index n
  have hresolve : resolve s (before ++ [.index n]) = .ok (list.spot? n) :=
    resolve_eq_ok_iff.mpr ⟨w, hw, hspot.symm⟩
  rw [Passage.spot?_eq_at?] at hresolve
  rw [List.reverse_concat, clamped]
  unfold Path.shrink
  rw [List.reverse_cons, List.reverse_reverse, hresolve]
  by_cases hinside : n.toInt < list.body.length
  · obtain ⟨x, hx⟩ := Passage.at?_of_inside hlow hinside
    rw [hx, if_pos hinside]
  · have hnone : list.at? n.toInt = none := Passage.at?_eq_none (.inr (Int.not_lt.mp hinside))
    have hclamps : 0 < n ∧ Int64.ofNat (list.body.length - 1) < n := by
      have hzero : (0 : Int64).toInt = 0 := rfl
      have hlast := toInt_last (Int.not_lt.mp hinside)
      rw [Int64.lt_iff_toInt_lt, Int64.lt_iff_toInt_lt]
      omega
    rw [hnone, if_neg hinside]
    dsimp only
    rw [h.lastIndex?]
    exact if_pos hclamps

/-- What was entered at an index is gone on behind in a list that is not empty. -/
theorem returned {branches : List (BranchKind × Passage)} {x : Spot}
    (h : WellFormed s (Spot.Admits s) before ⟨.list outer, branches⟩)
    (hx : outer.spot? k = some x) : Indexes s before outer (nextIndex k) := by
  rw [Passage.spot?_eq_at?] at hx
  obtain ⟨hlow, hhigh⟩ := Passage.inside_of_at? hx
  have hnext := Narrative.toInt_nextIndex k
  have hzero : (0 : Int64).toInt = 0 := rfl
  have hnonempty : outer.body ≠ [] := by
    intro hempty
    rw [hempty, List.length_nil] at hhigh
    omega
  exact ⟨h.reached, Int64.le_iff_toInt_le.mpr (by omega), hnonempty⟩

/-- Either no branch is open and none can be left, or the innermost one is left, to an index of the
list it was entered from. -/
theorem leave_cases (h : Indexes s before list n) :
    (openBranches (before ++ [PathItem.index n]) = 0 ∧
      leave s (before ++ [PathItem.index n]) = none ∧
      ∀ kind k, ¬ Innermost (before ++ [PathItem.index n]) kind k) ∨
    ∃ kind k outer, Innermost (before ++ [PathItem.index n]) kind k ∧
      leave s (before ++ [PathItem.index n]) =
        some (before ++ [PathItem.index (clamped list n), PathItem.exit kind] ++
          [PathItem.index (nextIndex k)]) ∧
      Indexes s (before ++ [PathItem.index (clamped list n), PathItem.exit kind]) outer
        (nextIndex k) ∧
      openBranches (before ++ [PathItem.index (clamped list n), PathItem.exit kind] ++
        [PathItem.index (nextIndex k)]) + 1 = openBranches (before ++ [PathItem.index n]) ∧
      (s.Addressable → (nextIndex k).toInt = k.toInt + 1) := by
  have hshrink := h.shrink
  obtain ⟨branches, hbefore⟩ := h.wellFormed
  obtain ⟨w, hw, -, rfl⟩ := hbefore.index n
  obtain ⟨work, hwork, -, hbranches⟩ := hbefore.index (clamped list n)
  have hopen := hw.openBranches
  cases hfound : w.branches with
  | nil =>
    have hscan := hw.innermostOpen_branches
    have hworkScan := hwork.innermostOpen_branches
    rw [hfound, List.map_nil] at hscan
    rw [hbranches, hfound, List.map_nil] at hworkScan
    rw [hfound] at hopen
    refine .inl ⟨hopen, leave_eq_none hshrink hworkScan, fun kind k hinnermost => ?_⟩
    rw [hinnermost.innermostOpen] at hscan
    cases hscan
  | cons b rest =>
    obtain ⟨kind, outer⟩ := b
    obtain ⟨entry, k, item, after, x, hsplit, hitem, hafter, hx, hentry⟩ := hbefore.innermost hfound
    have hinnermost : Innermost before kind k := ⟨entry, item, after, hsplit, hitem, hafter⟩
    have hscan := (hinnermost.index (clamped list n)).innermostOpen
    have hexit : before ++ [PathItem.index (clamped list n)] ++ [.exit kind] =
        before ++ [.index (clamped list n), .exit kind] := by simp
    have hexited := hwork.exit (hbranches.trans hfound)
    rw [hexit] at hexited
    obtain ⟨left, hleft, -, hrest⟩ := hexited.index (nextIndex k)
    have happend : before ++ [PathItem.index (clamped list n)] ++ [.exit kind, .index (nextIndex k)] =
        before ++ [.index (clamped list n), .exit kind] ++ [.index (nextIndex k)] := by simp
    have hleave := leave_eq_some hshrink hscan
      (resolve_eq_ok_iff.mpr ⟨left, happend.symm ▸ hleft, rfl⟩)
    rw [happend] at hleave
    have hopenLeft := hleft.openBranches
    rw [hrest] at hopenLeft
    rw [hfound, List.length_cons] at hopen
    exact .inr ⟨kind, k, outer, hinnermost.index n, hleave, .returned hexited hx,
      by rw [hopenLeft, hopen], fun ha => hentry.toInt_nextIndex ha hx⟩

end Indexes

/-- Which of so many attempts to leave a branch succeed, each made where the last has led. -/
def attempts (s : Script) : Nat → Path → List Bool
  | 0, _ => []
  | count + 1, p => (leave s p).isSome :: attempts s count ((leave s p).getD p)

/-- As many branches are left as are open, and then no more. -/
theorem Indexes.attempts (h : Indexes s before list n) (count : Nat) :
    Path.attempts s count (before ++ [.index n]) =
      .replicate (min count (openBranches (before ++ [.index n]))) true ++
        .replicate (count - openBranches (before ++ [.index n])) false := by
  induction count generalizing before list n with
  | zero => simp [Path.attempts]
  | succ count ih =>
    obtain ⟨hopen, hleave, -⟩ | ⟨kind, k, outer, -, hleave, hleft, hopen, -⟩ := h.leave_cases
    · simp [Path.attempts, hleave, ih h, hopen, List.replicate_succ]
    · have hmore := ih hleft
      rw [Path.attempts, hleave, ← hopen, Nat.add_min_add_right, Nat.add_sub_add_right,
        List.replicate_succ, List.cons_append, ← hmore]
      rfl

/-- A path that selects from a list which is not empty, and not what is before it, leaves a branch just
if one is open: it is clamped to its list, leaves the innermost one and goes on behind the instruction
that was entered. So all open branches are left one after the other, and then none. -/
theorem leave_innermost (h : Indexes s before list n) :
    let p : Path := before ++ [.index n]
    let leaving (kind : BranchKind) (k : Int64) : Path :=
      before ++ [.index (clamped list n), .exit kind, .index (nextIndex k)]
    (∃ w, walk s p = .ok w ∧ openBranches p = w.frames.length) ∧
    ((leave s p).isSome ↔ 0 < openBranches p) ∧
    (∀ left, leave s p = some left →
      (∃ kind k, Innermost p kind k ∧ left = leaving kind k) ∧
        (∃ found, resolve s left = .ok found) ∧ openBranches left + 1 = openBranches p) ∧
    (∀ kind k, Innermost p kind k → leave s p = some (leaving kind k) ∧
      (s.Addressable → (nextIndex k).toInt = k.toInt + 1)) ∧
    ∀ count, attempts s count p =
      .replicate (min count (openBranches p)) true ++
        .replicate (count - openBranches p) false := by
  intro p leaving
  have hwalk : ∃ w, walk s p = .ok w ∧ openBranches p = w.frames.length := by
    obtain ⟨branches, hbefore⟩ := h.wellFormed
    obtain ⟨w, hw, -, -⟩ := hbefore.index n
    obtain ⟨u, hu, -⟩ := walk_eq_ok_iff.mpr hw
    exact ⟨u, hu, openBranches_of_walk hu⟩
  have hleaving (kind : BranchKind) (k : Int64) :
      before ++ [.index (clamped list n), .exit kind] ++ [.index (nextIndex k)] =
        leaving kind k := by
    simp [leaving]
  obtain ⟨hopen, hleave, hnone⟩ | ⟨kind, k, outer, hinnermost, hleave, hleft, hopen, hnext⟩ :=
    h.leave_cases
  · refine ⟨hwalk, ?_, ?_, fun kind k hkind => absurd hkind (hnone kind k), h.attempts⟩
    · simp [p, hleave, hopen]
    · intro left hsome
      cases hleave.symm.trans hsome
  · rw [hleaving] at hleave hopen
    refine ⟨hwalk, ?_, ?_, ?_, h.attempts⟩
    · simp [p, hleave, ← hopen]
    · intro left hsome
      cases hleave.symm.trans hsome
      obtain ⟨branches, hbranches⟩ := hleft.wellFormed
      obtain ⟨w, hw, -, -⟩ := hbranches.index (nextIndex k)
      rw [hleaving] at hw
      exact ⟨⟨kind, k, hinnermost, rfl⟩, ⟨_, resolve_eq_ok_iff.mpr ⟨w, hw, rfl⟩⟩, hopen⟩
    · intro kind' k' hkind
      have hsame := hinnermost.innermostOpen.symm.trans hkind.innermostOpen
      cases hsame
      exact ⟨hleave, hnext⟩

/-- From past the end of what waiting leads to, the choice is left and then the room around it. -/
theorem leave_innermost_sample :
    let script : Script := ⟨Draft.sample.scenes, Draft.sample.ordered⟩
    let before : Path := [.jump "start", .index 1, .enterBlock "room", .index 0, .enterChoice 0]
    let list : Passage := ⟨⟨"room", [.branch 0 0]⟩, [.exit]⟩
    Draft.sample.compile {} = .ok script ∧ Indexes script before list 5 ∧
      leave script (before ++ [.index 5]) =
        some (before ++ [.index 0, .exit .choice, .index 1]) ∧
      attempts script 3 (before ++ [.index 5]) = [true, true, false] := by
  intro script before list
  have hindexes : Indexes script before list 5 := ⟨⟨_, _, rfl⟩, by decide, by simp [list]⟩
  have hinnermost : Innermost (before ++ [.index 5]) .choice 0 :=
    ⟨[.jump "start", .index 1, .enterBlock "room"], .enterChoice 0, [.index 5], rfl, rfl, .index 5⟩
  obtain ⟨-, -, -, hleave, hattempts⟩ := leave_innermost hindexes
  exact ⟨Draft.sample_compiles, hindexes, (hleave .choice 0 hinnermost).1, hattempts 3⟩

end Path

end Narrative
