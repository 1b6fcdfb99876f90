import Mathlib.Data.List.Forall2
import Narrative.Proofs.Path.Leaving
import Narrative.Proofs.Script.Sound
import Narrative.Proofs.Session.Stack

namespace Narrative

/-- A frame leads back to a level: it goes on behind the instruction that was entered. -/
structure Frame.Returns (s : Script) (l : Level) (f : Frame) : Prop where
  passage : f.passage = l.passage
  held : s.Contains l.passage.body
  low : 0 ≤ l.index
  high : l.index < l.passage.body.length
  resume : f.resume.toInt = l.index + 1

/-- An index item, what is before it and where its list was last left, seen from a stack. The root
list may be empty and may be stood before, no other can. -/
structure Stack.Footing (s : Script) (k : Stack) (before : Path) (first index : Int64) : Prop where
  held : s.Contains k.top.passage.body
  index : index.toInt = min k.top.index (2 ^ 63 - 1)
  low : -1 ≤ k.top.index
  first_nonneg : 0 ≤ first.toInt
  first_le : first.toInt ≤ max k.top.index 0
  origin : (∃ name, before = [.jump name]) ∨ k.top.passage.body ≠ [] ∧ 0 ≤ k.top.index
  inside : k.below ≠ [] → k.top.index ≤ k.top.passage.body.length

/-- A path that leads to the top of a stack, and the spots it has run through on the way. -/
inductive Stack.Stands (s : Script) (k : Stack) : Path → List Spot → Prop
  | mk {before : Path} {first index : Int64} {frames : List Frame} {passed : List Spot}
    (trail : Trail s before ⟨.list k.top.passage first, frames⟩ passed)
    (footing : k.Footing s before first index)
    (frames : List.Forall₂ (Frame.Returns s) k.below frames) :
    Stands s k (PathItem.index index :: before).reverse
      (passed ++ Segment.spots ⟨k.top.passage, first, index⟩)

/-- In a sound script what an instruction opens is a list of the script, and not an empty one. -/
theorem Spot.Opens.sound {s : Script} {x : Spot} {item : PathItem} {kind : BranchKind}
    {inner : Passage} {body : List Instruction} (h : x.Opens s item kind inner) (hs : s.Sound)
    (hbody : s.Contains body) (hx : x.instruction ∈ body) :
    s.Contains inner.body ∧ inner.body ≠ [] := by
  cases h with
  | @choice place c number b hb =>
    have hnested : (b.label, b.actions) ∈ (Instruction.choice c).nested :=
      List.mem_map_of_mem (List.mem_of_getElem? hb)
    exact ⟨.nested hbody hx hnested, hs.nested body hbody _ hx _ hnested⟩
  | @condition place c key inner hkey =>
    have hnested : (key, inner) ∈ (Instruction.condition c).nested := Keyed.mem_of_lookup hkey
    exact ⟨.nested hbody hx hnested, hs.nested body hbody _ hx _ hnested⟩
  | @block place name inner hname =>
    rw [Script.passage?] at hname
    obtain ⟨scene, hscene, rfl⟩ := Option.map_eq_some_iff.mp hname
    obtain ⟨scene', hscene', hne⟩ := hs.targets body hbody _ hx
    cases hscene.symm.trans hscene'
    exact ⟨.scene hscene, hne⟩

namespace Stack

variable {s : Script} {k : Stack} {p before : Path} {log passed : List Spot} {first index : Int64}
  {frames : List Frame}

namespace Footing

theorem short (h : k.Footing s before first index) (ha : s.Addressable) :
    k.top.passage.body.length < 2 ^ 63 := ha _ h.held

theorem spot? (h : k.Footing s before first index) (ha : s.Addressable) :
    k.top.passage.spot? index = k.top.spot? := by
  rw [Passage.spot?_eq_at?, h.index, Passage.at?_min (h.short ha), Level.spot?]

/-- Standing at a spot, the index is exact. -/
theorem exact (h : k.Footing s before first index) (ha : s.Addressable) {x : Spot}
    (hx : k.top.spot? = some x) :
    index.toInt = k.top.index ∧ 0 ≤ k.top.index ∧
      k.top.index < k.top.passage.body.length := by
  have hshort := h.short ha
  obtain ⟨hlow, hhigh⟩ := Passage.inside_of_at? hx
  have hindex := h.index
  exact ⟨by omega, hlow, hhigh⟩

/-- A list that was entered is not empty, and is not stood before. -/
theorem entered (h : k.Footing s before first index) {f : Frame} {passage : Passage}
    (trail : Trail s before ⟨.list passage first, f :: frames⟩ passed) :
    k.top.passage.body ≠ [] ∧ 0 ≤ k.top.index := by
  rcases h.origin with ⟨name, rfl⟩ | hentered
  · cases trail with
    | cons _ hx =>
      cases hx with
      | enter hopens => cases hopens
  · exact hentered

theorem indexes (h : k.Footing s before first index)
    (trail : Trail s before ⟨.list k.top.passage first, frames⟩ passed)
    (hbody : k.top.passage.body ≠ []) (hlow : 0 ≤ k.top.index) :
    Path.Indexes s before.reverse k.top.passage index where
  reached := ⟨first, frames, trail.walk⟩
  low := by
    have hindex := h.index
    have hzero : (0 : Int64).toInt = 0 := rfl
    rw [Int64.le_iff_toInt_le]
    omega
  nonempty := hbody

/-- Going back from an index to an instruction clamps the index to its list, and drops nothing. -/
theorem shrink (h : k.Footing s before first index)
    (trail : Trail s before ⟨.list k.top.passage first, frames⟩ passed)
    (hbody : k.top.passage.body ≠ []) (hlow : 0 ≤ k.top.index) :
    ∃ work w, Path.shrink s (.index index :: before) = some work.reverse ∧
      Trail s work w (passed ++ Segment.spots ⟨k.top.passage, first, index⟩) ∧
      w.frames = frames := by
  have hshrink := (h.indexes trail hbody hlow).shrink
  rw [List.reverse_concat, List.reverse_reverse] at hshrink
  have htrail := trail.index (Path.clamped k.top.passage index)
  rw [Path.spots_clamped] at htrail
  refine ⟨.index (Path.clamped k.top.passage index) :: before, _, ?_, htrail,
    Walk.frames_select _ _ _⟩
  rw [hshrink, List.reverse_cons]

/-- Before the first instruction of the root list, or in an empty one, nothing is left to go back
to. -/
theorem shrink_entry {name : String} (h : k.Footing s [.jump name] first index)
    (ha : s.Addressable)
    (trail : Trail s [.jump name] ⟨.list k.top.passage first, frames⟩ passed)
    (hentry : ¬ (k.top.passage.body ≠ [] ∧ 0 ≤ k.top.index)) :
    Path.shrink s [.index index, .jump name] = none := by
  have hindex := h.index
  have hresolve := (trail.index index).resolve
  have hnone : k.top.spot? = none := by
    refine Passage.at?_eq_none ?_
    by_cases hbody : k.top.passage.body = []
    · rw [hbody, List.length_nil]
      omega
    · exact .inl (Int.not_le.mp fun hlow => hentry ⟨hbody, hlow⟩)
  rw [Walk.spot?_select, h.spot? ha, hnone] at hresolve
  have hjump : Path.shrink s [.jump name] = none := by
    unfold Path.shrink
    rw [trail.resolve]
    rfl
  unfold Path.shrink
  rw [hresolve]
  dsimp only
  cases hlast : Path.lastIndex? s [PathItem.jump name].reverse with
  | none => exact hjump
  | some last =>
    have hbody : k.top.passage.body ≠ [] := by
      intro hempty
      rw [trail.lastIndex?, hempty] at hlast
      cases hlast
    have hlow : ¬ 0 ≤ k.top.index := fun hlow => hentry ⟨hbody, hlow⟩
    have hbefore : ¬ (0 < index ∧ last < index) := by
      have hzero : (0 : Int64).toInt = 0 := rfl
      rw [Int64.lt_iff_toInt_lt]
      omega
    dsimp only
    rw [if_neg hbefore, hjump]

theorem advanced (h : k.Footing s before first index) (hk : k.Settled) :
    k.advance.Footing s before first (nextIndex index) := by
  obtain ⟨held, hindex, hlow, hfirst, hfirst_le, horigin, hinside⟩ := h
  have hnext := toInt_nextIndex index
  have htop : k.advance.top.index = k.top.index + 1 := rfl
  exact {
    held := held
    index := by omega
    low := by omega
    first_nonneg := hfirst
    first_le := by omega
    origin := horigin.imp_right fun ⟨hbody, hnonneg⟩ => ⟨hbody, Int.le_add_one hnonneg⟩
    inside := fun hbelow => Int.add_one_le_of_lt (Int.not_le.mp (hk hbelow)) }

theorem pushed {inner : Passage} (hinner : s.Contains inner.body) (hne : inner.body ≠ [])
    (before' : Path) : (k.push inner).Footing s before' 0 0 where
  held := hinner
  index := rfl
  low := Int.le_trans (by decide) (Int.le_refl 0)
  first_nonneg := Int.le_refl 0
  first_le := Int.le_max_right 0 0
  origin := .inr ⟨hne, Int.le_refl 0⟩
  inside _ := Int.natCast_nonneg _

/-- The index to go on at is the one its list was left at. -/
theorem returned {outer : Level} {f : Frame} (h : f.Returns s outer) (ha : s.Addressable)
    (below : List Level) (before : Path) :
    Footing s ⟨outer.next, below⟩ before f.resume f.resume := by
  have hlow : 0 ≤ outer.next.index := Int.le_add_one h.low
  have hhigh : outer.next.index ≤ outer.passage.body.length := Int.add_one_le_of_lt h.high
  have hresume : f.resume.toInt = outer.next.index := h.resume
  have hpos : 0 < outer.passage.body.length :=
    Int.natCast_pos.mp (Int.lt_of_le_of_lt h.low h.high)
  have hshort := ha _ h.held
  exact {
    held := h.held
    index := by
      dsimp only
      omega
    low := by
      dsimp only
      omega
    first_nonneg := by omega
    first_le := by
      dsimp only
      omega
    origin := .inr ⟨List.ne_nil_of_length_pos hpos, hlow⟩
    inside := fun _ => hhigh }

end Footing

end Stack

namespace Stack.Stands

variable {s : Script} {k k' : Stack} {p : Path} {log : List Spot}

theorem position (h : k.Stands s p log) (ha : s.Addressable) :
    Path.resolve s p = .ok k.top.spot? := by
  obtain @⟨before, first, index, frames, passed, trail, footing, -⟩ := h
  have hresolve := (trail.index index).resolve
  rw [Walk.spot?_select, footing.spot? ha] at hresolve
  exact hresolve

theorem held (h : k.Stands s p log) : s.Contains k.top.passage.body := by
  obtain ⟨-, footing, -⟩ := h
  exact footing.held

theorem openBranches (h : k.Stands s p log) : Path.openBranches p = k.below.length := by
  obtain @⟨before, first, index, frames, passed, trail, -, hframes⟩ := h
  have hopen := Path.openBranches_of_walk (trail.index index).walk
  rw [Walk.frames_select] at hopen
  rw [hopen, hframes.length_eq]

theorem ofPath (h : k.Stands s p log) :
    ∃ entries, History.ofPath s p = .ok entries ∧ entries.map Entry.spot = log := by
  obtain @⟨before, first, index, frames, passed, trail, -, -⟩ := h
  exact (trail.index index).ofPath

theorem opened {name : String} {passage : Passage} (hname : s.passage? name = some passage) :
    (Stack.opened passage).Stands s (Path.entry name) [] := by
  have hbody : s.Contains passage.body := by
    rw [Script.passage?] at hname
    obtain ⟨body, hscene, rfl⟩ := Option.map_eq_some_iff.mp hname
    exact .scene hscene
  have trail : Trail s [.jump name] ⟨.list passage 0, []⟩ [] := Trail.nil.cons (.jump hname)
  have footing : (Stack.opened passage).Footing s [.jump name] 0 (-1) := {
    held := hbody
    index := rfl
    low := Int.le_refl (-1)
    first_nonneg := Int.le_refl 0
    first_le := Int.le_max_right (-1) 0
    origin := .inl ⟨name, rfl⟩
    inside := fun h => absurd rfl h }
  exact ⟨trail, footing, .nil⟩

theorem advance (h : k.Stands s p log) (ha : s.Addressable) (hk : k.Settled) :
    k.advance.Stands s (Path.advance p) (log ++ k.advance.top.spot?.toList) := by
  obtain @⟨before, first, index, frames, passed, trail, footing, hframes⟩ := h
  have hpath : Path.advance (PathItem.index index :: before).reverse =
      (PathItem.index (nextIndex index) :: before).reverse := by
    rw [Path.advance, List.reverse_cons, List.getLast?_concat]
    dsimp only
    rw [List.dropLast_concat, List.reverse_cons]
  have hshort := footing.short ha
  have hindex := footing.index
  have hlow := footing.low
  have hfirst_le := footing.first_le
  have hnext := toInt_nextIndex index
  have hspots : Segment.spots ⟨k.top.passage, first, nextIndex index⟩ =
      Segment.spots ⟨k.top.passage, first, index⟩ ++ k.advance.top.spot?.toList := by
    rcases Int.lt_or_le (k.top.index + 1) (2 ^ 63) with hsmall | hlarge
    · have hexact : (nextIndex index).toInt = k.top.index + 1 := by omega
      have hspot : k.advance.top.spot? = k.top.passage.at? (nextIndex index).toInt := by
        rw [hexact]
        rfl
      rw [hspot]
      exact Segment.spots_extend (by omega) (by omega) (by omega)
    · -- The greatest index stays where it is, and no list reaches it.
      have hpast : (k.top.passage.body.length : Int) ≤ k.top.index + 1 := by omega
      have hnone : k.advance.top.spot? = none := Passage.at?_eq_none (.inr hpast)
      rw [hnone, Option.toList_none, List.append_nil]
      exact Segment.spots_clamp (by omega) (by omega)
  rw [hpath, List.append_assoc, ← hspots]
  exact ⟨trail, footing.advanced hk, hframes⟩

theorem push (h : k.Stands s p log) (hs : s.Sound) (ha : s.Addressable) {x : Spot}
    (hx : k.top.spot? = some x) {item : PathItem} {kind : BranchKind} {inner : Passage}
    (hopens : x.Opens s item kind inner) :
    (k.push inner).Stands s (p ++ [item, .index 0])
      (log ++ (k.push inner).top.spot?.toList) := by
  obtain @⟨before, first, index, frames, passed, trail, footing, hframes⟩ := h
  obtain ⟨hindex, hlow, hhigh⟩ := footing.exact ha hx
  obtain ⟨hinner, hne⟩ := hopens.sound hs footing.held (Passage.mem_of_at? hx)
  have hselect : Walk.select ⟨.list k.top.passage first, frames⟩ k.top.passage index =
      ⟨.spot k.top.passage index x, frames⟩ := by
    rw [Walk.select, footing.spot? ha, hx]
  have hopened := trail.index index
  rw [hselect] at hopened
  have hentered := hopened.enter hopens
  have hresume : (nextIndex index).toInt = k.top.index + 1 := by
    have hshort := footing.short ha
    have hnext := toInt_nextIndex index
    omega
  have hreturns : Frame.Returns s k.top ⟨k.top.passage, kind, nextIndex index⟩ :=
    ⟨rfl, footing.held, hlow, hhigh, hresume⟩
  have hspot : Segment.spots ⟨inner, 0, 0⟩ = (k.push inner).top.spot?.toList :=
    Segment.spots_single (Int.le_refl 0)
  have hpath : (PathItem.index index :: before).reverse ++ [item, .index 0] =
      (.index 0 :: item :: .index index :: before : Path).reverse := by
    simp
  rw [hpath, ← hspot]
  exact ⟨hentered, .pushed hinner hne _, .cons hreturns hframes⟩

theorem leave (h : k.Stands s p log) (ha : s.Addressable) (hleave : k.leave? = some k') :
    ∃ p', Path.leave s p = some p' ∧ k'.Stands s p' (log ++ k'.top.spot?.toList) := by
  obtain @⟨before, first, index, frames, passed, trail, footing, hframes⟩ := h
  obtain ⟨top, below⟩ := k
  cases hframes with
  | nil => cases hleave
  | @cons outer f below frames hreturns hframes =>
    cases hleave
    obtain ⟨hbody, hlow⟩ := footing.entered trail
    obtain ⟨work, w, hshrink, htrail, hw⟩ := footing.shrink trail hbody hlow
    obtain ⟨cursor, wframes⟩ := w
    cases hw
    obtain ⟨entry, hscan, hentry⟩ := htrail.innermostOpen_frame
    have hpath : work.reverse ++ [.exit f.kind, .index f.resume] =
        (PathItem.index f.resume :: .exit f.kind :: work).reverse := by
      simp
    have hspot : Segment.spots ⟨outer.passage, f.resume, f.resume⟩ =
        outer.next.spot?.toList := by
      have hlow := hreturns.low
      have hresume := hreturns.resume
      rw [Segment.spots_single (by omega), hresume]
      rfl
    have htrail' := htrail.exit
    rw [hreturns.passage] at htrail'
    refine ⟨work.reverse ++ [.exit f.kind, .index f.resume], ?_, ?_⟩
    · have hresolve := (htrail'.index f.resume).resolve
      rw [← hpath, ← hentry] at hresolve
      rw [← hentry]
      refine Path.leave_eq_some ?_ ?_ hresolve
      · rw [List.reverse_reverse, hshrink]
      · rw [List.reverse_reverse, hscan]
    · rw [hpath, ← hspot]
      exact ⟨htrail', .returned hreturns ha below _, hframes⟩

/-- Nothing is left that was not entered. -/
theorem leave_root (h : k.Stands s p log) (ha : s.Addressable) (hbelow : k.below = []) :
    Path.leave s p = none := by
  have hopen := h.openBranches
  rw [hbelow, List.length_nil] at hopen
  obtain @⟨before, first, index, frames, passed, trail, footing, hframes⟩ := h
  by_cases hentered : k.top.passage.body ≠ [] ∧ 0 ≤ k.top.index
  · have hindexes := footing.indexes trail hentered.1 hentered.2
    rw [List.reverse_cons] at hopen ⊢
    obtain ⟨-, hleave, -⟩ | ⟨kind, n, outer, -, -, -, hleft, -⟩ := hindexes.leave_cases
    · exact hleave
    · omega
  · -- Nothing is before the index but the jump.
    obtain ⟨name, rfl⟩ := footing.origin.resolve_right hentered
    rw [Path.leave, List.reverse_reverse, footing.shrink_entry ha trail hentered]

theorem below_le_entered (h : k.Stands s p log) : k.below.length ≤ Path.entered p := by
  obtain @⟨before, first, index, frames, passed, trail, -, hframes⟩ := h
  have hentered := (trail.index index).frames_le_entered
  rw [Walk.frames_select] at hentered
  rw [hframes.length_eq]
  exact hentered

theorem spot_of_unfinished (h : k.Stands s p log) (hbelow : k.below ≠ [])
    (hk : ¬ k.top.Finished) : ∃ x, k.top.spot? = some x := by
  obtain @⟨before, first, index, frames, passed, trail, footing, hframes⟩ := h
  obtain ⟨top, below⟩ := k
  cases hframes with
  | nil => exact absurd rfl hbelow
  | cons _ _ =>
    obtain ⟨-, hlow⟩ := footing.entered trail
    exact Passage.at?_of_inside hlow (Int.not_le.mp hk)

/-- Each turn leaves one level, so as many as are below are enough. -/
theorem leaveFinished {top : Level} {below : List Level} {fuel : Nat}
    (h : Stands s ⟨top, below⟩ p (log ++ top.spot?.toList)) (ha : s.Addressable)
    (hfuel : below.length ≤ fuel) :
    (settleFrom top below).Stands s (Path.leaveFinished s fuel p)
      (log ++ (settleFrom top below).top.spot?.toList) := by
  have hposition := h.position ha
  induction below generalizing top p fuel with
  | nil =>
    have hstay : Path.leaveFinished s fuel p = p := by
      cases fuel with
      | zero => rfl
      | succ fuel =>
        rw [Path.leaveFinished, hposition, h.leave_root ha rfl]
        cases Level.spot? top <;> rfl
    rw [hstay]
    exact h
  | cons outer below ih =>
    cases fuel with
    | zero => cases hfuel
    | succ fuel =>
      rw [settleFrom, Path.leaveFinished, hposition]
      split
      · rename_i hfinished
        have hnone : Level.spot? top = none := Passage.at?_eq_none (.inr hfinished)
        obtain ⟨p', hleave, h'⟩ := h.leave ha rfl
        rw [hnone, Option.toList_none, List.append_nil] at h'
        dsimp only
        rw [hnone, hleave]
        exact ih h' (Nat.le_of_succ_le_succ hfuel) (h'.position ha)
      · rename_i hfinished
        obtain ⟨x, hx⟩ := h.spot_of_unfinished (List.cons_ne_nil _ _) hfinished
        dsimp only at hx ⊢
        rw [hx]
        rw [hx] at h
        dsimp only
        exact h

theorem settle (h : k.Stands s p (log ++ k.top.spot?.toList)) (ha : s.Addressable) :
    k.settle.Stands s (Path.settle s p) (log ++ k.settle.top.spot?.toList) :=
  leaveFinished h ha h.below_le_entered

/-- The instruction at hand is the last that the path has run through. -/
theorem last (h : k.Stands s p log) (ha : s.Addressable) {x : Spot}
    (hx : k.top.spot? = some x) : log.getLast? = some x := by
  obtain @⟨before, first, index, frames, passed, trail, footing, hframes⟩ := h
  obtain ⟨hindex, hlow, -⟩ := footing.exact ha hx
  have hfirst := footing.first_nonneg
  have hfirst_le := footing.first_le
  have hat : k.top.passage.at? index.toInt = some x := by
    rw [hindex]
    exact hx
  obtain ⟨more, hmore⟩ := Segment.spots_last (by omega) (by omega) hat
  rw [hmore, ← List.append_assoc, List.getLast?_concat]

end Stack.Stands

end Narrative
