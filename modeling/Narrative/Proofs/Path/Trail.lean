import Narrative.History
import Narrative.Path.Navigate
import Narrative.Proofs.Outcome

namespace Narrative

/-- An item that enters something at a spot, and the list it enters. -/
inductive Spot.Opens (s : Script) : Spot → PathItem → BranchKind → Passage → Prop
  | choice {place : Place} {c : Choice Instruction} {number : UInt64} {b : Branch Instruction}
    (h : c.branches[number.toNat]? = some b) :
    Opens s ⟨place, .choice c⟩ (.enterChoice number) .choice
      (Spot.inside ⟨place, .choice c⟩ (Turn.branch · number.toNat) b.actions)
  | condition {place : Place} {c : Condition Instruction} {key : String} {body : List Instruction}
    (h : c.variant? key = some body) :
    Opens s ⟨place, .condition c⟩ (.enterCondition key) .condition
      (Spot.inside ⟨place, .condition c⟩ (Turn.variant · key) body)
  | block {place : Place} {name : String} {inner : Passage} (h : s.passage? name = some inner) :
    Opens s ⟨place, .block name⟩ (.enterBlock name) .block inner

namespace Walk

variable {s : Script} {w w' : Walk} {x : PathItem}

/-- What one item makes of a walk. -/
inductive Moves (s : Script) : Walk → PathItem → Walk → Prop
  | jump {w : Walk} {name : String} {p : Passage} (h : s.passage? name = some p) :
    Moves s w (.jump name) ⟨.list p 0, []⟩
  | index {p : Passage} {first n : Int64} {frames : List Frame} :
    Moves s ⟨.list p first, frames⟩ (.index n) (select ⟨.list p first, frames⟩ p n)
  | enter {outer inner : Passage} {n : Int64} {spot : Spot} {frames : List Frame}
    {item : PathItem} {kind : BranchKind} (h : spot.Opens s item kind inner) :
    Moves s ⟨.spot outer n spot, frames⟩ item
      ⟨.list inner 0, ⟨outer, kind, nextIndex n⟩ :: frames⟩
  | exit {cursor : Cursor} {f : Frame} {frames : List Frame} :
    Moves s ⟨cursor, f :: frames⟩ (.exit f.kind) ⟨.list f.passage f.resume, frames⟩

theorem Moves.step (h : w.Moves s x w') (item : Nat) : w.step s item x = .ok w' := by
  cases h with
  | jump h => simp [Walk.step, Walk.scene, h]
  | index => rfl
  | enter h =>
    cases h with
    | choice h => simp [Walk.step, Walk.enter, h]
    | condition h => simp [Walk.step, Walk.enter, h]
    | block h => simp [Walk.step, Walk.scene, Walk.enter, h]
  | exit => simp [Walk.step, Walk.leave]

@[simp]
theorem frames_select (w : Walk) (p : Passage) (n : Int64) : (w.select p n).frames = w.frames := by
  rw [select]
  split <;> rfl

@[simp]
theorem spot?_select (w : Walk) (p : Passage) (n : Int64) : (w.select p n).spot? = p.spot? n := by
  rw [select]
  split
  · rename_i h
    exact h.symm
  · rename_i h
    exact h.symm

/-- The spots that an item runs through. -/
def spots (w : Walk) (x : PathItem) : List Spot := (w.segment? x).toList.flatMap Segment.spots

theorem follow_append (w : Walk) (item : Nat) (p q : Path) :
    follow s w item (p ++ q) = (do follow s (← follow s w item p) (item + p.length) q) := by
  induction p generalizing w item with
  | nil => rfl
  | cons x rest ih =>
    rw [List.cons_append, follow, follow, bind_assoc]
    refine congrArg _ (funext fun w' => ?_)
    rw [ih, List.length_cons, Nat.add_right_comm, Nat.add_assoc]

end Walk

theorem History.segments_append {s : Script} {w w' : Walk} {item : Nat} {p q : Path}
    {before after : List Segment} (hbefore : segments s w item p = .ok before)
    (hw : Walk.follow s w item p = .ok w')
    (hafter : segments s w' (item + p.length) q = .ok after) :
    segments s w item (p ++ q) = .ok (before ++ after) := by
  induction p generalizing w item before with
  | nil =>
    cases hbefore
    cases hw
    exact hafter
  | cons x rest ih =>
    obtain ⟨u, hu, hrest⟩ := Outcome.bind_eq_ok.mp hw
    obtain ⟨u', hu', hbefore⟩ := Outcome.bind_eq_ok.mp hbefore
    cases hu.symm.trans hu'
    obtain ⟨more, hmore, hcons⟩ := Outcome.bind_eq_ok.mp hbefore
    cases hcons
    have hlength : item + (x :: rest).length = item + 1 + rest.length := by
      rw [List.length_cons]
      omega
    rw [hlength] at hafter
    rw [List.cons_append, segments, hu, Outcome.ok_bind, ih hmore hrest hafter, Outcome.ok_bind,
      List.append_assoc]

/-- The spot an entry was made of. -/
def Entry.spot (e : Entry Place) : Spot := ⟨e.origin, e.instruction⟩

theorem Segment.spot_entries (g : Segment) (isLast : Bool) :
    (g.entries isLast).map Entry.spot = g.spots := by
  rw [entries, List.map_map]
  exact List.map_id _

theorem History.spot_ofSegments (gs : List Segment) :
    (ofSegments gs).map Entry.spot = gs.flatMap Segment.spots := by
  induction gs using ofSegments.induct with
  | case1 => rfl
  | case2 g => rw [ofSegments, Segment.spot_entries, List.flatMap_singleton]
  | case3 g rest hrest ih =>
    rw [ofSegments, List.map_append, Segment.spot_entries, ih, List.flatMap_cons]
    exact hrest

/-- A path, its last item first, that can be walked, with where it leads and what it ran through. -/
inductive Trail (s : Script) : Path → Walk → List Spot → Prop
  | nil : Trail s [] .start []
  | cons {before : Path} {w w' : Walk} {x : PathItem} {passed : List Spot}
    (h : Trail s before w passed) (hx : w.Moves s x w') :
    Trail s (x :: before) w' (passed ++ w.spots x)

namespace Trail

variable {s : Script} {p : Path} {w : Walk} {passed : List Spot}

theorem walk (h : Trail s p w passed) : Path.walk s p.reverse = .ok w := by
  induction h with
  | nil => rfl
  | cons _ hx ih =>
    rw [Path.walk] at ih
    rw [Path.walk, List.reverse_cons, Walk.follow_append, ih, Outcome.ok_bind, Walk.follow,
      hx.step, Outcome.ok_bind, Walk.follow]

theorem resolve (h : Trail s p w passed) : Path.resolve s p.reverse = .ok w.spot? := by
  rw [Path.resolve, h.walk]
  rfl

theorem lastIndex? {passage : Passage} {first : Int64} {frames : List Frame}
    (h : Trail s p ⟨.list passage first, frames⟩ passed) :
    Path.lastIndex? s p.reverse =
      if passage.body.isEmpty then none else some (Int64.ofNat (passage.body.length - 1)) := by
  rw [Path.lastIndex?, h.walk]

theorem segments (h : Trail s p w passed) :
    ∃ gs, History.segments s .start 0 p.reverse = .ok gs ∧ gs.flatMap Segment.spots = passed := by
  induction h with
  | nil => exact ⟨[], rfl, rfl⟩
  | @cons before w w' x passed h hx ih =>
    obtain ⟨gs, hgs, hpassed⟩ := ih
    have hlast : History.segments s w (0 + before.reverse.length) [x]
        = .ok (w.segment? x).toList := by
      rw [History.segments, hx.step, Outcome.ok_bind, History.segments, Outcome.ok_bind,
        List.append_nil]
    refine ⟨gs ++ (w.segment? x).toList, ?_, ?_⟩
    · rw [List.reverse_cons]
      exact History.segments_append hgs h.walk hlast
    · rw [List.flatMap_append, hpassed, Walk.spots]

/-- A path that leads somewhere has a history, of what it ran through. -/
theorem ofPath (h : Trail s p w passed) :
    ∃ entries, History.ofPath s p.reverse = .ok entries ∧ entries.map Entry.spot = passed := by
  obtain ⟨gs, hgs, hpassed⟩ := h.segments
  refine ⟨History.ofSegments gs, ?_, ?_⟩
  · rw [History.ofPath, hgs, Outcome.ok_bind]
  · rw [History.spot_ofSegments, hpassed]

theorem index {passage : Passage} {first : Int64} {frames : List Frame}
    (h : Trail s p ⟨.list passage first, frames⟩ passed) (n : Int64) :
    Trail s (.index n :: p) (Walk.select ⟨.list passage first, frames⟩ passage n)
      (passed ++ Segment.spots ⟨passage, first, n⟩) := by
  have hindexed := h.cons (.index (n := n))
  simpa [Walk.spots, Walk.segment?] using hindexed

theorem enter {outer inner : Passage} {n : Int64} {x : Spot} {frames : List Frame}
    {item : PathItem} {kind : BranchKind} (h : Trail s p ⟨.spot outer n x, frames⟩ passed)
    (hopens : x.Opens s item kind inner) :
    Trail s (item :: p) ⟨.list inner 0, ⟨outer, kind, nextIndex n⟩ :: frames⟩ passed := by
  have hentered := h.cons (.enter hopens)
  have hnothing : Walk.spots ⟨.spot outer n x, frames⟩ item = [] := by
    cases hopens <;> rfl
  rw [hnothing, List.append_nil] at hentered
  exact hentered

theorem exit {cursor : Cursor} {f : Frame} {frames : List Frame}
    (h : Trail s p ⟨cursor, f :: frames⟩ passed) :
    Trail s (.exit f.kind :: p) ⟨.list f.passage f.resume, frames⟩ passed := by
  have hexited := h.cons .exit
  have hnothing : Walk.spots ⟨cursor, f :: frames⟩ (.exit f.kind) = [] := rfl
  rw [hnothing, List.append_nil] at hexited
  exact hexited

/-- A spot is only reached by an index. -/
theorem index_of_spot (h : Trail s p w passed) {passage : Passage} {n : Int64} {x : Spot}
    (hw : w.cursor = .spot passage n x) : ∃ before, p = .index n :: before := by
  cases h with
  | nil => cases hw
  | cons h hx =>
    cases hx with
    | jump => cases hw
    | index =>
      rw [Walk.select] at hw
      split at hw
      · cases hw
        exact ⟨_, rfl⟩
      · cases hw
    | enter => cases hw
    | exit => cases hw

/-- Exits are met before what they leave; behind those of the innermost branches the next entry
that is still open is that of the next frame. -/
theorem innermostOpen_of_frames (h : Trail s p w passed) {closed rest : List Frame} {f : Frame}
    (hframes : w.frames = closed ++ f :: rest) :
    ∃ outer, Path.innermostOpen (closed.map Frame.kind) p = some (f.kind, outer) ∧
      nextIndex outer = f.resume := by
  induction h generalizing closed with
  | nil => simp [Walk.start] at hframes
  | cons h hx ih =>
    cases hx with
    | jump => simp at hframes
    | index =>
      rw [Walk.frames_select] at hframes
      rw [Path.innermostOpen]
      exact ih hframes
    | @enter outer inner n spot frames item kind hopens =>
      obtain ⟨before, rfl⟩ := h.index_of_spot rfl
      cases closed with
      | nil =>
        obtain ⟨rfl, _⟩ := List.cons.inj hframes
        refine ⟨n, ?_, rfl⟩
        cases hopens <;> rfl
      | cons g closed =>
        obtain ⟨rfl, hrest⟩ := List.cons.inj hframes
        obtain ⟨outer', hscan, hresume⟩ := ih hrest
        refine ⟨outer', ?_, hresume⟩
        rw [← hscan]
        cases hopens <;> simp [Path.innermostOpen, PathItem.entered?]
    | @exit cursor g frames =>
      have hall : g :: frames = (g :: closed) ++ f :: rest := by
        rw [List.cons_append, ← hframes]
      obtain ⟨outer, hscan, hresume⟩ := ih hall
      exact ⟨outer, hscan, hresume⟩

theorem innermostOpen_frame {cursor : Cursor} {f : Frame} {frames : List Frame}
    (h : Trail s p ⟨cursor, f :: frames⟩ passed) :
    ∃ outer, Path.innermostOpen [] p = some (f.kind, outer) ∧ nextIndex outer = f.resume := by
  have hframes : Walk.frames ⟨cursor, f :: frames⟩ = [] ++ f :: frames := rfl
  exact h.innermostOpen_of_frames hframes

theorem frames_le_entered (h : Trail s p w passed) :
    w.frames.length ≤ Path.entered p.reverse := by
  induction h with
  | nil => exact Nat.le_refl 0
  | cons h hx ih =>
    rw [Path.entered, List.reverse_cons, List.countP_append]
    rw [Path.entered] at ih
    cases hx with
    | jump => exact Nat.zero_le _
    | index =>
      rw [Walk.frames_select]
      exact Nat.le_add_right_of_le ih
    | enter hopens => cases hopens <;> simpa [PathItem.entered?] using ih
    | exit => exact Nat.le_add_right_of_le (Nat.le_of_succ_le ih)

end Trail

end Narrative
