import Narrative.Path.Walk
import Narrative.Proofs.Outcome
import Narrative.Proofs.Script.Sound

namespace Narrative

/-- The instruction list behind some turns, if a script has it. -/
def Script.listAt? (s : Script) (scene : String) : List Turn → Option (List Instruction)
  | [] => s.scene? scene
  | .branch index number :: turns =>
    match (s.listAt? scene turns).bind (·[index]?) with
    | some (.choice c) => c.branches[number]?.map Branch.actions
    | _ => none
  | .variant index key :: turns =>
    match (s.listAt? scene turns).bind (·[index]?) with
    | some (.condition c) => c.variant? key
    | _ => none

/-- What stands at an address is a list of the script. -/
theorem Script.contains_of_listAt? {s : Script} {scene : String} {turns : List Turn}
    {body : List Instruction} (h : s.listAt? scene turns = some body) : s.Contains body := by
  induction turns generalizing body with
  | nil => exact .scene h
  | cons turn turns ih =>
    cases turn with
    | branch index number =>
      rw [listAt?] at h
      split at h
      · rename_i c hc
        obtain ⟨outer, houter, hi⟩ := Option.bind_eq_some_iff.mp hc
        obtain ⟨b, hb, rfl⟩ := Option.map_eq_some_iff.mp h
        have hnested : (b.label, b.actions) ∈ (Instruction.choice c).nested :=
          List.mem_map_of_mem (List.mem_of_getElem? hb)
        exact .nested (ih houter) (List.mem_of_getElem? hi) hnested
      · cases h
    | variant index key =>
      rw [listAt?] at h
      split at h
      · rename_i c hc
        obtain ⟨outer, houter, hi⟩ := Option.bind_eq_some_iff.mp hc
        have hnested : (key, body) ∈ (Instruction.condition c).nested := Keyed.mem_of_lookup h
        exact .nested (ih houter) (List.mem_of_getElem? hi) hnested
      · cases h

namespace Passage

variable {s : Script} {p : Passage} {n : Int64} {x : Spot}

/-- A list of a script that stands at its address. -/
def Placed (s : Script) (p : Passage) : Prop :=
  s.listAt? p.address.scene p.address.turns = some p.body

theorem placed_passage? {name : String} (h : s.passage? name = some p) : p.Placed s := by
  rw [Script.passage?] at h
  obtain ⟨body, hbody, rfl⟩ := Option.map_eq_some_iff.mp h
  exact hbody

/-- What stands at an index of a list is found by its place. -/
theorem Placed.listAt? (h : p.Placed s) (hx : p.spot? n = some x) :
    (s.listAt? x.place.address.scene x.place.address.turns).bind (·[x.place.index]?) =
      some x.instruction := by
  rw [spot?] at hx
  split at hx
  · obtain ⟨i, hi, rfl⟩ := Option.map_eq_some_iff.mp hx
    rw [h]
    exact hi
  · cases hx

theorem Placed.branch {place : Place} {c : Choice Instruction} {number : Nat}
    {b : Branch Instruction} (h : p.Placed s) (hx : p.spot? n = some ⟨place, .choice c⟩)
    (hb : c.branches[number]? = some b) :
    (Spot.inside ⟨place, .choice c⟩ (Turn.branch · number) b.actions).Placed s := by
  have hfound := h.listAt? hx
  dsimp only at hfound
  rw [Placed, Spot.inside, Script.listAt?, hfound]
  dsimp only
  rw [hb]
  rfl

theorem Placed.variant {place : Place} {c : Condition Instruction} {key : String}
    {body : List Instruction} (h : p.Placed s) (hx : p.spot? n = some ⟨place, .condition c⟩)
    (hkey : c.variant? key = some body) :
    (Spot.inside ⟨place, .condition c⟩ (Turn.variant · key) body).Placed s := by
  have hfound := h.listAt? hx
  dsimp only at hfound
  rw [Placed, Spot.inside, Script.listAt?, hfound]
  exact hkey

end Passage

/-- A cursor knows lists of the script by their addresses. -/
inductive Cursor.Placed (s : Script) : Cursor → Prop
  | nowhere : Placed s .nowhere
  | list {p : Passage} {start : Int64} (h : p.Placed s) : Placed s (.list p start)
  | spot {p : Passage} {n : Int64} {x : Spot} (h : p.Placed s) (hx : p.spot? n = some x) :
    Placed s (.spot p n x)
  | outside : Placed s .outside

namespace Walk

variable {s : Script} {w w' : Walk} {item : Nat}

structure Placed (s : Script) (w : Walk) : Prop where
  cursor : w.cursor.Placed s
  frames : ∀ f ∈ w.frames, f.passage.Placed s

theorem Placed.enter (h : w.Placed s) {outer inner : Passage} (houter : outer.Placed s)
    (hinner : inner.Placed s) (n : Int64) (kind : BranchKind) :
    (w.enter outer n kind inner).Placed s :=
  ⟨.list hinner, List.forall_mem_cons.mpr ⟨houter, h.frames⟩⟩

theorem placed_scene {name : String} {p : Passage} (h : scene s item name = .ok p) :
    p.Placed s := by
  rw [scene] at h
  split at h
  · rename_i hpassage
    cases h
    exact Passage.placed_passage? hpassage
  · cases h

/-- One item leads from lists of the script to lists of the script. -/
theorem Placed.step (h : w.Placed s) {x : PathItem} (hstep : w.step s item x = .ok w') :
    w'.Placed s := by
  obtain ⟨cursor, frames⟩ := w
  obtain ⟨hcursor, hframes⟩ := h
  cases x with
  | jump name =>
    obtain ⟨p, hp, hw⟩ := Outcome.bind_eq_ok.mp hstep
    cases hw
    exact ⟨.list (placed_scene hp), List.forall_mem_nil _⟩
  | index n =>
    cases hcursor with
    | @list p start hp =>
      cases hstep
      rw [select]
      split
      · rename_i hspot
        exact ⟨.spot hp hspot, hframes⟩
      · exact ⟨.outside, hframes⟩
    | _ => cases hstep
  | enterChoice number =>
    cases hcursor with
    | @spot p n spot hp hspot =>
      obtain ⟨place, i⟩ := spot
      cases i with
      | choice c =>
        rw [Walk.step] at hstep
        dsimp only at hstep
        split at hstep
        · rename_i b hb
          cases hstep
          exact Placed.enter ⟨.spot hp hspot, hframes⟩ hp (hp.branch hspot hb) n .choice
        · cases hstep
      | _ => cases hstep
    | _ => cases hstep
  | enterCondition key =>
    cases hcursor with
    | @spot p n spot hp hspot =>
      obtain ⟨place, i⟩ := spot
      cases i with
      | condition c =>
        rw [Walk.step] at hstep
        dsimp only at hstep
        split at hstep
        · rename_i body hkey
          cases hstep
          exact Placed.enter ⟨.spot hp hspot, hframes⟩ hp (hp.variant hspot hkey) n .condition
        · cases hstep
      | _ => cases hstep
    | _ => cases hstep
  | enterBlock name =>
    cases hcursor with
    | @spot p n spot hp hspot =>
      obtain ⟨inner, hinner, hw⟩ := Outcome.bind_eq_ok.mp hstep
      cases hw
      exact Placed.enter ⟨.spot hp hspot, hframes⟩ hp (placed_scene hinner) n .block
    | _ => cases hstep
  | exit kind =>
    rw [Walk.step, leave] at hstep
    cases frames with
    | nil => cases hstep
    | cons f frames =>
      dsimp only at hstep
      split at hstep
      · cases hstep
        obtain ⟨hf, hframes⟩ := List.forall_mem_cons.mp hframes
        exact ⟨.list hf, hframes⟩
      · cases hstep

theorem Placed.follow (h : w.Placed s) {p : Path} (hfollow : follow s w item p = .ok w') :
    w'.Placed s := by
  induction p generalizing w item with
  | nil =>
    cases hfollow
    exact h
  | cons x rest ih =>
    obtain ⟨u, hu, hrest⟩ := Outcome.bind_eq_ok.mp hfollow
    exact ih (h.step hu) hrest

end Walk

namespace Path

variable {s : Script} {p q : Path} {x y : Spot}

/-- Where a path leads, the script has what the place of the spot says. -/
theorem listAt?_of_resolve (h : resolve s p = .ok (some x)) :
    (s.listAt? x.place.address.scene x.place.address.turns).bind (·[x.place.index]?) =
      some x.instruction := by
  rw [resolve] at h
  cases hwalk : walk s p with
  | error fault =>
    rw [hwalk] at h
    cases h
  | ok w =>
    rw [hwalk] at h
    have hspot : w.spot? = some x := Except.ok.inj h
    have hplaced : w.Placed s :=
      Walk.Placed.follow (w := .start) ⟨.nowhere, List.forall_mem_nil _⟩ hwalk
    obtain ⟨cursor, frames⟩ := w
    cases hplaced.cursor with
    | spot hp hx =>
      cases hspot
      exact hp.listAt? hx
    | _ => cases hspot

/-- Two paths that lead to one place lead to one spot. -/
theorem eq_of_resolve_place (hp : resolve s p = .ok (some x)) (hq : resolve s q = .ok (some y))
    (hplace : x.place = y.place) : x = y := by
  have hx := listAt?_of_resolve hp
  have hy := listAt?_of_resolve hq
  rw [hplace, hy] at hx
  obtain ⟨place, i⟩ := x
  obtain ⟨place', j⟩ := y
  cases hplace
  cases hx
  rfl

end Path

end Narrative
