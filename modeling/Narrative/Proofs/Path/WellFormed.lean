import Mathlib.Data.List.Induction
import Narrative.Proofs.Path.Trail
import Narrative.Script.Check

namespace Narrative

/-- What a path selects. -/
inductive Selection
  | nothing
  | list (passage : Passage)
  | instruction (passage : Passage) (spot : Spot)
  /-- The end of a list, or what is before it. -/
  | ending

/-- Where a path has come to: what it selects, and the open branches, the innermost first, each with the
list it was entered from. -/
structure Whereabouts where
  selection : Selection
  branches : List (BranchKind × Passage)

/-- What the items that enter a branch ask of the instruction at hand, and the list they lead to. -/
abbrev Entrance := Spot → PathItem → BranchKind → Passage → Prop

/-- A walk enters what an instruction opens, and at any instruction whatsoever each block. -/
inductive Spot.Admits (s : Script) : Entrance
  | opens {x : Spot} {item : PathItem} {kind : BranchKind} {inner : Passage}
    (h : x.Opens s item kind inner) : Admits s x item kind inner
  | block {x : Spot} {name : String} {inner : Passage} (h : s.passage? name = some inner) :
    Admits s x (.enterBlock name) .block inner

namespace Whereabouts

def start : Whereabouts := ⟨.nothing, []⟩

def spot? (w : Whereabouts) : Option Spot :=
  match w.selection with
  | .instruction _ x => some x
  | _ => none

/-- Where an item may stand, and where it leads. -/
inductive Allows (s : Script) (entrance : Entrance) : Whereabouts → PathItem → Whereabouts → Prop
  | jump {w : Whereabouts} {name : String} {scene : Passage} (h : s.passage? name = some scene) :
    Allows s entrance w (.jump name) ⟨.list scene, []⟩
  | select {list : Passage} {n : Int64} {x : Spot} {branches : List (BranchKind × Passage)}
    (h : list.spot? n = some x) :
    Allows s entrance ⟨.list list, branches⟩ (.index n) ⟨.instruction list x, branches⟩
  | pass {list : Passage} {n : Int64} {branches : List (BranchKind × Passage)}
    (h : list.spot? n = none) :
    Allows s entrance ⟨.list list, branches⟩ (.index n) ⟨.ending, branches⟩
  | enter {outer inner : Passage} {x : Spot} {item : PathItem} {kind : BranchKind}
    {branches : List (BranchKind × Passage)} (h : entrance x item kind inner) :
    Allows s entrance ⟨.instruction outer x, branches⟩ item ⟨.list inner, (kind, outer) :: branches⟩
  | exit {selection : Selection} {kind : BranchKind} {outer : Passage}
    {branches : List (BranchKind × Passage)} :
    Allows s entrance ⟨selection, (kind, outer) :: branches⟩ (.exit kind) ⟨.list outer, branches⟩

/-- What is wrong with an item that may not stand where it stands. -/
inductive Offends (s : Script) (w : Whereabouts) (item : Nat) : PathItem → PathFault → Prop
  | noScene {name : String} (h : s.passage? name = none) :
    Offends s w item (.jump name) (.unknownScene item name)
  | noList {n : Int64} (h : ∀ list, w.selection ≠ .list list) :
    Offends s w item (.index n) (.indexOutsideList item)
  | noChoice {number : UInt64}
    (h : ∀ outer place c, w.selection ≠ .instruction outer ⟨place, .choice c⟩) :
    Offends s w item (.enterChoice number) (.notABranch item .choice)
  | noBranch {number : UInt64} {outer : Passage} {place : Place} {c : Choice Instruction}
    (h : w.selection = .instruction outer ⟨place, .choice c⟩)
    (hnone : c.branches[number.toNat]? = none) :
    Offends s w item (.enterChoice number) (.unknownBranch item number)
  | noCondition {key : String}
    (h : ∀ outer place c, w.selection ≠ .instruction outer ⟨place, .condition c⟩) :
    Offends s w item (.enterCondition key) (.notABranch item .condition)
  | noVariant {key : String} {outer : Passage} {place : Place} {c : Condition Instruction}
    (h : w.selection = .instruction outer ⟨place, .condition c⟩) (hnone : c.variant? key = none) :
    Offends s w item (.enterCondition key) (.unknownVariant item key)
  | noInstruction {name : String} (h : ∀ outer x, w.selection ≠ .instruction outer x) :
    Offends s w item (.enterBlock name) (.notABranch item .block)
  | noBlock {name : String} {outer : Passage} {x : Spot} (h : w.selection = .instruction outer x)
    (hnone : s.passage? name = none) :
    Offends s w item (.enterBlock name) (.unknownScene item name)
  | noneOpen {kind : BranchKind} (h : w.branches = []) :
    Offends s w item (.exit kind) (.unbalancedExit item)
  | otherOpen {kind expected : BranchKind} {outer : Passage} {branches : List (BranchKind × Passage)}
    (h : w.branches = (expected, outer) :: branches) (hother : expected ≠ kind) :
    Offends s w item (.exit kind) (.mismatchedExit item expected kind)

/-- An item may stand where it stands, or something is wrong with it. -/
theorem allows_or_offends (s : Script) (w : Whereabouts) (item : Nat) (x : PathItem) :
    (∃ w', w.Allows s (Spot.Admits s) x w') ∨ ∃ fault, w.Offends s item x fault := by
  obtain ⟨selection, branches⟩ := w
  cases x with
  | jump name =>
    cases hscene : s.passage? name with
    | some scene => exact .inl ⟨_, .jump hscene⟩
    | none => exact .inr ⟨_, .noScene hscene⟩
  | index n =>
    cases selection with
    | list p =>
      cases hspot : p.spot? n with
      | some x => exact .inl ⟨_, .select hspot⟩
      | none => exact .inl ⟨_, .pass hspot⟩
    | nothing | instruction _ _ | ending => exact .inr ⟨_, .noList (by simp)⟩
  | enterChoice number =>
    cases selection with
    | instruction outer x =>
      obtain ⟨place, i⟩ := x
      cases i with
      | choice c =>
        cases hbranch : c.branches[number.toNat]? with
        | some b => exact .inl ⟨_, .enter (.opens (.choice hbranch))⟩
        | none => exact .inr ⟨_, .noBranch rfl hbranch⟩
      | _ => exact .inr ⟨_, .noChoice (by simp)⟩
    | nothing | list _ | ending => exact .inr ⟨_, .noChoice (by simp)⟩
  | enterCondition key =>
    cases selection with
    | instruction outer x =>
      obtain ⟨place, i⟩ := x
      cases i with
      | condition c =>
        cases hvariant : c.variant? key with
        | some body => exact .inl ⟨_, .enter (.opens (.condition hvariant))⟩
        | none => exact .inr ⟨_, .noVariant rfl hvariant⟩
      | _ => exact .inr ⟨_, .noCondition (by simp)⟩
    | nothing | list _ | ending => exact .inr ⟨_, .noCondition (by simp)⟩
  | enterBlock name =>
    cases selection with
    | instruction outer x =>
      cases hscene : s.passage? name with
      | some scene => exact .inl ⟨_, .enter (.block hscene)⟩
      | none => exact .inr ⟨_, .noBlock rfl hscene⟩
    | nothing | list _ | ending => exact .inr ⟨_, .noInstruction (by simp)⟩
  | exit kind =>
    cases branches with
    | nil => exact .inr ⟨_, .noneOpen rfl⟩
    | cons b rest =>
      obtain ⟨found, outer⟩ := b
      by_cases hkind : found = kind
      · subst hkind
        exact .inl ⟨_, .exit⟩
      · exact .inr ⟨_, .otherOpen rfl hkind⟩

end Whereabouts

/-- A path each of whose items may stand where it stands, with where it has come to. -/
inductive Path.WellFormed (s : Script) (entrance : Entrance) : Path → Whereabouts → Prop
  | nil : WellFormed s entrance [] .start
  | concat {p : Path} {x : PathItem} {w w' : Whereabouts} (h : WellFormed s entrance p w)
    (hx : w.Allows s entrance x w') : WellFormed s entrance (p ++ [x]) w'

namespace Walk

variable {s : Script} {w w' : Walk} {x : PathItem} {item : Nat} {fault : PathFault}

/-- A walk without the indices that only a history needs. -/
def whereabouts (w : Walk) : Whereabouts where
  selection := match w.cursor with
    | .nowhere => .nothing
    | .list p _ => .list p
    | .spot p _ x => .instruction p x
    | .outside => .ending
  branches := w.frames.map fun f => (f.kind, f.passage)

theorem spot?_whereabouts (w : Walk) : w.whereabouts.spot? = w.spot? := by
  obtain ⟨cursor, frames⟩ := w
  cases cursor <;> rfl

theorem selection_eq_list {p : Passage} (h : w.whereabouts.selection = .list p) :
    ∃ first, w.cursor = .list p first := by
  obtain ⟨cursor, frames⟩ := w
  cases cursor with
  | list q first =>
    cases h
    exact ⟨first, rfl⟩
  | nowhere | spot _ _ _ | outside => cases h

theorem selection_eq_instruction {p : Passage} {found : Spot}
    (h : w.whereabouts.selection = .instruction p found) : ∃ n, w.cursor = .spot p n found := by
  obtain ⟨cursor, frames⟩ := w
  cases cursor with
  | spot q n y =>
    cases h
    exact ⟨n, rfl⟩
  | nowhere | list _ _ | outside => cases h

/-- A walk follows what may stand. -/
theorem step_of_allows {v : Whereabouts} (h : w.whereabouts.Allows s (Spot.Admits s) x v)
    (item : Nat) : ∃ w', w.step s item x = .ok w' ∧ w'.whereabouts = v := by
  generalize hw : w.whereabouts = u at h
  obtain ⟨cursor, frames⟩ := w
  have hselection : Whereabouts.selection _ = u.selection := congrArg Whereabouts.selection hw
  have hbranches : Whereabouts.branches _ = u.branches := congrArg Whereabouts.branches hw
  cases h with
  | jump hname => exact ⟨_, (Moves.jump hname).step item, rfl⟩
  | select hspot =>
    obtain ⟨first, hcursor⟩ := selection_eq_list hselection
    cases hcursor
    refine ⟨_, Moves.index.step item, ?_⟩
    cases hbranches
    rw [select, hspot]
    rfl
  | pass hspot =>
    obtain ⟨first, hcursor⟩ := selection_eq_list hselection
    cases hcursor
    refine ⟨_, Moves.index.step item, ?_⟩
    cases hbranches
    rw [select, hspot]
    rfl
  | @enter outer inner y _ _ _ hadmits =>
    obtain ⟨n, hcursor⟩ := selection_eq_instruction hselection
    cases hcursor
    cases hbranches
    cases hadmits with
    | opens hopens => exact ⟨_, (Moves.enter hopens).step item, rfl⟩
    | block hname =>
      refine ⟨enter ⟨.spot outer n y, frames⟩ outer n .block inner, ?_, rfl⟩
      simp [step, scene, hname]
  | exit =>
    obtain ⟨f, frames, rfl, hf, rfl⟩ := List.map_eq_cons_iff.mp hbranches
    cases hf
    exact ⟨_, Moves.exit.step item, rfl⟩

/-- A walk does not follow what may not stand, and tells why. -/
theorem step_of_offends (h : w.whereabouts.Offends s item x fault) :
    w.step s item x = .error fault := by
  obtain ⟨cursor, frames⟩ := w
  cases h with
  | noScene hname => simp [step, scene, hname, bind, Except.bind]
  | noList h =>
    rw [step]
    split
    · rename_i p first hcursor
      cases hcursor
      exact absurd rfl (h p)
    · rfl
  | noChoice h =>
    rw [step]
    split
    · rename_i hcursor
      cases hcursor
      exact absurd rfl (h _ _ _)
    · rfl
  | noBranch h hnone =>
    obtain ⟨n, hcursor⟩ := selection_eq_instruction h
    cases hcursor
    simp [step, hnone]
  | noCondition h =>
    rw [step]
    split
    · rename_i hcursor
      cases hcursor
      exact absurd rfl (h _ _ _)
    · rfl
  | noVariant h hnone =>
    obtain ⟨n, hcursor⟩ := selection_eq_instruction h
    cases hcursor
    simp [step, hnone]
  | noInstruction h =>
    rw [step]
    split
    · rename_i hcursor
      cases hcursor
      exact absurd rfl (h _ _)
    · rfl
  | noBlock h hnone =>
    obtain ⟨n, hcursor⟩ := selection_eq_instruction h
    cases hcursor
    simp [step, scene, hnone, bind, Except.bind]
  | noneOpen h =>
    obtain rfl := List.map_eq_nil_iff.mp h
    rfl
  | otherOpen h hother =>
    obtain ⟨f, frames, rfl, hf, rfl⟩ := List.map_eq_cons_iff.mp h
    cases hf
    simp [step, leave, hother]

theorem step_eq_ok_iff {v : Whereabouts} :
    (∃ w', w.step s item x = .ok w' ∧ w'.whereabouts = v) ↔
      w.whereabouts.Allows s (Spot.Admits s) x v := by
  refine ⟨?_, fun h => step_of_allows h item⟩
  rintro ⟨w', hstep, rfl⟩
  rcases w.whereabouts.allows_or_offends s item x with ⟨v, hallows⟩ | ⟨fault, hoffends⟩
  · obtain ⟨w'', hstep', rfl⟩ := step_of_allows hallows item
    cases hstep.symm.trans hstep'
    exact hallows
  · cases hstep.symm.trans (step_of_offends hoffends)

theorem step_eq_error_iff :
    w.step s item x = .error fault ↔ w.whereabouts.Offends s item x fault := by
  refine ⟨fun hstep => ?_, step_of_offends⟩
  rcases w.whereabouts.allows_or_offends s item x with ⟨v, hallows⟩ | ⟨fault, hoffends⟩
  · obtain ⟨w', hstep', -⟩ := step_of_allows hallows item
    cases hstep.symm.trans hstep'
  · cases hstep.symm.trans (step_of_offends hoffends)
    exact hoffends

/-- Following fails at the first item that is not followed. -/
theorem follow_eq_error_iff {p : Path} :
    follow s w item p = .error fault ↔ ∃ before y rest w', p = before ++ y :: rest ∧
      follow s w item before = .ok w' ∧ w'.step s (item + before.length) y = .error fault := by
  constructor
  · intro h
    induction p generalizing w item with
    | nil => cases h
    | cons y rest ih =>
      rw [follow] at h
      cases hstep : w.step s item y with
      | error fault' =>
        rw [hstep] at h
        cases h
        exact ⟨[], y, rest, w, rfl, rfl, hstep⟩
      | ok u =>
        rw [hstep, Outcome.ok_bind] at h
        obtain ⟨before, z, more, w', rfl, hbefore, hz⟩ := ih h
        refine ⟨y :: before, z, more, w', rfl, ?_, ?_⟩
        · rw [follow, hstep, Outcome.ok_bind, hbefore]
        · rw [List.length_cons, Nat.add_comm before.length, ← Nat.add_assoc, hz]
  · rintro ⟨before, y, rest, w', rfl, hbefore, hy⟩
    rw [follow_append, hbefore, Outcome.ok_bind, follow, hy]
    rfl

end Walk

namespace Path

variable {s : Script} {p : Path} {x : PathItem} {w w' : Whereabouts} {entrance : Entrance}

theorem wellFormed_nil : WellFormed s entrance [] w ↔ w = .start := by
  constructor
  · intro h
    generalize hq : ([] : Path) = q at h
    cases h with
    | nil => rfl
    | concat h hx => simp at hq
  · rintro rfl
    exact .nil

theorem wellFormed_concat :
    WellFormed s entrance (p ++ [x]) w' ↔
      ∃ w, WellFormed s entrance p w ∧ w.Allows s entrance x w' := by
  constructor
  · intro h
    generalize hq : p ++ [x] = q at h
    cases h with
    | nil => simp at hq
    | concat h hx =>
      obtain ⟨rfl, hlast⟩ := List.append_inj' hq rfl
      cases hlast
      exact ⟨_, h, hx⟩
  · rintro ⟨w, h, hx⟩
    exact h.concat hx

theorem walk_concat (s : Script) (p : Path) (x : PathItem) :
    walk s (p ++ [x]) = (do (← walk s p).step s p.length x) := by
  rw [walk, Walk.follow_append, walk]
  refine congrArg _ (funext fun u => ?_)
  rw [Walk.follow, Nat.zero_add]
  cases u.step s p.length x <;> rfl

/-- A walk gets to the end of the paths that are well formed, and to where they have come to. -/
theorem walk_eq_ok_iff :
    (∃ u, walk s p = .ok u ∧ u.whereabouts = w) ↔ WellFormed s (Spot.Admits s) p w := by
  induction p using List.reverseRecOn generalizing w with
  | nil =>
    rw [wellFormed_nil]
    constructor
    · rintro ⟨u, hwalk, rfl⟩
      cases hwalk
      rfl
    · rintro rfl
      exact ⟨.start, rfl, rfl⟩
  | append_singleton p x ih =>
    rw [wellFormed_concat, walk_concat]
    constructor
    · rintro ⟨u, hwalk, rfl⟩
      obtain ⟨v, hv, hstep⟩ := Outcome.bind_eq_ok.mp hwalk
      exact ⟨v.whereabouts, ih.mp ⟨v, hv, rfl⟩, Walk.step_eq_ok_iff.mp ⟨u, hstep, rfl⟩⟩
    · rintro ⟨v, hv, hx⟩
      obtain ⟨u, hwalk, rfl⟩ := ih.mpr hv
      obtain ⟨u', hstep, rfl⟩ := Walk.step_of_allows hx p.length
      refine ⟨u', ?_, rfl⟩
      rw [hwalk, Outcome.ok_bind, hstep]

theorem resolve_eq_ok_iff {found : Option Spot} :
    resolve s p = .ok found ↔ ∃ w, WellFormed s (Spot.Admits s) p w ∧ found = w.spot? := by
  rw [resolve]
  constructor
  · intro h
    cases hwalk : walk s p with
    | error fault =>
      rw [hwalk] at h
      cases h
    | ok u =>
      rw [hwalk] at h
      cases h
      exact ⟨u.whereabouts, walk_eq_ok_iff.mp ⟨u, hwalk, rfl⟩, u.spot?_whereabouts.symm⟩
  · rintro ⟨w, hw, rfl⟩
    obtain ⟨u, hwalk, rfl⟩ := walk_eq_ok_iff.mpr hw
    rw [hwalk, u.spot?_whereabouts]
    rfl

/-- The first item that may not stand where it stands, and what is wrong with it. -/
def FirstOffence (s : Script) (p : Path) (fault : PathFault) : Prop :=
  ∃ before x rest w, p = before ++ x :: rest ∧ WellFormed s (Spot.Admits s) before w ∧
    w.Offends s before.length x fault

theorem resolve_eq_error_iff {fault : PathFault} :
    resolve s p = .error fault ↔ FirstOffence s p fault := by
  have hresolve : resolve s p = .error fault ↔ walk s p = .error fault := by
    rw [resolve]
    cases walk s p with
    | ok u => simp [Except.map]
    | error f => simp [Except.map]
  rw [hresolve, walk, Walk.follow_eq_error_iff]
  constructor
  · rintro ⟨before, x, rest, u, rfl, hbefore, hx⟩
    rw [Nat.zero_add] at hx
    exact ⟨before, x, rest, u.whereabouts, rfl, walk_eq_ok_iff.mp ⟨u, hbefore, rfl⟩,
      Walk.step_eq_error_iff.mp hx⟩
  · rintro ⟨before, x, rest, w, rfl, hbefore, hx⟩
    obtain ⟨u, hwalk, rfl⟩ := walk_eq_ok_iff.mpr hbefore
    refine ⟨before, x, rest, u, rfl, hwalk, ?_⟩
    rw [Nat.zero_add]
    exact Walk.step_of_offends hx

/-- Wherever the path enters a block, it leads to a block instruction that names it. -/
def BlocksNamed (s : Script) (p : Path) : Prop :=
  ∀ before name rest, p = before ++ .enterBlock name :: rest →
    ∃ place, resolve s before = .ok (some ⟨place, .block name⟩)

theorem BlocksNamed.of_concat (h : BlocksNamed s (p ++ [x])) : BlocksNamed s p := by
  intro before name rest hp
  refine h before name (rest ++ [x]) ?_
  rw [hp, List.append_assoc, List.cons_append]

theorem BlocksNamed.concat (h : BlocksNamed s p)
    (hx : ∀ name, x = .enterBlock name →
      ∃ place, resolve s p = .ok (some ⟨place, .block name⟩)) : BlocksNamed s (p ++ [x]) := by
  intro before name rest hp
  cases rest using List.reverseRecOn with
  | nil =>
    obtain ⟨rfl, hlast⟩ := List.append_inj' hp rfl
    exact hx name (List.cons.inj hlast).1
  | append_singleton rest y =>
    rw [← List.cons_append, ← List.append_assoc] at hp
    obtain ⟨rfl, -⟩ := List.append_inj' hp rfl
    exact h before name rest rfl

theorem WellFormed.admits (h : WellFormed s (Spot.Opens s) p w) :
    WellFormed s (Spot.Admits s) p w := by
  induction h with
  | nil => exact .nil
  | concat _ hx ih =>
    refine ih.concat ?_
    cases hx with
    | jump hname => exact .jump hname
    | select hspot => exact .select hspot
    | pass hspot => exact .pass hspot
    | enter hopens => exact .enter (.opens hopens)
    | exit => exact .exit

/-- A block that is entered only where an instruction opens it is named there. -/
theorem WellFormed.blocksNamed (h : WellFormed s (Spot.Opens s) p w) : BlocksNamed s p := by
  induction h with
  | nil =>
    intro before name rest hp
    simp at hp
  | @concat p x w w' h hx ih =>
    refine ih.concat ?_
    rintro name rfl
    have hresolve : resolve s p = .ok w.spot? := resolve_eq_ok_iff.mpr ⟨w, h.admits, rfl⟩
    cases hx with
    | enter hopens =>
      cases hopens with
      | @block place => exact ⟨place, hresolve⟩

theorem WellFormed.opens (h : WellFormed s (Spot.Admits s) p w) (hp : BlocksNamed s p) :
    WellFormed s (Spot.Opens s) p w := by
  induction h with
  | nil => exact .nil
  | @concat p x w w' h hx ih =>
    refine (ih hp.of_concat).concat ?_
    cases hx with
    | jump hname => exact .jump hname
    | select hspot => exact .select hspot
    | pass hspot => exact .pass hspot
    | exit => exact .exit
    | enter hadmits =>
      cases hadmits with
      | opens hopens => exact .enter hopens
      | @block y name inner hname =>
        have hresolve := resolve_eq_ok_iff.mpr ⟨_, h, rfl⟩
        obtain ⟨place, hblock⟩ := hp p name [] rfl
        cases hresolve.symm.trans hblock
        exact .enter (.block hname)

/-- A path resolves just if it is well formed, and otherwise fails for its first item that may not stand
there. What is well formed because of what an instruction opens, and not because blocks are entered at
any instruction, is what enters each block where it stands. -/
theorem resolves_iff_wellFormed (s : Script) (p : Path) :
    (∀ found, resolve s p = .ok found ↔
      ∃ w, WellFormed s (Spot.Admits s) p w ∧ found = w.spot?) ∧
    (∀ fault, resolve s p = .error fault ↔ FirstOffence s p fault) ∧
    ∀ w, WellFormed s (Spot.Opens s) p w ↔
      WellFormed s (Spot.Admits s) p w ∧ BlocksNamed s p := by
  refine ⟨fun found => resolve_eq_ok_iff, fun fault => resolve_eq_error_iff, fun w => ?_⟩
  constructor
  · intro h
    exact ⟨h.admits, h.blocksNamed⟩
  · rintro ⟨h, hblocks⟩
    exact h.opens hblocks

/-- A story in which nothing leads to the attic. -/
def closedAttic : Draft := .ofScenes [
  ("attic", [.text "Dust."]), ("start", [.text "Home.", .finish])]

/-- A path into the attic leads there all the same. -/
theorem block_entered_at_text :
    let script : Script := ⟨closedAttic.scenes, closedAttic.ordered⟩
    let p : Path := [.jump "start", .index 0, .enterBlock "attic", .index 0]
    closedAttic.compile {} = .ok script ∧
      resolve script p = .ok (some ⟨⟨⟨"attic", []⟩, 0⟩, .text "Dust."⟩) ∧
      ∀ w, ¬ WellFormed script (Spot.Opens script) p w := by
  intro script p
  refine ⟨rfl, rfl, fun w h => ?_⟩
  obtain ⟨place, hblock⟩ := h.blocksNamed [.jump "start", .index 0] "attic" [.index 0] rfl
  have htext : resolve script [.jump "start", .index 0] =
      .ok (some ⟨⟨⟨"start", []⟩, 0⟩, .text "Home."⟩) := rfl
  cases htext.symm.trans hblock

end Path

end Narrative
