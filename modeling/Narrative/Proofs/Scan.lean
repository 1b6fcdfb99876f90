import Mathlib.Logic.Relation
import Narrative.Proofs.Path.Place
import Narrative.Scan

namespace Narrative.Scan

variable {s : Script} {p q : Path} {x : Spot} {n steps levels : Nat} {limits : ScanLimits}
  {deeper : Path → List Spot}

/-- The moves of a scan. It takes all branches of a choice and all variants of a condition, and stays
where the player is asked for something else. -/
inductive Onward (s : Script) (p : Path) : Path → Prop
  | finished {left : Path} (hend : Path.resolve s p = .ok none)
    (hleave : Path.leave s p = some left) : Onward s p left
  | branch {place : Place} {c : Choice Instruction} {b : Nat}
    (hspot : Path.resolve s p = .ok (some ⟨place, .choice c⟩)) (hb : b < c.branches.length) :
    Onward s p (Path.enterChoice (UInt64.ofNat b) p)
  | variant {place : Place} {c : Condition Instruction} {v : String × List Instruction}
    (hspot : Path.resolve s p = .ok (some ⟨place, .condition c⟩)) (hv : v ∈ c.variants) :
    Onward s p (Path.enterCondition v.1 p)
  | jump {place : Place} {scene : String}
    (hspot : Path.resolve s p = .ok (some ⟨place, .jump scene⟩)) :
    Onward s p (Path.advance (Path.entry scene))
  | block {place : Place} {scene : String}
    (hspot : Path.resolve s p = .ok (some ⟨place, .block scene⟩)) :
    Onward s p (Path.enterBlock scene p)
  | exit {place : Place} {left : Path} (hspot : Path.resolve s p = .ok (some ⟨place, .exit⟩))
    (hleave : Path.leave s p = some left) : Onward s p left
  | pass {spot : Spot} (hspot : Path.resolve s p = .ok (some spot))
    (hcontrol : spot.instruction.isControl = false)
    (hblocking : spot.instruction.isBlocking = false) : Onward s p (Path.advance p)

/-- Moves lead from a path to an instruction that does more than to move the path. -/
def Meets (s : Script) (p : Path) (x : Spot) : Prop :=
  ∃ q, Relation.ReflTransGen (Onward s) p q ∧ Path.resolve s q = .ok (some x) ∧
    x.instruction.isControl = false

theorem Meets.of_onward (h : Onward s p q) (hmeets : Meets s q x) : Meets s p x := by
  obtain ⟨r, hchain, hspot⟩ := hmeets
  exact ⟨r, hchain.head h, hspot⟩

/-- What is finished is left by a scan as it is by a session. -/
theorem onward_settle (s : Script) (p : Path) :
    Relation.ReflTransGen (Onward s) p (Path.settle s p) := by
  rw [Path.settle]
  generalize Path.entered p = fuel
  induction fuel generalizing p with
  | zero => exact .refl
  | succ fuel ih =>
    rw [Path.leaveFinished]
    split
    · rename_i hend
      split
      · rename_i left hleave
        exact (ih left).head (.finished hend hleave)
      · exact .refl
    · exact .refl

theorem mem_along_of_resolve (hspot : Path.resolve s p = .ok (some x))
    (hcontrol : x.instruction.isControl = false) : x ∈ along s deeper (n + 1) p := by
  obtain ⟨place, i⟩ := x
  rw [along, hspot]
  cases i with
  | condition c | block scene | exit | jump scene | finish => cases hcontrol
  | choice c => exact List.mem_cons_self
  | _ =>
    dsimp only
    split
    · exact List.mem_singleton_self _
    · exact List.mem_cons_self

/-- What a scan finds behind a move. Branches are followed each on its own. -/
def behind (s : Script) (deeper : Path → List Spot) (n : Nat) (p q : Path) : List Spot :=
  match Path.resolve s p with
  | .ok (some ⟨_, .choice _⟩) | .ok (some ⟨_, .condition _⟩) => deeper q
  | _ => along s deeper n q

theorem mem_behind (hdeeper : x ∈ deeper q) (halong : x ∈ along s deeper n q) :
    x ∈ behind s deeper n p q := by
  rw [behind]
  split
  · exact hdeeper
  · exact hdeeper
  · exact halong

theorem of_mem_behind (h : x ∈ behind s deeper n p q) : x ∈ deeper q ∨ x ∈ along s deeper n q := by
  rw [behind] at h
  split at h
  · exact .inl h
  · exact .inl h
  · exact .inr h

theorem mem_along_of_onward (h : Onward s p q) (hx : x ∈ behind s deeper n p q) :
    x ∈ along s deeper (n + 1) p := by
  rw [behind] at hx
  rw [along]
  cases h with
  | finished hend hleave =>
    rw [hend] at hx ⊢
    dsimp only
    rw [hleave]
    exact hx
  | branch hspot hb =>
    rw [hspot] at hx ⊢
    exact List.mem_cons_of_mem _ (List.mem_flatMap.mpr ⟨_, List.mem_range.mpr hb, hx⟩)
  | variant hspot hv =>
    rw [hspot] at hx ⊢
    exact List.mem_flatMap.mpr ⟨_, hv, hx⟩
  | jump hspot | block hspot =>
    rw [hspot] at hx ⊢
    exact hx
  | exit hspot hleave =>
    rw [hspot] at hx ⊢
    dsimp only
    rw [hleave]
    exact hx
  | @pass spot hspot hcontrol hblocking =>
    obtain ⟨place, i⟩ := spot
    rw [hspot] at hx ⊢
    cases i with
    | condition c | block scene | exit | jump scene | finish => cases hcontrol
    | choice c => cases hblocking
    | _ =>
      dsimp only
      rw [if_neg (Bool.eq_false_iff.mp hblocking)]
      exact List.mem_cons_of_mem _ hx

theorem of_mem_along (h : x ∈ along s deeper (n + 1) p) :
    (Path.resolve s p = .ok (some x) ∧ x.instruction.isControl = false) ∨
      ∃ q, Onward s p q ∧ x ∈ behind s deeper n p q := by
  simp only [behind]
  rw [along] at h
  split at h
  · cases h
  · rename_i hend
    split at h
    · rename_i left hleave
      rw [hend]
      exact .inr ⟨left, .finished hend hleave, h⟩
    · cases h
  · rename_i spot hspot
    obtain ⟨place, i⟩ := spot
    rw [hspot]
    cases i with
    | choice c =>
      rcases List.mem_cons.mp h with rfl | h
      · exact .inl ⟨rfl, rfl⟩
      · obtain ⟨b, hb, hx⟩ := List.mem_flatMap.mp h
        exact .inr ⟨_, .branch hspot (List.mem_range.mp hb), hx⟩
    | condition c =>
      obtain ⟨v, hv, hx⟩ := List.mem_flatMap.mp h
      exact .inr ⟨_, .variant hspot hv, hx⟩
    | finish => cases h
    | jump scene => exact .inr ⟨_, .jump hspot, h⟩
    | block scene => exact .inr ⟨_, .block hspot, h⟩
    | exit =>
      dsimp only at h
      split at h
      · rename_i left hleave
        exact .inr ⟨left, .exit hspot hleave, h⟩
      · cases h
    | _ =>
      dsimp only at h
      split at h
      · cases List.mem_singleton.mp h
        exact .inl ⟨rfl, rfl⟩
      · rename_i hblocking
        rcases List.mem_cons.mp h with rfl | h
        · exact .inl ⟨rfl, rfl⟩
        · exact .inr ⟨_, .pass hspot rfl (Bool.eq_false_iff.mpr hblocking), h⟩

/-- Each move takes a step or a level, so as many as there are moves are enough of both. -/
theorem mem_visits_of_meets (h : Meets s p x) :
    ∃ n, ∀ steps levels, n ≤ steps → n ≤ levels → x ∈ visits s steps levels p := by
  obtain ⟨q, hchain, hspot, hcontrol⟩ := h
  have halong : ∃ n, ∀ steps levels fuel, n ≤ steps → n ≤ levels → n ≤ fuel →
      x ∈ along s (visits s steps levels) fuel p := by
    induction hchain using Relation.ReflTransGen.head_induction_on with
    | refl =>
      refine ⟨1, fun steps levels fuel _ _ hfuel => ?_⟩
      obtain ⟨fuel, rfl⟩ := Nat.exists_eq_succ_of_ne_zero (Nat.ne_of_gt hfuel)
      exact mem_along_of_resolve hspot hcontrol
    | @head p r hmove _ ih =>
      obtain ⟨n, hn⟩ := ih
      refine ⟨n + 1, fun steps levels fuel hsteps hlevels hfuel => ?_⟩
      obtain ⟨levels, rfl⟩ := Nat.exists_eq_add_of_le' hlevels
      obtain ⟨fuel, rfl⟩ := Nat.exists_eq_add_of_le' hfuel
      have hdeeper := hn steps (levels + n) steps (by omega) (by omega) (by omega)
      have hsame := hn steps (levels + (n + 1)) (fuel + n) (by omega) (by omega) (by omega)
      exact mem_along_of_onward hmove (mem_behind hdeeper hsame)
  obtain ⟨n, hn⟩ := halong
  refine ⟨n + 1, fun steps levels hsteps hlevels => ?_⟩
  obtain ⟨levels, rfl⟩ := Nat.exists_eq_add_of_le' hlevels
  exact hn steps (levels + n) steps (by omega) (by omega) (by omega)

theorem meets_of_mem_along (hdeeper : ∀ q, x ∈ deeper q → Meets s q x)
    (h : x ∈ along s deeper n p) : Meets s p x := by
  induction n generalizing p with
  | zero => cases h
  | succ n ih =>
    rcases of_mem_along h with ⟨hspot, hcontrol⟩ | ⟨q, hmove, hx⟩
    · exact ⟨p, .refl, hspot, hcontrol⟩
    · rcases of_mem_behind hx with hx | hx
      · exact (hdeeper q hx).of_onward hmove
      · exact (ih hx).of_onward hmove

theorem meets_of_mem_visits (h : x ∈ visits s steps levels p) : Meets s p x := by
  induction levels generalizing p with
  | zero => cases h
  | succ levels ih => exact meets_of_mem_along (fun q hx => ih hx) h

theorem mem_of_mem_distinct {seen : List Place} {l : List Spot} (h : x ∈ distinct seen l) : x ∈ l := by
  induction l generalizing seen with
  | nil => cases h
  | cons y rest ih =>
    rw [distinct] at h
    split at h
    · exact List.mem_cons_of_mem _ (ih h)
    · rcases List.mem_cons.mp h with rfl | h
      · exact List.mem_cons_self
      · exact List.mem_cons_of_mem _ (ih h)

theorem mem_distinct {seen : List Place} {l : List Spot} (hx : x ∈ l) (hseen : x.place ∉ seen)
    (hone : ∀ y ∈ l, x.place = y.place → x = y) : x ∈ distinct seen l := by
  induction l generalizing seen with
  | nil => cases hx
  | cons y rest ih =>
    obtain ⟨hy, hrest⟩ := List.forall_mem_cons.mp hone
    rw [distinct]
    split
    · rename_i hmem
      rcases List.mem_cons.mp hx with rfl | hx
      · exact absurd hmem hseen
      · exact ih hx hseen hrest
    · rcases List.mem_cons.mp hx with rfl | hx
      · exact List.mem_cons_self
      · by_cases hplace : x.place = y.place
        · rw [hy hplace]
          exact List.mem_cons_self
        · exact List.mem_cons_of_mem _ (ih hx (by simp [hplace, hseen]) hrest)

theorem Meets.resolve_or_onward (h : Meets s p x) :
    (Path.resolve s p = .ok (some x) ∧ x.instruction.isControl = false) ∨
      ∃ q, Onward s p q ∧ Meets s q x := by
  obtain ⟨r, hchain, hspot⟩ := h
  rcases hchain.cases_head with rfl | ⟨q, hmove, hchain⟩
  · exact .inl hspot
  · exact .inr ⟨q, hmove, r, hchain, hspot⟩

/-- Behind a condition a scan sees its variants and nothing else, so not what comes after it if play
passes it by. -/
theorem Meets.of_condition {place : Place} {c : Condition Instruction}
    (hspot : Path.resolve s p = .ok (some ⟨place, .condition c⟩)) (h : Meets s p x) :
    ∃ v ∈ c.variants, Meets s (Path.enterCondition v.1 p) x := by
  rcases h.resolve_or_onward with ⟨hx, hcontrol⟩ | ⟨q, hmove, hmeets⟩
  · cases hspot.symm.trans hx
    cases hcontrol
  · cases hmove with
    | variant hspot' hv =>
      cases hspot.symm.trans hspot'
      exact ⟨_, hv, hmeets⟩
    | pass hspot' hcontrol =>
      cases hspot.symm.trans hspot'
      cases hcontrol
    | finished hspot' | branch hspot' | jump hspot' | block hspot' | exit hspot' =>
      cases hspot.symm.trans hspot'

theorem not_meets_of_finish {place : Place}
    (hspot : Path.resolve s p = .ok (some ⟨place, .finish⟩)) : ¬ Meets s p x := by
  intro h
  rcases h.resolve_or_onward with ⟨hx, hcontrol⟩ | ⟨q, hmove, -⟩
  · cases hspot.symm.trans hx
    cases hcontrol
  · cases hmove with
    | pass hspot' hcontrol =>
      cases hspot.symm.trans hspot'
      cases hcontrol
    | finished hspot' | branch hspot' | variant hspot' | jump hspot' | block hspot' | exit hspot' =>
      cases hspot.symm.trans hspot'

theorem not_meets_of_exit {place : Place} (hspot : Path.resolve s p = .ok (some ⟨place, .exit⟩))
    (hleave : Path.leave s p = none) : ¬ Meets s p x := by
  intro h
  rcases h.resolve_or_onward with ⟨hx, hcontrol⟩ | ⟨q, hmove, -⟩
  · cases hspot.symm.trans hx
    cases hcontrol
  · cases hmove with
    | exit _ hleave' => cases hleave.symm.trans hleave'
    | pass hspot' hcontrol =>
      cases hspot.symm.trans hspot'
      cases hcontrol
    | finished hspot' | branch hspot' | variant hspot' | jump hspot' | block hspot' =>
      cases hspot.symm.trans hspot'

theorem mem_ahead_of_meets (h : Meets s p x) :
    ∃ n, ∀ limits : ScanLimits, n ≤ limits.steps → n ≤ limits.depth → x ∈ ahead s limits p := by
  obtain ⟨n, hn⟩ := mem_visits_of_meets h
  refine ⟨n, fun limits hsteps hdepth => ?_⟩
  have hfound := hn limits.steps (limits.depth + 1) hsteps (Nat.le_succ_of_le hdepth)
  obtain ⟨q, -, hx, -⟩ := h
  refine mem_distinct hfound List.not_mem_nil fun y hy hplace => ?_
  obtain ⟨r, -, hy, -⟩ := meets_of_mem_visits hy
  exact Path.eq_of_resolve_place hx hy hplace

/-- One budget is enough for finitely many instructions. -/
theorem forall_mem_ahead_of_meets {l : List Spot} (h : ∀ x ∈ l, Meets s p x) :
    ∃ n, ∀ limits : ScanLimits, n ≤ limits.steps → n ≤ limits.depth →
      ∀ x ∈ l, x ∈ ahead s limits p := by
  induction l with
  | nil => exact ⟨0, fun _ _ _ => List.forall_mem_nil _⟩
  | cons x rest ih =>
    obtain ⟨hx, hrest⟩ := List.forall_mem_cons.mp h
    obtain ⟨n, hn⟩ := mem_ahead_of_meets hx
    obtain ⟨m, hm⟩ := ih hrest
    refine ⟨max n m, fun limits hsteps hdepth => ?_⟩
    obtain ⟨hnsteps, hmsteps⟩ := Nat.max_le.mp hsteps
    obtain ⟨hndepth, hmdepth⟩ := Nat.max_le.mp hdepth
    exact List.forall_mem_cons.mpr ⟨hn limits hnsteps hndepth, hm limits hmsteps hmdepth⟩

theorem meets_of_mem_ahead (h : x ∈ ahead s limits p) : Meets s p x :=
  meets_of_mem_visits (mem_of_mem_distinct h)

/-- An exit where no branch is open ends a scan, while play passes it by. -/
theorem ahead_of_exit {place : Place} (hspot : Path.resolve s p = .ok (some ⟨place, .exit⟩))
    (hleave : Path.leave s p = none) : ahead s limits p = [] :=
  List.eq_nil_iff_forall_not_mem.mpr fun _ h =>
    not_meets_of_exit hspot hleave (meets_of_mem_ahead h)

end Narrative.Scan
