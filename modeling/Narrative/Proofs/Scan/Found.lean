import Narrative.Proofs.Scan

namespace Narrative

/-- The instruction at a place. -/
def Script.instruction? (s : Script) (place : Place) : Option Instruction :=
  (s.listAt? place.address.scene place.address.turns).bind (·[place.index]?)

namespace Scan

variable {s : Script} {p q : Path} {x : Spot} {n m steps steps' levels levels' : Nat}
  {limits limits' : ScanLimits} {deeper deeper' : Path → List Spot}

theorem place_not_mem_seen {seen : List Place} {l : List Spot} (h : x ∈ distinct seen l) :
    x.place ∉ seen := by
  induction l generalizing seen with
  | nil => cases h
  | cons y rest ih =>
    rw [distinct] at h
    split at h
    · exact ih h
    · rename_i hfresh
      rcases List.mem_cons.mp h with rfl | h
      · exact hfresh
      · have hnot := ih h
        intro hseen
        exact hnot (List.mem_cons_of_mem _ hseen)

theorem nodup_distinct (seen : List Place) (l : List Spot) :
    ((distinct seen l).map Spot.place).Nodup := by
  induction l generalizing seen with
  | nil => exact List.nodup_nil
  | cons y rest ih =>
    rw [distinct]
    split
    · exact ih seen
    · rw [List.map_cons, List.nodup_cons]
      refine ⟨?_, ih (y.place :: seen)⟩
      intro hmem
      obtain ⟨x, hx, hplace⟩ := List.mem_map.mp hmem
      have hnot := place_not_mem_seen hx
      apply hnot
      rw [hplace]
      exact List.mem_cons_self

/-- What stands at one place is one instruction, so nothing is lost by listing it once. -/
theorem mem_ahead_iff :
    x ∈ ahead s limits p ↔ x ∈ visits s limits.steps (limits.depth + 1) p := by
  constructor
  · exact mem_of_mem_distinct
  · intro h
    obtain ⟨q, -, hx, -⟩ := meets_of_mem_visits h
    apply mem_distinct h List.not_mem_nil
    intro y hy hplace
    obtain ⟨r, -, hy, -⟩ := meets_of_mem_visits hy
    exact Path.eq_of_resolve_place hx hy hplace

theorem Onward.resolve (hmove : Onward s p q) : ∃ found, Path.resolve s p = .ok found := by
  cases hmove with
  | finished hend => exact ⟨_, hend⟩
  | branch hspot | variant hspot | jump hspot | block hspot | exit hspot | pass hspot =>
    exact ⟨_, hspot⟩

theorem ahead_of_error {fault : PathFault} (h : Path.resolve s p = .error fault) :
    ahead s limits p = [] := by
  apply List.eq_nil_iff_forall_not_mem.mpr
  intro x hx
  rcases (meets_of_mem_ahead hx).resolve_or_onward with ⟨hspot, -⟩ | ⟨q, hmove, -⟩
  · cases h.symm.trans hspot
  · obtain ⟨found, hfound⟩ := hmove.resolve
    cases h.symm.trans hfound

/-- No move leads past the end of the story, or past what the player is asked for unless it is a
branch. -/
theorem Onward.passes (hmove : Onward s p q) (hspot : Path.resolve s p = .ok (some x)) :
    x.instruction ≠ .finish ∧
      (x.instruction.isBlocking = true → ∃ c, x.instruction = .choice c) := by
  cases hmove with
  | finished hend => cases hspot.symm.trans hend
  | @branch place c b hfound hb =>
    cases hspot.symm.trans hfound
    exact ⟨by simp, fun _ => ⟨c, rfl⟩⟩
  | variant hfound | jump hfound | block hfound | exit hfound =>
    cases hspot.symm.trans hfound
    refine ⟨by simp, fun hblocking => ?_⟩
    cases hblocking
  | pass hfound hcontrol hblocking =>
    cases hspot.symm.trans hfound
    constructor
    · intro hfinish
      rw [hfinish] at hcontrol
      cases hcontrol
    · intro hasks
      cases hblocking.symm.trans hasks

theorem behind_of_le (hdeeper : x ∈ deeper q → x ∈ deeper' q)
    (halong : x ∈ along s deeper n q → x ∈ along s deeper' m q)
    (h : x ∈ behind s deeper n p q) : x ∈ behind s deeper' m p q := by
  revert h
  rw [behind, behind]
  split
  · exact hdeeper
  · exact hdeeper
  · exact halong

/-- With more steps, and branches followed further, nothing that was found is lost. -/
theorem mem_along_of_le (hdeeper : ∀ q, x ∈ deeper q → x ∈ deeper' q) (hle : n ≤ m)
    (h : x ∈ along s deeper n p) : x ∈ along s deeper' m p := by
  -- The steps of one passage; what its branches find is `hdeeper`, from the induction on the levels.
  induction n generalizing m p with
  | zero => cases h
  | succ n ih =>
    cases m with
    | zero => cases hle
    | succ m =>
      rcases of_mem_along h with ⟨hspot, hcontrol⟩ | ⟨q, hmove, hx⟩
      · exact mem_along_of_resolve hspot hcontrol
      · have halong : x ∈ along s deeper n q → x ∈ along s deeper' m q :=
          ih (Nat.le_of_succ_le_succ hle)
        exact mem_along_of_onward hmove (behind_of_le (hdeeper q) halong hx)

theorem mem_visits_of_le (hsteps : steps ≤ steps') (hlevels : levels ≤ levels')
    (h : x ∈ visits s steps levels p) : x ∈ visits s steps' levels' p := by
  induction levels generalizing levels' p with
  | zero => cases h
  | succ levels ih =>
    cases levels' with
    | zero => cases hlevels
    | succ levels' =>
      apply mem_along_of_le _ hsteps h
      intro q hq
      exact ih (Nat.le_of_succ_le_succ hlevels) hq

/-- A scan lists no instruction twice, and of those that the script has only such as its moves lead to.
No move leads past the end of the story, or past what the player is asked for unless it is a branch. From
a path that leads nowhere nothing is listed. -/
theorem found_once (s : Script) (limits : ScanLimits) (p : Path) :
    ((ahead s limits p).map Spot.place).Nodup ∧
    (∀ x ∈ ahead s limits p, s.instruction? x.place = some x.instruction ∧
      ∃ q, Relation.ReflTransGen (Onward s) p q ∧ Path.resolve s q = .ok (some x)) ∧
    (∀ q r x, Onward s q r → Path.resolve s q = .ok (some x) →
      x.instruction ≠ .finish ∧
        (x.instruction.isBlocking = true → ∃ c, x.instruction = .choice c)) ∧
    ∀ fault, Path.resolve s p = .error fault → ahead s limits p = [] := by
  refine ⟨nodup_distinct [] _, ?_, ?_, ?_⟩
  · intro x hx
    obtain ⟨q, hchain, hspot, -⟩ := meets_of_mem_ahead hx
    exact ⟨Path.listAt?_of_resolve hspot, q, hchain, hspot⟩
  · intro q r x hmove hspot
    exact hmove.passes hspot
  · intro fault hfault
    exact ahead_of_error hfault

/-- From where she is shown, the choice in the room is listed once, though one of its branches leads back
to it. -/
theorem found_once_sample :
    let script : Script := ⟨Draft.sample.scenes, Draft.sample.ordered⟩
    let p : Path := [.jump "start", .index 0]
    let choice : Path := [.jump "start", .index 1, .enterBlock "room", .index 0]
    let listed := ahead script ⟨8, 2⟩ p
    listed.map (fun x => x.instruction.name) = ["show_character", "choice"] ∧
    (listed.map Spot.place).Nodup ∧
    (∃ x ∈ listed, x.instruction.name = "choice" ∧
      ∃ q, Relation.ReflTransGen (Onward script) p q ∧ Path.resolve script q = .ok (some x)) ∧
    (∃ r x, Onward script choice r ∧ Path.resolve script choice = .ok (some x) ∧
      x.instruction.isBlocking = true ∧ ∃ c, x.instruction = .choice c) ∧
    Path.resolve script [.exit .block] = .error (.unbalancedExit 0) ∧
    ahead script ⟨8, 2⟩ [.exit .block] = [] := by
  intro script p choice listed
  obtain ⟨hnodup, hreached, hpasses, -⟩ := found_once script ⟨8, 2⟩ p
  have hnames : listed.map (fun x => x.instruction.name) = ["show_character", "choice"] := by
    decide
  have hlast : "choice" ∈ listed.map (fun x => x.instruction.name) := by
    rw [hnames]
    decide
  obtain ⟨x, hx, hname⟩ := List.mem_map.mp hlast
  obtain ⟨place, c, hspot, hb⟩ :
      ∃ place c, Path.resolve script choice = .ok (some ⟨place, .choice c⟩) ∧
        1 < c.branches.length := ⟨_, _, rfl, by decide⟩
  have hmove := Onward.branch hspot hb
  have hlost : Path.resolve script [.exit .block] = .error (.unbalancedExit 0) := rfl
  obtain ⟨-, -, -, hnothing⟩ := found_once script ⟨8, 2⟩ [.exit .block]
  refine ⟨hnames, hnodup, ⟨x, hx, hname, (hreached x hx).2⟩, ?_, hlost, hnothing _ hlost⟩
  exact ⟨_, _, hmove, hspot, rfl, (hpasses _ _ _ hmove hspot).2 rfl⟩

/-- More steps and more levels lose nothing, wherever they were used up before. -/
theorem ahead_subset (s : Script) (p : Path) (hsteps : limits.steps ≤ limits'.steps)
    (hdepth : limits.depth ≤ limits'.depth) : ahead s limits p ⊆ ahead s limits' p := by
  intro x hx
  rw [mem_ahead_iff] at hx ⊢
  exact mem_visits_of_le hsteps (Nat.succ_le_succ hdepth) hx

/-- What three steps find without going into a branch is found as well with a step and a level more. -/
theorem ahead_subset_sample :
    let script : Script := ⟨Draft.sample.scenes, Draft.sample.ordered⟩
    let p : Path := [.jump "start", .index 0]
    let few : ScanLimits := ⟨3, 0⟩
    let more : ScanLimits := ⟨4, 1⟩
    few.steps ≤ more.steps ∧ few.depth ≤ more.depth ∧
    (ahead script few p).map (fun x => x.instruction.name) = ["show_character", "choice"] ∧
    ahead script few p ⊆ ahead script more p := by
  intro script p few more
  exact ⟨by decide, by decide, by decide, ahead_subset script p (by decide) (by decide)⟩

end Scan

end Narrative
