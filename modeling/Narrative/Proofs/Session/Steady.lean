import Narrative.Proofs.Session.Chronicle

namespace Narrative

/-- The path of a position leads somewhere in a script. -/
def Checkpoint.Leads (script : Script) (c : Checkpoint) : Prop :=
  ∃ (k : Stack) (log : List Spot), k.Stands script c.path log ∧ k.Settled

namespace Session

/-- Makes a move, or tells why not. It is no failure to be in no branch that could be left. -/
def attempt (s : Session) : Move → Except Failure Session
  | .advance => .ok s.advance
  | .choose branch => s.choose branch
  | .enterCondition => s.enterCondition.map Prod.fst
  | .enterBlock => s.enterBlock
  | .exitBranch => .ok (s.exitBranch.getD s)
  | .jump scene => s.jump scene

/-- The reasons to refuse a move: the instruction at hand is not of the kind it asks for, the branch is
not offered, or there is no such scene. -/
inductive Refuses (s : Session) : Move → Failure → Prop
  | noChoice {branch : UInt64} (hcurrent : ∀ c, s.current? ≠ some (.choice c)) :
    Refuses s (.choose branch) .notAtInstruction
  | notOffered {branch : UInt64} {c : Choice Instruction}
    (hcurrent : s.current? = some (.choice c))
    (hoffers : c.offers s.state branch.toNat = false) :
    Refuses s (.choose branch) (.invalidChoice branch)
  | noCondition (hcurrent : ∀ c, s.current? ≠ some (.condition c)) :
    Refuses s .enterCondition .notAtInstruction
  | noBlock (hcurrent : ∀ name, s.current? ≠ some (.block name)) :
    Refuses s .enterBlock .notAtInstruction
  | noScene {name : String} (hscene : s.script.scene? name = none) :
    Refuses s (.jump name)
      (.authoring (.unknownScene ((Path.scene? s.path).getD "") name))

variable {script : Script} {s s' t : Session} {c : Checkpoint} {m : Move} {f : Failure}

theorem attempt_eq_ok (h : s.attempt m = .ok s') : s' = s ∨ s.make? m = some s' := by
  cases m with
  | advance =>
    cases h
    exact .inr rfl
  | exitBranch =>
    rw [attempt] at h
    cases hexit : s.exitBranch with
    | none =>
      rw [hexit] at h
      cases h
      exact .inl rfl
    | some left =>
      rw [hexit] at h
      cases h
      exact .inr hexit
  | choose branch | enterCondition | enterBlock | jump name =>
    rw [attempt] at h
    refine .inr ?_
    rw [make?, h]
    rfl

theorem attempt_eq_error : s.attempt m = .error f ↔ s.Refuses m f := by
  constructor
  · intro h
    cases m with
    | advance | exitBranch => cases h
    | choose branch =>
      rw [attempt, choose] at h
      split at h
      · rename_i c hcurrent
        split at h
        · cases h
        · rename_i hoffers
          cases h
          exact .notOffered hcurrent (Bool.eq_false_iff.mpr hoffers)
      · rename_i hcurrent
        cases h
        exact .noChoice hcurrent
    | enterCondition =>
      rw [attempt, enterCondition] at h
      split at h
      · dsimp only at h
        split at h <;> cases h
      · rename_i hcurrent
        cases h
        exact .noCondition hcurrent
    | enterBlock =>
      rw [attempt, enterBlock] at h
      split at h
      · cases h
      · rename_i hcurrent
        cases h
        exact .noBlock hcurrent
    | jump name =>
      rw [attempt, jump] at h
      split at h
      · cases h
      · rename_i hscene
        cases h
        exact .noScene hscene
  · intro h
    cases h with
    | noChoice hcurrent =>
      rw [attempt, choose]
      split
      · rename_i c hchoice
        exact absurd hchoice (hcurrent c)
      · rfl
    | notOffered hcurrent hoffers =>
      rw [attempt, choose, hcurrent]
      dsimp only
      rw [hoffers, if_neg Bool.false_ne_true]
    | noCondition hcurrent =>
      rw [attempt, enterCondition]
      split
      · rename_i c hcondition
        exact absurd hcondition (hcurrent c)
      · rfl
    | noBlock hcurrent =>
      rw [attempt, enterBlock]
      split
      · rename_i name hblock
        exact absurd hblock (hcurrent name)
      · rfl
    | noScene hscene => rw [attempt, jump, hscene]

/-- A session of a script whose path leads somewhere, as does all it can go back to. -/
structure Steady (script : Script) (s : Session) : Prop where
  same : s.script = script
  leads : s.toCheckpoint.Leads script
  undo : ∀ c ∈ s.undo, c.Leads script

theorem Steady.follows (h : s.Steady script) : ∃ k log, s.Follows k log := by
  obtain ⟨rfl, ⟨k, log, hstands, hsettled⟩, -⟩ := h
  exact ⟨k, log, hstands, hsettled⟩

theorem Steady.start {name : String} {settings : Settings} (hs : script.Sound) :
    (Session.start name script settings).Steady script := by
  obtain ⟨opening, hopening⟩ := hs.opening
  have hfollows : (Session.start name script settings).Follows (.opened opening) [] :=
    .start hopening
  refine ⟨rfl, ⟨_, _, hfollows.stands, hfollows.settled⟩, ?_⟩
  intro c hc
  cases hc

/-- Only the path matters, and where it can go back to. -/
theorem Steady.congr (h : s.Steady script) (hscript : s'.script = s.script)
    (hpath : s'.path = s.path) (hundo : s'.undo = s.undo) : s'.Steady script := by
  obtain ⟨hsame, hleads, hpositions⟩ := h
  refine ⟨hscript.trans hsame, ?_, ?_⟩
  · rw [Checkpoint.Leads, hpath]
    exact hleads
  · rw [hundo]
    exact hpositions

theorem Steady.position (h : s.Steady script) (ha : script.Addressable) :
    ∃ spot, s.position = .ok spot := by
  obtain ⟨k, log, hfollows⟩ := h.follows
  exact ⟨_, hfollows.position (h.same ▸ ha)⟩

theorem Steady.make (h : s.Steady script) (hs : script.Sound) (ha : script.Addressable)
    (hmake : s.make? m = some s') : s'.Steady script := by
  obtain ⟨k, log, hfollows⟩ := h.follows
  obtain ⟨rfl, hleads, hpositions⟩ := h
  obtain ⟨hscript, -, -, hundo, -⟩ := make?_frame hmake
  obtain ⟨k', hfollows'⟩ := hfollows.made hs ha hmake
  refine ⟨hscript, ⟨k', _, hscript ▸ hfollows'.stands, hfollows'.settled⟩, ?_⟩
  intro c hc
  rw [hundo] at hc
  split at hc
  · rcases List.mem_cons.mp (List.mem_of_mem_take hc) with rfl | hc
    · exact hleads
    · exact hpositions c hc
  · exact hpositions c hc

theorem Steady.attempt (h : s.Steady script) (hs : script.Sound) (ha : script.Addressable)
    (hattempt : s.attempt m = .ok s') : s'.Steady script := by
  rcases attempt_eq_ok hattempt with rfl | hmake
  · exact h
  · exact h.make hs ha hmake

/-- A position that leads somewhere can be taken up, by any session of the script. -/
theorem Steady.adopt (h : s.Steady script) (hc : c.Leads script) :
    ∃ plan, s.adopt c = .ok ({ s with toCheckpoint := c, keep := plan.keep }, plan) := by
  obtain ⟨rfl, -, -⟩ := h
  obtain ⟨k, log, hstands, -⟩ := hc
  obtain ⟨entries, hentries, -⟩ := hstands.ofPath
  exact ⟨_, adopt_of_ofPath hentries⟩

theorem Steady.restore (h : s.Steady script) (hc : c.Leads script) :
    ∃ plan, s.restore c = .ok ({ s with toCheckpoint := c, keep := plan.keep, undo := [] }, plan) ∧
      { s with toCheckpoint := c, keep := plan.keep, undo := [] }.Steady script := by
  obtain ⟨plan, hadopt⟩ := h.adopt hc
  refine ⟨plan, ?_, h.same, hc, ?_⟩
  · rw [Session.restore, hadopt]
    rfl
  · intro c hnone
    cases hnone

theorem Steady.goBack (h : s.Steady script) :
    s.goBack.1.Steady script ∧ (s.goBack.2 = none ↔ s.undo = []) := by
  rw [Session.goBack]
  cases hundo : s.undo with
  | nil => exact ⟨h, fun _ => rfl, fun _ => rfl⟩
  | cons c rest =>
    have hrest : ∀ c ∈ rest, c.Leads script := fun c hc =>
      h.undo c (hundo ▸ List.mem_cons_of_mem _ hc)
    have hshort : { s with undo := rest }.Steady script := ⟨h.same, h.leads, hrest⟩
    have hc : c.Leads script := h.undo c (hundo ▸ List.mem_cons_self)
    obtain ⟨plan, hadopt⟩ := hshort.adopt hc
    dsimp only
    rw [hadopt]
    refine ⟨⟨h.same, hc, hrest⟩, ?_, ?_⟩
    · intro hnone
      cases hnone
    · intro hnil
      cases hnil

end Session

end Narrative
