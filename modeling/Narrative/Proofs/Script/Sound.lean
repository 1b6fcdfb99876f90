import Mathlib.Algebra.Group.Nat.Defs
import Narrative.Proofs.Keyed
import Narrative.Proofs.Outcome
import Narrative.Script.Basic
import Narrative.Script.Check

namespace Narrative

namespace Script

/-- The instruction lists of a script: its scenes, and the lists inside their instructions. -/
inductive Contains (s : Script) : List Instruction → Prop
  | scene {name : String} {body : List Instruction} (h : s.scene? name = some body) :
    s.Contains body
  | nested {body inner : List Instruction} {i : Instruction} {label : String}
    (h : s.Contains body) (hi : i ∈ body) (hn : (label, inner) ∈ i.nested) : s.Contains inner

/-- What an instruction leads to is there, and there is something to choose from. -/
def Targets (s : Script) : Instruction → Prop
  | .jump t => ∃ body, s.scene? t = some body
  | .block t => ∃ body, s.scene? t = some body ∧ body ≠ []
  | .choice c => c.branches ≠ []
  | .condition c => c.variants ≠ []
  | _ => True

structure Sound (s : Script) : Prop where
  start : ∃ body, s.scene? Path.startScene = some body
  targets : ∀ body, s.Contains body → ∀ i ∈ body, s.Targets i
  nested : ∀ body, s.Contains body → ∀ i ∈ body, ∀ p ∈ i.nested, p.2 ≠ []

/-- Every list is short enough for an index to stand behind it, as any list in memory is. -/
def Addressable (s : Script) : Prop := ∀ body, s.Contains body → body.length < 2 ^ 63

theorem Sound.opening {s : Script} (h : s.Sound) :
    ∃ opening, s.passage? Path.startScene = some opening := by
  obtain ⟨body, hbody⟩ := h.start
  rw [passage?, hbody]
  exact ⟨_, rfl⟩

end Script

namespace Draft

open Outcome

variable {d : Draft} {limits : Limits} {scene : String} {levels count total : Nat}
  {body : List Instruction}

theorem target_eq_ok {target : String} :
    d.target scene target = .ok body ↔ Keyed.lookup target d.scenes = some body := by
  rw [Draft.target]
  cases Keyed.lookup target d.scenes <;> simp

theorem checkAlone_eq_ok {i : Instruction} {n : Nat} :
    d.checkAlone limits scene count i = .ok n ↔
      n = count + 1 ∧ n ≤ limits.instructions ∧ i.textBytes ≤ limits.textLength ∧
        d.checkTargets scene i = .ok () := by
  rw [checkAlone]
  constructor
  · intro h
    split at h
    · cases h
    · rename_i hlimit
      dsimp only at h
      split at h
      · cases h
      · rename_i htexts
        obtain ⟨u, htargets, h⟩ := bind_eq_ok.mp h
        cases h
        exact ⟨rfl, by omega, by omega, htargets⟩
  · rintro ⟨rfl, hlimit, htexts, htargets⟩
    rw [if_neg (by omega)]
    dsimp only
    rw [if_neg (by omega), htargets]
    rfl

/-- Every instruction of a list is checked alone, and what is inside it one level deeper. -/
theorem checkList_inv (h : d.checkList limits scene levels count body = .ok total) :
    ∃ deeper, levels = deeper + 1 ∧ ∀ i ∈ body,
      (∃ n m, d.checkAlone limits scene n i = .ok m) ∧
        ∀ p ∈ i.nested, p.2 ≠ [] ∧
          ∃ n m, d.checkList limits scene deeper n p.2 = .ok m := by
  cases levels with
  | zero => cases h
  | succ deeper =>
    rw [checkList] at h
    refine ⟨deeper, rfl, ?_⟩
    intro i hi
    obtain ⟨n, m, hstep⟩ := foldlM_mem h i hi
    obtain ⟨n', halone, hnested⟩ := bind_eq_ok.mp hstep
    refine ⟨⟨n, n', halone⟩, ?_⟩
    intro p hp
    obtain ⟨n₂, m₂, hp⟩ := foldlM_mem hnested p hp
    split at hp
    · cases hp
    · rename_i hne
      exact ⟨by simpa using hne, n₂, m₂, hp⟩

/-- One instruction of a list, checked with all that is inside it. -/
theorem checkList_mem (h : d.checkList limits scene levels count body = .ok total) :
    ∀ i ∈ body, d.checkTargets scene i = .ok () ∧
      ∀ p ∈ i.nested, p.2 ≠ [] ∧
        ∃ levels n m, d.checkList limits scene levels n p.2 = .ok m := by
  obtain ⟨deeper, -, hall⟩ := checkList_inv h
  intro i hi
  obtain ⟨⟨n, m, halone⟩, hnested⟩ := hall i hi
  refine ⟨(checkAlone_eq_ok.mp halone).2.2.2, ?_⟩
  intro p hp
  obtain ⟨hne, hlist⟩ := hnested p hp
  exact ⟨hne, deeper, hlist⟩

/-- The instructions counted are at least those of the list, and no more than the limit. -/
theorem checkList_count (h : d.checkList limits scene levels count body = .ok total) :
    count + body.length ≤ total ∧ total ≤ max count limits.instructions := by
  induction levels generalizing count total body with
  | zero => cases h
  | succ levels ih =>
    rw [checkList] at h
    rw [← Nat.one_mul body.length]
    refine foldlM_between (fun n i m hstep => ?_) h
    obtain ⟨n', halone, hnested⟩ := bind_eq_ok.mp hstep
    obtain ⟨rfl, hlimit, -⟩ := checkAlone_eq_ok.mp halone
    have hbody : ∀ n₂ (p : String × List Instruction) m₂,
        (if p.2.isEmpty then .error (.authoring (.emptyBranch scene p.1))
          else d.checkList limits scene levels n₂ p.2) = .ok m₂ →
        n₂ + 0 ≤ m₂ ∧ m₂ ≤ max n₂ limits.instructions := by
      intro n₂ p m₂ hp
      split at hp
      · cases hp
      · have hlist := ih hp
        omega
    have hinner := foldlM_between hbody hnested
    omega

/-- The scenes are checked one after the other, with one count of instructions. -/
theorem compile_eq_ok_iff {s : Script} :
    d.compile limits = .ok s ↔
      s.scenes = d.scenes ∧ d.scenes.length ≤ limits.scenes ∧
        Keyed.contains Path.startScene d.scenes = true ∧
        ∃ total, d.scenes.foldlM (fun count scene =>
          d.checkList limits scene.1 (limits.nestingDepth + 1) count scene.2) 0 = .ok total := by
  rw [compile]
  constructor
  · intro h
    split at h
    · cases h
    · rename_i hmany
      dsimp only at h
      split at h
      · cases h
      · rename_i hstart
        obtain ⟨total, hfold, h⟩ := bind_eq_ok.mp h
        cases h
        exact ⟨rfl, by omega, by simpa using hstart, total, hfold⟩
  · rintro ⟨hscenes, hmany, hstart, total, hfold⟩
    rw [if_neg (by omega), hstart]
    dsimp only
    rw [if_neg (by decide)]
    cases s
    cases hscenes
    exact bind_eq_ok.mpr ⟨total, hfold, rfl⟩

theorem compile_eq_ok {s : Script} (h : d.compile limits = .ok s) :
    s.scenes = d.scenes ∧ Keyed.contains Path.startScene d.scenes = true ∧
      ∀ p ∈ d.scenes, ∃ n m,
        d.checkList limits p.1 (limits.nestingDepth + 1) n p.2 = .ok m := by
  obtain ⟨hscenes, -, hstart, total, hfold⟩ := compile_eq_ok_iff.mp h
  exact ⟨hscenes, hstart, foldlM_mem hfold⟩

/-- The check has been through every list of the script, however deep. -/
theorem checkList_of_contains {s : Script} (h : d.compile limits = .ok s) {body : List Instruction}
    (hbody : s.Contains body) :
    ∃ scene levels n m, d.checkList limits scene levels n body = .ok m := by
  induction hbody with
  | scene hname =>
    obtain ⟨hscenes, _, hchecked⟩ := compile_eq_ok h
    rw [Script.scene?, hscenes] at hname
    obtain ⟨n, m, hlist⟩ := hchecked _ (Keyed.mem_of_lookup hname)
    exact ⟨_, _, n, m, hlist⟩
  | nested _ hi hn ih =>
    obtain ⟨scene, levels, n, m, hlist⟩ := ih
    obtain ⟨_, levels', n', m', hinner⟩ := (checkList_mem hlist _ hi).2 _ hn
    exact ⟨scene, levels', n', m', hinner⟩

theorem targets_of_checkTargets {s : Script} (hscenes : s.scenes = d.scenes) {i : Instruction}
    (h : d.checkTargets scene i = .ok ()) : s.Targets i := by
  cases i with
  | jump t =>
    obtain ⟨body, htarget, _⟩ := bind_eq_ok.mp h
    refine ⟨body, ?_⟩
    rw [Script.scene?, hscenes]
    exact target_eq_ok.mp htarget
  | block t =>
    obtain ⟨body, htarget, hbody⟩ := bind_eq_ok.mp h
    refine ⟨body, ?_, ?_⟩
    · rw [Script.scene?, hscenes]
      exact target_eq_ok.mp htarget
    · rintro rfl
      cases hbody
  | choice c =>
    rw [checkTargets] at h
    intro hnone
    rw [hnone] at h
    cases h
  | condition c =>
    rw [checkTargets] at h
    intro hnone
    rw [hnone] at h
    cases h
  | _ => trivial

/-- Whatever an instruction of a checked script leads to is there and not empty. -/
theorem compile_sound {s : Script} (h : d.compile limits = .ok s) : s.Sound where
  start := by
    obtain ⟨hscenes, hstart, _⟩ := compile_eq_ok h
    rw [Script.scene?, hscenes]
    exact Option.isSome_iff_exists.mp hstart
  targets body hbody i hi := by
    obtain ⟨scene, levels, n, m, hlist⟩ := checkList_of_contains h hbody
    exact targets_of_checkTargets (compile_eq_ok h).1 (checkList_mem hlist i hi).1
  nested body hbody i hi p hp := by
    obtain ⟨scene, levels, n, m, hlist⟩ := checkList_of_contains h hbody
    exact ((checkList_mem hlist i hi).2 p hp).1

/-- A limit that fits into a word keeps every list short enough. -/
theorem compile_addressable {s : Script} (h : d.compile limits = .ok s)
    (hlimit : limits.instructions < 2 ^ 63) : s.Addressable := by
  intro body hbody
  obtain ⟨scene, levels, n, m, hlist⟩ := checkList_of_contains h hbody
  have hcount := checkList_count hlist
  omega

/-- A block with a choice in it, which is left by an exit or a jump. -/
def sample : Draft := .ofScenes [
  ("start", [.showCharacter "ava" none none, .block "room", .finish]),
  ("room", [.choice ⟨none, [⟨"Wait", [.exit], none, none, none, none⟩,
    ⟨"Leave", [.jump "start"], none, none, none, none⟩]⟩])]

theorem sample_compiles : sample.compile {} = .ok ⟨sample.scenes, sample.ordered⟩ := by
  rfl

end Draft

end Narrative
