import Narrative.Proofs.Script.Sound

namespace Narrative

namespace Instruction

mutual

/-- An instruction counts with all that are inside it. -/
def count : Instruction → Nat
  | choice ⟨_, branches⟩ => 1 + countBranches branches
  | condition ⟨_, variants⟩ => 1 + countLists variants
  | _ => 1

def countAll : List Instruction → Nat
  | [] => 0
  | i :: rest => count i + countAll rest

def countBranch : Branch Instruction → Nat
  | ⟨_, actions, _, _, _, _⟩ => countAll actions

def countBranches : List (Branch Instruction) → Nat
  | [] => 0
  | b :: rest => countBranch b + countBranches rest

def countLists : List (String × List Instruction) → Nat
  | [] => 0
  | (_, body) :: rest => countAll body + countLists rest

end

/-- The texts of an instruction keep to a bound, those of a custom action all together. -/
def TextsWithin (bound : Nat) : Instruction → Prop
  | dialogue d => d.text.utf8ByteSize ≤ bound
  | text t => t.utf8ByteSize ≤ bound
  | input question _ => question.utf8ByteSize ≤ bound
  | choice c => (∀ p ∈ c.prompt, p.utf8ByteSize ≤ bound) ∧
      ∀ b ∈ c.branches, b.label.utf8ByteSize ≤ bound
  | custom a => (String.join a.args).utf8ByteSize ≤ bound
  | _ => True

theorem countBranches_eq (branches : List (Branch Instruction)) :
    countBranches branches = countLists (branches.map fun b => (b.label, b.actions)) := by
  induction branches with
  | nil => rfl
  | cons b rest ih => rw [countBranches, ih, countBranch, List.map_cons, countLists]

theorem count_eq (i : Instruction) : i.count = 1 + countLists i.nested := by
  cases i with
  | choice c => rw [count, countBranches_eq, nested]
  | condition c => rw [count, nested]
  | _ => rfl

theorem countAll_eq (body : List Instruction) :
    countAll body = body.foldr (fun i n => i.count + n) 0 := by
  induction body with
  | nil => rfl
  | cons i rest ih => rw [countAll, List.foldr_cons, ih]

theorem countLists_eq (lists : List (String × List Instruction)) :
    countLists lists = lists.foldr (fun p n => countAll p.2 + n) 0 := by
  induction lists with
  | nil => rfl
  | cons p rest ih => rw [countLists, List.foldr_cons, ih]

theorem foldl_max_le {sizes : List Nat} {first bound : Nat} :
    sizes.foldl max first ≤ bound ↔ first ≤ bound ∧ ∀ n ∈ sizes, n ≤ bound := by
  induction sizes generalizing first with
  | nil => simp
  | cons n rest ih =>
    rw [List.foldl_cons, ih, Nat.max_le, List.forall_mem_cons, and_assoc]

theorem utf8ByteSize_join (texts : List String) :
    (String.join texts).utf8ByteSize = texts.foldr (fun s n => s.utf8ByteSize + n) 0 := by
  induction texts with
  | nil => rfl
  | cons s rest ih => rw [String.join_cons, String.utf8ByteSize_append, ih, List.foldr_cons]

theorem textBytes_le {i : Instruction} {bound : Nat} :
    i.textBytes ≤ bound ↔ i.TextsWithin bound := by
  cases i with
  | choice c =>
    rw [textBytes, TextsWithin, foldl_max_le]
    cases c.prompt <;> simp
  | custom a => rw [textBytes, TextsWithin, utf8ByteSize_join]
  | dialogue d | text t | input question target => exact Iff.rfl
  | _ => exact iff_of_true (Nat.zero_le bound) trivial

end Instruction

namespace Draft

/-- The script a draft would make. -/
def unchecked (d : Draft) : Script := ⟨d.scenes, d.ordered⟩

/-- The instruction lists of a draft with their depth. Those of scenes are not nested at all. -/
inductive Nests (d : Draft) : Nat → List Instruction → Prop
  | scene {name : String} {body : List Instruction} (h : (name, body) ∈ d.scenes) : d.Nests 0 body
  | inner {depth : Nat} {body inner : List Instruction} {i : Instruction} {label : String}
    (h : d.Nests depth body) (hi : i ∈ body) (hn : (label, inner) ∈ i.nested) :
    d.Nests (depth + 1) inner

structure WellFormed (limits : Limits) (d : Draft) : Prop where
  scenes : d.scenes.length ≤ limits.scenes
  start : Keyed.contains Path.startScene d.scenes = true
  instructions : Instruction.countLists d.scenes ≤ limits.instructions
  texts : ∀ depth body, d.Nests depth body → ∀ i ∈ body, i.TextsWithin limits.textLength
  targets : ∀ depth body, d.Nests depth body → ∀ i ∈ body, d.unchecked.Targets i
  filled : ∀ depth body, d.Nests (depth + 1) body → body ≠ []
  depth : ∀ depth body, d.Nests depth body → depth ≤ limits.nestingDepth

open Outcome Instruction

variable {d : Draft} {limits : Limits} {scene : String} {levels count total depth : Nat}
  {body : List Instruction}

theorem checkTargets_of_targets {i : Instruction} (h : d.unchecked.Targets i) :
    d.checkTargets scene i = .ok () := by
  cases i with
  | jump t =>
    obtain ⟨body, htarget⟩ := h
    exact bind_eq_ok.mpr ⟨body, target_eq_ok.mpr htarget, rfl⟩
  | block t =>
    obtain ⟨body, htarget, hbody⟩ := h
    have hfilled : body.isEmpty = false := by simpa using hbody
    refine bind_eq_ok.mpr ⟨body, target_eq_ok.mpr htarget, ?_⟩
    rw [hfilled]
    rfl
  | choice c =>
    have hsome : c.branches.isEmpty = false := by simpa [Script.Targets] using h
    rw [checkTargets, hsome]
    rfl
  | condition c =>
    have hsome : c.variants.isEmpty = false := by simpa [Script.Targets] using h
    rw [checkTargets, hsome]
    rfl
  | _ => rfl

/-- The count goes up by all instructions of the list, however deep. -/
theorem checkList_total (h : d.checkList limits scene levels count body = .ok total) :
    total = count + countAll body := by
  induction levels generalizing count total body with
  | zero => cases h
  | succ levels ih =>
    rw [checkList] at h
    rw [countAll_eq]
    refine foldlM_adds (fun n i m hstep => ?_) h
    obtain ⟨n', halone, hnested⟩ := bind_eq_ok.mp hstep
    obtain ⟨rfl, -⟩ := checkAlone_eq_ok.mp halone
    have hinner : m = n + 1 + countLists i.nested := by
      rw [countLists_eq]
      refine foldlM_adds (fun n₂ p m₂ hp => ?_) hnested
      split at hp
      · cases hp
      · exact ih hp
    rw [hinner, count_eq]
    omega

theorem checkList_of_nests (hd : d.WellFormed limits) (hbody : d.Nests depth body)
    (hlevels : depth + levels = limits.nestingDepth + 1)
    (hcount : count + countAll body ≤ limits.instructions) :
    d.checkList limits scene levels count body = .ok (count + countAll body) := by
  induction levels generalizing count depth body with
  | zero =>
    -- The levels run out only below the depth that a well-formed draft keeps to.
    have hdepth := hd.depth depth body hbody
    omega
  | succ levels ih =>
    rw [countAll_eq] at hcount ⊢
    rw [checkList]
    refine foldlM_within (fun i hi n hn => ?_) hcount
    rw [count_eq] at hn ⊢
    have halone : d.checkAlone limits scene n i = .ok (n + 1) :=
      checkAlone_eq_ok.mpr ⟨rfl, by omega, textBytes_le.mpr (hd.texts depth body hbody i hi),
        checkTargets_of_targets (hd.targets depth body hbody i hi)⟩
    rw [← Nat.add_assoc] at hn ⊢
    rw [halone, ok_bind]
    rw [countLists_eq] at hn ⊢
    refine foldlM_within (fun p hp m hm => ?_) hn
    have hinner : d.Nests (depth + 1) p.2 := hbody.inner hi hp
    have hfilled : p.2.isEmpty = false := by simpa using hd.filled depth p.2 hinner
    rw [hfilled, if_neg Bool.false_ne_true]
    exact ih hinner (by omega) hm

/-- The check has been through every list, at the depth it is nested. -/
theorem checkList_of_compile {s : Script} (h : d.compile limits = .ok s)
    (hbody : d.Nests depth body) :
    ∃ scene levels n m, depth + levels = limits.nestingDepth + 1 ∧
      d.checkList limits scene levels n body = .ok m := by
  induction hbody with
  | @scene name body hmem =>
    obtain ⟨-, -, hchecked⟩ := compile_eq_ok h
    obtain ⟨n, m, hlist⟩ := hchecked _ hmem
    exact ⟨name, _, n, m, Nat.zero_add _, hlist⟩
  | inner _ hi hn ih =>
    obtain ⟨scene, levels, n, m, hlevels, hlist⟩ := ih
    obtain ⟨deeper, rfl, hall⟩ := checkList_inv hlist
    obtain ⟨-, n', m', hinner⟩ := (hall _ hi).2 _ hn
    exact ⟨scene, deeper, n', m', by omega, hinner⟩

theorem wellFormed_of_compile {s : Script} (h : d.compile limits = .ok s) :
    d.WellFormed limits := by
  obtain ⟨hscenes, hmany, hstart, total, hfold⟩ := compile_eq_ok_iff.mp h
  have htotal : total = 0 + countLists d.scenes := by
    rw [countLists_eq]
    exact foldlM_adds (fun n p m hp => checkList_total hp) hfold
  have hwithin : 0 + 0 * d.scenes.length ≤ total ∧ total ≤ max 0 limits.instructions :=
    foldlM_between (fun n p m hp => by
      have hcount := checkList_count hp
      omega) hfold
  have halone : ∀ depth body, d.Nests depth body → ∀ i ∈ body,
      ∃ scene n m, d.checkAlone limits scene n i = .ok m := by
    intro depth body hbody i hi
    obtain ⟨scene, levels, n, m, -, hlist⟩ := checkList_of_compile h hbody
    obtain ⟨deeper, -, hall⟩ := checkList_inv hlist
    exact ⟨scene, (hall i hi).1⟩
  exact {
    scenes := hmany
    start := hstart
    instructions := by omega
    texts := by
      intro depth body hbody i hi
      obtain ⟨scene, n, m, hi⟩ := halone depth body hbody i hi
      obtain ⟨-, -, htexts, -⟩ := checkAlone_eq_ok.mp hi
      exact textBytes_le.mp htexts
    targets := by
      intro depth body hbody i hi
      obtain ⟨scene, n, m, hi⟩ := halone depth body hbody i hi
      obtain ⟨-, -, -, htargets⟩ := checkAlone_eq_ok.mp hi
      exact targets_of_checkTargets rfl htargets
    filled := by
      intro depth body hbody
      cases hbody with
      | inner houter hi hn =>
        obtain ⟨scene, levels, n, m, -, hlist⟩ := checkList_of_compile h houter
        obtain ⟨deeper, -, hall⟩ := checkList_inv hlist
        exact ((hall _ hi).2 _ hn).1
    depth := by
      intro depth body hbody
      obtain ⟨scene, levels, n, m, hlevels, hlist⟩ := checkList_of_compile h hbody
      obtain ⟨deeper, rfl, -⟩ := checkList_inv hlist
      omega }

theorem compile_of_wellFormed (hd : d.WellFormed limits) : d.compile limits = .ok d.unchecked := by
  refine compile_eq_ok_iff.mpr ⟨rfl, hd.scenes, hd.start, 0 + countLists d.scenes, ?_⟩
  have hcount : 0 + countLists d.scenes ≤ limits.instructions := by
    have hinstructions := hd.instructions
    omega
  rw [countLists_eq] at hcount ⊢
  refine foldlM_within (fun p hp n hn => ?_) hcount
  exact checkList_of_nests hd (.scene hp) (Nat.zero_add _) hn

/-- The check asks for just what makes a draft well formed, and changes nothing. -/
theorem compile_iff_wellFormed (d : Draft) (limits : Limits) (s : Script) :
    d.compile limits = .ok s ↔ d.WellFormed limits ∧ s.scenes = d.scenes := by
  constructor
  · intro h
    exact ⟨wellFormed_of_compile h, (compile_eq_ok h).1⟩
  · rintro ⟨hd, hscenes⟩
    have hsame : s = d.unchecked := by
      cases s
      cases hscenes
      rfl
    rw [hsame]
    exact compile_of_wellFormed hd

end Draft

end Narrative
