import Mathlib.Data.List.Find
import Narrative.Proofs.Keyed
import Narrative.Stage

namespace Narrative

namespace Predicate

mutual

def keys : Predicate → List String
  | flag key _ => [key]
  | compare key _ _ => [key]
  | all parts => keysOfAll parts
  | any parts => keysOfAll parts
  | not part => keys part

def keysOfAll : List Predicate → List String
  | [] => []
  | p :: rest => keys p ++ keysOfAll rest

end

end Predicate

def Selector.keys : Selector → List String
  | flag key => [key]
  | number key => [key]
  | cases cs _ => cs.flatMap fun c => c.condition.keys

def Branch.keys {ι : Type} (b : Branch ι) : List String :=
  (b.active.toList ++ b.visible.toList).flatMap Predicate.keys

/-- The keys that an instruction asks the state about, those of the instructions inside it apart. -/
def Instruction.keys : Instruction → List String
  | .choice c => c.branches.flatMap Branch.keys
  | .condition c => c.selector.keys
  | _ => []

/-- Two states that read the same under some keys, as a flag and as a number. -/
structure PlayerState.Agree (on : String → Prop) (a b : PlayerState) : Prop where
  flag : ∀ key, on key → a.flag key = b.flag key
  number : ∀ key, on key → a.number key = b.number key

theorem PlayerState.get?_set (key k : String) (value : StateValue) (s : PlayerState) :
    (s.set key value).get? k = if key = k then some value else s.get? k :=
  Keyed.lookup_insert k key value s.values

namespace PlayerState.Agree

variable {on : String → Prop} {a b : PlayerState}

/-- A value that both states get under one key reads the same in both, whatever was there before. -/
theorem set (h : a.Agree on b) (key : String) (value : StateValue) :
    (a.set key value).Agree on (b.set key value) where
  flag k hk := by
    have hbefore := h.flag k hk
    rw [PlayerState.flag, PlayerState.flag, get?_set, get?_set]
    by_cases hkey : key = k
    · simp [hkey]
    · simpa [hkey, PlayerState.flag] using hbefore
  number k hk := by
    have hbefore := h.number k hk
    rw [PlayerState.number, PlayerState.number, get?_set, get?_set]
    by_cases hkey : key = k
    · simp [hkey]
    · simpa [hkey, PlayerState.number] using hbefore

theorem apply (h : a.Agree on b) (i : Instruction) : (a.apply i).Agree on (b.apply i) := by
  cases i with
  | setFlag key value => exact h.set key (.bool value)
  | setVar key value => exact h.set key (.int value)
  | _ => exact h

end PlayerState.Agree

namespace Predicate

variable {on : String → Prop} {a b : PlayerState}

mutual

theorem holds_congr (h : a.Agree on b) (p : Predicate) (hp : ∀ key ∈ p.keys, on key) :
    p.holds a = p.holds b := by
  cases p with
  | flag key isSet =>
    rw [holds, holds, h.flag key (hp key (by simp [keys]))]
  | compare key c value =>
    rw [holds, holds, h.number key (hp key (by simp [keys]))]
  | all parts =>
    rw [holds, holds]
    exact allHold_congr h parts fun key hkey => hp key (by rwa [keys])
  | any parts =>
    rw [holds, holds]
    exact anyHolds_congr h parts fun key hkey => hp key (by rwa [keys])
  | not part =>
    rw [holds, holds, holds_congr h part fun key hkey => hp key (by rwa [keys])]

theorem allHold_congr (h : a.Agree on b) (ps : List Predicate)
    (hps : ∀ key ∈ keysOfAll ps, on key) : allHold a ps = allHold b ps := by
  cases ps with
  | nil => rfl
  | cons p rest =>
    have hp : ∀ key ∈ p.keys, on key := fun key hkey => hps key (by simp [keysOfAll, hkey])
    have hrest : ∀ key ∈ keysOfAll rest, on key :=
      fun key hkey => hps key (by simp [keysOfAll, hkey])
    rw [allHold, allHold, holds_congr h p hp, allHold_congr h rest hrest]

theorem anyHolds_congr (h : a.Agree on b) (ps : List Predicate)
    (hps : ∀ key ∈ keysOfAll ps, on key) : anyHolds a ps = anyHolds b ps := by
  cases ps with
  | nil => rfl
  | cons p rest =>
    have hp : ∀ key ∈ p.keys, on key := fun key hkey => hps key (by simp [keysOfAll, hkey])
    have hrest : ∀ key ∈ keysOfAll rest, on key :=
      fun key hkey => hps key (by simp [keysOfAll, hkey])
    rw [anyHolds, anyHolds, holds_congr h p hp, anyHolds_congr h rest hrest]

end

end Predicate

variable {on : String → Prop} {a b : PlayerState}

theorem Selector.select_congr (h : a.Agree on b) (s : Selector) (hs : ∀ key ∈ s.keys, on key) :
    s.select a = s.select b := by
  cases s with
  | flag key => rw [select, select, h.flag key (hs key (by simp [keys]))]
  | number key => rw [select, select, h.number key (hs key (by simp [keys]))]
  | cases cs default =>
    have hfind : (cs.find? fun c => c.condition.holds a) =
        cs.find? fun c => c.condition.holds b := by
      refine List.find?_congr fun c hc => ?_
      refine c.condition.holds_congr h fun key hkey => hs key ?_
      exact List.mem_flatMap.mpr ⟨c, hc, hkey⟩
    rw [select, select, hfind]

theorem Predicate.all_holds_congr (h : a.Agree on b) {p : Option Predicate}
    (hp : ∀ key ∈ p.toList.flatMap keys, on key) :
    p.all (Predicate.holds a) = p.all (Predicate.holds b) := by
  cases p with
  | none => rfl
  | some p => exact p.holds_congr h fun key hkey => hp key (by simpa using hkey)

namespace Choice

variable {c : Choice Instruction}

theorem isVisible_congr (h : a.Agree on b) (hc : ∀ key ∈ (Instruction.choice c).keys, on key)
    {br : Branch Instruction} (hbr : br ∈ c.branches) : br.isVisible a = br.isVisible b := by
  refine Predicate.all_holds_congr h fun key hkey => hc key (List.mem_flatMap.mpr ⟨br, hbr, ?_⟩)
  rw [Branch.keys, List.flatMap_append]
  exact List.mem_append_right _ hkey

theorem isActive_congr (h : a.Agree on b) (hc : ∀ key ∈ (Instruction.choice c).keys, on key)
    {br : Branch Instruction} (hbr : br ∈ c.branches) : br.isActive a = br.isActive b := by
  refine Predicate.all_holds_congr h fun key hkey => hc key (List.mem_flatMap.mpr ⟨br, hbr, ?_⟩)
  rw [Branch.keys, List.flatMap_append]
  exact List.mem_append_left _ hkey

theorem offers_congr (h : a.Agree on b) (hc : ∀ key ∈ (Instruction.choice c).keys, on key)
    (index : Nat) : c.offers a index = c.offers b index := by
  rw [offers, offers]
  cases hbranch : c.branches[index]? with
  | none => rfl
  | some br =>
    have hbr := List.mem_of_getElem? hbranch
    simp only [isVisible_congr h hc hbr, isActive_congr h hc hbr]

theorem shown_congr (h : a.Agree on b) (hc : ∀ key ∈ (Instruction.choice c).keys, on key) :
    c.shown a = c.shown b := by
  refine List.filter_congr fun x hx => ?_
  exact isVisible_congr h hc (List.fst_mem_of_mem_zipIdx hx)

end Choice

theorem View.ofInstruction_congr (h : a.Agree on b) {i : Instruction}
    (hi : ∀ key ∈ i.keys, on key) : ofInstruction a i = ofInstruction b i := by
  cases i with
  | choice c => rw [ofInstruction, ofInstruction, Choice.shown_congr h hi]
  | showCharacter character emotion style => cases emotion <;> rfl
  | _ => rfl

end Narrative
