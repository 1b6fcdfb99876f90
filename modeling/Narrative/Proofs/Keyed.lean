import Mathlib.Data.List.Sort
import Mathlib.Data.String.Basic
import Narrative.Keyed

namespace Narrative

/-- A value whose key is beyond all others goes to the end. -/
theorem Rising.place_append {α : Type} {key : α → String} {a : α} {values : List α}
    (h : ∀ b ∈ values, key b < key a) : place key a values = values ++ [a] := by
  induction values with
  | nil => rfl
  | cons b rest ih =>
    have hb : key b < key a := h b List.mem_cons_self
    have hrest := ih fun x hx => h x (List.mem_cons_of_mem _ hx)
    rw [place, if_neg (fun hlt => String.lt_irrefl _ (String.lt_trans hlt hb)),
      if_neg (fun heq => String.lt_irrefl _ (heq ▸ hb)), hrest, List.cons_append]

namespace Keyed

variable {α : Type} {key : String} {m : Keyed α} {a : α}

theorem lookup_cons (key k : String) (a : α) (rest : Keyed α) :
    lookup key ((k, a) :: rest) = if k = key then some a else lookup key rest := rfl

@[simp]
theorem lookup_insert (key k : String) (a : α) (m : Keyed α) :
    lookup key (insert k a m) = if k = key then some a else lookup key m := by
  induction m with
  | nil => rfl
  | cons p rest ih =>
    obtain ⟨k', b⟩ := p
    rw [insert, Rising.place]
    split
    · rw [lookup_cons]
    · split
      · rename_i heq
        have hk : k = k' := heq
        rw [lookup_cons, lookup_cons, hk]
        split <;> rfl
      · rename_i hne
        have hk : k ≠ k' := hne
        have hrest : lookup key (Rising.place Prod.fst (k, a) rest) =
            if k = key then some a else lookup key rest := ih
        rw [lookup_cons, lookup_cons, hrest]
        by_cases h' : k' = key
        · rw [if_pos h', if_pos h', if_neg fun h => hk (h.trans h'.symm)]
        · rw [if_neg h', if_neg h']

@[simp]
theorem lookup_erase (key k : String) (m : Keyed α) :
    lookup key (erase k m) = if k = key then none else lookup key m := by
  induction m with
  | nil => simp [erase, lookup]
  | cons p rest ih =>
    obtain ⟨k', b⟩ := p
    have hrest : lookup key (rest.filter (·.1 ≠ k)) =
        if k = key then none else lookup key rest := ih
    rw [erase, List.filter_cons]
    by_cases hk : k' = k
    · rw [if_neg (by simpa using hk), hrest, lookup_cons, hk]
      split <;> rfl
    · rw [if_pos (by simpa using hk), lookup_cons, lookup_cons, hrest]
      by_cases h' : k' = key
      · rw [if_pos h', if_pos h', if_neg fun h => hk (h'.trans h.symm)]
      · rw [if_neg h', if_neg h']

theorem mem_of_lookup (h : lookup key m = some a) : (key, a) ∈ m := by
  induction m with
  | nil => cases h
  | cons p rest ih =>
    obtain ⟨k, b⟩ := p
    rw [lookup] at h
    split at h
    · rename_i hk
      cases h
      cases hk
      exact List.mem_cons_self
    · exact List.mem_cons_of_mem _ (ih h)

theorem lookup_of_mem (hm : Ordered m) (h : (key, a) ∈ m) : lookup key m = some a := by
  induction m with
  | nil => cases h
  | cons p rest ih =>
    obtain ⟨hhead, hrest⟩ := List.pairwise_cons.mp hm
    rw [lookup]
    rcases List.mem_cons.mp h with rfl | h
    · exact if_pos rfl
    · have hlt := hhead _ h
      rw [if_neg hlt.ne]
      exact ih hrest h

/-- A first key of a map in order is found nowhere behind. -/
theorem lookup_tail (hm : Ordered ((key, a) :: m)) : lookup key m = none := by
  obtain ⟨hhead, -⟩ := List.pairwise_cons.mp hm
  cases h : lookup key m with
  | none => rfl
  | some b => exact absurd (hhead _ (mem_of_lookup h)) (String.lt_irrefl key)

/-- What is found in a union is found in the second map, and else in the first. -/
theorem lookup_union (key : String) (first : Keyed α) {second : Keyed α} (h : Ordered second) :
    lookup key (union first second) = (lookup key second).or (lookup key first) := by
  induction second generalizing first with
  | nil => rfl
  | cons p rest ih =>
    obtain ⟨k, a⟩ := p
    have hrest := ih (insert k a first) (List.pairwise_cons.mp h).2
    have hunion : union first ((k, a) :: rest) = union (insert k a first) rest := rfl
    rw [hunion, hrest, lookup_insert, lookup_cons]
    by_cases hk : k = key
    · subst hk
      rw [if_pos rfl, if_pos rfl, lookup_tail h]
      rfl
    · rw [if_neg hk, if_neg hk]

/-- The order leaves one map for what is found under each key. -/
theorem ext_lookup {m' : Keyed α} (hm : Ordered m) (hm' : Ordered m')
    (h : ∀ key, lookup key m = lookup key m') : m = m' := by
  have hmem (p : String × α) : p ∈ m ↔ p ∈ m' := by
    constructor
    · intro hp
      exact mem_of_lookup ((h p.1).symm.trans (lookup_of_mem hm hp))
    · intro hp
      exact mem_of_lookup ((h p.1).trans (lookup_of_mem hm' hp))
  have hirrefl : Std.Irrefl fun p q : String × α => p.1 < q.1 := ⟨fun _ => String.lt_irrefl _⟩
  have hantisymm : Std.Antisymm fun p q : String × α => p.1 < q.1 :=
    ⟨fun _ _ hlt hgt => absurd (String.lt_trans hlt hgt) (String.lt_irrefl _)⟩
  exact List.Pairwise.eq_of_mem_iff hm hm' hmem

theorem contains_congr {m' : Keyed α} (h : lookup key m = lookup key m') :
    contains key m = contains key m' := by
  rw [contains, contains, h]

theorem contains_of_lookup (h : lookup key m = some a) : contains key m = true := by
  rw [contains, h]
  rfl

theorem not_contains_of_lookup (h : lookup key m = none) : contains key m = false := by
  rw [contains, h]
  rfl

theorem insert_append {first rest : Keyed α} {p : String × α} (h : Ordered (first ++ p :: rest)) :
    insert p.1 p.2 first = first ++ [p] :=
  Rising.place_append fun x hx => (List.pairwise_append.mp h).2.2 x hx p List.mem_cons_self

theorem union_append {first second : Keyed α} (h : Ordered (first ++ second)) :
    union first second = first ++ second := by
  induction second generalizing first with
  | nil => rw [List.append_nil]; rfl
  | cons p rest ih =>
    have hplaced := insert_append h
    rw [List.append_cons] at h ⊢
    rw [← ih h, ← hplaced]
    rfl

theorem ofList_eq (h : Ordered m) : ofList m = m := @union_append _ [] m h

end Keyed

namespace NameSet

theorem mem_place (name x : String) (names : List String) :
    x ∈ Rising.place id name names ↔ x = name ∨ x ∈ names := by
  induction names with
  | nil => simp [Rising.place]
  | cons b rest ih =>
    rw [Rising.place]
    split
    · exact List.mem_cons
    · split
      · rename_i heq
        have hb : name = b := heq
        subst hb
        simp
      · rw [List.mem_cons, ih, List.mem_cons]
        tauto

@[simp] theorem contains_empty (x : String) : empty.contains x = false := rfl

@[simp] theorem contains_insert (name x : String) (s : NameSet) :
    (s.insert name).contains x = (decide (x = name) || s.contains x) := by
  have h := mem_place name x s.names
  rw [Bool.eq_iff_iff, Bool.or_eq_true, decide_eq_true_iff]
  simpa only [contains, insert, List.contains_iff_mem] using h

@[simp] theorem contains_filter (p : String → Bool) (x : String) (s : NameSet) :
    (s.filter p).contains x = (s.contains x && p x) := by
  rw [Bool.eq_iff_iff, Bool.and_eq_true]
  simp only [contains, filter, List.contains_iff_mem, List.mem_filter]

@[simp] theorem contains_erase (name x : String) (s : NameSet) :
    (s.erase name).contains x = (s.contains x && decide (x ≠ name)) :=
  contains_filter _ x s

theorem contains_foldl_insert (names : List String) (x : String) (s : NameSet) :
    (names.foldl (fun s n => s.insert n) s).contains x = (names.contains x || s.contains x) := by
  induction names generalizing s with
  | nil => rfl
  | cons n rest ih =>
    rw [List.foldl_cons, ih, contains_insert, List.contains_cons]
    by_cases h : x = n
    · simp [h]
    · have hne : (x == n) = false := by simp [h]
      simp [h, hne]

@[simp] theorem contains_ofList (names : List String) (x : String) :
    (ofList names).contains x = names.contains x := by
  rw [ofList, contains_foldl_insert, contains_empty, Bool.or_false]

/-- The order leaves one list for each set of members. -/
theorem ext_contains {s t : NameSet} (h : ∀ x, s.contains x = t.contains x) : s = t := by
  have hmem : ∀ x, x ∈ s.names ↔ x ∈ t.names := by
    intro x
    rw [← List.contains_iff_mem, ← List.contains_iff_mem]
    exact Bool.eq_iff_iff.mp (h x)
  have hnames : s.names = t.names := List.Pairwise.eq_of_mem_iff s.ordered t.ordered hmem
  cases s
  cases t
  subst hnames
  rfl

end NameSet

end Narrative
