namespace Narrative

namespace Rising

variable {α : Type}

/-- Every value has a greater key than those before it. -/
def Ordered (key : α → String) (values : List α) : Prop := values.Pairwise fun a b => key a < key b

/-- Puts a value where its key belongs. A value of the same key is replaced. -/
def place (key : α → String) (a : α) : List α → List α
  | [] => [a]
  | b :: rest =>
    if key a < key b then a :: b :: rest
    else if key a = key b then a :: rest
    else b :: place key a rest

theorem eq_or_mem_of_mem_place {key : α → String} {a x : α} {values : List α}
    (h : x ∈ place key a values) : x = a ∨ x ∈ values := by
  induction values with
  | nil => exact .inl (List.mem_singleton.mp h)
  | cons b rest ih =>
    rw [place] at h
    split at h
    · exact List.mem_cons.mp h
    · split at h
      · exact (List.mem_cons.mp h).imp_right fun h => List.mem_cons_of_mem _ h
      · rcases List.mem_cons.mp h with rfl | h
        · exact .inr List.mem_cons_self
        · exact (ih h).imp_right fun h => List.mem_cons_of_mem _ h

theorem ordered_place {key : α → String} (a : α) {values : List α} (h : Ordered key values) :
    Ordered key (place key a values) := by
  induction values with
  | nil => exact .cons (fun _ h => nomatch h) .nil
  | cons b rest ih =>
    obtain ⟨hhead, hrest⟩ := List.pairwise_cons.mp h
    rw [place]
    split
    · rename_i hlt
      refine .cons (fun x hx => ?_) h
      rcases List.mem_cons.mp hx with rfl | hx
      · exact hlt
      · exact String.lt_trans hlt (hhead x hx)
    · rename_i hnot
      split
      · rename_i heq
        exact .cons (fun x hx => heq ▸ hhead x hx) hrest
      · rename_i hne
        refine .cons (fun x hx => ?_) (ih hrest)
        rcases eq_or_mem_of_mem_place hx with rfl | hx
        · exact String.not_le.mp fun hle =>
            hne (String.le_antisymm hle (String.not_lt.mp hnot))
        · exact hhead x hx

end Rising

/-- Pairs in rising key order. -/
abbrev Keyed (α : Type) := List (String × α)

namespace Keyed

variable {α : Type}

abbrev Ordered (m : Keyed α) : Prop := Rising.Ordered Prod.fst m

def lookup (key : String) : Keyed α → Option α
  | [] => none
  | (k, a) :: rest => if k = key then some a else lookup key rest

def contains (key : String) (m : Keyed α) : Bool := (lookup key m).isSome

/-- A key that is already there gets the new value. -/
def insert (key : String) (value : α) (m : Keyed α) : Keyed α := Rising.place Prod.fst (key, value) m

def erase (key : String) (m : Keyed α) : Keyed α := m.filter (·.1 ≠ key)

/-- Adds every pair of the second map to the first; where both have a key the second wins. -/
def union (first second : Keyed α) : Keyed α :=
  second.foldl (fun m p => insert p.1 p.2 m) first

/-- Of several values for one key the last wins. -/
def ofList (pairs : List (String × α)) : Keyed α := union [] pairs

def keys (m : Keyed α) : List String := m.map Prod.fst

theorem ordered_insert (key : String) (value : α) {m : Keyed α} (h : Ordered m) :
    Ordered (insert key value m) := Rising.ordered_place _ h

theorem ordered_erase (key : String) {m : Keyed α} (h : Ordered m) : Ordered (erase key m) :=
  h.filter _

theorem ordered_union {first : Keyed α} (second : Keyed α) (h : Ordered first) :
    Ordered (union first second) := by
  induction second generalizing first with
  | nil => exact h
  | cons p rest ih => exact ih (ordered_insert p.1 p.2 h)

theorem ordered_ofList (pairs : List (String × α)) : Ordered (ofList pairs) :=
  ordered_union pairs .nil

end Keyed

/-- Names in rising order, each once. -/
structure NameSet where
  names : List String
  ordered : Rising.Ordered id names
  deriving DecidableEq, Repr

namespace NameSet

def empty : NameSet := ⟨[], .nil⟩

def insert (name : String) (s : NameSet) : NameSet :=
  ⟨Rising.place id name s.names, Rising.ordered_place name s.ordered⟩

def filter (p : String → Bool) (s : NameSet) : NameSet := ⟨s.names.filter p, s.ordered.filter p⟩

def erase (name : String) (s : NameSet) : NameSet := s.filter (· ≠ name)

def contains (s : NameSet) (name : String) : Bool := s.names.contains name

def ofList (names : List String) : NameSet := names.foldl (fun s n => insert n s) empty

end NameSet

end Narrative
