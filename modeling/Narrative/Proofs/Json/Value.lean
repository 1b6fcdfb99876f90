import Narrative.Proofs.Json.Array

namespace Narrative.Json

open Text

variable {w : Spacing} {level levels n : Nat} {j : Json} {items : List Json}
  {entries : List (String × Json)}

theorem itemsDepth_le : itemsDepth items ≤ n ↔ ∀ j ∈ items, j.depth ≤ n := by
  induction items with
  | nil => simp [itemsDepth]
  | cons j items ih => rw [itemsDepth, Nat.max_le, ih, List.forall_mem_cons]

theorem entriesDepth_le : entriesDepth entries ≤ n ↔ ∀ e ∈ entries, e.2.depth ≤ n := by
  induction entries with
  | nil => simp [entriesDepth]
  | cons e entries ih => rw [entriesDepth, Nat.max_le, ih, List.forall_mem_cons]

theorem depth_arr_le (h : (arr items).depth ≤ n) : ∃ m, n = m + 1 ∧ ∀ j ∈ items, j.depth ≤ m := by
  cases n with
  | zero => cases h
  | succ m => exact ⟨m, rfl, itemsDepth_le.mp (Nat.le_of_succ_le_succ h)⟩

theorem depth_obj_le (h : (obj entries).depth ≤ n) :
    ∃ m, n = m + 1 ∧ ∀ e ∈ entries, e.2.depth ≤ m := by
  cases n with
  | zero => cases h
  | succ m => exact ⟨m, rfl, entriesDepth_le.mp (Nat.le_of_succ_le_succ h)⟩

theorem depth_arr_le_succ (h : ∀ j ∈ items, j.depth ≤ n) : (arr items).depth ≤ n + 1 :=
  Nat.succ_le_succ (itemsDepth_le.mpr h)

theorem depth_obj_le_succ (h : ∀ e ∈ entries, e.2.depth ≤ n) : (obj entries).depth ≤ n + 1 :=
  Nat.succ_le_succ (entriesDepth_le.mpr h)

theorem depth_arr_lt (h : (arr items).depth ≤ n) : ∀ j ∈ items, j.depth < n := by
  obtain ⟨m, rfl, hitems⟩ := depth_arr_le h
  exact fun j hj => Nat.lt_succ_of_le (hitems j hj)

theorem depth_obj_lt (h : (obj entries).depth ≤ n) : ∀ e ∈ entries, e.2.depth < n := by
  obtain ⟨m, rfl, hentries⟩ := depth_obj_le h
  exact fun e he => Nat.lt_succ_of_le (hentries e he)

theorem depth_arr_le_of_subset {others : List Json} (hsubset : others ⊆ items)
    (h : (arr items).depth ≤ n) : (arr others).depth ≤ n := by
  obtain ⟨m, rfl, hitems⟩ := depth_arr_le h
  exact depth_arr_le_succ fun j hj => hitems j (hsubset hj)

theorem depth_obj_le_of_subset {others : List (String × Json)} (hsubset : others ⊆ entries)
    (h : (obj entries).depth ≤ n) : (obj others).depth ≤ n := by
  obtain ⟨m, rfl, hentries⟩ := depth_obj_le h
  exact depth_obj_le_succ fun e he => hentries e (hsubset he)

/-- Values all of whose numbers are integers that are read exactly. -/
inductive Writable : Json → Prop
  | null : Writable .null
  | bool (b : Bool) : Writable (.bool b)
  | int {n : Int} (h : Exact n) : Writable (.int n)
  | str (s : String) : Writable (.str s)
  | arr {items : List Json} (h : ∀ j ∈ items, Writable j) : Writable (.arr items)
  | obj {entries : List (String × Json)} (h : ∀ e ∈ entries, Writable e.2) : Writable (.obj entries)

/-- No value starts with a blank or a closing bracket, and only `null` with its first letter. -/
theorem Writable.head (h : Writable j) (w : Spacing) (level : Nat) :
    ∃ c s, write w level j = c :: s ∧ isBlank c = false ∧ c ≠ ']' ∧ (c = 'n' → j = .null) := by
  cases h with
  | null => exact ⟨'n', _, rfl, rfl, by decide, fun _ => rfl⟩
  | bool b => cases b <;> exact ⟨_, _, rfl, rfl, by decide, fun h => absurd h (by decide)⟩
  | @int n _ =>
    cases n with
    | ofNat n =>
      obtain ⟨c, ds, hdigits, hc⟩ := Decimal.exists_cons_digits n
      refine ⟨c, ds, hdigits, not_isBlank_of_isDigit hc, ?_, ?_⟩
      · rintro rfl
        exact absurd hc (by decide)
      · rintro rfl
        exact absurd hc (by decide)
    | negSucc n => exact ⟨'-', _, rfl, rfl, by decide, fun h => absurd h (by decide)⟩
  | str s => exact ⟨'"', _, rfl, rfl, by decide, fun h => absurd h (by decide)⟩
  | @arr items _ => cases items <;> exact ⟨'[', _, rfl, rfl, by decide, fun h => absurd h (by decide)⟩
  | @obj entries _ =>
    cases entries with
    | nil => exact ⟨'\x7b', _, rfl, rfl, by decide, fun h => absurd h (by decide)⟩
    | cons e entries => exact ⟨'\x7b', _, rfl, rfl, by decide, fun h => absurd h (by decide)⟩

theorem Writable.starts (h : Writable j) (w : Spacing) (level : Nat) : Starts (write w level j) := by
  obtain ⟨c, s, hwrite, hblank, hclose, -⟩ := h.head w level
  rw [hwrite]
  exact ⟨hblank, hclose⟩

theorem Writable.of_obj (h : Writable (.obj entries)) : ∀ e ∈ entries, e.2.Writable := by
  cases h with
  | obj h => exact h

/-- A reader that passes over the blanks before a value. -/
def Patient {α : Type} (read : Reader α) : Prop :=
  ∀ blanks, (∀ c ∈ blanks, isBlank c = true) → ∀ s, read (blanks ++ s) = read s

/-- The value of an entry, after its colon. -/
theorem takes_colon {α : Type} {read : Reader α} {written : List Char} {a : α} (hw : w.Blank)
    (hread : Patient read) (h : Takes read written a) :
    Takes (fun s => readColon s >>= read) (w.colon ++ written) a := by
  intro rest hends
  obtain ⟨blanks, hblanks, hcolon⟩ := readColon_colon hw (written ++ rest)
  dsimp only
  rw [List.append_assoc, hcolon, Outcome.ok_bind, hread blanks hblanks]
  exact h rest hends

theorem patient_readAt (inner : Option (Reader Json)) : Patient (readAt inner) := by
  intro blanks hblanks s
  unfold readAt
  rw [skipBlank_append hblanks]

theorem patient_read (levels : Nat) : Patient (read levels) := by
  cases levels with
  | zero => exact patient_readAt none
  | succ levels => exact patient_readAt (some (read levels))

theorem readAt_scalar {inner : Option (Reader Json)} {c : Char} (hblank : isBlank c = false)
    (hlist : c ≠ '[') (hobject : c ≠ '\x7b') (s : List Char) :
    readAt inner (c :: s) = readScalar (c :: s) := by
  unfold readAt
  rw [skipBlank_cons hblank]
  cases inner <;> simp [hlist, hobject]

theorem takes_int {n : Int} (h : Exact n) (inner : Option (Reader Json)) :
    Takes (readAt inner) (scalar (.int n)) (.int n) := by
  intro rest hends
  cases n with
  | ofNat n =>
    have hread := readNumber_nat h hends
    obtain ⟨c, ds, hdigits, hc⟩ := Decimal.exists_cons_digits n
    have hne (d : Char) (hd : Decimal.isDigit d = false) : c ≠ d := by
      rintro rfl
      rw [hc] at hd
      cases hd
    have hwritten : scalar (.int (.ofNat n)) = c :: ds := hdigits
    rw [hdigits, List.cons_append] at hread
    rw [hwritten, List.cons_append, readAt_scalar (not_isBlank_of_isDigit hc) (hne _ rfl) (hne _ rfl)]
    unfold readScalar
    simp [hc, hread, hne 'n' rfl, hne 't' rfl, hne 'f' rfl, hne '-' rfl, hne '"' rfl]
  | negSucc n =>
    have hwritten : scalar (.int (.negSucc n)) = '-' :: Decimal.digits (n + 1) := rfl
    rw [hwritten, List.cons_append, readAt_scalar rfl (by decide) (by decide), readScalar]
    exact readNumber_negSucc h hends

theorem takes_str (s : String) (inner : Option (Reader Json)) :
    Takes (readAt inner) (scalar (.str s)) (.str s) := by
  intro rest _
  obtain ⟨body, hbody, hread⟩ := readString_quoted s rest
  have hwritten : scalar (.str s) = quoted s := rfl
  rw [hwritten, hbody, readAt_scalar rfl (by decide) (by decide), readScalar, hread]
  rfl

theorem takesAll_entries {item : Reader Json} (hw : w.Blank) (hitem : Patient item)
    (h : ∀ e ∈ entries, Takes item (write w (level + 1) e.2) e.2) (acc : List (String × Json)) :
    TakesAll (fun acc key s => do
      let (j, s) ← item (← readColon s)
      .ok ((key, j) :: acc, s)) w level acc entries (entries.reverse ++ acc) := by
  induction entries generalizing acc with
  | nil => exact .nil
  | cons e entries ih =>
    obtain ⟨hfirst, hothers⟩ := List.forall_mem_cons.mp h
    rw [List.reverse_cons, List.append_assoc]
    refine .cons (fun rest hends => ?_) (ih hothers (e :: acc))
    have hvalue := takes_colon hw hitem hfirst rest hends
    dsimp only at hvalue ⊢
    rw [← bind_assoc, hvalue]
    rfl

theorem takes_arr {item : Reader Json} (hw : w.Blank)
    (h : ∀ j ∈ items, TakesItem w (level + 1) item j j) :
    Takes (readAt (some item)) (write w level (arr items)) (arr items) := by
  intro rest _
  obtain ⟨t, ht, hread⟩ := readItems_array hw (List.forall₂_same.mpr h) rest
  have hopen : readAt (some item) ('[' :: t) =
      readItems item (t.length + 1) true t >>= fun r => .ok (arr r.1, r.2) := rfl
  rw [ht, hopen, hread, Outcome.ok_bind]

theorem takes_obj {item : Reader Json} (hw : w.Blank) (hitem : Patient item)
    (h : ∀ e ∈ entries, Takes item (write w (level + 1) e.2) e.2) :
    Takes (readAt (some item)) (write w level (obj entries)) (obj entries) := by
  intro rest _
  obtain ⟨t, ht, hread⟩ := foldEntries_object hw (takesAll_entries hw hitem h []) rest
  rw [ht]
  change (foldEntries _ (t.length + 1) true [] t >>= fun r => .ok (obj r.1.reverse, r.2)) = _
  rw [hread, Outcome.ok_bind, List.append_nil, List.reverse_reverse]

theorem exists_read (levels : Nat) : ∃ inner, read levels = readAt inner := by
  cases levels with
  | zero => exact ⟨none, rfl⟩
  | succ levels => exact ⟨some (read levels), rfl⟩

/-- A value is read back as it was written. -/
theorem takes_write (hw : w.Blank) (h : Writable j) (hdepth : j.depth ≤ levels) :
    Takes (read levels) (write w level j) j := by
  induction levels using Nat.strongRecOn generalizing j level with
  | ind levels ih =>
    obtain ⟨inner, hread⟩ := exists_read levels
    cases h with
    | null =>
      rw [hread]
      exact fun _ _ => rfl
    | bool b =>
      rw [hread]
      cases b <;> exact fun _ _ => rfl
    | int h =>
      rw [hread]
      exact takes_int h inner
    | str s =>
      rw [hread]
      exact takes_str s inner
    | arr h =>
      obtain ⟨m, rfl, hitems⟩ := depth_arr_le hdepth
      exact takes_arr hw fun j hj =>
        ⟨(h j hj).starts w _, ih m (Nat.lt_succ_self m) (h j hj) (hitems j hj)⟩
    | obj h =>
      obtain ⟨m, rfl, hentries⟩ := depth_obj_le hdepth
      exact takes_obj hw (patient_read m) fun e he =>
        ih m (Nat.lt_succ_self m) (h e he) (hentries e he)

theorem ofText_write (hw : w.Blank) (h : Writable j) (hdepth : j.depth ≤ maxLevels) :
    ofText (String.ofList (write w 0 j)) = .ok j := by
  have hread : read maxLevels (write w 0 j ++ []) = .ok (j, []) := takes_write hw h hdepth [] trivial
  rw [List.append_nil] at hread
  rw [ofText, String.toList_ofList, hread]
  rfl

/-- Different values are written differently, whatever their depth. -/
theorem eq_of_write_eq {k : Json} (hw : w.Blank) (hj : j.Writable) (hk : k.Writable)
    (h : write w level j = write w level k) : j = k := by
  have hleft : read (max j.depth k.depth) (write w level j ++ []) = .ok (j, []) :=
    takes_write hw hj (Nat.le_max_left _ _) [] trivial
  have hright : read (max j.depth k.depth) (write w level k ++ []) = .ok (k, []) :=
    takes_write hw hk (Nat.le_max_right _ _) [] trivial
  rw [h, hright] at hleft
  cases hleft
  rfl

end Narrative.Json
