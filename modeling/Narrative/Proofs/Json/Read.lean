import Mathlib.Data.List.DropRight
import Narrative.Proofs.Json.Object

namespace Narrative.Json

open Text

variable {s rest : List Char} {j : Json}

/-- What a scalar is read from: its first character tells which it is. -/
inductive ScalarAt : List Char → Json → List Char → Prop
  | null {r rest : List Char} (h : readWord ['u', 'l', 'l'] r = .ok rest) : ScalarAt ('n' :: r) .null rest
  | true {r rest : List Char} (h : readWord ['r', 'u', 'e'] r = .ok rest) :
    ScalarAt ('t' :: r) (.bool true) rest
  | false {r rest : List Char} (h : readWord ['a', 'l', 's', 'e'] r = .ok rest) :
    ScalarAt ('f' :: r) (.bool false) rest
  | str {r rest : List Char} {t : String} (h : readString r = .ok (t, rest)) :
    ScalarAt ('"' :: r) (.str t) rest
  | negative {r rest : List Char} {j : Json} (h : readNumber true r = .ok (j, rest)) :
    ScalarAt ('-' :: r) j rest
  | number {c : Char} {r rest : List Char} {j : Json} (hdigit : Decimal.isDigit c = true)
    (h : readNumber false (c :: r) = .ok (j, rest)) : ScalarAt (c :: r) j rest

theorem scalarAt_of_readScalar (h : readScalar s = .ok (j, rest)) : ScalarAt s j rest := by
  unfold readScalar at h
  split at h
  · cases h
  · obtain ⟨after, hword, h⟩ := Outcome.bind_eq_ok.mp h
    cases h
    exact .null hword
  · obtain ⟨after, hword, h⟩ := Outcome.bind_eq_ok.mp h
    cases h
    exact .true hword
  · obtain ⟨after, hword, h⟩ := Outcome.bind_eq_ok.mp h
    cases h
    exact .false hword
  · exact .negative h
  · obtain ⟨⟨t, after⟩, hstring, h⟩ := Outcome.bind_eq_ok.mp h
    cases h
    exact .str hstring
  · split at h
    · rename_i hdigit
      exact .number hdigit h
    · cases h

theorem ne_of_isDigit {c d : Char} (hc : Decimal.isDigit c = true) (hd : Decimal.isDigit d = false) :
    c ≠ d := by
  rintro rfl
  rw [hc] at hd
  cases hd

theorem ScalarAt.head (h : ScalarAt s j rest) : ∃ c r, s = c :: r ∧ c ≠ '[' ∧ c ≠ '\x7b' := by
  cases h with
  | null | true | false | str | negative => exact ⟨_, _, rfl, by decide, by decide⟩
  | number hdigit => exact ⟨_, _, rfl, ne_of_isDigit hdigit rfl, ne_of_isDigit hdigit rfl⟩

theorem skipBlank_length (s : List Char) : (skipBlank s).length ≤ s.length :=
  (List.dropWhile_sublist _).length_le

theorem skipBlank_skipBlank (s : List Char) : skipBlank (skipBlank s) = skipBlank s :=
  List.dropWhile_idempotent isBlank s

/-- Where the next item starts: behind a comma, but for the first. -/
theorem nextItem_eq_some {first : Bool} {start : List Char} (h : nextItem first s = .ok (some start)) :
    ∃ c r, skipBlank s = c :: r ∧ c ≠ ']' ∧
      (first = true ∧ start = c :: r ∨ first = false ∧ c = ',' ∧ start = skipBlank r) := by
  unfold nextItem at h
  split at h
  · cases h
  · cases h
  · rename_i c r hclose hs
    refine ⟨c, r, hs, by simpa using hclose, ?_⟩
    cases first with
    | true =>
      cases h
      exact .inl ⟨rfl, rfl⟩
    | false =>
      rw [if_neg Bool.false_ne_true] at h
      split at h
      · rename_i hcomma
        refine .inr ⟨rfl, hcomma, ?_⟩
        split at h
        · cases h
        · cases h
        · cases h
          rfl
      · cases h

theorem nextItem_eq_none {first : Bool} (h : nextItem first s = .ok none) :
    ∃ r, skipBlank s = ']' :: r := by
  unfold nextItem at h
  split at h
  · cases h
  · rename_i r hs
    exact ⟨r, hs⟩
  · split at h
    · cases h
    · split at h
      · split at h <;> cases h
      · cases h

/-- An array is closed where no item follows, and nowhere else. -/
theorem closeArray_of_nextItem {first : Bool} {next : Option (List Char)}
    (h : nextItem first s = .ok next) :
    (next = none ∧ closeArray s = .ok ((skipBlank s).drop 1)) ∨
      (next ≠ none ∧ ∃ fault, closeArray s = .error fault) := by
  cases next with
  | none =>
    obtain ⟨r, hs⟩ := nextItem_eq_none h
    refine .inl ⟨rfl, ?_⟩
    rw [closeArray, hs]
    rfl
  | some start =>
    obtain ⟨c, r, hs, hclose, -⟩ := nextItem_eq_some h
    refine .inr ⟨by simp, ?_⟩
    unfold closeArray
    split
    · exact ⟨_, rfl⟩
    · rename_i hs'
      rw [hs] at hs'
      exact absurd (List.cons.inj hs').1 hclose
    · split <;> exact ⟨_, rfl⟩
    · exact ⟨_, rfl⟩

theorem nextKey_eq_some {first : Bool} {key : String} {colon : List Char}
    (h : nextKey first s = .ok (some (key, colon))) :
    ∃ c r t, skipBlank s = c :: r ∧ c ≠ '\x7d' ∧ readString t = .ok (key, colon) ∧
      (first = true ∧ c :: r = '"' :: t ∨ first = false ∧ c = ',' ∧ skipBlank r = '"' :: t) := by
  unfold nextKey at h
  extract_lets read at h
  have hread (s : List Char) (hs : read s = .ok (some (key, colon))) :
      ∃ t, s = '"' :: t ∧ readString t = .ok (key, colon) := by
    unfold read at hs
    split at hs
    · obtain ⟨found, hstring, hs⟩ := Outcome.bind_eq_ok.mp hs
      cases hs
      exact ⟨_, rfl, hstring⟩
    · cases hs
  split at h
  · cases h
  · cases h
  · rename_i c r hclose hs
    cases first with
    | true =>
      obtain ⟨t, ht, hstring⟩ := hread _ h
      exact ⟨c, r, t, hs, by simpa using hclose, hstring, .inl ⟨rfl, ht⟩⟩
    | false =>
      rw [if_neg Bool.false_ne_true] at h
      split at h
      · rename_i hcomma
        split at h
        · cases h
        · cases h
        · obtain ⟨t, ht, hstring⟩ := hread _ h
          exact ⟨c, r, t, hs, by simpa using hclose, hstring, .inr ⟨rfl, hcomma, ht⟩⟩
      · cases h

theorem nextKey_eq_none {first : Bool} (h : nextKey first s = .ok none) :
    ∃ r, skipBlank s = '\x7d' :: r := by
  unfold nextKey at h
  extract_lets read at h
  have hread (s : List Char) : read s ≠ .ok none := by
    unfold read
    intro hs
    split at hs
    · obtain ⟨found, hstring, hs⟩ := Outcome.bind_eq_ok.mp hs
      cases hs
    · cases hs
  split at h
  · cases h
  · rename_i r hs
    exact ⟨r, hs⟩
  · split at h
    · exact absurd h (hread _)
    · split at h
      · split at h
        · cases h
        · cases h
        · exact absurd h (hread _)
      · cases h

/-- What the items of an array are read from, up to its end. -/
inductive ItemsAt (item : Reader Json) : Bool → List Char → List Json → List Char → Prop
  | close {first : Bool} {s : List Char} (h : nextItem first s = .ok none) :
    ItemsAt item first s [] ((skipBlank s).drop 1)
  | item {first : Bool} {s start after rest : List Char} {j : Json} {items : List Json}
    (hnext : nextItem first s = .ok (some start)) (hitem : item start = .ok (j, after))
    (h : ItemsAt item false after items rest) : ItemsAt item first s (j :: items) rest

/-- What the entries of an object are read from, up to its end. -/
inductive EntriesAt (item : Reader Json) : Bool → List Char → List (String × Json) → List Char → Prop
  | close {first : Bool} {s : List Char} (h : nextKey first s = .ok none) :
    EntriesAt item first s [] ((skipBlank s).drop 1)
  | entry {first : Bool} {s colon start after rest : List Char} {key : String} {j : Json}
    {entries : List (String × Json)} (hnext : nextKey first s = .ok (some (key, colon)))
    (hcolon : readColon colon = .ok start) (hitem : item start = .ok (j, after))
    (h : EntriesAt item false after entries rest) : EntriesAt item first s ((key, j) :: entries) rest

theorem itemsAt_of_readItems {item : Reader Json} {steps : Nat} {first : Bool} {items : List Json}
    (h : readItems item steps first s = .ok (items, rest)) :
    ItemsAt item first s items rest ∧ items.length < steps := by
  induction steps generalizing first s items with
  | zero => cases h
  | succ steps ih =>
    obtain ⟨next, hnext, h⟩ := Outcome.bind_eq_ok.mp h
    cases next with
    | none =>
      cases h
      exact ⟨.close hnext, Nat.succ_pos _⟩
    | some start =>
      obtain ⟨⟨j, after⟩, hitem, h⟩ := Outcome.bind_eq_ok.mp h
      obtain ⟨⟨others, end'⟩, hothers, h⟩ := Outcome.bind_eq_ok.mp h
      cases h
      obtain ⟨hat, hlength⟩ := ih hothers
      exact ⟨.item hnext hitem hat, Nat.succ_lt_succ hlength⟩

theorem entriesAt_of_foldEntries {item : Reader Json} {steps : Nat} {first : Bool}
    {acc found : List (String × Json)}
    (h : foldEntries (fun acc key s => do
      let (j, s) ← item (← readColon s)
      .ok ((key, j) :: acc, s)) steps first acc s = .ok (found, rest)) :
    ∃ entries, found = entries.reverse ++ acc ∧ EntriesAt item first s entries rest ∧
      entries.length < steps := by
  induction steps generalizing first acc s with
  | zero => cases h
  | succ steps ih =>
    obtain ⟨next, hnext, h⟩ := Outcome.bind_eq_ok.mp h
    cases next with
    | none =>
      cases h
      exact ⟨[], rfl, .close hnext, Nat.succ_pos _⟩
    | some start =>
      obtain ⟨key, colon⟩ := start
      obtain ⟨⟨acc', after⟩, hentry, h⟩ := Outcome.bind_eq_ok.mp h
      obtain ⟨start, hcolon, hentry⟩ := Outcome.bind_eq_ok.mp hentry
      obtain ⟨⟨j, after'⟩, hitem, hentry⟩ := Outcome.bind_eq_ok.mp hentry
      cases hentry
      obtain ⟨entries, rfl, hat, hlength⟩ := ih h
      exact ⟨(key, j) :: entries, by simp, .entry hnext hcolon hitem hat, Nat.succ_lt_succ hlength⟩

/-- What a value is read from, and whether its containers are read by `inner`. -/
inductive ValueAt (inner : Option (Reader Json)) : List Char → Json → List Char → Prop
  | scalar {s rest : List Char} {j : Json} (h : ScalarAt s j rest) : ValueAt inner s j rest
  | arr {item : Reader Json} {r rest : List Char} {items : List Json} (hinner : inner = some item)
    (h : ItemsAt item true r items rest) (hlength : items.length < r.length + 1) :
    ValueAt inner ('[' :: r) (.arr items) rest
  | obj {item : Reader Json} {r rest : List Char} {entries : List (String × Json)}
    (hinner : inner = some item) (h : EntriesAt item true r entries rest)
    (hlength : entries.length < r.length + 1) : ValueAt inner ('\x7b' :: r) (.obj entries) rest

theorem valueAt_of_readAt {inner : Option (Reader Json)} (h : readAt inner s = .ok (j, rest)) :
    ValueAt inner (skipBlank s) j rest := by
  unfold readAt at h
  split at h
  · rename_i r item hs
    obtain ⟨⟨items, after⟩, hitems, h⟩ := Outcome.bind_eq_ok.mp h
    cases h
    obtain ⟨hat, hlength⟩ := itemsAt_of_readItems hitems
    rw [hs]
    exact .arr rfl hat hlength
  · rename_i r item hs
    obtain ⟨⟨found, after⟩, hentries, h⟩ := Outcome.bind_eq_ok.mp h
    cases h
    obtain ⟨entries, rfl, hat, hlength⟩ := entriesAt_of_foldEntries hentries
    rw [hs, List.append_nil, List.reverse_reverse]
    exact .obj rfl hat hlength
  · cases h
  · cases h
  · exact .scalar (scalarAt_of_readScalar h)

theorem finish_eq_ok {α : Type} {r : α × List Char} {a : α} :
    finish r = .ok a ↔ skipBlank r.2 = [] ∧ r.1 = a := by
  unfold finish
  split
  · rename_i hs
    rw [hs, Except.ok.injEq]
    exact (and_iff_right rfl).symm
  · rename_i hs
    constructor
    · intro h
      cases h
    · rintro ⟨hend, -⟩
      exact absurd hend hs

variable {inner : Option (Reader Json)} {r : List Char}

theorem ValueAt.of_list (h : ValueAt inner ('[' :: r) j rest) :
    ∃ item items, inner = some item ∧ j = .arr items ∧ ItemsAt item true r items rest ∧
      items.length < r.length + 1 := by
  cases h with
  | arr hinner h hlength => exact ⟨_, _, hinner, rfl, h, hlength⟩
  | scalar h =>
    cases h with
    | number hdigit => cases hdigit

theorem ValueAt.of_object (h : ValueAt inner ('\x7b' :: r) j rest) :
    ∃ item entries, inner = some item ∧ j = .obj entries ∧ EntriesAt item true r entries rest ∧
      entries.length < r.length + 1 := by
  cases h with
  | obj hinner h hlength => exact ⟨_, _, hinner, rfl, h, hlength⟩
  | scalar h =>
    cases h with
    | number hdigit => cases hdigit

theorem ValueAt.of_quote (h : ValueAt inner ('"' :: r) j rest) :
    ∃ t, j = .str t ∧ readString r = .ok (t, rest) := by
  cases h with
  | scalar h =>
    cases h with
    | str h => exact ⟨_, rfl, h⟩
    | number hdigit => cases hdigit

theorem ValueAt.of_n (h : ValueAt inner ('n' :: r) j rest) :
    j = .null ∧ readWord ['u', 'l', 'l'] r = .ok rest := by
  cases h with
  | scalar h =>
    cases h with
    | null h => exact ⟨rfl, h⟩
    | number hdigit => cases hdigit

theorem ValueAt.of_t (h : ValueAt inner ('t' :: r) j rest) :
    j = .bool true ∧ readWord ['r', 'u', 'e'] r = .ok rest := by
  cases h with
  | scalar h =>
    cases h with
    | true h => exact ⟨rfl, h⟩
    | number hdigit => cases hdigit

theorem ValueAt.of_f (h : ValueAt inner ('f' :: r) j rest) :
    j = .bool false ∧ readWord ['a', 'l', 's', 'e'] r = .ok rest := by
  cases h with
  | scalar h =>
    cases h with
    | false h => exact ⟨rfl, h⟩
    | number hdigit => cases hdigit

end Narrative.Json
