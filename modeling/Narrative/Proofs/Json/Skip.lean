import Narrative.Json.Skip
import Narrative.Proofs.Json.Read

namespace Narrative.Json

open Text

variable {s rest : List Char} {n : Nat} {j : Json}

theorem readHex_length (h : readHex s = .ok (n, rest)) : s.length = rest.length + 4 := by
  unfold readHex at h
  extract_lets fault at h
  clear_value fault
  split at h
  · split at h
    · cases h
      rfl
    · cases h
  · cases h

/-- An escape is one character, or one or two numbers of four digits. -/
theorem readEscape_cases {c : Char} (h : readEscape s = .ok (c, rest)) :
    (∃ e, e ∈ ['"', '\\', '/', 'b', 'f', 'n', 'r', 't'] ∧ s = e :: rest) ∨
    (∃ r k, readHex r = .ok (k, rest) ∧ s = 'u' :: r) ∨
    (∃ r k r' k', readHex r = .ok (k, '\\' :: 'u' :: r') ∧ readHex r' = .ok (k', rest) ∧
      s = 'u' :: r) := by
  unfold readEscape at h
  split at h
  · cases h
  · cases h
    exact .inl ⟨_, by simp, rfl⟩
  · cases h
    exact .inl ⟨_, by simp, rfl⟩
  · cases h
    exact .inl ⟨_, by simp, rfl⟩
  · cases h
    exact .inl ⟨_, by simp, rfl⟩
  · cases h
    exact .inl ⟨_, by simp, rfl⟩
  · cases h
    exact .inl ⟨_, by simp, rfl⟩
  · cases h
    exact .inl ⟨_, by simp, rfl⟩
  · cases h
    exact .inl ⟨_, by simp, rfl⟩
  · rename_i r
    obtain ⟨⟨k, after⟩, hhex, h⟩ := Outcome.bind_eq_ok.mp h
    dsimp only at h
    split at h
    · cases h
    · split at h
      · unfold readTrailing at h
        split at h
        · rename_i r'
          obtain ⟨⟨k', after'⟩, hhex', h⟩ := Outcome.bind_eq_ok.mp h
          dsimp only at h
          split at h
          · obtain ⟨-, rfl⟩ := Prod.mk.inj (Except.ok.inj h)
            exact .inr (.inr ⟨r, k, r', k', hhex, hhex', rfl⟩)
          · cases h
        · cases h
        · cases h
        · cases h
        · cases h
      · cases h
        exact .inr (.inl ⟨_, _, hhex, rfl⟩)
  · cases h

theorem skipString_mark {e : Char} (he : e ∈ ['"', '\\', '/', 'b', 'f', 'n', 'r', 't']) (steps : Nat)
    (s : List Char) : skipString (steps + 1) ('\\' :: e :: s) = skipString steps s := by
  simp only [List.mem_cons, List.not_mem_nil, or_false] at he
  rcases he with rfl | rfl | rfl | rfl | rfl | rfl | rfl | rfl <;> rfl

theorem skipString_hex (h : readHex s = .ok (n, rest)) (steps : Nat) :
    skipString (steps + 1) ('\\' :: 'u' :: s) = skipString steps rest := by
  change (readHex s >>= fun r => skipString steps r.2) = _
  rw [h, Outcome.ok_bind]

/-- A string that can be read is passed over, one half of a pair of numbers after the other. -/
theorem skipString_of_readChars {steps : Nat} {seen : List Char} {t : String}
    (h : readChars steps seen s = .ok (t, rest)) {m : Nat} (hm : s.length ≤ m) :
    skipString m s = .ok rest ∧ rest.length < s.length := by
  induction steps generalizing seen s m with
  | zero => cases s <;> cases h
  | succ steps ih =>
    cases s with
    | nil => cases h
    | cons c s =>
      rw [List.length_cons] at hm ⊢
      obtain ⟨m, rfl⟩ : ∃ k, m = k + 1 := ⟨m - 1, by omega⟩
      by_cases hquote : c = '"'
      · subst hquote
        cases h
        exact ⟨rfl, Nat.lt_succ_self _⟩
      by_cases hslash : c = '\\'
      · subst hslash
        obtain ⟨⟨d, after⟩, hescape, hafter⟩ := Outcome.bind_eq_ok.mp h
        rcases readEscape_cases hescape with ⟨e, he, rfl⟩ | ⟨r, k, hhex, rfl⟩ |
          ⟨r, k, r', k', hhex, hhex', rfl⟩
        · rw [List.length_cons] at hm
          obtain ⟨hskip, hshort⟩ := ih hafter (m := m) (by omega)
          exact ⟨(skipString_mark he m after).trans hskip, by rw [List.length_cons]; omega⟩
        · have hlength := readHex_length hhex
          rw [List.length_cons] at hm
          obtain ⟨hskip, hshort⟩ := ih hafter (m := m) (by omega)
          exact ⟨(skipString_hex hhex m).trans hskip, by rw [List.length_cons]; omega⟩
        · have hlength := readHex_length hhex
          have hlength' := readHex_length hhex'
          simp only [List.length_cons] at hm hlength
          obtain ⟨m, rfl⟩ : ∃ k, m = k + 1 := ⟨m - 1, by omega⟩
          obtain ⟨hskip, hshort⟩ := ih hafter (m := m) (by omega)
          refine ⟨?_, by rw [List.length_cons]; omega⟩
          rw [skipString_hex hhex, skipString_hex hhex', hskip]
      · rw [readChars] at h
        · split at h
          · cases h
          · rename_i hplain
            obtain ⟨hskip, hshort⟩ := ih h (m := m) (by omega)
            refine ⟨?_, by omega⟩
            rw [skipString, if_neg hplain, hskip]
            · simpa using hquote
            · simpa using hslash
        · simpa using hquote
        · simpa using hslash

def IsNumber (j : Json) : Prop := (∃ k, j = .int k) ∨ ∃ x, j = .real x

theorem skipDigits_cons {c : Char} (h : Decimal.isDigit c = true) (s : List Char) :
    skipDigits (c :: s) = skipDigits s := List.dropWhile_cons_of_pos h

theorem skipDigits_readSignificand (n : Nat) (s : List Char) :
    skipDigits (readSignificand n s).2 = skipDigits s := by
  induction s generalizing n with
  | nil => rfl
  | cons c s ih =>
    rw [readSignificand]
    cases hdigit : Decimal.isDigit c with
    | false => rw [Decimal.value?_eq_none hdigit]
    | true =>
      obtain ⟨d, hd⟩ := Decimal.value?_of_isDigit hdigit
      rw [hd]
      dsimp only
      split
      · rw [ih, skipDigits_cons hdigit]
      · rfl

/-- All digits of an exponent are read, or some are left because it is too large. -/
theorem skipDigits_readExponentDigits (n : Nat) (s : List Char) :
    skipDigits (readExponentDigits n s).2 = skipDigits s ∧
      ((readExponentDigits n s).1.isSome → (readExponentDigits n s).2 = skipDigits s) := by
  induction s generalizing n with
  | nil => exact ⟨rfl, fun _ => rfl⟩
  | cons c s ih =>
    rw [readExponentDigits]
    cases hdigit : Decimal.isDigit c with
    | false =>
      rw [Decimal.value?_eq_none hdigit]
      refine ⟨rfl, fun _ => ?_⟩
      rw [skipDigits, List.dropWhile_cons_of_neg (by simp [hdigit])]
    | true =>
      obtain ⟨d, hd⟩ := Decimal.value?_of_isDigit hdigit
      rw [hd, skipDigits_cons hdigit]
      dsimp only
      split
      · exact ih _
      · exact ⟨rfl, fun h => by cases h⟩

theorem realOf_eq_ok {negative : Bool} {exponent : Int} {after : List Char}
    (h : realOf negative n exponent after = .ok (j, rest)) : (∃ x, j = .real x) ∧ rest = after := by
  unfold realOf at h
  split at h
  · cases h
    exact ⟨⟨_, rfl⟩, rfl⟩
  · cases h

theorem skipExponent_of_readExponent {negative : Bool} {start : Int}
    (h : readExponent negative n start s = .ok (j, rest)) :
    (∃ x, j = .real x) ∧ skipExponent s = .ok rest := by
  unfold readExponent at h
  split at h
  rename_i down after hsign
  have hskip : skipExponent s = skipSomeDigits after := by
    split at hsign
    · cases hsign
      rfl
    · cases hsign
      rfl
    · rename_i hplus hminus
      cases hsign
      rw [skipExponent]
      · exact hplus
      · exact hminus
  rw [hskip]
  split at h
  · cases h
  · rename_i c tail
    split at h
    · cases h
    · rename_i hdigit
      have hstarts : startsWithDigit (c :: tail) = true := by simpa [startsWithDigit] using hdigit
      obtain ⟨hrest, hall⟩ := skipDigits_readExponentDigits 0 (c :: tail)
      rw [skipSomeDigits, if_pos hstarts]
      split at h
      · rename_i k after hread
        rw [hread] at hall
        obtain ⟨hreal, rfl⟩ := realOf_eq_ok h
        exact ⟨hreal, congrArg Except.ok (hall rfl).symm⟩
      · rename_i after hread
        rw [hread] at hrest
        split at h
        · cases h
        · obtain ⟨hreal, rfl⟩ := realOf_eq_ok h
          exact ⟨hreal, congrArg Except.ok hrest.symm⟩

theorem skip_of_readFraction {negative : Bool} {start : Int}
    (h : readFraction negative n start s = .ok (j, rest)) :
    (∃ x, j = .real x) ∧ (skipSomeDigits s >>= skipNumberTail) = .ok rest := by
  unfold readFraction at h
  split at h
  · split at h <;> cases h
  · rename_i hdigit
    have hstarts : startsWithDigit s = true := by simpa using hdigit
    rw [skipSomeDigits, if_pos hstarts, Outcome.ok_bind, ← skipDigits_readSignificand n s]
    dsimp only at h
    split at h
    · rename_i r hmark
      rw [hmark]
      exact skipExponent_of_readExponent h
    · rename_i r hmark
      rw [hmark]
      exact skipExponent_of_readExponent h
    · rename_i hsmall hlarge
      obtain ⟨hreal, rfl⟩ := realOf_eq_ok h
      refine ⟨hreal, ?_⟩
      rw [skipNumberTail]
      · exact hsmall
      · exact hlarge

/-- What follows the integer part of a number is passed over. -/
theorem skip_of_readTail {negative : Bool} {dropped : Nat}
    (h : readTail negative n dropped s = .ok (j, rest)) :
    IsNumber j ∧ (match s with
      | '.' :: r => do skipNumberTail (← skipSomeDigits r)
      | s => skipNumberTail s) = .ok rest := by
  unfold readTail at h
  split at h
  · obtain ⟨hreal, hskip⟩ := skip_of_readFraction h
    exact ⟨.inr hreal, hskip⟩
  · obtain ⟨hreal, hskip⟩ := skipExponent_of_readExponent h
    exact ⟨.inr hreal, hskip⟩
  · obtain ⟨hreal, hskip⟩ := skipExponent_of_readExponent h
    exact ⟨.inr hreal, hskip⟩
  · rename_i hpoint hsmall hlarge
    have hskip : skipNumberTail s = .ok s := by
      rw [skipNumberTail]
      · exact hsmall
      · exact hlarge
    have hnumber : IsNumber j ∧ rest = s := by
      split at h
      · obtain ⟨hreal, rfl⟩ := realOf_eq_ok h
        exact ⟨.inr hreal, rfl⟩
      · split at h
        · cases h
          exact ⟨.inl ⟨_, rfl⟩, rfl⟩
        · split at h
          · cases h
            exact ⟨.inr ⟨_, rfl⟩, rfl⟩
          · cases h
            exact ⟨.inl ⟨_, rfl⟩, rfl⟩
    obtain ⟨hnumber, rfl⟩ := hnumber
    refine ⟨hnumber, ?_⟩
    split
    · exact absurd rfl (hpoint _)
    · exact hskip

/-- A number that can be read is passed over. -/
theorem skipNumber_of_readNumber {negative : Bool} (h : readNumber negative s = .ok (j, rest)) :
    IsNumber j ∧ skipNumber s = .ok rest := by
  unfold readNumber at h
  split at h
  · cases h
  · split at h
    · cases h
    · rename_i r hstop
      obtain ⟨hnumber, hskip⟩ := skip_of_readTail h
      refine ⟨hnumber, ?_⟩
      simp only [skipNumber]
      rw [if_neg hstop, Outcome.ok_bind]
      exact hskip
  · rename_i c r hzero
    split at h
    · cases h
    · rename_i hdigit
      have hstarts : startsWithDigit (c :: r) = true := by simpa [startsWithDigit] using hdigit
      have hsame := skipDigits_readSignificand 0 (c :: r)
      rcases hread : readSignificand 0 (c :: r) with ⟨k, after⟩
      rw [hread] at h hsame
      obtain ⟨hnumber, hskip⟩ := skip_of_readTail h
      rw [hsame] at hskip
      refine ⟨hnumber, ?_⟩
      rw [skipNumber]
      · rw [skipSomeDigits, if_pos hstarts, Outcome.ok_bind]
        exact hskip
      · simpa using hzero

theorem skipSomeDigits_length (h : skipSomeDigits s = .ok rest) : rest.length < s.length := by
  unfold skipSomeDigits at h
  split at h
  · rename_i hdigit
    cases h
    cases s with
    | nil => cases hdigit
    | cons c s =>
      have hdigits : (skipDigits s).length ≤ s.length := (List.dropWhile_sublist _).length_le
      rw [skipDigits_cons hdigit, List.length_cons]
      omega
  · cases h

theorem skipExponent_length (h : skipExponent s = .ok rest) : rest.length < s.length := by
  unfold skipExponent at h
  split at h
  · have hdigits := skipSomeDigits_length h
    rw [List.length_cons]
    omega
  · have hdigits := skipSomeDigits_length h
    rw [List.length_cons]
    omega
  · exact skipSomeDigits_length h

theorem skipNumberTail_length (h : skipNumberTail s = .ok rest) : rest.length ≤ s.length := by
  unfold skipNumberTail at h
  split at h
  · have hexponent := skipExponent_length h
    rw [List.length_cons]
    omega
  · have hexponent := skipExponent_length h
    rw [List.length_cons]
    omega
  · cases h
    exact Nat.le_refl _

theorem skipFraction_length (h : (match s with
    | '.' :: r => do skipNumberTail (← skipSomeDigits r)
    | s => skipNumberTail s) = .ok rest) : rest.length ≤ s.length := by
  split at h
  · obtain ⟨after, hfraction, h⟩ := Outcome.bind_eq_ok.mp h
    have hdigits := skipSomeDigits_length hfraction
    have htail := skipNumberTail_length h
    rw [List.length_cons]
    omega
  · exact skipNumberTail_length h

theorem skipNumber_length (h : skipNumber s = .ok rest) : rest.length < s.length := by
  unfold skipNumber at h
  dsimp only at h
  split at h
  · split at h
    · cases h
    · have htail := skipFraction_length h
      rw [List.length_cons]
      omega
  · obtain ⟨after, hwhole, h⟩ := Outcome.bind_eq_ok.mp h
    have hdigits := skipSomeDigits_length hwhole
    have htail := skipFraction_length h
    omega

theorem readWord_length {word : List Char} (h : readWord word s = .ok rest) :
    rest.length ≤ s.length := by
  induction word generalizing s with
  | nil =>
    cases h
    exact Nat.le_refl _
  | cons w word ih =>
    cases s with
    | nil => cases h
    | cons c s =>
      rw [readWord] at h
      split at h
      · have hrest := ih h
        rw [List.length_cons]
        omega
      · cases h

/-- A scalar is known by the character it starts with, unless it is a number. -/
theorem ScalarAt.head_of (h : ScalarAt s j rest) :
    (∃ r, s = 'n' :: r ∧ j = .null) ∨ (∃ r b, (s = 't' :: r ∨ s = 'f' :: r) ∧ j = .bool b) ∨
      (∃ r t, s = '"' :: r ∧ j = .str t) ∨ IsNumber j := by
  cases h with
  | null => exact .inl ⟨_, rfl, rfl⟩
  | true => exact .inr (.inl ⟨_, _, .inl rfl, rfl⟩)
  | false => exact .inr (.inl ⟨_, _, .inr rfl, rfl⟩)
  | str => exact .inr (.inr (.inl ⟨_, _, rfl, rfl⟩))
  | negative h => exact .inr (.inr (.inr (skipNumber_of_readNumber h).1))
  | number _ h => exact .inr (.inr (.inr (skipNumber_of_readNumber h).1))

/-- What is read as a scalar is passed over, and something is passed. -/
theorem ScalarAt.skip (h : ScalarAt s j rest) :
    skipScalar s = .ok rest ∧ rest.length < s.length := by
  cases h with
  | null h | true h | false h => exact ⟨h, Nat.lt_succ_of_le (readWord_length h)⟩
  | str h =>
    obtain ⟨hskip, hshort⟩ := skipString_of_readChars h (Nat.le_refl _)
    exact ⟨hskip, Nat.lt_succ_of_lt hshort⟩
  | negative h =>
    have hskip := (skipNumber_of_readNumber h).2
    exact ⟨hskip, Nat.lt_succ_of_lt (skipNumber_length hskip)⟩
  | number hdigit h =>
    have hskip := (skipNumber_of_readNumber h).2
    refine ⟨?_, skipNumber_length hskip⟩
    rw [skipScalar]
    · rw [if_pos hdigit]
      exact hskip
    all_goals simpa using ne_of_isDigit hdigit rfl

theorem readColon_length {after : List Char} (h : readColon s = .ok after) : after.length < s.length := by
  unfold readColon at h
  have hblank := skipBlank_length s
  split at h
  · cases h
  · rename_i r hs
    cases h
    rw [hs, List.length_cons] at hblank
    omega
  · cases h

theorem readString_length {t : String} (h : readString s = .ok (t, rest)) : rest.length < s.length :=
  (skipString_of_readChars h (Nat.le_refl _)).2

theorem nextItem_length {first : Bool} {start : List Char} (h : nextItem first s = .ok (some start)) :
    start.length ≤ s.length := by
  have hblank := skipBlank_length s
  obtain ⟨c, r, hs, -, ⟨-, rfl⟩ | ⟨-, -, rfl⟩⟩ := nextItem_eq_some h
  · rwa [hs] at hblank
  · have hrest := skipBlank_length r
    rw [hs, List.length_cons] at hblank
    omega

theorem nextKey_length {first : Bool} {key : String} {colon : List Char}
    (h : nextKey first s = .ok (some (key, colon))) : colon.length ≤ s.length := by
  have hblank := skipBlank_length s
  obtain ⟨c, r, t, hs, -, hstring, ht⟩ := nextKey_eq_some h
  have hshort := readString_length hstring
  rw [hs, List.length_cons] at hblank
  obtain ⟨-, ht⟩ | ⟨-, -, ht⟩ := ht
  · cases ht
    omega
  · have hrest := skipBlank_length r
    rw [ht, List.length_cons] at hrest
    omega

/-- Where a container is continued. -/
def awaited (first : Bool) : Awaited := if first then .first else .next

theorem skipFrom_skipBlank (steps : Nat) (opened : List Bracket) (s : List Char) :
    skipFrom (steps + 1) .value opened (skipBlank s) = skipFrom (steps + 1) .value opened s := by
  rw [skipFrom, skipFrom, skipBlank_skipBlank]

theorem skipFrom_scalar (h : ScalarAt (skipBlank s) j rest) (steps : Nat) (opened : List Bracket) :
    skipFrom (steps + 1) .value opened s = skipFrom steps .next opened rest := by
  have hskip := h.skip.1
  obtain ⟨c, r, hs, hlist, hobject⟩ := h.head
  rw [hs] at hskip
  simp [skipFrom, hs, hlist, hobject, hskip]

theorem skipFrom_close {first : Bool} {b : Bracket} {c : Char} {r : List Char}
    (hs : skipBlank s = c :: r) (hclose : closes b c = true) (steps : Nat) (opened : List Bracket) :
    skipFrom (steps + 1) (awaited first) (b :: opened) s = skipFrom steps .next opened r := by
  cases first <;> simp [awaited, skipFrom, hs, hclose]

theorem skipFrom_item {first : Bool} {start : List Char} (h : nextItem first s = .ok (some start))
    (steps : Nat) (opened : List Bracket) :
    skipFrom (steps + 2) (awaited first) (.list :: opened) s =
      skipFrom (steps + 1) .value (.list :: opened) start := by
  obtain ⟨c, r, hs, hclose, ⟨rfl, rfl⟩ | ⟨rfl, rfl, rfl⟩⟩ := nextItem_eq_some h
  · have hstep (k : Nat) : skipFrom (k + 1) .first (.list :: opened) s =
        skipFrom k .value (.list :: opened) (c :: r) := by simp [skipFrom, hs, closes, hclose]
    exact hstep _
  · have hstep (k : Nat) : skipFrom (k + 1) .next (.list :: opened) s =
        skipFrom k .value (.list :: opened) r := by simp [skipFrom, hs, closes]
    exact (hstep _).trans (skipFrom_skipBlank _ _ _).symm

theorem skipKey_quoted {key : String} {t colon start : List Char} (hs : skipBlank s = '"' :: t)
    (hstring : readString t = .ok (key, colon)) (hcolon : readColon colon = .ok start) :
    skipKey s = .ok start := by
  have hskip := (skipString_of_readChars hstring (Nat.le_refl _)).1
  simp [skipKey, hs, hskip, hcolon]

theorem skipFrom_entry {first : Bool} {key : String} {colon start : List Char}
    (h : nextKey first s = .ok (some (key, colon))) (hcolon : readColon colon = .ok start)
    (steps : Nat) (opened : List Bracket) :
    skipFrom (steps + 1) (awaited first) (.object :: opened) s =
      skipFrom steps .value (.object :: opened) start := by
  obtain ⟨c, r, t, hs, hclose, hstring, ⟨rfl, ht⟩ | ⟨rfl, rfl, ht⟩⟩ := nextKey_eq_some h
  · have hkey : skipKey (c :: r) = .ok start := by
      refine skipKey_quoted (t := t) ?_ hstring hcolon
      rw [← hs, skipBlank_skipBlank, hs, ht]
    simp [awaited, skipFrom, hs, closes, hclose, hkey]
  · have hkey : skipKey r = .ok start := skipKey_quoted ht hstring hcolon
    simp [awaited, skipFrom, hs, closes, hkey]

/-- One value is passed in some number of steps, at most two for each of its characters, whatever
containers are open. -/
def Passes (s rest : List Char) : Prop :=
  ∃ k, k + 2 + 2 * rest.length ≤ 2 * s.length ∧ ∀ steps opened,
    skipFrom (steps + k + 1) .value opened s = skipFrom steps .next opened rest

theorem passes_items {item : Reader Json} (hitem : ∀ s j rest, item s = .ok (j, rest) → Passes s rest)
    {first : Bool} {items : List Json} (h : ItemsAt item first s items rest) :
    ∃ k, k + 2 * rest.length ≤ 2 * s.length ∧ ∀ steps opened,
      skipFrom (steps + k) (awaited first) (.list :: opened) s = skipFrom steps .next opened rest := by
  induction h with
  | @close first s h =>
    obtain ⟨r, hs⟩ := nextItem_eq_none h
    have hblank := skipBlank_length s
    rw [hs] at hblank ⊢
    rw [List.length_cons] at hblank
    refine ⟨1, ?_, fun steps opened => skipFrom_close hs rfl steps opened⟩
    rw [List.drop_one, List.tail_cons]
    omega
  | @item first s start after rest j items hnext hread _ ih =>
    obtain ⟨k, hk, hpass⟩ := hitem _ _ _ hread
    obtain ⟨k', hk', hothers⟩ := ih
    have hstart := nextItem_length hnext
    -- A step for the comma and one for the value come on top of those inside.
    refine ⟨k + k' + 2, by omega, fun steps opened => ?_⟩
    have hsteps : steps + (k + k' + 2) = steps + k' + k + 2 := by omega
    rw [hsteps, skipFrom_item hnext, hpass]
    exact hothers steps opened

theorem passes_entries {item : Reader Json} (hitem : ∀ s j rest, item s = .ok (j, rest) → Passes s rest)
    {first : Bool} {entries : List (String × Json)} (h : EntriesAt item first s entries rest) :
    ∃ k, k + 2 * rest.length ≤ 2 * s.length ∧ ∀ steps opened,
      skipFrom (steps + k) (awaited first) (.object :: opened) s = skipFrom steps .next opened rest := by
  induction h with
  | @close first s h =>
    obtain ⟨r, hs⟩ := nextKey_eq_none h
    have hblank := skipBlank_length s
    rw [hs] at hblank ⊢
    rw [List.length_cons] at hblank
    refine ⟨1, ?_, fun steps opened => skipFrom_close hs rfl steps opened⟩
    rw [List.drop_one, List.tail_cons]
    omega
  | @entry first s colon start after rest key j entries hnext hcolon hread _ ih =>
    obtain ⟨k, hk, hpass⟩ := hitem _ _ _ hread
    obtain ⟨k', hk', hothers⟩ := ih
    have hkey := nextKey_length hnext
    have hstart := readColon_length hcolon
    refine ⟨k + k' + 2, by omega, fun steps opened => ?_⟩
    have hsteps : steps + (k + k' + 2) = steps + k' + k + 1 + 1 := by omega
    rw [hsteps, skipFrom_entry hnext hcolon, hpass]
    exact hothers steps opened

theorem passes_of_valueAt {inner : Option (Reader Json)}
    (hinner : ∀ item, inner = some item → ∀ s j rest, item s = .ok (j, rest) → Passes s rest)
    {t : List Char} (hs : skipBlank s = t) (h : ValueAt inner t j rest) : Passes s rest := by
  have hblank := skipBlank_length s
  rw [hs] at hblank
  cases h with
  | scalar h =>
    have hshort := h.skip.2
    subst hs
    exact ⟨0, by omega, fun steps opened => skipFrom_scalar h steps opened⟩
  | arr hitem h =>
    obtain ⟨k, hk, hpass⟩ := passes_items (hinner _ hitem) h
    rw [List.length_cons] at hblank
    refine ⟨k, by omega, fun steps opened => ?_⟩
    rw [skipFrom, hs]
    exact hpass steps opened
  | obj hitem h =>
    obtain ⟨k, hk, hpass⟩ := passes_entries (hinner _ hitem) h
    rw [List.length_cons] at hblank
    refine ⟨k, by omega, fun steps opened => ?_⟩
    rw [skipFrom, hs]
    exact hpass steps opened

theorem passes_of_read {levels : Nat} (h : read levels s = .ok (j, rest)) : Passes s rest := by
  induction levels generalizing s j rest with
  | zero =>
    refine passes_of_valueAt (fun item hitem => ?_) rfl (valueAt_of_readAt h)
    cases hitem
  | succ levels ih =>
    refine passes_of_valueAt (fun item hitem s j rest h => ?_) rfl (valueAt_of_readAt h)
    cases hitem
    exact ih h

theorem length_le_of_itemsAt {levels : Nat} {first : Bool} {items : List Json}
    (h : ItemsAt (read levels) first s items rest) : items.length ≤ s.length := by
  induction h with
  | close => exact Nat.zero_le _
  | item hnext hread _ ih =>
    obtain ⟨k, hk, -⟩ := passes_of_read hread
    have hstart := nextItem_length hnext
    rw [List.length_cons]
    omega

/-- What can be read is passed over. -/
theorem skip_of_read {levels : Nat} (h : read levels s = .ok (j, rest)) : skip s = .ok rest := by
  obtain ⟨k, hk, hpass⟩ := passes_of_read h
  obtain ⟨steps, hsteps⟩ : ∃ steps, 2 * s.length + 2 = steps + 1 + k + 1 :=
    ⟨2 * s.length - k, by omega⟩
  rw [skip, hsteps, hpass]
  rfl

variable {inner : Option (Reader Json)}

theorem ValueAt.ne_arr (h : ValueAt inner s j rest) (hs : ∀ r, s ≠ '[' :: r) (items : List Json) :
    j ≠ .arr items := by
  rintro rfl
  cases h with
  | arr => exact hs _ rfl
  | scalar h =>
    rcases h.head_of with ⟨_, _, h⟩ | ⟨_, _, _, h⟩ | ⟨_, _, _, h⟩ | ⟨_, h⟩ | ⟨_, h⟩ <;> cases h

theorem ValueAt.ne_obj (h : ValueAt inner s j rest) (hs : ∀ r, s ≠ '\x7b' :: r)
    (entries : List (String × Json)) : j ≠ .obj entries := by
  rintro rfl
  cases h with
  | obj => exact hs _ rfl
  | scalar h =>
    rcases h.head_of with ⟨_, _, h⟩ | ⟨_, _, _, h⟩ | ⟨_, _, _, h⟩ | ⟨_, h⟩ | ⟨_, h⟩ <;> cases h

theorem ValueAt.ne_str (h : ValueAt inner s j rest) (hs : ∀ r, s ≠ '"' :: r) (t : String) :
    j ≠ .str t := by
  rintro rfl
  cases h with
  | scalar h =>
    rcases h.head_of with ⟨_, _, h⟩ | ⟨_, _, _, h⟩ | ⟨r, _, hr, _⟩ | ⟨_, h⟩ | ⟨_, h⟩
    · cases h
    · cases h
    · exact hs r hr
    · cases h
    · cases h

theorem ValueAt.ne_null (h : ValueAt inner s j rest) (hs : ∀ r, s ≠ 'n' :: r) : j ≠ .null := by
  rintro rfl
  cases h with
  | scalar h =>
    rcases h.head_of with ⟨r, hr, _⟩ | ⟨_, _, _, h⟩ | ⟨_, _, _, h⟩ | ⟨_, h⟩ | ⟨_, h⟩
    · exact hs r hr
    · cases h
    · cases h
    · cases h
    · cases h

theorem ValueAt.ne_bool (h : ValueAt inner s j rest) (hyes : ∀ r, s ≠ 't' :: r)
    (hno : ∀ r, s ≠ 'f' :: r) (b : Bool) : j ≠ .bool b := by
  rintro rfl
  cases h with
  | scalar h =>
    rcases h.head_of with ⟨_, _, h⟩ | ⟨r, _, hr | hr, _⟩ | ⟨_, _, _, h⟩ | ⟨_, h⟩ | ⟨_, h⟩
    · cases h
    · exact hyes r hr
    · exact hno r hr
    · cases h
    · cases h
    · cases h

end Narrative.Json
