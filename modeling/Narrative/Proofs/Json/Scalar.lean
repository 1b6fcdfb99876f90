import Narrative.Json.Basic
import Narrative.Json.Reader
import Narrative.Proofs.Lists
import Narrative.Proofs.Outcome
import Narrative.Proofs.Text

namespace Narrative.Json

open Text

theorem readEscape_hex {n : Nat} (h : n < 32) (rest : List Char) :
    readEscape ('u' :: '0' :: '0' :: Hex.digit (n / 16) :: Hex.digit (n % 16) :: rest) =
      .ok (Char.ofNat n, rest) := by
  have hzero : Hex.value? '0' = some 0 := rfl
  have hhigh := Hex.value?_digit (n := n / 16) (by omega)
  have hlow := Hex.value?_digit (n := n % 16) (by omega)
  have hread : readHex ('0' :: '0' :: Hex.digit (n / 16) :: Hex.digit (n % 16) :: rest) =
      .ok (4096 * 0 + 256 * 0 + 16 * (n / 16) + n % 16, rest) := by
    rw [readHex, hzero, hhigh, hlow]
  have hvalue : 4096 * 0 + 256 * 0 + 16 * (n / 16) + n % 16 = n := by omega
  have hplain : isTrailing n = false ∧ isLeading n = false := by
    simp only [isTrailing, isLeading, Bool.and_eq_false_iff, decide_eq_false_iff_not]
    omega
  rw [readEscape, hread, hvalue, Outcome.ok_bind]
  dsimp only
  rw [hplain.1, hplain.2]
  rfl

/-- One step takes all that is written for a character. -/
theorem readChars_escape (c : Char) (steps : Nat) (seen rest : List Char) :
    readChars (steps + 1) seen (escape c ++ rest) = readChars steps (c :: seen) rest := by
  have hc {n : Nat} (h : c.toNat = n) : c = Char.ofNat n := by rw [← h, Char.ofNat_toNat]
  rw [escape]
  split
  · subst c
    rfl
  split
  · subst c
    rfl
  split
  · rename_i hquote hslash hplain
    rw [List.singleton_append, readChars, if_neg (Nat.not_lt.mpr hplain)]
    · exact hquote
    · exact hslash
  rename_i _ _ hcontrol
  split
  · rename_i h
    rw [hc h]
    rfl
  · rename_i h
    rw [hc h]
    rfl
  · rename_i h
    rw [hc h]
    rfl
  · rename_i h
    rw [hc h]
    rfl
  · rename_i h
    rw [hc h]
    rfl
  · have hread := readEscape_hex (Nat.lt_of_not_le hcontrol) rest
    rw [Char.ofNat_toNat] at hread
    simp only [List.cons_append, List.nil_append]
    rw [readChars, hread, Outcome.ok_bind]

theorem readChars_flatMap {cs : List Char} {steps : Nat} (h : cs.length < steps)
    (seen rest : List Char) :
    readChars steps seen (cs.flatMap escape ++ '"' :: rest) =
      .ok (String.ofList (seen.reverse ++ cs), rest) := by
  induction cs generalizing steps seen with
  | nil =>
    obtain ⟨steps, rfl⟩ := Nat.exists_eq_succ_of_ne_zero (Nat.ne_of_gt h)
    rw [List.append_nil]
    rfl
  | cons c cs ih =>
    obtain ⟨steps, rfl⟩ := Nat.exists_eq_succ_of_ne_zero (Nat.ne_of_gt (Nat.zero_lt_of_lt h))
    rw [List.flatMap_cons, List.append_assoc, readChars_escape,
      ih (Nat.lt_of_succ_lt_succ h), List.reverse_cons, List.append_assoc]
    rfl

theorem escape_ne_nil (c : Char) : escape c ≠ [] := by
  rw [escape]
  repeat' split
  all_goals simp

theorem readString_quoted (s : String) (rest : List Char) :
    ∃ body, quoted s ++ rest = '"' :: body ∧ readString body = .ok (s, rest) := by
  have hlength := length_le_flatMap escape_ne_nil s.toList
  refine ⟨s.toList.flatMap escape ++ '"' :: rest, by simp [quoted], ?_⟩
  rw [readString, readChars_flatMap, List.reverse_nil, List.nil_append, String.ofList_toList]
  rw [List.length_append, List.length_cons]
  omega

/-- Where a value may end: before what parts it from the next, or at the end of the text. -/
def Ends : List Char → Prop
  | [] => True
  | c :: _ => c = ',' ∨ c = ']' ∨ c = '\x7d' ∨ isBlank c = true

theorem Ends.not_numeral {c : Char} {rest : List Char} (h : Ends (c :: rest)) :
    Decimal.isDigit c = false ∧ c ≠ '.' ∧ c ≠ 'e' ∧ c ≠ 'E' := by
  simp only [Ends, isBlank, Bool.or_eq_true, decide_eq_true_eq] at h
  rcases h with rfl | rfl | rfl | ((rfl | rfl) | rfl) | rfl <;> decide

theorem readSignificand_append {ds rest : List Char} {n : Nat}
    (hdigits : ∀ c ∈ ds, Decimal.isDigit c = true) (hmax : Decimal.valueFrom n ds ≤ wordMax)
    (hends : Ends rest) : readSignificand n (ds ++ rest) = (Decimal.valueFrom n ds, rest) := by
  induction ds generalizing n with
  | nil =>
    cases rest with
    | nil => rfl
    | cons c rest =>
      rw [List.nil_append, readSignificand, Decimal.value?_eq_none hends.not_numeral.1]
      rfl
  | cons c ds ih =>
    obtain ⟨d, hd⟩ := Decimal.value?_of_isDigit (hdigits c List.mem_cons_self)
    have hcons : Decimal.valueFrom n (c :: ds) = Decimal.valueFrom (n * 10 + d) ds := by
      rw [Decimal.valueFrom, List.foldl_cons, hd]
      rfl
    rw [hcons] at hmax
    have hstep := Decimal.le_valueFrom (n * 10 + d) ds
    rw [List.cons_append, readSignificand, hd]
    dsimp only
    rw [if_pos (Nat.le_trans hstep hmax), hcons]
    exact ih (fun c hc => hdigits c (List.mem_cons_of_mem _ hc)) hmax

theorem readTail_ends {negative : Bool} {n : Nat} {rest : List Char} (h : Ends rest) :
    readTail negative n 0 rest =
      if ! negative then .ok (int n, rest)
      else if n = 0 ∨ UInt64.size / 2 < n then .ok (real (Binary64.ofNat true n), rest)
      else .ok (int (-n), rest) := by
  cases rest with
  | nil => rfl
  | cons c rest =>
    obtain ⟨-, hpoint, hsmall, hlarge⟩ := h.not_numeral
    rw [readTail]
    · rfl
    · simpa using hpoint
    · simpa using hsmall
    · simpa using hlarge

theorem not_startsWithDigit {rest : List Char} (h : Ends rest) : startsWithDigit rest = false := by
  cases rest with
  | nil => rfl
  | cons c rest => exact h.not_numeral.1

theorem readNumber_digits {n : Nat} {rest : List Char} (negative : Bool) (hmax : n ≤ wordMax)
    (hends : Ends rest) :
    readNumber negative (Decimal.digits n ++ rest) = readTail negative n 0 rest := by
  have hstop := not_startsWithDigit hends
  by_cases hn : n = 0
  · subst hn
    rw [Decimal.digits, if_pos (by decide)]
    change (if startsWithDigit rest then _ else readTail negative 0 0 rest) = _
    rw [hstop, if_neg Bool.false_ne_true]
  · obtain ⟨c, ds, hdigits, hc, hdigit⟩ := Decimal.digits_head hn
    have hread : readSignificand 0 (Decimal.digits n ++ rest) =
        (Decimal.valueFrom 0 (Decimal.digits n), rest) :=
      readSignificand_append (fun c hc => Decimal.isDigit_of_mem_digits hc)
        (by rwa [Decimal.valueFrom_digits]) hends
    rw [Decimal.valueFrom_digits, hdigits, List.cons_append] at hread
    have hrest : digitCount rest = 0 ∧ skipDigits rest = rest := by
      cases rest with
      | nil => exact ⟨rfl, rfl⟩
      | cons c rest =>
        have hstop : Decimal.isDigit c = false := hstop
        simp [digitCount, skipDigits, hstop]
    rw [hdigits, List.cons_append, readNumber, hdigit, hread]
    · dsimp only
      rw [hrest.1, hrest.2]
      rfl
    · exact hc

/-- The integers that are still integers when they are read. -/
structure Exact (n : Int) : Prop where
  least : -(UInt64.size / 2 : Nat) ≤ n
  most : n ≤ wordMax

theorem readNumber_nat {n : Nat} {rest : List Char} (h : Exact n) (hends : Ends rest) :
    readNumber false (Decimal.digits n ++ rest) = .ok (int n, rest) := by
  have hmax : n ≤ wordMax := Int.ofNat_le.mp h.most
  rw [readNumber_digits false hmax hends, readTail_ends hends]
  rfl

theorem readNumber_negSucc {n : Nat} {rest : List Char} (h : Exact (.negSucc n))
    (hends : Ends rest) :
    readNumber true (Decimal.digits (n + 1) ++ rest) = .ok (int (.negSucc n), rest) := by
  have hleast : n + 1 ≤ UInt64.size / 2 := by
    have := h.least
    omega
  have hmax : n + 1 ≤ wordMax := Nat.le_trans hleast (by decide)
  rw [readNumber_digits true hmax hends, readTail_ends hends, Bool.not_true,
    if_neg Bool.false_ne_true, if_neg (by omega)]
  rfl

end Narrative.Json
