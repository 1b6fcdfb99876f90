import Mathlib.Data.String.Basic
import Narrative.Proofs.Lists
import Narrative.Text

namespace Narrative.Text.Decimal

/-- The value of some digits that stand behind a number. -/
def valueFrom (n : Nat) (s : List Char) : Nat := s.foldl (fun n c => n * 10 + (value? c).getD 0) n

theorem value?_digit {n : Nat} (h : n < 10) : value? (digit n) = some n := by
  revert h
  revert n
  decide

theorem isDigit_digit {n : Nat} (h : n < 10) : isDigit (digit n) = true := by
  revert h
  revert n
  decide

theorem isDigit_of_mem_digits {n : Nat} {c : Char} (h : c ∈ digits n) : isDigit c = true := by
  induction n using digits.induct with
  | case1 n hn =>
    rw [digits, if_pos hn, List.mem_singleton] at h
    rw [h]
    exact isDigit_digit hn
  | case2 n hn ih =>
    rw [digits, if_neg hn, List.mem_append, List.mem_singleton] at h
    rcases h with h | rfl
    · exact ih h
    · exact isDigit_digit (Nat.mod_lt n (by decide))

theorem value?_of_isDigit {c : Char} (h : isDigit c = true) : ∃ n, value? c = some n := by
  rw [isDigit, Bool.and_eq_true, decide_eq_true_iff, decide_eq_true_iff] at h
  exact ⟨_, if_pos h⟩

theorem value?_eq_none {c : Char} (h : isDigit c = false) : value? c = none := by
  rw [isDigit, Bool.and_eq_false_iff, decide_eq_false_iff_not, decide_eq_false_iff_not] at h
  rw [value?, if_neg]
  rintro ⟨hleast, hmost⟩
  exact h.elim (fun h => h hleast) (fun h => h hmost)

theorem valueFrom_digits (n : Nat) : valueFrom 0 (digits n) = n := by
  induction n using digits.induct with
  | case1 n hn =>
    rw [digits, if_pos hn, valueFrom, List.foldl_cons, List.foldl_nil, value?_digit hn]
    simp
  | case2 n hn ih =>
    rw [valueFrom] at ih
    rw [digits, if_neg hn, valueFrom, List.foldl_append, ih, List.foldl_cons, List.foldl_nil,
      value?_digit (Nat.mod_lt n (by decide)), Option.getD_some]
    omega

theorem le_valueFrom (n : Nat) (s : List Char) : n ≤ valueFrom n s := by
  induction s generalizing n with
  | nil => exact Nat.le_refl n
  | cons c rest ih =>
    have hrest := ih (n * 10 + (value? c).getD 0)
    have hcons : valueFrom n (c :: rest) = valueFrom (n * 10 + (value? c).getD 0) rest := rfl
    omega

theorem digits_ne_nil (n : Nat) : digits n ≠ [] := by
  rw [digits]
  split <;> simp

theorem exists_cons_digits (n : Nat) : ∃ c ds, digits n = c :: ds ∧ isDigit c = true := by
  obtain ⟨c, ds, hdigits⟩ := List.exists_cons_of_ne_nil (digits_ne_nil n)
  exact ⟨c, ds, hdigits, isDigit_of_mem_digits (hdigits ▸ List.mem_cons_self)⟩

theorem digit_ne_zero {n : Nat} (h : n < 10) (hn : n ≠ 0) : digit n ≠ '0' := by
  revert h hn
  revert n
  decide

/-- Only zero starts with a zero. -/
theorem digits_head {n : Nat} (h : n ≠ 0) :
    ∃ c rest, digits n = c :: rest ∧ c ≠ '0' ∧ isDigit c = true := by
  induction n using digits.induct with
  | case1 n hn =>
    rw [digits, if_pos hn]
    exact ⟨digit n, [], rfl, digit_ne_zero hn h, isDigit_digit hn⟩
  | case2 n hn ih =>
    obtain ⟨c, rest, hdigits, hc⟩ := ih (by omega)
    rw [digits, if_neg hn, hdigits]
    exact ⟨c, rest ++ [digit (n % 10)], rfl, hc⟩

end Narrative.Text.Decimal

namespace Narrative.Text.Hex

theorem value?_digit {n : Nat} (h : n < 16) : value? (digit n) = some n := by
  revert h
  revert n
  decide

theorem lowerCase_digit {n : Nat} (h : n < 16) :
    ('0' ≤ digit n ∧ digit n ≤ '9') ∨ ('a' ≤ digit n ∧ digit n ≤ 'f') := by
  revert h
  revert n
  decide

/-- Two lower-case digits for each byte, from which the bytes can be read back. -/
structure Writes (s : String) (bytes : List UInt8) : Prop where
  length : s.toList.length = 2 * bytes.length
  lowerCase : ∀ c ∈ s.toList, ('0' ≤ c ∧ c ≤ '9') ∨ ('a' ≤ c ∧ c ≤ 'f')
  readBack : toBytes? s.toList = some bytes

theorem toBytes?_flatMap (bytes : List UInt8) : toBytes? (bytes.flatMap ofByte) = some bytes := by
  induction bytes with
  | nil => rfl
  | cons b rest ih =>
    have hb := b.toNat_lt
    have hhigh := value?_digit (n := b.toNat / 16) (by omega)
    have hlow := value?_digit (n := b.toNat % 16) (by omega)
    have hbyte : UInt8.ofNat (16 * (b.toNat / 16) + b.toNat % 16) = b := by
      rw [Nat.div_add_mod, UInt8.ofNat_toNat]
    rw [List.flatMap_cons, ofByte, List.cons_append, List.singleton_append, toBytes?, hhigh, hlow, ih]
    change some (UInt8.ofNat (16 * (b.toNat / 16) + b.toNat % 16) :: rest) = some (b :: rest)
    rw [hbyte]

theorem writes_ofBytes (bytes : List UInt8) : Writes (ofBytes bytes) bytes where
  length := by
    rw [ofBytes, String.toList_ofList, List.length_flatMap]
    simp [ofByte, Nat.mul_comm]
  lowerCase := by
    intro c hc
    rw [ofBytes, String.toList_ofList, List.mem_flatMap] at hc
    obtain ⟨b, -, hc⟩ := hc
    have hb := b.toNat_lt
    rcases List.mem_pair.mp hc with rfl | rfl
    · exact lowerCase_digit (by omega)
    · exact lowerCase_digit (by omega)
  readBack := by rw [ofBytes, String.toList_ofList, toBytes?_flatMap]

end Narrative.Text.Hex

namespace Narrative.Text

theorem toList_loop (b : ByteArray) (i : Nat) (r : List UInt8) :
    ByteArray.toList.loop b i r = r.reverse ++ b.data.toList.drop i := by
  fun_induction ByteArray.toList.loop b i r with
  | case1 i r h ih =>
    have hlt : i < b.data.toList.length := h
    have hbyte : b.get! i = b.data.toList[i] := getElem!_pos b.data i h
    rw [ih, List.drop_eq_getElem_cons hlt, List.reverse_cons, List.append_assoc,
      List.singleton_append, hbyte]
  | case2 i r h =>
    have hge : b.data.toList.length ≤ i := Nat.le_of_not_lt h
    rw [List.drop_eq_nil_of_le hge, List.append_nil]

theorem toList_toUTF8 (s : String) : s.toUTF8.toList = s.toByteArray.data.toList := by
  rw [ByteArray.toList, toList_loop]
  simp

theorem fromUTF8?_toUTF8 (s : String) : String.fromUTF8? ⟨s.toUTF8.toList.toArray⟩ = some s := by
  rw [toList_toUTF8, Array.toArray_toList, String.fromUTF8?, dif_pos s.isValidUTF8]
  rfl

theorem toByteArray_of_fromUTF8? {bytes : ByteArray} {s : String}
    (h : String.fromUTF8? bytes = some s) : s.toByteArray = bytes := by
  rw [String.fromUTF8?] at h
  split at h
  · rw [← Option.some.inj h]
    rfl
  · cases h

theorem toUTF8_ofList (cs : List Char) :
    (String.ofList cs).toUTF8.toList = cs.flatMap String.utf8EncodeChar := by
  rw [toList_toUTF8, String.toByteArray_ofList, List.utf8Encode, List.toList_data_toByteArray]

/-- The bytes of a character do not start with those of another. -/
theorem not_char_of_take {c d : Char} {rest : List UInt8} {s : String} {n : Nat}
    (hn : n < c.utf8Size)
    (h : String.fromUTF8? ⟨((String.utf8EncodeChar c ++ rest).take n).toArray⟩ = some s) :
    s.toList ≠ [d] := by
  intro hs
  have hsize := String.length_utf8EncodeChar c
  have hbytes : String.utf8EncodeChar d = (String.utf8EncodeChar c).take n := by
    have hencoded := toByteArray_of_fromUTF8? h
    rw [List.take_append_of_le_length (by omega), ← String.utf8Encode_toList, hs,
      List.utf8Encode, List.flatMap_singleton] at hencoded
    rw [← List.toList_data_toByteArray (l := String.utf8EncodeChar d), hencoded]
  have hprefix : [d].utf8Encode ++ ((String.utf8EncodeChar c).drop n).toByteArray = [c].utf8Encode := by
    rw [List.utf8Encode, List.utf8Encode, List.flatMap_singleton, List.flatMap_singleton,
      ← List.toByteArray_append, hbytes, List.take_append_drop]
  have hsame : d = c := by
    simpa using List.isPrefix_of_utf8Encode_append_eq_utf8Encode _ hprefix
  have hlength := congrArg List.length hbytes
  rw [List.length_take, hsame, hsize] at hlength
  omega

theorem leadingChar?_utf8EncodeChar (c : Char) (rest : List UInt8) :
    leadingChar? (String.utf8EncodeChar c ++ rest) = some (c, c.utf8Size) := by
  have hwhole : String.fromUTF8? ⟨((String.utf8EncodeChar c ++ rest).take c.utf8Size).toArray⟩ =
      some (String.ofList [c]) := by
    have hread := fromUTF8?_toUTF8 (String.ofList [c])
    rw [toUTF8_ofList, List.flatMap_singleton] at hread
    rw [← String.length_utf8EncodeChar c, List.take_left, hread]
  obtain ⟨shorter, longer, hsizes, hshorter⟩ : ∃ shorter longer,
      [1, 2, 3, 4] = shorter ++ c.utf8Size :: longer ∧ ∀ n ∈ shorter, n < c.utf8Size := by
    have hpos := c.utf8Size_pos
    have hfour := c.utf8Size_le_four
    have hcases : c.utf8Size = 1 ∨ c.utf8Size = 2 ∨ c.utf8Size = 3 ∨ c.utf8Size = 4 := by omega
    rcases hcases with h | h | h | h
    · exact ⟨[], [2, 3, 4], by rw [h]; rfl, by simp⟩
    · exact ⟨[1], [3, 4], by rw [h]; rfl, by simp [h]⟩
    · exact ⟨[1, 2], [4], by rw [h]; rfl, by simp [h]⟩
    · exact ⟨[1, 2, 3], [], by rw [h]; rfl, by simp [h]⟩
  rw [leadingChar?, hsizes, List.findSome?_append, List.findSome?_eq_none_iff.mpr, Option.none_or,
    List.findSome?_cons, hwhole, Option.map_some, String.toList_ofList]
  intro n hn
  split
  · rename_i d hd
    obtain ⟨s, hs, hlist⟩ := Option.map_eq_some_iff.mp hd
    exact absurd hlist (not_char_of_take (hshorter n hn) hs)
  · rfl

theorem patchedChars_flatMap (stand : Char) {cs : List Char} {n : Nat} (h : cs.length ≤ n) :
    patchedChars stand n (cs.flatMap String.utf8EncodeChar) = cs := by
  induction cs generalizing n with
  | nil => cases n <;> rfl
  | cons c cs ih =>
    obtain ⟨n, rfl⟩ := Nat.exists_eq_add_of_le' (Nat.le_trans (Nat.succ_pos cs.length) h)
    have hlead := leadingChar?_utf8EncodeChar c (cs.flatMap String.utf8EncodeChar)
    obtain ⟨b, bytes, hbytes⟩ := List.exists_cons_of_length_pos (l := String.utf8EncodeChar c)
      (String.length_utf8EncodeChar c ▸ c.utf8Size_pos)
    have hrest : (bytes ++ cs.flatMap String.utf8EncodeChar).drop (c.utf8Size - 1) =
        cs.flatMap String.utf8EncodeChar := by
      rw [← String.length_utf8EncodeChar c, hbytes, List.length_cons, Nat.add_sub_cancel,
        List.drop_left]
    rw [hbytes] at hlead
    rw [List.flatMap_cons, hbytes, List.cons_append, patchedChars, ← List.cons_append, hlead]
    dsimp only
    rw [hrest, ih (Nat.le_of_succ_le_succ h)]

/-- Nothing is patched in the bytes of a text. -/
theorem patched_toUTF8 (stand : Char) (s : String) : patched stand s.toUTF8.toList = s := by
  have hbytes : s.toUTF8.toList = s.toList.flatMap String.utf8EncodeChar := by
    rw [← toUTF8_ofList, String.ofList_toList]
  have hlength : s.toList.length ≤ s.toUTF8.toList.length := by
    rw [hbytes]
    refine length_le_flatMap (fun c hempty => ?_) s.toList
    have hsize := String.length_utf8EncodeChar c
    rw [hempty] at hsize
    exact Nat.ne_of_gt c.utf8Size_pos hsize.symm
  rw [patched, hbytes, patchedChars_flatMap stand (hbytes ▸ hlength), String.ofList_toList]

end Narrative.Text
