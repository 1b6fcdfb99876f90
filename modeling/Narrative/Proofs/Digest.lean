import Narrative.Proofs.Save.Header

namespace Narrative.Crc32

open RecordHeader

theorem and_one_eq_one (c : UInt32) : c &&& 1 = 1 ↔ c.toNat % 2 = 1 := by
  rw [← UInt32.toNat_inj, UInt32.toNat_and]
  simp [Nat.and_one_is_mod]

theorem shift_xor (a b : UInt32) : shift (a ^^^ b) = shift a ^^^ shift b := by
  have hlow : (a ^^^ b) &&& 1 = 1 ↔ ¬ (a &&& 1 = 1 ↔ b &&& 1 = 1) := by
    simp only [and_one_eq_one, UInt32.toNat_xor, Nat.xor_mod_two_eq_one]
  have hcancel : ∀ x y : UInt32, x ^^^ y = x ^^^ polynomial ^^^ (y ^^^ polynomial) := by
    intro x y
    rw [UInt32.xor_comm y, UInt32.xor_assoc, ← UInt32.xor_assoc polynomial, UInt32.xor_self,
      UInt32.zero_xor]
  rw [shift, shift, shift, UInt32.shiftRight_xor]
  by_cases ha : a &&& 1 = 1 <;> by_cases hb : b &&& 1 = 1
  · rw [if_neg (by simp [hlow, ha, hb]), if_pos ha, if_pos hb]
    exact hcancel _ _
  · rw [if_pos (by simp [hlow, ha, hb]), if_pos ha, if_neg hb, UInt32.xor_assoc,
      UInt32.xor_comm (b >>> 1), UInt32.xor_assoc]
  · rw [if_pos (by simp [hlow, ha, hb]), if_neg ha, if_pos hb, UInt32.xor_assoc]
  · rw [if_neg (by simp [hlow, ha, hb]), if_neg ha, if_neg hb]

theorem toNat_shift_of_even {c : UInt32} (h : c.toNat % 2 = 0) : (shift c).toNat = c.toNat / 2 := by
  have hlow : ¬ c &&& 1 = 1 := by
    rw [and_one_eq_one]
    omega
  rw [shift, if_neg hlow, UInt32.toNat_shiftRight]
  simp [Nat.shiftRight_eq_div_pow]

/-- The highest bit of the polynomial is set, and half of a remainder has none there. -/
theorem eq_zero_of_shift {c : UInt32} (h : shift c = 0) : c = 0 := by
  have hbound := c.toNat_lt
  rcases Nat.mod_two_eq_zero_or_one c.toNat with heven | hodd
  · have hhalf := toNat_shift_of_even heven
    rw [h] at hhalf
    have hzero : c.toNat / 2 = 0 := hhalf.symm
    exact UInt32.toNat_inj.mp (by simp; omega)
  · rw [shift, if_pos ((and_one_eq_one c).mpr hodd), UInt32.xor_eq_zero_iff] at h
    have hhalf : c.toNat / 2 = polynomial.toNat := by
      rw [← h, UInt32.toNat_shiftRight]
      simp [Nat.shiftRight_eq_div_pow]
    have hpolynomial : polynomial.toNat = 3988292384 := rfl
    omega

theorem shifts_add (m n : Nat) (c : UInt32) : shifts (m + n) c = shifts n (shifts m c) := by
  induction m generalizing c with
  | zero => rw [Nat.zero_add, shifts]
  | succ m ih => rw [Nat.succ_add, shifts, shifts, ih]

theorem shifts_xor (n : Nat) (a b : UInt32) : shifts n (a ^^^ b) = shifts n a ^^^ shifts n b := by
  induction n generalizing a b with
  | zero => rfl
  | succ n ih => rw [shifts, shifts, shifts, shift_xor, ih]

theorem eq_zero_of_shifts {n : Nat} {c : UInt32} (h : shifts n c = 0) : c = 0 := by
  induction n generalizing c with
  | zero => exact h
  | succ n ih => exact eq_zero_of_shift (ih h)

theorem shifts_injective (n : Nat) {a b : UInt32} (h : shifts n a = shifts n b) : a = b := by
  rw [← UInt32.xor_eq_zero_iff, ← shifts_xor] at h
  exact UInt32.xor_eq_zero_iff.mp (eq_zero_of_shifts h)

/-- As long as the bits taken out are zero, a shift halves. -/
theorem shifts_of_toNat {n : Nat} {c w : UInt32} (h : c.toNat = w.toNat * 2 ^ n) :
    shifts n c = w := by
  induction n generalizing c with
  | zero =>
    rw [pow_zero, Nat.mul_one] at h
    exact UInt32.toNat_inj.mp h
  | succ n ih =>
    rw [pow_succ, ← Nat.mul_assoc] at h
    have hhalf := toNat_shift_of_even (c := c) (by omega)
    exact ih (by omega)

theorem feed_injective (b : UInt8) {c d : UInt32} (h : feed c b = feed d b) : c = d :=
  (UInt32.xor_left_inj _).mp (shifts_injective 8 h)

theorem foldl_feed_injective (bytes : List UInt8) {c d : UInt32}
    (h : bytes.foldl feed c = bytes.foldl feed d) : c = d := by
  induction bytes generalizing c d with
  | nil => exact h
  | cons b rest ih => exact feed_injective b (ih h)

theorem xor_byte (b : UInt8) (n : Nat) (h : n < 256 ^ 3) :
    UInt32.ofNat (b.toNat + 256 * n) = b.toUInt32 ^^^ UInt32.ofNat (256 * n) := by
  have hb := b.toNat_lt
  have hhigh : (b.toNat ^^^ 256 * n) / 2 ^ 8 = n := by
    rw [Nat.xor_div_two_pow, Nat.div_eq_of_lt hb, Nat.zero_xor]
    omega
  have hlow : (b.toNat ^^^ 256 * n) % 2 ^ 8 = b.toNat := by
    rw [Nat.xor_mod_two_pow, Nat.mod_eq_of_lt hb, Nat.mul_mod_right, Nat.xor_zero]
  apply UInt32.toNat_inj.mp
  rw [UInt32.toNat_xor, UInt32.toNat_ofNat', UInt32.toNat_ofNat', UInt8.toNat_toUInt32,
    Nat.mod_eq_of_lt (by omega), Nat.mod_eq_of_lt (by omega)]
  omega

/-- Up to four bytes act as one number that is laid over the remainder. -/
theorem foldl_feed_eq_shifts {bytes : List UInt8} (h : bytes.length ≤ 4) (c : UInt32) :
    bytes.foldl feed c =
      shifts (8 * bytes.length) (c ^^^ UInt32.ofNat (ofLittleEndian bytes)) := by
  induction bytes generalizing c with
  | nil => exact UInt32.xor_zero.symm
  | cons b rest ih =>
    rw [List.length_cons] at h
    have hrest : ofLittleEndian rest < 256 ^ 3 :=
      Nat.lt_of_lt_of_le (ofLittleEndian_lt rest) (Nat.pow_le_pow_right (by decide) (by omega))
    have hmoved : shifts 8 (UInt32.ofNat (256 * ofLittleEndian rest)) =
        UInt32.ofNat (ofLittleEndian rest) := by
      apply shifts_of_toNat
      rw [UInt32.toNat_ofNat', UInt32.toNat_ofNat']
      omega
    calc
      (b :: rest).foldl feed c = rest.foldl feed (shifts 8 (c ^^^ b.toUInt32)) := rfl
      _ = shifts (8 * rest.length)
          (shifts 8 (c ^^^ b.toUInt32) ^^^ UInt32.ofNat (ofLittleEndian rest)) := ih (by omega) _
      _ = shifts (8 * rest.length)
          (shifts 8 (c ^^^ UInt32.ofNat (b.toNat + 256 * ofLittleEndian rest))) := by
        rw [← hmoved, ← shifts_xor, xor_byte b _ hrest, UInt32.xor_assoc]
      _ = shifts (8 * (b :: rest).length)
          (c ^^^ UInt32.ofNat (ofLittleEndian (b :: rest))) := by
        rw [← shifts_add, List.length_cons, Nat.mul_succ, Nat.add_comm, ofLittleEndian]

theorem eq_of_foldl_feed {old new : List UInt8} (hlength : new.length = old.length)
    (hshort : old.length ≤ 4) {c : UInt32} (h : old.foldl feed c = new.foldl feed c) :
    old = new := by
  rw [foldl_feed_eq_shifts hshort, foldl_feed_eq_shifts (by omega), hlength] at h
  have hword := (UInt32.xor_right_inj c).mp (shifts_injective _ h)
  have hfits : ∀ bytes : List UInt8, bytes.length ≤ 4 →
      (UInt32.ofNat (ofLittleEndian bytes)).toNat = ofLittleEndian bytes := by
    intro bytes hbytes
    have hlt : ofLittleEndian bytes < 256 ^ 4 :=
      Nat.lt_of_lt_of_le (ofLittleEndian_lt bytes) (Nat.pow_le_pow_right (by decide) hbytes)
    exact UInt32.toNat_ofNat_of_lt' hlt
  have hnumber := congrArg UInt32.toNat hword
  rw [hfits old hshort, hfits new (by omega)] at hnumber
  exact ofLittleEndian_injective hlength.symm hnumber

/-- Messages of one checksum that agree outside of four bytes in a row are the same. -/
theorem eq_of_hash_window {before old new after : List UInt8} (hlength : new.length = old.length)
    (hshort : old.length ≤ 4)
    (h : hash (before ++ old ++ after) = hash (before ++ new ++ after)) : old = new := by
  rw [hash, hash, UInt32.xor_left_inj] at h
  simp only [List.foldl_append] at h
  exact eq_of_foldl_feed hlength hshort (foldl_feed_injective after h)

end Narrative.Crc32
