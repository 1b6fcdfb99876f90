import Mathlib.Algebra.Group.Nat.Defs
import Narrative.Save.Record

namespace Narrative.RecordHeader

theorem length_littleEndian (n value : Nat) : (littleEndian n value).length = n := by
  induction n generalizing value with
  | zero => rfl
  | succ n ih => rw [littleEndian, List.length_cons, ih]

theorem ofLittleEndian_lt (bytes : List UInt8) : ofLittleEndian bytes < 256 ^ bytes.length := by
  induction bytes with
  | nil => exact Nat.one_pos
  | cons b rest ih =>
    have hb := b.toNat_lt
    rw [ofLittleEndian, List.length_cons, pow_succ]
    omega

theorem ofLittleEndian_injective {first second : List UInt8}
    (hlength : first.length = second.length) (h : ofLittleEndian first = ofLittleEndian second) :
    first = second := by
  induction first generalizing second with
  | nil => exact (List.length_eq_zero_iff.mp hlength.symm).symm
  | cons b rest ih =>
    cases second with
    | nil => cases hlength
    | cons b' rest' =>
      simp only [ofLittleEndian] at h
      have hb := b.toNat_lt
      have hb' := b'.toNat_lt
      have hhead : b = b' := UInt8.toNat_inj.mp (by omega)
      have htail : rest = rest' := ih (Nat.succ.inj hlength) (by omega)
      rw [hhead, htail]

theorem ofLittleEndian_littleEndian {n value : Nat} (h : value < 256 ^ n) :
    ofLittleEndian (littleEndian n value) = value := by
  induction n generalizing value with
  | zero =>
    rw [pow_zero] at h
    rw [littleEndian, ofLittleEndian]
    omega
  | succ n ih =>
    rw [pow_succ] at h
    have hlow : (UInt8.ofNat (value % 256)).toNat = value % 256 := by simp
    rw [littleEndian, ofLittleEndian, ih (by omega), hlow]
    omega

theorem littleEndian_ofLittleEndian (bytes : Bytes) :
    littleEndian bytes.length (ofLittleEndian bytes) = bytes :=
  ofLittleEndian_injective (length_littleEndian _ _)
    (ofLittleEndian_littleEndian (ofLittleEndian_lt bytes))

theorem length_toBytes (h : RecordHeader) : h.toBytes.length = 14 := by
  simp [toBytes, length_littleEndian, magic]

theorem split_fields {version checksum length : Bytes} (hversion : version.length = 2)
    (hchecksum : checksum.length = 4) (hlength : length.length = 4) (payload : Bytes) :
    split (magic ++ (version ++ (checksum ++ (length ++ payload)))) =
      .ok (⟨ofLittleEndian version, ofLittleEndian checksum, ofLittleEndian length⟩, payload) := by
  have hmagic : magic.length = 4 := rfl
  have hlong : ¬ (magic ++ (version ++ (checksum ++ (length ++ payload)))).length < 14 := by
    simp only [List.length_append]
    omega
  rw [split, if_neg hlong, List.take_left' hmagic, if_neg (by simp)]
  simp [List.drop_append, hmagic, hversion, hchecksum, hlength, List.drop_eq_nil_of_le]

theorem split_toBytes {h : RecordHeader} (hversion : h.version < 256 ^ 2)
    (hchecksum : h.checksum < 256 ^ 4) (hlength : h.length < 256 ^ 4) (payload : Bytes) :
    split (h.toBytes ++ payload) = .ok (h, payload) := by
  have hsplit := split_fields (length_littleEndian 2 h.version) (length_littleEndian 4 h.checksum)
    (length_littleEndian 4 h.length) payload
  rw [ofLittleEndian_littleEndian hversion, ofLittleEndian_littleEndian hchecksum,
    ofLittleEndian_littleEndian hlength] at hsplit
  simpa only [toBytes, List.append_assoc] using hsplit

theorem drop_eq_take_append_drop (bytes : Bytes) (start count : Nat) :
    bytes.drop start = (bytes.drop start).take count ++ bytes.drop (start + count) := by
  rw [← List.drop_drop, List.take_append_drop]

/-- A file divides into a header and a payload in one way only. -/
theorem eq_toBytes_of_split {input payload : Bytes} {h : RecordHeader}
    (hsplit : split input = .ok (h, payload)) : input = h.toBytes ++ payload := by
  rw [split] at hsplit
  split at hsplit
  · cases hsplit
  · rename_i hlong
    split at hsplit
    · cases hsplit
    · rename_i hmagic
      cases hsplit
      have hfield : ∀ start count, start + count ≤ 14 →
          littleEndian count (ofLittleEndian ((input.drop start).take count)) =
            (input.drop start).take count := by
        intro start count hinside
        have hcount : ((input.drop start).take count).length = count := by
          rw [List.length_take, List.length_drop]
          omega
        have hback := littleEndian_ofLittleEndian ((input.drop start).take count)
        rwa [hcount] at hback
      rw [toBytes, hfield 4 2 (by decide), hfield 6 4 (by decide), hfield 10 4 (by decide),
        ← Decidable.not_not.mp hmagic]
      simp only [List.append_assoc]
      rw [← drop_eq_take_append_drop input 10 4, ← drop_eq_take_append_drop input 6 4,
        ← drop_eq_take_append_drop input 4 2, List.take_append_drop]

end Narrative.RecordHeader
