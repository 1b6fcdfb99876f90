import Narrative.Proofs.Digest
import Narrative.Proofs.Save.Record

namespace Narrative

/-- What may become of a file: a part is lost or something is added, its header is another, or its
payload is another within a window of four bytes. -/
inductive Damage (b : Bytes) : Bytes → Prop
  | cut {n : Nat} (h : n < b.length) : Damage b (b.take n)
  | added {extra : Bytes} (h : extra ≠ []) : Damage b (b ++ extra)
  | header {head : Bytes} (hlength : head.length = 14) (hne : head ≠ b.take 14) :
    Damage b (head ++ b.drop 14)
  | window {before old new after : Bytes} (hpayload : b.drop 14 = before ++ old ++ after)
    (hlength : new.length = old.length) (hshort : old.length ≤ 4) (hne : new ≠ old) :
    Damage b (b.take 14 ++ (before ++ new ++ after))

/-- A change of one byte is a change of the header or within a window. -/
theorem Damage.set {b : Bytes} {i : Nat} {v : UInt8} (hlong : 14 ≤ b.length) (hi : i < b.length)
    (hv : v ≠ b[i]) : Damage b (b.set i v) := by
  have hhead : (b.take 14).length = 14 := by
    rw [List.length_take]
    omega
  have hb : (b.take 14 ++ b.drop 14).set i v = b.set i v := by rw [List.take_append_drop]
  rcases Nat.lt_or_ge i 14 with hsmall | hlarge
  · rw [List.set_append_left _ _ (by omega)] at hb
    rw [← hb]
    refine .header (by rw [List.length_set, hhead]) fun heq => hv ?_
    have hat := congrArg (·[i]?) heq
    have hinside : i < min 14 b.length := by omega
    simpa [List.getElem?_set, hsmall, hi, hinside] using hat
  · obtain ⟨k, rfl⟩ := Nat.exists_eq_add_of_le hlarge
    have hk : k < (b.drop 14).length := by
      rw [List.length_drop]
      omega
    have hold : b.drop 14 = (b.drop 14).take k ++ [b[14 + k]] ++ (b.drop 14).drop (k + 1) := by
      rw [← List.getElem_drop (h := hk), List.append_assoc, List.singleton_append,
        List.getElem_cons_drop, List.take_append_drop]
    rw [List.set_append_right _ _ (by omega), hhead, Nat.add_sub_cancel_left,
      List.set_eq_take_append_cons_drop, if_pos hk, List.append_cons] at hb
    rw [← hb]
    exact .window hold rfl (by simp) (by simpa using hv)

namespace SaveRecord

open RecordHeader (guarding)

variable {r : SaveRecord} {b b' : Bytes}

theorem length_of_ofBytes_eq_ok (hread : ofBytes b' = .ok r) : 14 ≤ b'.length := by
  obtain ⟨payload, hsplit⟩ := split_of_ofBytes_eq_ok hread
  rw [RecordHeader.eq_toBytes_of_split hsplit, List.length_append, RecordHeader.length_toBytes]
  omega

/-- A payload that is accepted under the header of another is as long and has the same checksum. -/
theorem same_of_ofBytes_eq_ok {payload rest : Bytes} (hsize : payload.length < UInt32.size)
    (hread : ofBytes ((guarding payload).toBytes ++ rest) = .ok r) :
    rest.length = payload.length ∧ Crc32.hash rest = Crc32.hash payload := by
  obtain ⟨other, hsplit⟩ := split_of_ofBytes_eq_ok hread
  rw [RecordHeader.split_guarding hsize] at hsplit
  obtain ⟨hguard, rfl⟩ := Prod.mk.inj (Except.ok.inj hsplit)
  obtain ⟨-, hchecksum, hlength⟩ := RecordHeader.mk.inj hguard
  exact ⟨hlength.symm, (UInt32.toNat_inj.mp hchecksum).symm⟩

theorem head_of_ofBytes_eq_ok {head payload : Bytes} (hlength : head.length = 14)
    (hread : ofBytes (head ++ payload) = .ok r) : head = (guarding payload).toBytes := by
  obtain ⟨other, hsplit⟩ := split_of_ofBytes_eq_ok hread
  have hwhole := RecordHeader.eq_toBytes_of_split hsplit
  obtain ⟨hhead, rfl⟩ := List.append_inj hwhole (by rw [hlength, RecordHeader.length_toBytes])
  exact hhead

theorem not_ofBytes_of_damage (hb : r.toBytes = .ok b) (hdamage : Damage b b')
    {found : SaveRecord} : ofBytes b' ≠ .ok found := by
  intro hread
  obtain ⟨hfile, hsize⟩ := of_toBytes_eq_ok hb
  have hhead : (guarding r.payload).toBytes.length = 14 := RecordHeader.length_toBytes _
  have htake : b.take 14 = (guarding r.payload).toBytes := by rw [hfile, List.take_left' hhead]
  have hdrop : b.drop 14 = r.payload := by rw [hfile, List.drop_left' hhead]
  cases hdamage with
  | @cut n hn =>
    have hlong := length_of_ofBytes_eq_ok hread
    have hlength := congrArg List.length hdrop
    rw [List.length_take] at hlong
    rw [List.length_drop] at hlength
    have hcut : b.take n = (guarding r.payload).toBytes ++ r.payload.take (n - 14) := by
      rw [hfile, List.take_append, hhead, List.take_of_length_le (by omega)]
    rw [hcut] at hread
    have hsame := (same_of_ofBytes_eq_ok hsize hread).1
    rw [List.length_take] at hsame
    omega
  | @added extra hextra =>
    rw [hfile, List.append_assoc] at hread
    have hsame := (same_of_ofBytes_eq_ok hsize hread).1
    have hpos := List.length_pos_iff.mpr hextra
    rw [List.length_append] at hsame
    omega
  | header hlength hne =>
    rw [hdrop] at hread
    exact hne ((head_of_ofBytes_eq_ok hlength hread).trans htake.symm)
  | window hpayload hlength hshort hne =>
    rw [htake] at hread
    have hsame := (same_of_ofBytes_eq_ok hsize hread).2
    rw [← hdrop, hpayload] at hsame
    exact hne (Crc32.eq_of_hash_window hlength hshort hsame.symm).symm

theorem long_of_toBytes (hb : r.toBytes = .ok b) : 14 ≤ b.length := by
  rw [(of_toBytes_eq_ok hb).1, List.length_append, RecordHeader.length_toBytes]
  omega

/-- A file of a record that has been damaged is refused. In particular no byte of it can change
unnoticed. -/
theorem refuses_damage (hb : r.toBytes = .ok b) :
    (∀ b', Damage b b' → ∃ fault, ofBytes b' = .error fault) ∧
      ∀ (i : Nat) (hi : i < b.length) (v : UInt8), v ≠ b[i] →
        ∃ fault, ofBytes (b.set i v) = .error fault := by
  have hrefused : ∀ b', Damage b b' → ∃ fault, ofBytes b' = .error fault := by
    intro b' hdamage
    cases hread : ofBytes b' with
    | error fault => exact ⟨fault, rfl⟩
    | ok found => exact absurd hread (not_ofBytes_of_damage hb hdamage)
  exact ⟨hrefused, fun i hi v hv => hrefused _ (.set (long_of_toBytes hb) hi hv)⟩

theorem refuses_damage_sample :
    ∃ b, sample.toBytes = .ok b ∧ (∀ b', Damage b b' → ∃ fault, ofBytes b' = .error fault) ∧
      ∀ (i : Nat) (hi : i < b.length) (v : UInt8), v ≠ b[i] →
        ∃ fault, ofBytes (b.set i v) = .error fault := by
  have hsize : sample.payload.length < UInt32.size := by decide +kernel
  exact ⟨_, toBytes_eq_ok hsize, refuses_damage (toBytes_eq_ok hsize)⟩

end SaveRecord

end Narrative
