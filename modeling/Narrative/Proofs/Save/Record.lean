import Narrative.Proofs.Save.Header
import Narrative.Proofs.Save.Payload

namespace Narrative

open Outcome (ok_bind bind_eq_ok)

namespace RecordHeader

/-- The only header that a payload is accepted under. -/
def guarding (payload : Bytes) : RecordHeader :=
  ⟨formatVersion, (Crc32.hash payload).toNat, payload.length⟩

theorem check_eq_ok {h : RecordHeader} {payload : Bytes} :
    h.check payload = .ok () ↔ h = guarding payload := by
  obtain ⟨version, checksum, length⟩ := h
  simp only [check, guarding, RecordHeader.mk.injEq]
  split
  · simp [*]
  · split
    · simp_all [eq_comm]
    · split <;> simp_all [eq_comm]

theorem split_guarding {payload : Bytes} (h : payload.length < UInt32.size) (rest : Bytes) :
    split ((guarding payload).toBytes ++ rest) = .ok (guarding payload, rest) :=
  have hversion : formatVersion < 256 ^ 2 := by decide
  split_toBytes hversion (Crc32.hash payload).toNat_lt h rest

end RecordHeader

namespace SaveRecord

open RecordHeader (guarding)

variable {r : SaveRecord} {input b : Bytes}

theorem toBytes_eq_ok (h : r.payload.length < UInt32.size) :
    r.toBytes = .ok ((guarding r.payload).toBytes ++ r.payload) := by
  rw [toBytes, RecordHeader.ofPayload, if_pos h]
  rfl

theorem of_toBytes_eq_ok (h : r.toBytes = .ok b) :
    b = (guarding r.payload).toBytes ++ r.payload ∧ r.payload.length < UInt32.size := by
  by_cases hsize : r.payload.length < UInt32.size
  · rw [toBytes_eq_ok hsize] at h
    exact ⟨(Except.ok.inj h).symm, hsize⟩
  · rw [toBytes, RecordHeader.ofPayload, if_neg hsize] at h
    cases h

theorem split_of_ofBytes_eq_ok (h : ofBytes input = .ok r) :
    ∃ payload, RecordHeader.split input = .ok (guarding payload, payload) := by
  obtain ⟨⟨header, payload⟩, hsplit, h⟩ := bind_eq_ok.mp h
  obtain ⟨_, hcheck, _⟩ := bind_eq_ok.mp h
  rw [RecordHeader.check_eq_ok.mp hcheck] at hsplit
  exact ⟨payload, hsplit⟩

theorem lossless_payload : Payload.Lossless payload readPayload where
  ne_nil r := by simp [payload, Payload.lossless_save.ne_nil]
  read r hsize rest := by
    rw [payload, List.length_append] at hsize
    have hsave := Payload.lossless_save.read r.save (by omega) rest
    have hread : Payload.readScriptId (r.scriptId.toList ++ (Payload.save r.save ++ rest)) =
        .ok (r.scriptId, Payload.save r.save ++ rest) := by
      simp [Payload.readScriptId, Vector.toList]
    rw [readPayload, payload, List.append_assoc, hread, ok_bind]
    dsimp only
    rw [hsave, ok_bind]

theorem ofBytes_of_toBytes (h : r.toBytes = .ok b) : ofBytes b = .ok r := by
  obtain ⟨rfl, hsize⟩ := of_toBytes_eq_ok h
  have hwhole := lossless_payload.read r (Nat.lt_trans hsize (by decide)) []
  rw [List.append_nil] at hwhole
  rw [ofBytes, RecordHeader.split_guarding hsize, ok_bind]
  dsimp only
  rw [RecordHeader.check_eq_ok.mpr rfl, ok_bind, hwhole]

/-- A record that is written is read back, and its payload is read off whatever comes after it. -/
theorem ofBytes_toBytes (r : SaveRecord) (h : r.payload.length < UInt32.size) :
    (∃ b, r.toBytes = .ok b ∧ ofBytes b = .ok r) ∧
      ∀ rest, readPayload (r.payload ++ rest) = .ok (r, rest) := by
  have hread := lossless_payload.read r (Nat.lt_trans h (by decide))
  exact ⟨⟨_, toBytes_eq_ok h, ofBytes_of_toBytes (toBytes_eq_ok h)⟩, hread⟩

/-- Every kind of path item and of value, with the numbers that lie farthest out. -/
def sample : SaveRecord where
  scriptId := .replicate 32 0xFF
  save := {
    path := [.jump "start", .index Int64.minValue, .enterChoice 0xFFFFFFFFFFFFFFFF, .index Int64.maxValue,
      .exit .choice, .index (-1), .enterCondition "λ", .index 0, .exit .condition, .index 63,
      .enterBlock "", .index 64, .exit .block]
    state := .ofPairs [("flag", .bool true), ("gold", .int Int64.minValue), ("name", .text "Åsa")]
    snapshots := [.empty, .ofPairs [("gold", .int Int64.maxValue)]]
    time := 0xFFFFFFFFFFFFFFFF
    kind := .manual }

theorem ofBytes_toBytes_sample :
    sample.payload.length < UInt32.size ∧ (∃ b, sample.toBytes = .ok b ∧ ofBytes b = .ok sample) ∧
      ∀ rest, readPayload (sample.payload ++ rest) = .ok (sample, rest) := by
  have hsize : sample.payload.length < UInt32.size := by decide +kernel
  exact ⟨hsize, ofBytes_toBytes sample hsize⟩

end SaveRecord

end Narrative
