import Narrative.Proofs.Save.Payload
import Narrative.Proofs.Schema
import Narrative.Proofs.Text
import Narrative.Save.Basic
import Narrative.Save.Label

namespace Narrative.SlotLabel

open Schema (fits_word allows_text? book)

theorem holds_u16 (n : UInt16) : Width.u16.holds n.toNat = true := by
  have hn : n.toNat < 65536 := n.toNat_lt
  have hgreatest : Width.u16.greatest = 65536 - 1 := rfl
  have hleast : Width.u16.least = 0 := rfl
  rw [Width.holds_iff, hleast, hgreatest]
  omega

theorem ofDatum?_toDatum (l : SlotLabel) : ofDatum? l.toDatum = some l := by
  obtain ⟨slot, quick, updated, scriptId, kind, scene, pathLength, snapshotCount⟩ := l
  cases kind <;> cases scene <;>
    simp [toDatum, ofDatum?, Datum.ofWord, Datum.word?, Datum.ofText?, Datum.orNull, Datum.text?,
      SaveKind.toDatum, SaveKind.word, SaveKind.ofDatum?]

theorem fits (l : SlotLabel) : Fits book (.named .slotLabel) l.toDatum := by
  have hkind : Fits book (.named .saveKind) l.kind.toDatum := .word rfl (by cases l.kind <;> decide)
  exact .record rfl (.cons (.value (.int (holds_u16 l.slot))) (.cons (.value (.bool l.quick))
    (.cons (.value (fits_word (.inl rfl) l.updated)) (.cons (.value (.text l.scriptId))
      (.cons (.value hkind) (.cons (allows_text? "scene" l.scene)
        (.cons (.value (fits_word (.inr rfl) l.pathLength))
          (.cons (.value (fits_word (.inr rfl) l.snapshotCount)) .nil))))))))

theorem depth_toJson (l : SlotLabel) : l.toJson.depth ≤ 1 := by
  obtain ⟨slot, quick, updated, scriptId, kind, scene, pathLength, snapshotCount⟩ := l
  cases kind <;> cases scene <;> exact Nat.le_refl 1

theorem ofText_text (l : SlotLabel) : ofText l.text = .ok l :=
  Schema.ofText_toJson Json.blank_indented l.fits l.ofDatum?_toDatum
    (Nat.le_trans l.depth_toJson (by decide))

/-- A label that has been written is read back. -/
theorem ofBytes?_text (l : SlotLabel) : ofBytes? l.text.toUTF8.toList = some l := by
  simp only [ofBytes?, Text.patched_toUTF8, ofText_text, Except.toOption, and_self, if_true]

end Narrative.SlotLabel

namespace Narrative

open Schema (fits_word fits_int64 book)

namespace PathItem

theorem ofDatum?_toDatum (i : PathItem) : ofDatum? i.toDatum = some i := by
  cases i with
  | exit kind => cases kind <;> rfl
  | index n => simp [toDatum, ofDatum?]
  | jump scene => rfl
  | enterChoice branch => simp [toDatum, ofDatum?, BranchKind.word]
  | enterCondition key => rfl
  | enterBlock scene => rfl

theorem fits (i : PathItem) : Fits book (.named .pathItem) i.toDatum := by
  cases i with
  | index n => exact .led rfl (.head _) (.cons (fits_int64 n) .nil)
  | jump scene => exact .led rfl (.tail _ (.head _)) (.cons (.text scene) .nil)
  | enterChoice branch =>
    exact .led rfl (.tail _ (.tail _ (.head _))) (.cons (fits_word (.inr rfl) branch) .nil)
  | enterCondition key =>
    exact .led rfl (.tail _ (.tail _ (.tail _ (.head _)))) (.cons (.text key) .nil)
  | enterBlock scene =>
    exact .led rfl (.tail _ (.tail _ (.tail _ (.tail _ (.head _))))) (.cons (.text scene) .nil)
  | exit kind =>
    have hcase : (some kind.exitWord, none) ∈ Schema.pathItemCases := by
      cases kind <;> simp [Schema.pathItemCases, BranchKind.exitWord]
    exact .led rfl hcase .nil

theorem depth_toJson (i : PathItem) : i.toJson.depth ≤ 1 := by
  cases i with
  | exit kind => cases kind <;> exact Nat.le_refl 1
  | index n => exact Nat.le_refl 1
  | jump scene => exact Nat.le_refl 1
  | enterChoice branch => exact Nat.le_refl 1
  | enterCondition key => exact Nat.le_refl 1
  | enterBlock scene => exact Nat.le_refl 1

end PathItem

theorem Path.ofDatum?_toDatum (p : Path) : ofDatum? (toDatum p) = some p :=
  mapM_map_eq_some fun i _ => i.ofDatum?_toDatum

theorem Path.fits (p : Path) : Fits book Schema.path (toDatum p) :=
  .list (List.forall_mem_map.mpr fun i _ => i.fits)

namespace StateValue

theorem ofDatum?_toDatum (v : StateValue) : ofDatum? v.toDatum = some v := by
  cases v with
  | bool b => rfl
  | int n => simp [toDatum, ofDatum?]
  | text s => rfl

theorem fits (v : StateValue) : Fits book (.named .stateValue) v.toDatum := by
  cases v with
  | bool b => exact .wrapped rfl (.head _) (.bool b)
  | int n => exact .wrapped rfl (.tail _ (.head _)) (fits_int64 n)
  | text s => exact .wrapped rfl (.tail _ (.tail _ (.head _))) (.text s)

theorem depth_toJson (v : StateValue) : v.toJson.depth ≤ 1 := by
  cases v <;> exact Nat.le_refl 1

end StateValue

namespace PlayerState

theorem ofDatum?_toDatum (s : PlayerState) : ofDatum? s.toDatum = some s := by
  have hread : (s.values.map fun e => (e.1, e.2.toDatum)).mapM
      (fun e => do some (e.1, ← StateValue.ofDatum? e.2)) = some s.values := by
    refine mapM_map_eq_some fun e _ => ?_
    rw [e.2.ofDatum?_toDatum]
    rfl
  rw [toDatum, ofDatum?, hread]
  exact congrArg some s.ofPairs_values

theorem fits (s : PlayerState) : Fits book Schema.states s.toDatum := by
  refine .dict ?_ (List.forall_mem_map.mpr fun e _ => e.2.fits)
  exact List.pairwise_map.mpr s.ordered

theorem depth_toJson (s : PlayerState) : s.toJson.depth ≤ 2 := by
  rw [toJson, toDatum, Schema.states, Format.toJson_dict, List.map_map]
  exact Json.depth_obj_le_succ (List.forall_mem_map.mpr fun e _ => e.2.depth_toJson)

end PlayerState

namespace Save

theorem ofDatum?_toDatum (s : Save) : ofDatum? s.toDatum = some s := by
  have hkind : SaveKind.ofDatum? s.kind.toDatum = some s.kind := by cases s.kind <;> rfl
  have hsnapshots : (s.snapshots.map PlayerState.toDatum).mapM PlayerState.ofDatum? =
      some s.snapshots := mapM_map_eq_some fun state _ => state.ofDatum?_toDatum
  simp only [toDatum, ofDatum?, Path.ofDatum?_toDatum, PlayerState.ofDatum?_toDatum, hkind, hsnapshots,
    Datum.word?_ofWord]
  rfl

theorem fits (s : Save) : Fits book (.named .save) s.toDatum := by
  have hkind : Fits book (.named .saveKind) s.kind.toDatum :=
    .word rfl (by cases s.kind <;> decide)
  have hstamp : Fits book (.named .stamp) (.record [.ofWord s.time, s.kind.toDatum]) :=
    .tuple rfl (.cons (fits_word (.inl rfl) s.time) (.cons hkind .nil))
  have hsnapshots : Fits book (.list Schema.states) (.list (s.snapshots.map PlayerState.toDatum)) :=
    .list (List.forall_mem_map.mpr fun state _ => state.fits)
  exact .tuple rfl
    (.cons (Path.fits s.path) (.cons s.state.fits (.cons hstamp (.cons hsnapshots .nil))))

theorem depth_toJson (s : Save) : s.toJson.depth ≤ 4 := by
  have hpath : (Path.toJson s.path).depth ≤ 3 := by
    rw [Path.toJson, Path.toDatum, Schema.path, Format.toJson_list, List.map_map]
    exact Json.depth_arr_le_succ (List.forall_mem_map.mpr fun i _ => i.depth_toJson.trans (by decide))
  have hstamp : (Format.toJson book (.named .stamp) (.record [.ofWord s.time, s.kind.toDatum])).depth ≤
      3 := by
    cases s.kind <;> exact (by decide : 1 ≤ 3)
  have hsnapshots : (Format.toJson book (.list Schema.states)
      (.list (s.snapshots.map PlayerState.toDatum))).depth ≤ 3 := by
    rw [Format.toJson_list, List.map_map]
    exact Json.depth_arr_le_succ (List.forall_mem_map.mpr fun state _ => state.depth_toJson)
  have hstate : s.state.toJson.depth ≤ 3 := s.state.depth_toJson.trans (by decide)
  rw [toJson, toDatum, Format.toJson_tuple rfl]
  refine Json.depth_arr_le_succ ?_
  simp only [Format.partsToJson, List.forall_mem_cons]
  exact ⟨hpath, hstate, hstamp, hsnapshots, List.forall_mem_nil _⟩

/-- Every save is read back from its text. -/
theorem text_read_back (s : Save) : ofText s.text = .ok s :=
  Schema.ofText_toJson Json.blank_tight s.fits s.ofDatum?_toDatum
    (Nat.le_trans s.depth_toJson (by decide))

end Save

end Narrative
