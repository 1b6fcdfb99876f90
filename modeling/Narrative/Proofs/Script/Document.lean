import Narrative.Proofs.Instruction.Document
import Narrative.Proofs.Text
import Narrative.Save.Record
import Narrative.Script.Check

namespace Narrative.Draft

open Schema (book)

/-- The variants of all conditions in a draft are maps, with their keys in order. -/
def InOrder (d : Draft) : Prop := Instruction.ListsInOrder d.scenes

theorem ofDatum?_toDatum (d : Draft) : ofDatum? d.toDatum = some (some version, d) := by
  have hscenes : ofScenes d.scenes = d := by
    obtain ⟨scenes, hordered⟩ := d
    rw [ofScenes]
    congr
    exact Keyed.ofList_eq hordered
  simp only [toDatum, ofDatum?, Instruction.variantsOf?_variantsToData]
  exact congrArg (fun d => some (some version, d)) hscenes

theorem fits (d : Draft) (h : d.InOrder) : Fits book (.named .script) d.toDatum :=
  .record rfl (.cons (.value (.text version)) (.cons (.value (.dict
    (Instruction.ordered_variantsToData d.ordered) (Instruction.fits_variants d.scenes h))) .nil))

/-- A draft is read back from its text, and compiles to the same script or fails in the same way. -/
theorem draft_read_back (d : Draft) (limits : Limits) (horder : d.InOrder)
    (hbytes : d.text.utf8ByteSize ≤ limits.scriptBytes) (hdepth : d.toJson.depth ≤ Json.maxLevels) :
    ofText limits d.text = .ok d ∧
      (ofText limits d.text >>= compile limits) = d.compile limits ∧
      (ofText limits d.text >>= compile limits).map Script.id = (d.compile limits).map Script.id := by
  have hread : Schema.ofText (.named .script) ofDatum? d.text = .ok (some version, d) :=
    Schema.ofText_toJson Json.blank_indented (d.fits horder) d.ofDatum?_toDatum hdepth
  have hsame : ofText limits d.text = .ok d := by
    rw [ofText, if_neg (Nat.not_lt.mpr hbytes), hread]
    exact if_pos rfl
  rw [hsame]
  exact ⟨rfl, rfl, rfl⟩

/-- A condition with a list for each of its keys. -/
def branching : Draft :=
  .ofScenes [("start", [.condition ⟨.flag "met", [("false", [.exit]), ("true", [.finish])]⟩])]

theorem branching_inOrder : branching.InOrder :=
  ⟨⟨⟨List.pairwise_pair.mpr (by decide), ⟨trivial, trivial⟩, ⟨trivial, trivial⟩, trivial⟩, trivial⟩,
    trivial⟩

theorem draft_read_back_branching :
    branching.InOrder ∧ branching.text.utf8ByteSize ≤ ({} : Limits).scriptBytes ∧
      branching.toJson.depth ≤ Json.maxLevels ∧ ofText {} branching.text = .ok branching := by
  have hbytes : branching.text.utf8ByteSize ≤ ({} : Limits).scriptBytes := by
    rw [text, Json.pretty, String.utf8ByteSize_ofList]
    decide +kernel
  have hdepth : branching.toJson.depth ≤ Json.maxLevels := by decide
  have hread := (draft_read_back branching {} branching_inOrder hbytes hdepth).1
  exact ⟨branching_inOrder, hbytes, hdepth, hread⟩

end Narrative.Draft

namespace Narrative

/-- Two messages that only their hash takes for one. -/
def Sha256.Collide (x y : Bytes) : Prop := x ≠ y ∧ hash x = hash y

namespace Script

open Schema (book)

variable {a b : Script}

/-- What is hashed for the id. -/
def canonicalBytes (s : Script) : Bytes := s.canonicalText.toUTF8.toList

theorem id_eq_hash (s : Script) : s.id = Sha256.hash s.canonicalBytes := rfl

theorem fits_scenes (h : a.toDraft.InOrder) :
    Fits book (.dict Schema.instructions) (.dict (Instruction.variantsToData a.scenes)) :=
  .dict (Instruction.ordered_variantsToData a.ordered) (Instruction.fits_variants a.scenes h)

theorem eq_of_scenes_eq (h : a.scenes = b.scenes) : a = b := by
  obtain ⟨scenes, hordered⟩ := a
  obtain ⟨others, hothers⟩ := b
  cases h
  rfl

theorem eq_of_canonicalText_eq (ha : a.toDraft.InOrder) (hb : b.toDraft.InOrder)
    (h : a.canonicalText = b.canonicalText) : a = b := by
  have hfits := fits_scenes ha
  have hfits' := fits_scenes hb
  have hwritten := String.ofList_injective h
  have hjson := Json.eq_of_write_eq Json.blank_tight
    (Format.writable_toJson Schema.distinct_book hfits)
    (Format.writable_toJson Schema.distinct_book hfits') hwritten
  have hdata := Format.eq_of_toJson_eq Schema.distinct_book hfits hfits' hjson
  have hvariants : Instruction.variantsToData a.scenes = Instruction.variantsToData b.scenes := by
    simpa using hdata
  have hscenes := Instruction.variantsOf?_variantsToData a.scenes
  rw [hvariants, Instruction.variantsOf?_variantsToData, Option.some.injEq] at hscenes
  exact eq_of_scenes_eq hscenes.symm

theorem eq_of_canonicalBytes_eq (ha : a.toDraft.InOrder) (hb : b.toDraft.InOrder)
    (h : a.canonicalBytes = b.canonicalBytes) : a = b := by
  have htext := Text.fromUTF8?_toUTF8 a.canonicalText
  have hbytes : a.canonicalText.toUTF8.toList = b.canonicalText.toUTF8.toList := h
  rw [hbytes, Text.fromUTF8?_toUTF8, Option.some.injEq] at htext
  exact eq_of_canonicalText_eq ha hb htext.symm

/-- The canonical bytes tell a script, and the record of one script is taken for one of another only if
the hash of their bytes collides. -/
theorem known_by_canonicalBytes (a b : Script) (ha : a.toDraft.InOrder) (hb : b.toDraft.InOrder) :
    (a.canonicalBytes = b.canonicalBytes ↔ a = b) ∧
      ∀ save : Save, (SaveRecord.mk a.id save).checkScript b.id = .ok () ↔
        a = b ∨ Sha256.Collide a.canonicalBytes b.canonicalBytes := by
  have hiff : a.canonicalBytes = b.canonicalBytes ↔ a = b :=
    ⟨eq_of_canonicalBytes_eq ha hb, fun h => h ▸ rfl⟩
  refine ⟨hiff, fun save => ?_⟩
  have hcheck : (SaveRecord.mk a.id save).checkScript b.id = .ok () ↔ a.id = b.id := by
    rw [SaveRecord.checkScript]
    split <;> simp_all
  rw [hcheck, id_eq_hash, id_eq_hash, Sha256.Collide, ne_eq, hiff]
  by_cases hsame : a = b
  · simp [hsame]
  · simp [hsame]

/-- One text that reads like the end of an instruction and the next one. -/
def lookalike : Script := ⟨[("start", [.text "\"\x7d,\x7b\"type\":\"end"])], List.pairwise_singleton _ _⟩

/-- The two instructions that it reads like. -/
def genuine : Script := ⟨[("start", [.text "", .finish])], List.pairwise_singleton _ _⟩

theorem known_by_canonicalBytes_lookalike :
    lookalike.toDraft.InOrder ∧ genuine.toDraft.InOrder ∧ lookalike ≠ genuine ∧
      lookalike.canonicalBytes ≠ genuine.canonicalBytes := by
  have hleft : lookalike.toDraft.InOrder := ⟨⟨trivial, trivial⟩, trivial⟩
  have hright : genuine.toDraft.InOrder := ⟨⟨trivial, trivial, trivial⟩, trivial⟩
  have hne : lookalike ≠ genuine := by
    intro h
    have hscenes := congrArg scenes h
    simp [lookalike, genuine] at hscenes
  have hbytes := (known_by_canonicalBytes lookalike genuine hleft hright).1
  exact ⟨hleft, hright, hne, fun h => hne (hbytes.mp h)⟩

end Script

end Narrative
