import Narrative.Proofs.Format.Strict
import Narrative.Proofs.Save.Document

namespace Narrative

open Schema (book)

namespace PathItem

/-- An item is written as a word, or `null` for an index, and what the word asks for. -/
def wire : PathItem → List Json
  | jump scene => [.str "jump", .str scene]
  | index n => [.null, .int n.toInt]
  | enterChoice branch => [.str "choice", .int branch.toNat]
  | enterCondition key => [.str "condition", .str key]
  | enterBlock scene => [.str "block", .str scene]
  | exit .choice => [.str "choice:exit"]
  | exit .condition => [.str "condition:exit"]
  | exit .block => [.str "block:exit"]

theorem toJson_eq_wire (i : PathItem) : i.toJson = .arr i.wire := by
  cases i with
  | exit kind => cases kind <;> rfl
  | index n => rfl
  | jump scene => rfl
  | enterChoice branch => rfl
  | enterCondition key => rfl
  | enterBlock scene => rfl

end PathItem

theorem Datum.eq_ofInt64 {n : Int} (h : Width.i64.holds n = true) :
    Datum.int n = .ofInt64 (.ofInt n) := by
  obtain ⟨hleast, hmost⟩ := Width.holds_iff.mp h
  have hgreatest : Width.i64.greatest < 2 ^ 63 := by decide
  rw [ofInt64, Int64.toInt_ofInt_of_le hleast (Int.lt_of_le_of_lt hmost hgreatest)]

theorem Datum.eq_ofWord {n : Int} (h : Width.size.holds n = true) :
    Datum.int n = .ofWord (.ofNat n.toNat) := by
  obtain ⟨hleast, hmost⟩ := Width.holds_iff.mp h
  have hleast : 0 ≤ n := hleast
  have hgreatest : Width.size.greatest = UInt64.size - 1 := rfl
  have hsize : n.toNat < UInt64.size := by omega
  rw [ofWord, UInt64.toNat_ofNat_of_lt' hsize, Int.toNat_of_nonneg hleast]

section

variable {parts : List Datum}

theorem exists_text_of_parts (h : List.Forall₂ (Fits book) (some Format.text).toList parts) :
    ∃ s, parts = [.text s] := by
  cases h with
  | cons hfirst hrest =>
    cases hrest
    cases hfirst with
    | text s => exact ⟨s, rfl⟩

theorem exists_int_of_parts {width : Width}
    (h : List.Forall₂ (Fits book) (some (Format.int width)).toList parts) :
    ∃ n, width.holds n = true ∧ parts = [.int n] := by
  cases h with
  | cons hfirst hrest =>
    cases hrest
    cases hfirst with
    | int hholds => exact ⟨_, hholds, rfl⟩

end

namespace PathItem

/-- What fits the format of an item is what some item says. -/
theorem exists_toDatum_of_fits {d : Datum} (h : Fits book (.named .pathItem) d) :
    ∃ i : PathItem, i.toDatum = d := by
  cases h with
  | record hname | tuple hname | word hname | wrapped hname | tagged hname => cases hname
  | led hname hcase hparts =>
    cases hname
    simp only [Schema.pathItemCases, List.mem_cons, List.not_mem_nil, or_false, Prod.mk.injEq] at hcase
    rcases hcase with ⟨rfl, rfl⟩ | ⟨rfl, rfl⟩ | ⟨rfl, rfl⟩ | ⟨rfl, rfl⟩ | ⟨rfl, rfl⟩ | ⟨rfl, rfl⟩ |
      ⟨rfl, rfl⟩ | ⟨rfl, rfl⟩
    · obtain ⟨n, hn, rfl⟩ := exists_int_of_parts hparts
      exact ⟨index (.ofInt n), by rw [toDatum, Datum.eq_ofInt64 hn]⟩
    · obtain ⟨scene, rfl⟩ := exists_text_of_parts hparts
      exact ⟨jump scene, rfl⟩
    · obtain ⟨n, hn, rfl⟩ := exists_int_of_parts hparts
      exact ⟨enterChoice (.ofNat n.toNat), by rw [toDatum, Datum.eq_ofWord hn, BranchKind.word]⟩
    · obtain ⟨key, rfl⟩ := exists_text_of_parts hparts
      exact ⟨enterCondition key, rfl⟩
    · obtain ⟨scene, rfl⟩ := exists_text_of_parts hparts
      exact ⟨enterBlock scene, rfl⟩
    · cases hparts
      exact ⟨exit .choice, rfl⟩
    · cases hparts
      exact ⟨exit .condition, rfl⟩
    · cases hparts
      exact ⟨exit .block, rfl⟩

theorem strict : Format.Strict book (.named .pathItem) := by
  refine .led rfl fun c hc f hf => ?_
  simp only [Schema.pathItemCases, List.mem_cons, List.not_mem_nil, or_false] at hc
  rcases hc with rfl | rfl | rfl | rfl | rfl | rfl | rfl | rfl
  all_goals cases hf
  all_goals constructor

end PathItem

namespace Path

theorem strict : Format.Strict book Schema.path := .list PathItem.strict

theorem exists_toDatum_of_fits {d : Datum} (h : Fits book Schema.path d) :
    ∃ p : Path, toDatum p = d := by
  cases h with
  | @list _ ds h =>
    have hitem : ∀ d ∈ ds, ∃ i : PathItem, True ∧ d = i.toDatum := fun d hd =>
      (PathItem.exists_toDatum_of_fits (h d hd)).imp fun i hi => ⟨trivial, hi.symm⟩
    obtain ⟨p, rfl, -⟩ := exists_map_of_forall hitem
    exact ⟨p, rfl⟩

theorem ofJson_toJson (p : Path) : ofJson p.toJson = .ok p := by
  have hread : Format.ofJson book .whole Schema.path p.toJson = .ok (toDatum p) :=
    (strict.ofJson_eq_ok_iff Schema.distinct_book).mpr ⟨p.fits, rfl⟩
  rw [ofJson, Schema.ofJson, hread, Outcome.ok_bind, ofDatum?_toDatum]

theorem eq_toJson_of_ofJson {v : Json} {p : Path} (h : ofJson v = .ok p) : v = p.toJson := by
  obtain ⟨d, hread, hsays⟩ := Outcome.bind_eq_ok.mp h
  obtain ⟨hfits, rfl⟩ := (strict.ofJson_eq_ok_iff Schema.distinct_book).mp hread
  obtain ⟨q, rfl⟩ := exists_toDatum_of_fits hfits
  rw [ofDatum?_toDatum] at hsays
  cases hsays
  rfl

theorem toJson_eq_wire (p : Path) : p.toJson = .arr (p.map fun i => .arr i.wire) := by
  have hitem : ∀ i ∈ p, Format.toJson book (.named .pathItem) i.toDatum = .arr i.wire :=
    fun i _ => i.toJson_eq_wire
  rw [toJson, Schema.path, toDatum, Format.toJson_list, List.map_map]
  exact congrArg Json.arr (List.map_congr_left hitem)

/-- A path is read from what is written for it and from nothing else: a list with a short list for each
item. -/
theorem read_iff_written (v : Json) (p : Path) :
    (ofJson v = .ok p ↔ v = p.toJson) ∧
      ((∃ m, ofJson v = .error m) ↔ ∀ q : Path, v ≠ q.toJson) ∧
      p.toJson = .arr (p.map fun i => .arr i.wire) := by
  have hiff (q : Path) : ofJson v = .ok q ↔ v = q.toJson :=
    ⟨eq_toJson_of_ofJson, fun hv => hv ▸ q.ofJson_toJson⟩
  refine ⟨hiff p, ?_, p.toJson_eq_wire⟩
  constructor
  · rintro ⟨m, hm⟩ q hv
    rw [(hiff q).mpr hv] at hm
    cases hm
  · intro hnone
    cases hread : ofJson v with
    | error m => exact ⟨m, rfl⟩
    | ok q => exact absurd ((hiff q).mp hread) (hnone q)

end Path

end Narrative
