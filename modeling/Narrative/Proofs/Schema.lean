import Narrative.Proofs.Format.Text
import Narrative.Schema

namespace Narrative

variable {α β : Type}

theorem mapM_map_eq_some {read : β → Option α} {write : α → β} {as : List α}
    (h : ∀ a ∈ as, read (write a) = some a) : (as.map write).mapM read = some as := by
  induction as with
  | nil => rfl
  | cons a as ih =>
    rw [List.map_cons, List.mapM_cons, h a List.mem_cons_self,
      ih fun a ha => h a (List.mem_cons_of_mem _ ha)]
    rfl

namespace Datum

@[simp]
theorem word?_ofWord (n : UInt64) : (ofWord n).word? = some n := by
  simp [ofWord, word?]

@[simp]
theorem int64?_ofInt64 (n : Int64) : (ofInt64 n).int64? = some n := by
  simp [ofInt64, int64?]

@[simp]
theorem texts?_ofTexts (names : List String) : (ofTexts names).texts? = some names :=
  mapM_map_eq_some fun _ _ => rfl

@[simp]
theorem orNull_ofText? (s : Option String) : orNull text? (ofText? s) = some s := by
  cases s <;> rfl

end Datum

namespace Schema

open Format (toJson)

theorem distinct_book (name : Schema) : (book name).Distinct := by
  cases name <;> simp only [book, Shape.Distinct] <;> decide

theorem holds_word {width : Width} (h : width = .u64 ∨ width = .size) (n : UInt64) :
    width.holds n.toNat = true := by
  have hn : n.toNat < 18446744073709551616 := n.toNat_lt
  have hgreatest : width.greatest = 18446744073709551616 - 1 := by rcases h with rfl | rfl <;> rfl
  have hleast : width.least = 0 := by rcases h with rfl | rfl <;> rfl
  rw [Width.holds_iff, hleast, hgreatest]
  omega

theorem holds_int64 (n : Int64) : Width.i64.holds n.toInt = true := by
  rw [Width.holds_iff]
  exact ⟨n.minValue_le_toInt, n.toInt_le⟩

theorem fits_word {width : Width} (h : width = .u64 ∨ width = .size) (n : UInt64) :
    Fits book (.int width) (.ofWord n) := .int (holds_word h n)

theorem fits_int64 (n : Int64) : Fits book (.int .i64) (.ofInt64 n) := .int (holds_int64 n)

theorem fits_texts (names : List String) : Fits book texts (.ofTexts names) :=
  .list (List.forall_mem_map.mpr fun name _ => .text name)

theorem allows_text? (name : String) (s : Option String) :
    Field.Allows (Fits book) (.nullable name .text) (.ofText? s) := by
  cases s with
  | none => exact .null
  | some s => exact .value (.text s)

theorem fits_tagged {name : Schema} {title key tag : String}
    {cases : List (String × Option (Record Schema))} {body : Option (Record Schema)}
    {parts : List Datum} (hname : book name = .tagged title key cases)
    (hcase : cases.find? (·.1 = tag) = some (tag, body))
    (hparts : List.Forall₂ (Field.Allows (Fits book)) (Shape.bodyFields body) parts) :
    Fits book (.named name) (.case (some tag) parts) :=
  .tagged hname (List.mem_of_find?_eq_some hcase) hparts

/-- A thing whose datum fits is read back from its text. -/
theorem ofText_toJson {w : Json.Spacing} (hw : w.Blank) {f : Format Schema} {meaning : Datum → Option α}
    {d : Datum} {a : α} (hfits : Fits book f d) (hmeaning : meaning d = some a)
    (hdepth : (toJson book f d).depth ≤ Json.maxLevels) :
    ofText f meaning (String.ofList (Json.write w 0 (toJson book f d))) = .ok a := by
  rw [ofText, Format.ofText_toJson distinct_book hw hfits hdepth, Outcome.ok_bind, hmeaning]

end Schema

end Narrative
