import Mathlib.Data.List.Forall2
import Narrative.Format.Reader
import Narrative.Format.Writer
import Narrative.Proofs.Json.Object
import Narrative.Proofs.Lists

namespace Narrative

theorem Width.holds_iff {width : Width} {n : Int} :
    width.holds n = true ↔ width.least ≤ n ∧ n ≤ width.greatest := by
  rw [holds, Bool.and_eq_true, decide_eq_true_iff, decide_eq_true_iff]

namespace Format

open Json (Takes TakesAll Spacing isBlank)
open Text
open Text.Decimal (isDigit)

variable {ρ : Type} {book : Book ρ} {nested : Nested ρ} {w : Spacing} {level : Nat}
  {fields : List (Field ρ)} {parts : List Datum}

theorem readText_quoted (expected s : String) (rest : List Char) :
    readText expected (Json.quoted s ++ rest) = .ok (s, rest) := by
  obtain ⟨body, hbody, hread⟩ := Json.readString_quoted s rest
  rw [readText, hbody, Json.skipBlank_cons rfl]
  exact hread

theorem takes_text (outer : Option (Nested ρ)) (s : String) :
    Takes (readAt book outer .text) (Json.quoted s) (.text s) := by
  intro rest _
  rw [readAt, readText_quoted]
  rfl

theorem takes_bool (outer : Option (Nested ρ)) (b : Bool) :
    Takes (readAt book outer .bool) (Json.scalar (.bool b)) (.bool b) := by
  intro rest _
  cases b <;> rfl

/-- All numbers that fit a field are read exactly. -/
theorem exact_of_holds {width : Width} {n : Int} (h : width.holds n = true) : Json.Exact n := by
  obtain ⟨hlow, hhigh⟩ := Width.holds_iff.mp h
  have hleast : -(UInt64.size / 2 : Nat) ≤ width.least := by cases width <;> decide
  have hmost : width.greatest ≤ Json.wordMax := by cases width <;> decide
  exact ⟨Int.le_trans hleast hlow, Int.le_trans hhigh hmost⟩

theorem takes_int (outer : Option (Nested ρ)) {width : Width} {n : Int} (h : width.holds n = true) :
    Takes (readAt book outer (.int width)) (Decimal.ofInt n) (.int n) := by
  intro rest hends
  have hexact := exact_of_holds h
  cases n with
  | ofNat n =>
    have hread := Json.readNumber_nat hexact hends
    obtain ⟨c, ds, hdigits, hc⟩ := Decimal.exists_cons_digits n
    have hminus : c ≠ '-' := by
      rintro rfl
      exact absurd hc (by decide)
    have hskip : Json.skipBlank (c :: (ds ++ rest)) = _ :=
      Json.skipBlank_cons (Json.not_isBlank_of_isDigit hc) (ds ++ rest)
    have hcheck : width.check (.int n) = .ok (.int n) := by
      rw [Width.check, if_pos]
      exact h
    rw [hdigits, List.cons_append] at hread
    rw [Decimal.ofInt, hdigits, List.cons_append]
    simp [readAt, readInt, hskip, hc, hread, hcheck, fitted]
  | negSucc n =>
    have hread := Json.readNumber_negSucc hexact hends
    have hskip : Json.skipBlank ('-' :: (Decimal.digits (n + 1) ++ rest)) = _ :=
      Json.skipBlank_cons rfl _
    rw [Decimal.ofInt, List.cons_append]
    simp [readAt, readInt, hskip, hread, Width.check, h, fitted]

theorem takes_word (outer : Option (Nested ρ)) {name : ρ} {words : List String}
    (hname : book name = .word words) {word : String} (hword : word ∈ words) :
    Takes (readAt book outer (.named name)) (Json.quoted word) (.case (some word) []) := by
  intro rest _
  obtain ⟨body, hbody, hread⟩ := Json.readString_quoted word rest
  have hskip : Json.skipBlank ('"' :: body) = _ := Json.skipBlank_cons rfl body
  rw [readAt, hname]
  simp [readWordCase, hbody, hskip, hread, hword]

/-- What a value that is not `null` may start with. -/
def Begins : List Char → Prop
  | [] => False
  | c :: _ => isBlank c = false ∧ c ≠ 'n'

theorem takes_field {f : Field ρ} {written : List Char} {d : Datum}
    (h : Takes (nested.format f.format) written d) (hbegins : Begins written) :
    Takes (readField nested f) written d := by
  intro rest hends
  cases written with
  | nil => exact hbegins.elim
  | cons c written =>
    rw [readField, List.cons_append, Json.skipBlank_cons hbegins.1]
    split
    · rename_i heq
      exact absurd (List.cons.inj heq).1 hbegins.2
    · exact h rest hends

theorem takes_null {f : Field ρ} (h : f.presence = .nullable) :
    Takes (readField nested f) (Json.scalar .null) .null := by
  intro rest _
  rw [readField, h]
  rfl

theorem readField_blanks {blanks : List Char} (h : ∀ c ∈ blanks, isBlank c = true) (f : Field ρ)
    (s : List Char) : readField nested f (blanks ++ s) = readField nested f s := by
  rw [readField, readField, Json.skipBlank_append h]

/-- Each field takes what is written for it. -/
def TakesFields (book : Book ρ) (nested : Nested ρ) (w : Spacing) (level : Nat) :
    List (Field ρ) → List Datum → Prop :=
  List.Forall₂ fun f d => Takes (readField nested f) (Json.write w (level + 1) (toJson book f.format d)) d

/-- Names not used so far, when one more has been found. -/
theorem unused_cons {f : Field ρ} {found : List (String × Datum)}
    (hname : f.name ∉ fields.map Field.name)
    (hnew : ∀ g ∈ f :: fields, ∀ e ∈ found, e.1 ≠ g.name) (d : Datum) :
    ∀ g ∈ fields, ∀ e ∈ (f.name, d) :: found, e.1 ≠ g.name := by
  intro g hg e he
  rcases List.mem_cons.mp he with rfl | he
  · exact fun heq : f.name = g.name => hname (heq ▸ List.mem_map_of_mem hg)
  · exact hnew g (List.mem_cons_of_mem _ hg) e he

theorem takesAll_fields (hw : w.Blank) {r : Record ρ}
    (hparts : TakesFields book nested w level fields parts)
    (hfields : ∀ f ∈ fields, r.field? f.name = some f) (hnames : (fields.map Field.name).Nodup)
    {found : List (String × Datum)} (hnew : ∀ f ∈ fields, ∀ e ∈ found, e.1 ≠ f.name) :
    TakesAll (readFieldEntry nested r) w level found (fieldsToJson book fields parts)
      (((fields.map Field.name).zip parts).reverse ++ found) := by
  induction hparts generalizing found with
  | nil => exact .nil
  | @cons f d fields parts hfirst _ ih =>
    rw [List.map_cons, List.nodup_cons] at hnames
    have hentry : Takes (readFieldEntry nested r found f.name)
        (w.colon ++ Json.write w (level + 1) (toJson book f.format d)) ((f.name, d) :: found) := by
      intro rest hends
      obtain ⟨blanks, hblanks, hcolon⟩ := Json.readColon_colon hw
        (Json.write w (level + 1) (toJson book f.format d) ++ rest)
      have hrepeated : found.any (·.1 = f.name) = false := by
        simpa using hnew f List.mem_cons_self
      rw [readFieldEntry, hfields f List.mem_cons_self]
      dsimp only
      rw [hrepeated, if_neg Bool.false_ne_true, List.append_assoc, hcolon]
      change (readField nested f (blanks ++ _) >>= _) = _
      rw [readField_blanks hblanks, hfirst rest hends]
      rfl
    have hothers := ih (fun g hg => hfields g (List.mem_cons_of_mem _ hg)) hnames.2
      (unused_cons hnames.1 hnew d)
    rw [fieldsToJson, List.map_cons, List.zip_cons_cons, List.reverse_cons, List.append_assoc]
    exact .cons hentry hothers

theorem assemble_eq {found : List (String × Datum)}
    (h : List.Forall₂ (fun f d => found.find? (·.1 = f.name) = some (f.name, d)) fields parts) :
    Record.assemble found fields = .ok parts := by
  induction h with
  | nil => rfl
  | cons hfirst _ ih =>
    rw [Record.assemble, hfirst]
    dsimp only
    rw [ih]
    rfl

theorem assemble_zip (hlength : fields.length = parts.length)
    (hnames : (fields.map Field.name).Nodup) :
    Record.assemble ((fields.map Field.name).zip parts).reverse fields = .ok parts := by
  refine assemble_eq (List.forall₂_iff_zip.mpr ⟨hlength, fun {f d} hmem => ?_⟩)
  have hfound : (f.name, d) ∈ ((fields.map Field.name).zip parts).reverse := by
    rw [List.mem_reverse, List.zip_map_left]
    exact List.mem_map_of_mem hmem
  refine find?_of_mem ?_ hfound
  rw [List.map_reverse, List.nodup_reverse, List.map_fst_zip (by simp [hlength])]
  exact hnames

theorem field?_of_mem {r : Record ρ} (hnames : (r.fields.map Field.name).Nodup) :
    ∀ f ∈ r.fields, r.field? f.name = some f := fun _ hf => find?_of_mem hnames hf

/-- A record that has been written is read as it was if each of its fields is. -/
theorem takes_record (hw : w.Blank) {r : Record ρ} (hnames : (r.fields.map Field.name).Nodup)
    (hparts : TakesFields book nested w level r.fields parts) :
    Takes (readRecord (some nested) r)
      (Json.write w level (.obj (fieldsToJson book r.fields parts))) (.record parts) := by
  intro rest _
  have hfields := takesAll_fields hw hparts (field?_of_mem hnames) hnames
    fun _ _ e (he : e ∈ []) => nomatch he
  obtain ⟨t, ht, hfold⟩ := Json.foldEntries_object hw hfields rest
  rw [List.append_nil] at hfold
  rw [readRecord, ht, Json.skipBlank_cons rfl]
  simp [opening, hfold, assemble_zip hparts.length_eq hnames, fitted]

end Format

end Narrative
