import Narrative.Proofs.Format.Fits
import Narrative.Proofs.Keyed

namespace Narrative.Format

variable {ρ : Type} {book : Book ρ} {inner : Format ρ → Json → Except Mismatch Datum}
  {fields : List (Field ρ)} {formats : List (Format ρ)} {parts : List Datum} {d : Datum}

/-- Each field is read as what was written for it. -/
def ReadsFields (book : Book ρ) (inner : Format ρ → Json → Except Mismatch Datum) :
    List (Field ρ) → List Datum → Prop :=
  List.Forall₂ fun f d => fieldOf inner f (toJson book f.format d) = .ok d

theorem fieldOf_value {f : Field ρ} {j : Json} (hj : j ≠ .null) (h : inner f.format j = .ok d) :
    fieldOf inner f j = .ok d := by
  rw [fieldOf]
  · exact h
  · exact fun _ => hj

theorem fieldsByName_eq {r : Record ρ} (hparts : ReadsFields book inner fields parts)
    (hfields : ∀ f ∈ fields, r.field? f.name = some f) (hnames : (fields.map Field.name).Nodup)
    {found : List (String × Datum)} (hnew : ∀ f ∈ fields, ∀ e ∈ found, e.1 ≠ f.name) :
    fieldsByName inner r found (fieldsToJson book fields parts) =
      .ok (((fields.map Field.name).zip parts).reverse ++ found) := by
  induction hparts generalizing found with
  | nil => rfl
  | @cons f d fields parts hfirst _ ih =>
    rw [List.map_cons, List.nodup_cons] at hnames
    have hrepeated : found.any (·.1 = f.name) = false := by
      simpa using hnew f List.mem_cons_self
    rw [fieldsToJson, fieldsByName, hfields f List.mem_cons_self]
    dsimp only
    rw [hrepeated, if_neg Bool.false_ne_true, hfirst]
    have hothers := ih (fun g hg => hfields g (List.mem_cons_of_mem _ hg)) hnames.2
      (unused_cons hnames.1 hnew d)
    rw [List.map_cons, List.zip_cons_cons, List.reverse_cons, List.append_assoc]
    exact hothers

theorem recordOf_eq (origin : Origin) {r : Record ρ} (hnames : (r.fields.map Field.name).Nodup)
    (hparts : ReadsFields book inner r.fields parts) :
    recordOf origin inner r (.obj (fieldsToJson book r.fields parts)) = .ok parts := by
  have hfound := fieldsByName_eq hparts (field?_of_mem hnames) hnames
    fun _ _ e (he : e ∈ []) => nomatch he
  rw [recordOf, hfound, Outcome.ok_bind, List.append_nil, assemble_zip hparts.length_eq hnames]

theorem tupleOf_eq
    (hparts : List.Forall₂ (fun f d => inner f (toJson book f d) = .ok d) formats parts)
    (expecting : String) (i : Nat) :
    tupleOf inner expecting i formats (partsToJson book formats parts) = .ok parts := by
  induction hparts generalizing i with
  | nil => rfl
  | cons hfirst _ ih =>
    rw [partsToJson, tupleOf, hfirst, Outcome.ok_bind, ih]
    rfl

theorem length_partsToJson (h : formats.length = parts.length) :
    (partsToJson book formats parts).length = formats.length := by
  induction formats generalizing parts with
  | nil => simp [partsToJson]
  | cons f formats ih =>
    cases parts with
    | nil => cases h
    | cons d parts => rw [partsToJson, List.length_cons, ih (Nat.succ.inj h), List.length_cons]

theorem bodyOf_eq {inner : Inner ρ} {body : Option (Record ρ)}
    (hnames : ((Shape.bodyFields body).map Field.name).Nodup)
    (hparts : ReadsFields book (inner .ahead) (Shape.bodyFields body) parts) :
    bodyOf inner body (.obj (fieldsToJson book (Shape.bodyFields body) parts)) = .ok parts := by
  cases body with
  | none =>
    cases hparts
    rfl
  | some r => exact recordOf_eq .ahead hnames hparts

theorem tagOf_eq {β : Type} (origin : Origin) {cases : List (String × β)} {c : String × β}
    (hcases : (cases.map Prod.fst).Nodup) (hcase : c ∈ cases) :
    tagOf origin cases (.str c.1) = .ok c := by
  have hfind : cases.find? (·.1 = c.1) = some c := find?_of_mem hcases hcase
  rw [tagOf, hfind]

/-- The entries beside the tag are those of the fields. -/
theorem filter_fieldsToJson {key : String} (hkey : key ∉ fields.map Field.name) (book : Book ρ)
    (parts : List Datum) :
    (fieldsToJson book fields parts).filter (fun e => e.1 = key) = [] ∧
      (fieldsToJson book fields parts).filter (fun e => e.1 ≠ key) =
        fieldsToJson book fields parts := by
  have hne : ∀ e ∈ fieldsToJson book fields parts, e.1 ≠ key := by
    rintro e he rfl
    exact hkey (fst_mem_fieldsToJson he)
  constructor
  · rw [List.filter_eq_nil_iff]
    simpa using hne
  · rw [List.filter_eq_self]
    simpa using hne

theorem taggedOf_eq (origin : Origin) {inner : Inner ρ} (title : String) {key tag : String}
    {cases : List (String × Option (Record ρ))} {body : Option (Record ρ)}
    (hcases : (cases.map Prod.fst).Nodup) (hcase : (tag, body) ∈ cases)
    (hnames : (key :: (Shape.bodyFields body).map Field.name).Nodup)
    (hparts : ReadsFields book (inner .ahead) (Shape.bodyFields body) parts) :
    taggedOf origin inner title key cases
        (.obj ((key, .str tag) :: fieldsToJson book (Shape.bodyFields body) parts)) =
      .ok (.case (some tag) parts) := by
  obtain ⟨hkey, hnames⟩ := List.nodup_cons.mp hnames
  obtain ⟨hnone, hothers⟩ := filter_fieldsToJson hkey book parts
  have htag := tagOf_eq origin hcases hcase
  simp only [taggedOf, List.filter_cons, decide_true, if_true, hnone, htag, Outcome.ok_bind,
    List.isEmpty_nil, Bool.not_true, Bool.false_eq_true, if_false, ne_eq, not_true, decide_false]
  rw [hothers, bodyOf_eq hnames hparts]
  rfl

theorem operandOf?_eq {cases : List (Option String × Option (Format ρ))} {tag : Option String}
    {operand : Option (Format ρ)} (hcases : (cases.map Prod.fst).Nodup)
    (hcase : (tag, operand) ∈ cases) : operandOf? cases tag = .ok operand := by
  have hfind : cases.find? (·.1 = tag) = some (tag, operand) := find?_of_mem hcases hcase
  rw [operandOf?, hfind]

theorem ledOf_eq (origin : Origin) (expecting : String)
    {cases : List (Option String × Option (Format ρ))} {tag : Option String}
    {operand : Option (Format ρ)} (hcases : (cases.map Prod.fst).Nodup)
    (hcase : (tag, operand) ∈ cases)
    (hparts : List.Forall₂ (fun f d => inner f (toJson book f d) = .ok d) operand.toList parts) :
    ledOf origin inner expecting cases
        (.arr (Json.ofOption .str tag :: partsToJson book operand.toList parts)) =
      .ok (.case tag parts) := by
  have hlead : leadOf (Json.ofOption .str tag) = .ok tag := by cases tag <;> rfl
  have hoperand := operandOf?_eq hcases hcase
  cases operand with
  | none =>
    cases hparts
    simp only [ledOf, hlead, hoperand, Outcome.ok_bind]
    rfl
  | some f =>
    cases hparts with
    | cons hfirst hrest =>
      cases hrest
      simp only [ledOf, hlead, hoperand, Outcome.ok_bind, Option.toList_some, partsToJson, hfirst]
      rfl

theorem wrappedOf_eq {cases : List (String × Format ρ)} {tag : String} {f : Format ρ} {j : Json}
    (hcases : (cases.map Prod.fst).Nodup) (hcase : (tag, f) ∈ cases) (h : inner f j = .ok d) :
    wrappedOf inner cases (.obj [(tag, j)]) = .ok (.case (some tag) [d]) := by
  have hfind : cases.find? (·.1 = tag) = some (tag, f) := find?_of_mem hcases hcase
  simp only [wrappedOf, soleEntry, Outcome.ok_bind, hfind, h]

theorem wordOf_eq (origin : Origin) {words : List String} {word : String} (h : word ∈ words) :
    wordOf origin words (.str word) = .ok (.case (some word) []) := by
  simp [wordOf, soleEntry, h]

theorem exists_obj_of_fits (hbook : ∀ name, (book name).Distinct) {name : ρ}
    (hname : (book name).IsObject) (h : Fits book (.named name) d) :
    ∃ entries, toJson book (.named name) d = .obj entries := by
  cases h with
  | record hrecord => exact ⟨_, toJson_record hrecord⟩
  | tagged htagged hcase =>
    have hdistinct := htagged ▸ hbook _
    exact ⟨_, toJson_tagged htagged hdistinct.1 hcase⟩
  | tuple hother | word hother | wrapped hother | led hother =>
    rw [hother] at hname
    exact hname.elim

theorem groupOf_eq {item : ρ} (expecting : String) {entries : List (String × Json)}
    (h : inner (.named item) (.obj entries) = .ok d) :
    groupOf inner item expecting (.obj entries) = .ok [d] := by
  rw [groupOf, h]
  rfl

theorem flatten_singletons {α : Type} (as : List α) : (as.map fun a => [a]).flatten = as := by
  induction as with
  | nil => rfl
  | cons a as ih => rw [List.map_cons, List.flatten_cons, ih, List.singleton_append]

/-- A datum that fits is read out of what is written for it. -/
theorem valueIn_toJson (hbook : ∀ name, (book name).Distinct) {f : Format ρ} (h : Fits book f d)
    {levels : Nat} (hdepth : (toJson book f d).depth < levels) (origin : Origin) :
    valueIn book levels origin f (toJson book f d) = .ok d := by
  induction levels generalizing f d origin with
  | zero => cases hdepth
  | succ levels ih =>
    have hdepth := Nat.le_of_lt_succ hdepth
    have hformats {formats : List (Format ρ)} {parts : List Datum}
        (hparts : List.Forall₂ (Fits book) formats parts)
        (hdepth : ∀ j ∈ partsToJson book formats parts, j.depth < levels) :
        List.Forall₂ (fun f d => valueIn book levels origin f (toJson book f d) = .ok d)
          formats parts := by
      rw [forall_mem_partsToJson hparts.length_eq] at hdepth
      exact hparts.mp (fun f d hfits hdepth => ih hfits hdepth origin) hdepth
    have hfields {fields : List (Field ρ)} {parts : List Datum}
        (hparts : List.Forall₂ (Field.Allows (Fits book)) fields parts)
        (hdepth : ∀ e ∈ fieldsToJson book fields parts, e.2.depth < levels) (origin : Origin) :
        ReadsFields book (valueIn book levels origin) fields parts := by
      rw [forall_mem_fieldsToJson (p := fun j => j.depth < levels) hparts.length_eq] at hdepth
      refine hparts.mp (fun f d hallows hdepth => ?_) hdepth
      cases hallows with
      | null => rfl
      | value hfits => exact fieldOf_value (toJson_ne_null hbook hfits) (ih hfits hdepth origin)
    rw [valueIn]
    cases h with
    | bool b => rfl
    | @int width n h => rw [toJson_int, valueAt, Width.check, if_pos h]
    | text s => rfl
    | @list item ds h =>
      rw [toJson_list] at hdepth ⊢
      have hitems := List.forall_mem_map.mp (Json.depth_arr_lt hdepth)
      rw [valueAt, List.mapM_map, Outcome.mapM_eq_ok (g := id), Outcome.ok_bind, List.map_id]
      exact fun d hd => ih (h d hd) (hitems d hd) origin
    | @grouped item expecting ds hitem h =>
      rw [toJson_grouped] at hdepth ⊢
      have hitems := List.forall_mem_map.mp (Json.depth_arr_lt hdepth)
      rw [valueAt, List.mapM_map, Outcome.mapM_eq_ok (g := fun d => [d]), Outcome.ok_bind,
        flatten_singletons]
      intro d hd
      obtain ⟨entries, hentries⟩ := exists_obj_of_fits hbook hitem (h d hd)
      have hread := ih (h d hd) (hitems d hd) origin
      rw [hentries] at hread
      rw [Function.comp, hentries, groupOf_eq expecting hread]
    | @dict value entries hordered h =>
      rw [toJson_dict] at hdepth ⊢
      have hentries := List.forall_mem_map.mp (Json.depth_obj_lt hdepth)
      rw [valueAt, List.mapM_map, Outcome.mapM_eq_ok (g := id), Outcome.ok_bind, List.map_id,
        Keyed.ofList_eq hordered]
      intro e he
      have hread : valueIn book levels origin value (toJson book value e.2) = .ok e.2 :=
        ih (h e he) (hentries e he) origin
      rw [Function.comp, hread]
      rfl
    | record hname hparts =>
      have hdistinct := hname ▸ hbook _
      rw [toJson_record hname] at hdepth ⊢
      have hread := hfields hparts (Json.depth_obj_lt hdepth) origin
      rw [valueAt, hname, shapeOf, recordOf_eq origin hdistinct hread]
      rfl
    | tuple hname hparts =>
      rw [toJson_tuple hname] at hdepth ⊢
      have hread := hformats hparts (Json.depth_arr_lt hdepth)
      rw [valueAt, hname, shapeOf, tupleOf_eq hread, Outcome.ok_bind,
        length_partsToJson hparts.length_eq, if_neg (Nat.lt_irrefl _)]
    | word hname hword => rw [toJson_word hname, valueAt, hname, shapeOf, wordOf_eq origin hword]
    | wrapped hname hcase h =>
      have hdistinct := hname ▸ hbook _
      rw [toJson_wrapped hname hdistinct hcase] at hdepth ⊢
      have hentry := List.forall_mem_singleton.mp (Json.depth_obj_lt hdepth)
      rw [valueAt, hname, shapeOf, wrappedOf_eq hdistinct hcase (ih h hentry origin)]
    | tagged hname hcase hparts =>
      have hdistinct := hname ▸ hbook _
      rw [toJson_tagged hname hdistinct.1 hcase] at hdepth ⊢
      obtain ⟨-, hentries⟩ := List.forall_mem_cons.mp (Json.depth_obj_lt hdepth)
      rw [valueAt, hname, shapeOf, taggedOf_eq origin _ hdistinct.1 hcase (hdistinct.2 _ hcase)
        (hfields hparts hentries .ahead)]
    | led hname hcase hparts =>
      have hdistinct := hname ▸ hbook _
      rw [toJson_led hname hdistinct hcase] at hdepth ⊢
      obtain ⟨-, hitems⟩ := List.forall_mem_cons.mp (Json.depth_arr_lt hdepth)
      rw [valueAt, hname, shapeOf, ledOf_eq origin _ hdistinct hcase (hformats hparts hitems)]

/-- The fields of a datum that fits are read, each with the levels that it has. -/
theorem readsFields_ofJson (hbook : ∀ name, (book name).Distinct)
    (hparts : List.Forall₂ (Field.Allows (Fits book)) fields parts) (origin : Origin) :
    ReadsFields book (ofJson book origin) fields parts := by
  refine hparts.imp fun f d hallows => ?_
  cases hallows with
  | null => rfl
  | value hfits =>
    exact fieldOf_value (toJson_ne_null hbook hfits)
      (valueIn_toJson hbook hfits (Nat.lt_succ_self _) origin)

/-- Different data are written as different values. -/
theorem eq_of_toJson_eq (hbook : ∀ name, (book name).Distinct) {f : Format ρ} {e : Datum}
    (hd : Fits book f d) (he : Fits book f e) (h : toJson book f d = toJson book f e) : d = e := by
  have hleft := valueIn_toJson hbook hd (Nat.lt_succ_self _) .whole
  have hright := valueIn_toJson hbook he (Nat.lt_succ_self _) .whole
  rw [h, hright] at hleft
  cases hleft
  rfl

end Narrative.Format
