import Narrative.Keyed
import Narrative.Proofs.Format.Record
import Narrative.Proofs.Json.Value

namespace Narrative

variable {ρ : Type}

/-- What a field allows: a value of its format, or `null` if it is nullable. -/
inductive Field.Allows (fits : Format ρ → Datum → Prop) : Field ρ → Datum → Prop
  | null {name : String} {format : Format ρ} : Field.Allows fits (.nullable name format) .null
  | value {f : Field ρ} {d : Datum} (h : fits f.format d) : Field.Allows fits f d

namespace Shape

def IsObject : Shape ρ → Prop
  | .record _ | .tagged .. => True
  | _ => False

def bodyFields (body : Option (Record ρ)) : List (Field ρ) := body.elim [] Record.fields

/-- No name is used twice where names tell the parts or the alternatives. -/
def Distinct : Shape ρ → Prop
  | .record r => (r.fields.map Field.name).Nodup
  | .wrapped cases => (cases.map Prod.fst).Nodup
  | .tagged _ key cases => (cases.map Prod.fst).Nodup ∧
    ∀ c ∈ cases, (key :: (bodyFields c.2).map Field.name).Nodup
  | .led _ cases => (cases.map Prod.fst).Nodup
  | _ => True

end Shape

/-- Data that say what a format has room for: numbers in range, keys in order, known words and tags, and a
part for each field. -/
inductive Fits (book : Book ρ) : Format ρ → Datum → Prop
  | bool (b : Bool) : Fits book .bool (.bool b)
  | int {width : Width} {n : Int} (h : width.holds n = true) : Fits book (.int width) (.int n)
  | text (s : String) : Fits book .text (.text s)
  | list {item : Format ρ} {ds : List Datum} (h : ∀ d ∈ ds, Fits book item d) :
    Fits book (.list item) (.list ds)
  /-- Groups are not written, so the items must be objects. -/
  | grouped {item : ρ} {expecting : String} {ds : List Datum} (hitem : (book item).IsObject)
    (h : ∀ d ∈ ds, Fits book (.named item) d) : Fits book (.grouped item expecting) (.list ds)
  | dict {value : Format ρ} {entries : List (String × Datum)} (hordered : Keyed.Ordered entries)
    (h : ∀ e ∈ entries, Fits book value e.2) : Fits book (.dict value) (.dict entries)
  | record {name : ρ} {r : Record ρ} {parts : List Datum} (hname : book name = .record r)
    (hparts : List.Forall₂ (Field.Allows (Fits book)) r.fields parts) :
    Fits book (.named name) (.record parts)
  | tuple {name : ρ} {title : String} {formats : List (Format ρ)} {parts : List Datum}
    (hname : book name = .tuple title formats) (hparts : List.Forall₂ (Fits book) formats parts) :
    Fits book (.named name) (.record parts)
  | word {name : ρ} {words : List String} {word : String} (hname : book name = .word words)
    (hword : word ∈ words) : Fits book (.named name) (.case (some word) [])
  | wrapped {name : ρ} {cases : List (String × Format ρ)} {tag : String} {f : Format ρ} {d : Datum}
    (hname : book name = .wrapped cases) (hcase : (tag, f) ∈ cases) (h : Fits book f d) :
    Fits book (.named name) (.case (some tag) [d])
  | tagged {name : ρ} {title key : String} {cases : List (String × Option (Record ρ))} {tag : String}
    {body : Option (Record ρ)} {parts : List Datum} (hname : book name = .tagged title key cases)
    (hcase : (tag, body) ∈ cases)
    (hparts : List.Forall₂ (Field.Allows (Fits book)) (Shape.bodyFields body) parts) :
    Fits book (.named name) (.case (some tag) parts)
  | led {name : ρ} {expecting : String} {cases : List (Option String × Option (Format ρ))}
    {tag : Option String} {operand : Option (Format ρ)} {parts : List Datum}
    (hname : book name = .led expecting cases) (hcase : (tag, operand) ∈ cases)
    (hparts : List.Forall₂ (Fits book) operand.toList parts) : Fits book (.named name) (.case tag parts)

namespace Format

variable {book : Book ρ} {name : ρ} {f : Format ρ} {d : Datum} {parts : List Datum}

@[simp]
theorem toJson_null (f : Format ρ) : toJson book f .null = .null := rfl

@[simp]
theorem toJson_bool (f : Format ρ) (b : Bool) : toJson book f (.bool b) = .bool b := rfl

@[simp]
theorem toJson_int (f : Format ρ) (n : Int) : toJson book f (.int n) = .int n := rfl

@[simp]
theorem toJson_text (f : Format ρ) (s : String) : toJson book f (.text s) = .str s := rfl

@[simp]
theorem partsToJson_cons (f : Format ρ) (formats : List (Format ρ)) (d : Datum) (parts : List Datum) :
    partsToJson book (f :: formats) (d :: parts) =
      toJson book f d :: partsToJson book formats parts := rfl

@[simp]
theorem partsToJson_nil (formats : List (Format ρ)) : partsToJson book formats [] = [] := by
  cases formats <;> rfl

@[simp]
theorem fieldsToJson_cons (f : Field ρ) (fields : List (Field ρ)) (d : Datum) (parts : List Datum) :
    fieldsToJson book (f :: fields) (d :: parts) =
      (f.name, toJson book f.format d) :: fieldsToJson book fields parts := rfl

@[simp]
theorem fieldsToJson_nil (fields : List (Field ρ)) : fieldsToJson book fields [] = [] := by
  cases fields <;> rfl

theorem itemsToJson_eq (f : Format ρ) (ds : List Datum) :
    itemsToJson book f ds = ds.map (toJson book f) := by
  induction ds with
  | nil => rfl
  | cons d ds ih => exact congrArg (toJson book f d :: ·) ih

theorem entriesToJson_eq (f : Format ρ) (entries : List (String × Datum)) :
    entriesToJson book f entries = entries.map fun e => (e.1, toJson book f e.2) := by
  induction entries with
  | nil => rfl
  | cons e entries ih => exact congrArg ((e.1, toJson book f e.2) :: ·) ih

theorem toJson_list (item : Format ρ) (ds : List Datum) :
    toJson book (.list item) (.list ds) = .arr (ds.map (toJson book item)) :=
  congrArg Json.arr (itemsToJson_eq item ds)

theorem toJson_grouped (item : ρ) (expecting : String) (ds : List Datum) :
    toJson book (.grouped item expecting) (.list ds) = .arr (ds.map (toJson book (.named item))) :=
  congrArg Json.arr (itemsToJson_eq (.named item) ds)

theorem toJson_dict (value : Format ρ) (entries : List (String × Datum)) :
    toJson book (.dict value) (.dict entries) =
      .obj (entries.map fun e => (e.1, toJson book value e.2)) :=
  congrArg Json.obj (entriesToJson_eq value entries)

/-- How a record is written depends on its shape. -/
theorem toJson_named_record (name : ρ) (parts : List Datum) :
    toJson book (.named name) (.record parts) =
      match book name with
      | .record r => .obj (fieldsToJson book r.fields parts)
      | .tuple _ formats => .arr (partsToJson book formats parts)
      | _ => .null := rfl

/-- How a case is written depends on the shape that it is a case of. -/
theorem toJson_named_case (name : ρ) (tag : Option String) (parts : List Datum) :
    toJson book (.named name) (.case tag parts) =
      match book name with
      | .word _ => .str (tag.getD "")
      | .wrapped cases =>
        match partsToJson book ((cases.filter fun c => some c.1 = tag).map Prod.snd) parts with
        | [j] => .obj [(tag.getD "", j)]
        | _ => .null
      | .tagged _ key cases =>
        .obj ((key, .str (tag.getD "")) :: fieldsToJson book (caseRecord cases tag) parts)
      | .led _ cases =>
        .arr (Json.ofOption .str tag ::
          partsToJson book ((cases.filter fun c => c.1 = tag).filterMap Prod.snd) parts)
      | _ => .null := by
  cases tag <;> rfl

theorem toJson_record {r : Record ρ} (hname : book name = .record r) :
    toJson book (.named name) (.record parts) = .obj (fieldsToJson book r.fields parts) := by
  rw [toJson_named_record, hname]

theorem toJson_tuple {title : String} {formats : List (Format ρ)}
    (hname : book name = .tuple title formats) :
    toJson book (.named name) (.record parts) = .arr (partsToJson book formats parts) := by
  rw [toJson_named_record, hname]

theorem toJson_word {words : List String} (hname : book name = .word words) (word : String) :
    toJson book (.named name) (.case (some word) parts) = .str word := by
  rw [toJson_named_case, hname, Option.getD_some]

theorem toJson_wrapped {cases : List (String × Format ρ)} {tag : String}
    (hname : book name = .wrapped cases) (hcases : (cases.map Prod.fst).Nodup)
    (hcase : (tag, f) ∈ cases) :
    toJson book (.named name) (.case (some tag) [d]) = .obj [(tag, toJson book f d)] := by
  have hfilter : cases.filter (fun c => some c.1 = some tag) = [(tag, f)] := by
    simp only [Option.some.injEq]
    exact filter_of_mem hcases hcase
  rw [toJson_named_case, hname]
  dsimp only
  rw [hfilter]
  rfl

theorem toJson_tagged {title key : String} {cases : List (String × Option (Record ρ))} {tag : String}
    {body : Option (Record ρ)} (hname : book name = .tagged title key cases)
    (hcases : (cases.map Prod.fst).Nodup) (hcase : (tag, body) ∈ cases) :
    toJson book (.named name) (.case (some tag) parts) =
      .obj ((key, .str tag) :: fieldsToJson book (Shape.bodyFields body) parts) := by
  have hfind : cases.find? (fun c => some c.1 = some tag) = some (tag, body) := by
    simp only [Option.some.injEq]
    exact find?_of_mem hcases hcase
  have hrecord : caseRecord cases (some tag) = Shape.bodyFields body := by
    rw [caseRecord, hfind]
    cases body <;> rfl
  rw [toJson_named_case, hname]
  dsimp only
  rw [hrecord, Option.getD_some]

theorem toJson_led {expecting : String} {cases : List (Option String × Option (Format ρ))}
    {tag : Option String} {operand : Option (Format ρ)} (hname : book name = .led expecting cases)
    (hcases : (cases.map Prod.fst).Nodup) (hcase : (tag, operand) ∈ cases) :
    toJson book (.named name) (.case tag parts) =
      .arr (Json.ofOption .str tag :: partsToJson book operand.toList parts) := by
  have hfilter : cases.filter (fun c => c.1 = tag) = [(tag, operand)] := filter_of_mem hcases hcase
  have hformats : [(tag, operand)].filterMap Prod.snd = operand.toList := by
    cases operand <;> rfl
  rw [toJson_named_case, hname]
  dsimp only
  rw [hfilter, hformats]

theorem forall_mem_partsToJson {p : Json → Prop} {formats : List (Format ρ)}
    (hlength : formats.length = parts.length) :
    (∀ j ∈ partsToJson book formats parts, p j) ↔
      List.Forall₂ (fun f d => p (toJson book f d)) formats parts := by
  induction formats generalizing parts with
  | nil =>
    cases parts with
    | nil => simp
    | cons d parts => cases hlength
  | cons f formats ih =>
    cases parts with
    | nil => cases hlength
    | cons d parts =>
      rw [partsToJson_cons, List.forall_mem_cons, ih (Nat.succ.inj hlength), List.forall₂_cons]

theorem forall_mem_fieldsToJson {p : Json → Prop} {fields : List (Field ρ)}
    (hlength : fields.length = parts.length) :
    (∀ e ∈ fieldsToJson book fields parts, p e.2) ↔
      List.Forall₂ (fun f d => p (toJson book f.format d)) fields parts := by
  induction fields generalizing parts with
  | nil =>
    cases parts with
    | nil => simp
    | cons d parts => cases hlength
  | cons f fields ih =>
    cases parts with
    | nil => cases hlength
    | cons d parts =>
      rw [fieldsToJson_cons, List.forall_mem_cons, ih (Nat.succ.inj hlength), List.forall₂_cons]

theorem fst_mem_fieldsToJson {fields : List (Field ρ)} {e : String × Json}
    (h : e ∈ fieldsToJson book fields parts) : e.1 ∈ fields.map Field.name := by
  induction fields generalizing parts with
  | nil => cases parts <;> cases h
  | cons f fields ih =>
    cases parts with
    | nil => simp at h
    | cons d parts =>
      rw [fieldsToJson_cons, List.mem_cons] at h
      rcases h with rfl | h
      · exact List.mem_cons_self
      · exact List.mem_cons_of_mem _ (ih h)

/-- A value that fits is never written as `null`. -/
theorem toJson_ne_null (hbook : ∀ name, (book name).Distinct) (h : Fits book f d) :
    toJson book f d ≠ .null := by
  cases h with
  | bool b => simp
  | int h => simp
  | text s => simp
  | list h => simp [toJson_list]
  | grouped hitem h => simp [toJson_grouped]
  | dict hordered h => simp [toJson_dict]
  | record hname hparts => simp [toJson_record hname]
  | tuple hname hparts => simp [toJson_tuple hname]
  | word hname hword => simp [toJson_word hname]
  | wrapped hname hcase h =>
    have hdistinct := hname ▸ hbook _
    simp [toJson_wrapped hname hdistinct hcase]
  | tagged hname hcase hparts =>
    have hdistinct := hname ▸ hbook _
    simp [toJson_tagged hname hdistinct.1 hcase]
  | led hname hcase hparts =>
    have hdistinct := hname ▸ hbook _
    simp [toJson_led hname hdistinct hcase]

/-- A value that fits is written as one that can be read back. -/
theorem writable_toJson (hbook : ∀ name, (book name).Distinct) (h : Fits book f d) :
    (toJson book f d).Writable := by
  obtain ⟨n, hdepth⟩ : ∃ n, (toJson book f d).depth < n := ⟨_, Nat.lt_succ_self _⟩
  -- The induction is on the levels of what is written, since each part has fewer of them.
  induction n generalizing f d with
  | zero => cases hdepth
  | succ n ih =>
    have hdepth := Nat.le_of_lt_succ hdepth
    have hformats {formats : List (Format ρ)} {parts : List Datum}
        (hparts : List.Forall₂ (Fits book) formats parts)
        (hdepth : ∀ j ∈ partsToJson book formats parts, j.depth < n) :
        ∀ j ∈ partsToJson book formats parts, j.Writable := by
      rw [forall_mem_partsToJson hparts.length_eq] at hdepth ⊢
      exact hparts.mp (fun f d hfits hdepth => ih hfits hdepth) hdepth
    have hfields {fields : List (Field ρ)} {parts : List Datum}
        (hparts : List.Forall₂ (Field.Allows (Fits book)) fields parts)
        (hdepth : ∀ e ∈ fieldsToJson book fields parts, e.2.depth < n) :
        ∀ e ∈ fieldsToJson book fields parts, e.2.Writable := by
      rw [forall_mem_fieldsToJson (p := Json.Writable) hparts.length_eq]
      rw [forall_mem_fieldsToJson (p := fun j => j.depth < n) hparts.length_eq] at hdepth
      refine hparts.mp (fun f d hallows hdepth => ?_) hdepth
      cases hallows with
      | null => exact .null
      | value hfits => exact ih hfits hdepth
    cases h with
    | bool b => exact .bool b
    | int h => exact .int (exact_of_holds h)
    | text s => exact .str s
    | list h =>
      rw [toJson_list] at hdepth ⊢
      have hitems := List.forall_mem_map.mp (Json.depth_arr_lt hdepth)
      exact .arr (List.forall_mem_map.mpr fun d hd => ih (h d hd) (hitems d hd))
    | grouped hitem h =>
      rw [toJson_grouped] at hdepth ⊢
      have hitems := List.forall_mem_map.mp (Json.depth_arr_lt hdepth)
      exact .arr (List.forall_mem_map.mpr fun d hd => ih (h d hd) (hitems d hd))
    | dict hordered h =>
      rw [toJson_dict] at hdepth ⊢
      have hentries := List.forall_mem_map.mp (Json.depth_obj_lt hdepth)
      exact .obj (List.forall_mem_map.mpr fun e he => ih (h e he) (hentries e he))
    | record hname hparts =>
      rw [toJson_record hname] at hdepth ⊢
      exact .obj (hfields hparts (Json.depth_obj_lt hdepth))
    | tuple hname hparts =>
      rw [toJson_tuple hname] at hdepth ⊢
      exact .arr (hformats hparts (Json.depth_arr_lt hdepth))
    | word hname hword =>
      rw [toJson_word hname]
      exact .str _
    | wrapped hname hcase h =>
      have hdistinct := hname ▸ hbook _
      rw [toJson_wrapped hname hdistinct hcase] at hdepth ⊢
      have hentry := List.forall_mem_singleton.mp (Json.depth_obj_lt hdepth)
      exact .obj (List.forall_mem_singleton.mpr (ih h hentry))
    | tagged hname hcase hparts =>
      have hdistinct := hname ▸ hbook _
      rw [toJson_tagged hname hdistinct.1 hcase] at hdepth ⊢
      obtain ⟨-, hentries⟩ := List.forall_mem_cons.mp (Json.depth_obj_lt hdepth)
      exact .obj (List.forall_mem_cons.mpr ⟨.str _, hfields hparts hentries⟩)
    | @led _ _ _ tag _ _ hname hcase hparts =>
      have hdistinct := hname ▸ hbook _
      rw [toJson_led hname hdistinct hcase] at hdepth ⊢
      obtain ⟨-, hitems⟩ := List.forall_mem_cons.mp (Json.depth_arr_lt hdepth)
      have hlead : (Json.ofOption Json.str tag).Writable := by
        cases tag with
        | none => exact .null
        | some tag => exact .str tag
      exact .arr (List.forall_mem_cons.mpr ⟨hlead, hformats hparts hitems⟩)

end Format

end Narrative
