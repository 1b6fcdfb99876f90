import Narrative.Proofs.Format.Value

namespace Narrative.Format

open Json (Takes TakesAll TakesItem Patient Spacing isBlank)

variable {ρ : Type} {book : Book ρ} {nested : Nested ρ} {w : Spacing} {level : Nat}
  {formats : List (Format ρ)} {fields : List (Field ρ)} {parts ds : List Datum} {d : Datum}
  {items : List Json} {entries : List (String × Json)}

theorem patient_readAt (outer : Option (Nested ρ)) (f : Format ρ) : Patient (readAt book outer f) := by
  intro blanks hblanks s
  have hskip := Json.skipBlank_append hblanks s
  unfold readAt
  cases f with
  | bool =>
    dsimp only
    unfold readBool
    rw [hskip]
  | int width =>
    dsimp only
    unfold readInt
    rw [hskip]
  | text =>
    dsimp only
    unfold readText
    rw [hskip]
  | list item =>
    dsimp only
    unfold readList
    rw [hskip]
  | grouped item expecting =>
    dsimp only
    unfold readList
    rw [hskip]
  | dict value =>
    dsimp only
    unfold readDict
    rw [hskip]
  | named name =>
    dsimp only
    cases book name with
    | record r =>
      dsimp only
      unfold readRecord
      rw [hskip]
    | tuple title formats =>
      dsimp only
      unfold readTuple
      rw [hskip]
    | word words =>
      dsimp only
      unfold readWordCase
      rw [hskip]
    | wrapped cases =>
      dsimp only
      unfold readWrapped
      rw [hskip]
    | tagged title key cases =>
      dsimp only
      unfold readTagged
      rw [hskip]
    | led expecting cases =>
      dsimp only
      unfold readLed
      rw [hskip]

theorem takes_list (hw : w.Blank) {item : Format ρ}
    (h : List.Forall₂ (TakesItem w (level + 1) (nested.format item)) items ds) :
    Takes (readAt book (some nested) (.list item)) (Json.write w level (.arr items)) (.list ds) := by
  intro rest _
  obtain ⟨t, ht, hread⟩ := Json.readItems_array hw h rest
  rw [ht, readAt, readList, Json.skipBlank_cons rfl]
  simp [opening, hread]

theorem takesItem_group {item : ρ} (expecting : String)
    (h : Takes (nested.format (.named item)) (Json.write w level (.obj entries)) d) :
    TakesItem w level (readGroup nested item expecting) (.obj entries) [d] := by
  obtain ⟨t, ht⟩ : ∃ t, Json.write w level (.obj entries) = '\x7b' :: t := by
    cases entries with
    | nil => exact ⟨_, rfl⟩
    | cons e entries => exact ⟨_, rfl⟩
  constructor
  · rw [ht]
    exact ⟨rfl, by decide⟩
  · intro rest hends
    have hread := h rest hends
    rw [ht, List.cons_append] at hread ⊢
    rw [readGroup, Json.skipBlank_cons rfl]
    simp [hread]

theorem takes_grouped (hw : w.Blank) {item : ρ} {expecting : String}
    (h : List.Forall₂ (TakesItem w (level + 1) (readGroup nested item expecting)) items
      (ds.map fun d => [d])) :
    Takes (readAt book (some nested) (.grouped item expecting)) (Json.write w level (.arr items))
      (.list ds) := by
  intro rest _
  obtain ⟨t, ht, hread⟩ := Json.readItems_array hw h rest
  rw [ht, readAt, readList, Json.skipBlank_cons rfl]
  simp [opening, hread, flatten_singletons]

theorem takesAll_pairs (hw : w.Blank) {value : Format ρ} (hvalue : Patient (nested.format value))
    {pairs found : List (String × Datum)} (hordered : Keyed.Ordered (found ++ pairs))
    (h : ∀ e ∈ pairs, Takes (nested.format value) (Json.write w (level + 1) (toJson book value e.2)) e.2) :
    TakesAll (fun m key s => do
      let (d, s) ← nested.format value (← Json.readColon s)
      .ok (Keyed.insert key d m, s)) w level found
      (pairs.map fun e => (e.1, toJson book value e.2)) (found ++ pairs) := by
  induction pairs generalizing found with
  | nil =>
    rw [List.append_nil]
    exact .nil
  | cons e pairs ih =>
    obtain ⟨hfirst, hothers⟩ := List.forall_mem_cons.mp h
    have hinsert := Keyed.insert_append hordered
    rw [List.append_cons] at hordered ⊢
    refine .cons (fun rest hends => ?_) (ih hordered hothers)
    have hread := Json.takes_colon hw hvalue hfirst rest hends
    dsimp only at hread ⊢
    rw [← bind_assoc, hread, ← hinsert]
    rfl

theorem takes_dict (hw : w.Blank) {value : Format ρ} (hvalue : Patient (nested.format value))
    {pairs : List (String × Datum)} (hordered : Keyed.Ordered pairs)
    (h : ∀ e ∈ pairs, Takes (nested.format value) (Json.write w (level + 1) (toJson book value e.2)) e.2) :
    Takes (readAt book (some nested) (.dict value))
      (Json.write w level (.obj (pairs.map fun e => (e.1, toJson book value e.2)))) (.dict pairs) := by
  intro rest _
  have hpairs := takesAll_pairs hw hvalue (List.nil_append pairs ▸ hordered) h
  obtain ⟨t, ht, hread⟩ := Json.foldEntries_object hw hpairs rest
  rw [List.nil_append] at hread
  rw [ht, readAt, readDict, Json.skipBlank_cons rfl]
  change (Json.foldEntries _ (t.length + 1) true [] t >>= fun r => .ok (Datum.dict r.1, r.2)) = _
  rw [hread]
  rfl

/-- Each part is taken as an item of a list. -/
def TakesParts (book : Book ρ) (nested : Nested ρ) (w : Spacing) (level : Nat) :
    List (Format ρ) → List Datum → Prop :=
  List.Forall₂ fun f d => TakesItem w level (nested.format f) (toJson book f d) d

theorem readTupleItems_writeItems (hw : w.Blank)
    (h : TakesParts book nested w (level + 1) formats parts) (expecting : String) {i : Nat} (hi : i ≠ 0)
    (rest : List Char) :
    readTupleItems nested expecting i formats
        (Json.writeItems w level (partsToJson book formats parts) ++ (w.close level ++ ']' :: rest)) =
      .ok (parts, w.close level ++ ']' :: rest) := by
  induction h generalizing i with
  | nil => rfl
  | @cons f d formats parts hfirst _ ih =>
    have hnext := (Json.nextItem_item (hw.lead level) (hfirst.starts.append
      (Json.writeItems w level (partsToJson book formats parts) ++ (w.close level ++ ']' :: rest)))).2
    have htake := hfirst.takes _
      (Json.ends_writeItems hw level (partsToJson book formats parts) rest)
    simp only [partsToJson, Json.writeItems, List.cons_append, List.append_assoc]
    rw [readTupleItems, decide_eq_false hi, hnext, Outcome.ok_bind]
    dsimp only
    rw [htake, Outcome.ok_bind]
    dsimp only
    rw [ih (Nat.succ_ne_zero i)]
    rfl

theorem takes_tuple (hw : w.Blank) (h : TakesParts book nested w (level + 1) formats parts)
    (title : String) :
    Takes (readTuple (some nested) title formats)
      (Json.write w level (.arr (partsToJson book formats parts))) (.record parts) := by
  intro rest _
  cases h with
  | nil => rfl
  | @cons f d formats parts hfirst hothers =>
    have hnext := (Json.nextItem_item (hw.lead level) (hfirst.starts.append
      (Json.writeItems w level (partsToJson book formats parts) ++ (w.close level ++ ']' :: rest)))).1
    have htake := hfirst.takes _
      (Json.ends_writeItems hw level (partsToJson book formats parts) rest)
    have hrest := readTupleItems_writeItems hw hothers
      (tupleExpecting title (formats.length + 1)) (Nat.succ_ne_zero 0) rest
    simp only [partsToJson, Json.write, List.cons_append, List.append_assoc, List.nil_append]
    rw [readTuple, Json.skipBlank_cons rfl]
    simp [opening, readTupleItems, hnext, htake, hrest, Json.closeArray_close (hw.close level)]

theorem readSoleKey_quoted {blanks : List Char} (hblanks : ∀ c ∈ blanks, isBlank c = true)
    (key : String) (rest : List Char) :
    readSoleKey (blanks ++ (Json.quoted key ++ rest)) = .ok (key, rest) := by
  obtain ⟨body, hbody, hread⟩ := Json.readString_quoted key rest
  rw [readSoleKey, hbody, Json.skipBlank_append hblanks, Json.skipBlank_cons rfl]
  exact hread

theorem closeSole_close {blanks : List Char} (hblanks : ∀ c ∈ blanks, isBlank c = true)
    (rest : List Char) : closeSole (blanks ++ '\x7d' :: rest) = .ok rest := by
  rw [closeSole, Json.skipBlank_append hblanks, Json.skipBlank_cons rfl]
  rfl

theorem takes_wrapped (hw : w.Blank) {cases : List (String × Format ρ)} {tag : String} {f : Format ρ}
    {j : Json} (hcases : (cases.map Prod.fst).Nodup) (hcase : (tag, f) ∈ cases)
    (hvalue : Patient (nested.format f)) (h : Takes (nested.format f) (Json.write w (level + 1) j) d) :
    Takes (readWrapped (some nested) cases) (Json.write w level (.obj [(tag, j)]))
      (.case (some tag) [d]) := by
  intro rest _
  have hbrace : Json.Ends ('\x7d' :: rest) := by simp [Json.Ends]
  have hread := Json.takes_colon hw hvalue h _ (hbrace.append (hw.close level))
  have hfind : cases.find? (·.1 = tag) = some (tag, f) := find?_of_mem hcases hcase
  dsimp only at hread
  rw [List.append_assoc] at hread
  simp only [Json.write, Json.writeEntries, List.cons_append, List.append_assoc, List.nil_append]
  rw [readWrapped, Json.skipBlank_cons rfl]
  simp only [opening, Outcome.ok_bind, readSoleKey_quoted (hw.lead level), hfind]
  rw [← bind_assoc, hread]
  simp only [Outcome.ok_bind, closeSole_close (hw.close level)]

theorem patient_readTag {β : Type} (cases : List (String × β)) : Patient (readTag cases) := by
  intro blanks hblanks s
  unfold readTag readText
  rw [Json.skipBlank_append hblanks]

theorem takes_tag {β : Type} {cases : List (String × β)} {c : String × β}
    (hcases : (cases.map Prod.fst).Nodup) (hcase : c ∈ cases) :
    Takes (readTag cases) (Json.quoted c.1) c := by
  intro rest _
  rw [readTag, readText_quoted, Outcome.ok_bind]
  dsimp only
  rw [tagOf_eq .whole hcases hcase]
  rfl

theorem takesAll_others {β : Type} (hw : w.Blank) (hjson : Patient nested.json) {key : String}
    (cases : List (String × β)) (hkey : ∀ e ∈ entries, e.1 ≠ key)
    (h : ∀ e ∈ entries, Takes nested.json (Json.write w (level + 1) e.2) e.2)
    (c : Option (String × β)) (others : List (String × Json)) :
    TakesAll (readTaggedEntry nested key cases) w level (c, others) entries
      (c, entries.reverse ++ others) := by
  induction entries generalizing others with
  | nil => exact .nil
  | cons e entries ih =>
    obtain ⟨hfirst, hothers⟩ := List.forall_mem_cons.mp h
    obtain ⟨hne, hkey⟩ := List.forall_mem_cons.mp hkey
    rw [List.reverse_cons, List.append_assoc]
    refine .cons (fun rest hends => ?_) (ih hkey hothers (e :: others))
    have hread := Json.takes_colon hw hjson hfirst rest hends
    dsimp only at hread
    rw [readTaggedEntry, if_neg hne, ← bind_assoc, hread]
    rfl

theorem takes_tagged (hbook : ∀ name, (book name).Distinct) (hw : w.Blank)
    (hjson : Patient nested.json) (title : String) {key tag : String}
    {cases : List (String × Option (Record ρ))} {body : Option (Record ρ)}
    (hcases : (cases.map Prod.fst).Nodup) (hcase : (tag, body) ∈ cases)
    (hnames : (key :: (Shape.bodyFields body).map Field.name).Nodup)
    (hparts : List.Forall₂ (Field.Allows (Fits book)) (Shape.bodyFields body) parts)
    (h : ∀ e ∈ fieldsToJson book (Shape.bodyFields body) parts,
      Takes nested.json (Json.write w (level + 1) e.2) e.2) :
    Takes (readTagged book (some nested) title key cases)
      (Json.write w level (.obj ((key, .str tag) :: fieldsToJson book (Shape.bodyFields body) parts)))
      (.case (some tag) parts) := by
  intro rest _
  obtain ⟨hkey, hnames⟩ := List.nodup_cons.mp hnames
  have hne : ∀ e ∈ fieldsToJson book (Shape.bodyFields body) parts, e.1 ≠ key := by
    rintro e he rfl
    exact hkey (fst_mem_fieldsToJson he)
  have htag : Takes (readTaggedEntry nested key cases (none, []) key)
      (w.colon ++ Json.write w (level + 1) (.str tag)) (some (tag, body), []) := by
    intro rest hends
    have hread := Json.takes_colon hw (patient_readTag cases) (takes_tag hcases hcase) rest hends
    dsimp only at hread
    rw [readTaggedEntry, if_pos rfl, Option.isSome_none, if_neg Bool.false_ne_true, ← bind_assoc]
    change (Json.readColon (w.colon ++ Json.quoted tag ++ rest) >>= readTag cases) >>= _ = _
    rw [hread]
    rfl
  have hothers := takesAll_others hw hjson cases hne h (some (tag, body)) []
  obtain ⟨t, ht, hread⟩ := Json.foldEntries_object hw (.cons htag hothers) rest
  rw [List.append_nil] at hread
  rw [ht, readTagged, Json.skipBlank_cons rfl]
  have hbody : bodyOf (fun o f j => ofJson book o f j) body
      (.obj (fieldsToJson book (Shape.bodyFields body) parts)) = .ok parts :=
    bodyOf_eq hnames (readsFields_ofJson hbook hparts .ahead)
  simp [opening, hread, hbody, fitted]

theorem takes_lead (tag : Option String) (w : Spacing) (level : Nat) :
    TakesItem w level readLead (Json.ofOption .str tag) tag := by
  cases tag with
  | none => exact ⟨⟨rfl, by decide⟩, fun _ _ => rfl⟩
  | some tag =>
    refine ⟨⟨rfl, by decide⟩, fun rest _ => ?_⟩
    have hwritten : Json.write w level (.str tag) = Json.quoted tag := rfl
    obtain ⟨s, hs⟩ : ∃ s, Json.quoted tag ++ rest = '"' :: s := ⟨_, rfl⟩
    have hread := readText_quoted "a string" tag rest
    rw [Json.ofOption, hwritten]
    rw [hs] at hread ⊢
    rw [readLead, Json.skipBlank_cons rfl]
    simp [hread]

theorem takes_led (hw : w.Blank) (expecting : String)
    {cases : List (Option String × Option (Format ρ))} {tag : Option String}
    {operand : Option (Format ρ)} (hcases : (cases.map Prod.fst).Nodup)
    (hcase : (tag, operand) ∈ cases)
    (h : TakesParts book nested w (level + 1) operand.toList parts) :
    Takes (readLed (some nested) expecting cases)
      (Json.write w level (.arr (Json.ofOption .str tag :: partsToJson book operand.toList parts)))
      (.case tag parts) := by
  intro rest _
  have hlead := takes_lead tag w (level + 1)
  have hoperand := operandOf?_eq hcases hcase
  have hfirst := (Json.nextItem_item (hw.lead level) (hlead.starts.append
    (Json.writeItems w level (partsToJson book operand.toList parts) ++
      (w.close level ++ ']' :: rest)))).1
  have htag := hlead.takes _
    (Json.ends_writeItems hw level (partsToJson book operand.toList parts) rest)
  simp only [Json.write, List.cons_append, List.append_assoc, List.nil_append]
  rw [readLed, Json.skipBlank_cons rfl]
  simp only [opening, Outcome.ok_bind, hfirst, htag, hoperand, fitted]
  cases operand with
  | none =>
    cases h
    simp [Json.writeItems, Json.closeArray_close (hw.close level)]
  | some f =>
    cases h with
    | @cons _ d _ _ hvalue hrest =>
      cases hrest
      have hnext := (Json.nextItem_item (hw.lead level) (hvalue.starts.append
        (w.close level ++ ']' :: rest))).2
      have htake := hvalue.takes _ (Json.ends_writeItems hw level [] rest)
      simp only [Json.writeItems, List.nil_append] at htake
      simp [partsToJson, Json.writeItems, hnext, htake, Json.closeArray_close (hw.close level)]

theorem exists_read (book : Book ρ) (levels : Nat) : ∃ outer, read book levels = readAt book outer := by
  cases levels with
  | zero => exact ⟨none, rfl⟩
  | succ levels => exact ⟨some ⟨read book levels, Json.read levels⟩, rfl⟩

theorem patient_read (levels : Nat) (f : Format ρ) : Patient (read book levels f) := by
  obtain ⟨outer, hread⟩ := exists_read book levels
  rw [hread]
  exact patient_readAt outer f

theorem begins_of_writable {j : Json} (h : j.Writable) (hnull : j ≠ .null) (w : Spacing) (level : Nat) :
    Begins (Json.write w level j) := by
  obtain ⟨c, s, hwritten, hblank, -, hn⟩ := h.head w level
  rw [hwritten]
  exact ⟨hblank, fun hc => hnull (hn hc)⟩

/-- Reads a named format by the shape that it has. -/
def readShape (book : Book ρ) (nested : Nested ρ) : Shape ρ → Reader Datum
  | .record r => readRecord (some nested) r
  | .tuple title formats => readTuple (some nested) title formats
  | .word words => readWordCase (some nested) words
  | .wrapped cases => readWrapped (some nested) cases
  | .tagged title key cases => readTagged book (some nested) title key cases
  | .led expecting cases => readLed (some nested) expecting cases

theorem takes_named {m : Nat} {name : ρ} {shape : Shape ρ} {written : List Char}
    (hname : book name = shape)
    (h : Takes (readShape book ⟨read book m, Json.read m⟩ shape) written d) :
    Takes (read book (m + 1) (.named name)) written d := by
  intro rest hends
  have hread := h rest hends
  subst hname
  rw [read, readAt]
  cases hshape : book name <;> rw [hshape] at hread <;> exact hread

/-- A datum that fits is read back from what is written for it. -/
theorem takes_toJson (hbook : ∀ name, (book name).Distinct) (hw : w.Blank) {f : Format ρ}
    (h : Fits book f d) {levels : Nat} (hdepth : (toJson book f d).depth ≤ levels) :
    Takes (read book levels f) (Json.write w level (toJson book f d)) d := by
  induction levels using Nat.strongRecOn generalizing f d level with
  | ind levels ih =>
    have hitem {m : Nat} {f : Format ρ} {d : Datum} (hm : m < levels) (hfits : Fits book f d)
        (hdepth : (toJson book f d).depth ≤ m) (level : Nat) :
        TakesItem w level (read book m f) (toJson book f d) d :=
      ⟨(writable_toJson hbook hfits).starts w level, ih m hm hfits hdepth⟩
    have hformats {m : Nat} (hm : m < levels) {formats : List (Format ρ)} {parts : List Datum}
        (hparts : List.Forall₂ (Fits book) formats parts)
        (hdepth : ∀ j ∈ partsToJson book formats parts, j.depth ≤ m) (level : Nat) :
        TakesParts book ⟨read book m, Json.read m⟩ w level formats parts := by
      rw [forall_mem_partsToJson hparts.length_eq] at hdepth
      exact hparts.mp (fun f d hfits hdepth => hitem hm hfits hdepth level) hdepth
    have hfields {m : Nat} (hm : m < levels) {fields : List (Field ρ)} {parts : List Datum}
        (hparts : List.Forall₂ (Field.Allows (Fits book)) fields parts)
        (hdepth : ∀ e ∈ fieldsToJson book fields parts, e.2.depth ≤ m) (level : Nat) :
        TakesFields book ⟨read book m, Json.read m⟩ w level fields parts := by
      rw [forall_mem_fieldsToJson (p := fun j => j.depth ≤ m) hparts.length_eq] at hdepth
      refine hparts.mp (fun f d hallows hdepth => ?_) hdepth
      cases hallows with
      | null => exact takes_null rfl
      | value hfits =>
        exact takes_field (ih m hm hfits hdepth)
          (begins_of_writable (writable_toJson hbook hfits) (toJson_ne_null hbook hfits) w _)
    obtain ⟨outer, hread⟩ := exists_read book levels
    have hwritable := writable_toJson hbook h
    cases h with
    | bool b =>
      rw [hread]
      exact takes_bool outer b
    | int h =>
      rw [hread]
      exact takes_int outer h
    | text s =>
      rw [hread]
      exact takes_text outer s
    | @list item ds h =>
      rw [toJson_list] at hdepth ⊢
      obtain ⟨m, rfl, hitems⟩ := Json.depth_arr_le hdepth
      rw [List.forall_mem_map] at hitems
      refine takes_list hw ?_
      rw [List.forall₂_map_left_iff, List.forall₂_same]
      exact fun d hd => hitem (Nat.lt_succ_self m) (h d hd) (hitems d hd) _
    | @grouped item expecting ds hgroup h =>
      rw [toJson_grouped] at hdepth ⊢
      obtain ⟨m, rfl, hitems⟩ := Json.depth_arr_le hdepth
      rw [List.forall_mem_map] at hitems
      refine takes_grouped hw ?_
      rw [List.forall₂_map_left_iff, List.forall₂_map_right_iff, List.forall₂_same]
      intro d hd
      obtain ⟨entries, hentries⟩ := exists_obj_of_fits hbook hgroup (h d hd)
      have htakes := (hitem (Nat.lt_succ_self m) (h d hd) (hitems d hd) (level + 1)).takes
      rw [hentries] at htakes ⊢
      exact takesItem_group expecting htakes
    | @dict value pairs hordered h =>
      rw [toJson_dict] at hdepth ⊢
      obtain ⟨m, rfl, hentries⟩ := Json.depth_obj_le hdepth
      rw [List.forall_mem_map] at hentries
      exact takes_dict hw (patient_read m value) hordered fun e he =>
        ih m (Nat.lt_succ_self m) (h e he) (hentries e he)
    | record hname hparts =>
      have hdistinct := hname ▸ hbook _
      rw [toJson_record hname] at hdepth ⊢
      obtain ⟨m, rfl, hentries⟩ := Json.depth_obj_le hdepth
      exact takes_named hname
        (takes_record hw hdistinct (hfields (Nat.lt_succ_self m) hparts hentries level))
    | tuple hname hparts =>
      rw [toJson_tuple hname] at hdepth ⊢
      obtain ⟨m, rfl, hitems⟩ := Json.depth_arr_le hdepth
      exact takes_named hname (takes_tuple hw (hformats (Nat.lt_succ_self m) hparts hitems _) _)
    | word hname hword =>
      rw [toJson_word hname, hread]
      exact takes_word outer hname hword
    | @wrapped _ _ tag f d hname hcase h =>
      have hdistinct := hname ▸ hbook _
      rw [toJson_wrapped hname hdistinct hcase] at hdepth ⊢
      obtain ⟨m, rfl, hentries⟩ := Json.depth_obj_le hdepth
      rw [List.forall_mem_singleton] at hentries
      exact takes_named hname (takes_wrapped hw hdistinct hcase (patient_read m f)
        (ih m (Nat.lt_succ_self m) h hentries))
    | tagged hname hcase hparts =>
      have hdistinct := hname ▸ hbook _
      rw [toJson_tagged hname hdistinct.1 hcase] at hdepth hwritable ⊢
      obtain ⟨m, rfl, hentries⟩ := Json.depth_obj_le hdepth
      have hothers := (List.forall_mem_cons.mp hentries).2
      have hvalues := (List.forall_mem_cons.mp hwritable.of_obj).2
      exact takes_named hname (takes_tagged hbook hw (Json.patient_read m) _ hdistinct.1 hcase
        (hdistinct.2 _ hcase) hparts fun e he => Json.takes_write hw (hvalues e he) (hothers e he))
    | led hname hcase hparts =>
      have hdistinct := hname ▸ hbook _
      rw [toJson_led hname hdistinct hcase] at hdepth ⊢
      obtain ⟨m, rfl, hitems⟩ := Json.depth_arr_le hdepth
      rw [List.forall_mem_cons] at hitems
      exact takes_named hname
        (takes_led hw _ hdistinct hcase (hformats (Nat.lt_succ_self m) hparts hitems.2 _))

/-- A document that fits its format is read back, as it is written compactly and indented. -/
theorem ofText_toJson (hbook : ∀ name, (book name).Distinct) (hw : w.Blank) {f : Format ρ}
    (h : Fits book f d) (hdepth : (toJson book f d).depth ≤ Json.maxLevels) :
    ofText book f (String.ofList (Json.write w 0 (toJson book f d))) = .ok d := by
  have htakes : Takes (read book Json.maxLevels f) (Json.write w 0 (toJson book f d)) d :=
    takes_toJson hbook hw h hdepth
  have hread := htakes [] trivial
  rw [List.append_nil] at hread
  rw [ofText, String.toList_ofList, hread]
  rfl

end Narrative.Format
