import Narrative.Proofs.Format.Splice
import Narrative.Proofs.Format.Strict
import Narrative.Proofs.Outcome

namespace Narrative.Format

open Outcome (Agree agree_error)

variable {ρ : Type} {book : Book ρ} {n m : Nat} {inner inner' : Format ρ → Json → Except Mismatch Datum}
  {f : Format ρ} {fields : List (Field ρ)} {formats : List (Format ρ)} {items : List Json}
  {entries : List (String × Json)} {j : Json}

/-- A grouped list as an ordinary list of its items. -/
def ungrouped : Format ρ → Format ρ
  | grouped item _ => list (named item)
  | f => f

/-- Reads a value nested at most `levels` deep in which no list stands for its items. -/
def plainIn (book : Book ρ) : Nat → Inner ρ
  | 0, _, _, j => .error (.wrongType j.found "nothing")
  | levels + 1, origin, f, j => valueAt book (plainIn book levels) origin f.ungrouped j

def ofPlainJson (book : Book ρ) (origin : Origin) (f : Format ρ) (j : Json) : Except Mismatch Datum :=
  plainIn book (j.depth + 1) origin f j

/-- Two ways to read values, which agree if the second is given what is spliced for the first. -/
def Carries (book : Book ρ) (n m : Nat) (inner inner' : Format ρ → Json → Except Mismatch Datum)
    (f : Format ρ) : Prop :=
  ∀ j, j.depth < n → (splice book f j).depth < m → Agree (inner f j) (inner' f (splice book f j))

theorem splice_ne_null (hj : j ≠ .null) : splice book f j ≠ .null := by
  cases j with
  | null => exact absurd rfl hj
  | bool | int | real | str | obj => simp [splice]
  | arr items => cases f <;> simp [splice]

theorem fieldOf_splice {f : Field ρ} (h : Carries book n m inner inner' f.format) (hj : j.depth < n)
    (hspliced : (splice book f.format j).depth < m) :
    Agree (fieldOf inner f j) (fieldOf inner' f (splice book f.format j)) := by
  by_cases hnull : j = .null
  · subst hnull
    have hvalue := h _ hj hspliced
    unfold fieldOf
    cases f.presence with
    | nullable => exact .rfl
    | required | defaulted => exact hvalue
  · rw [fieldOf, fieldOf]
    · exact h _ hj hspliced
    · exact fun _ => splice_ne_null hnull
    · exact fun _ => hnull

theorem fieldsInOrder_splice (h : ∀ f ∈ fields, Carries book n m inner inner' f.format)
    (hitems : ∀ j ∈ items, j.depth < n)
    (hspliced : ∀ j ∈ spliceItems book (fields.map fun f => some f.format) items, j.depth < m)
    (expecting : String) (i : Nat) :
    Agree (fieldsInOrder inner expecting i fields items)
      (fieldsInOrder inner' expecting i fields
        (spliceItems book (fields.map fun f => some f.format) items)) := by
  induction fields generalizing items i with
  | nil => exact .rfl
  | cons f fields ih =>
    obtain ⟨hfirst, hothers⟩ := List.forall_mem_cons.mp h
    cases items with
    | nil =>
      have hrest := ih hothers hitems (by simp) (i + 1)
      simp only [spliceItems_nil, fieldsInOrder] at hrest ⊢
      cases f.absent? with
      | none => exact .rfl
      | some d => exact hrest.bind fun _ _ => .rfl
    | cons j items =>
      rw [List.map_cons, spliceItems, List.forall_mem_cons] at hspliced
      obtain ⟨hj, hitems⟩ := List.forall_mem_cons.mp hitems
      rw [List.map_cons, spliceItems, fieldsInOrder, fieldsInOrder]
      exact (fieldOf_splice hfirst hj hspliced.1).bind fun _ _ =>
        (ih hothers hitems hspliced.2 (i + 1)).bind fun _ _ => .rfl

theorem fieldsByName_splice {r : Record ρ}
    (h : ∀ f ∈ r.fields, Carries book n m inner inner' f.format)
    (hentries : ∀ e ∈ entries, e.2.depth < n)
    (hspliced : ∀ e ∈ spliceEntries book (Shape.fieldFormat? r.fields) entries,
      e.2.depth < m) (found : List (String × Datum)) :
    Agree (fieldsByName inner r found entries)
      (fieldsByName inner' r found
        (spliceEntries book (Shape.fieldFormat? r.fields) entries)) := by
  induction entries generalizing found with
  | nil => exact .rfl
  | cons e entries ih =>
    obtain ⟨key, j⟩ := e
    obtain ⟨hj, hentries⟩ := List.forall_mem_cons.mp hentries
    rw [spliceEntries, List.forall_mem_cons] at hspliced
    rw [spliceEntries, fieldsByName, fieldsByName]
    have hformat : Shape.fieldFormat? r.fields key = (r.field? key).map Field.format := rfl
    rw [hformat] at hspliced ⊢
    cases hfield : r.field? key with
    | none => exact ih hentries hspliced.2 found
    | some f =>
      rw [hfield] at hspliced
      have hvalue := fieldOf_splice (h f (List.mem_of_find?_eq_some hfield)) hj hspliced.1
      dsimp only [Option.map]
      split
      · exact .rfl
      · exact hvalue.bind fun _ _ => ih hentries hspliced.2 _

theorem tupleOf_splice (h : ∀ f ∈ formats, Carries book n m inner inner' f)
    (hitems : ∀ j ∈ items, j.depth < n)
    (hspliced : ∀ j ∈ spliceItems book (formats.map some) items, j.depth < m)
    (expecting : String) (i : Nat) :
    Agree (tupleOf inner expecting i formats items)
      (tupleOf inner' expecting i formats (spliceItems book (formats.map some) items)) := by
  induction formats generalizing items i with
  | nil => exact .rfl
  | cons f formats ih =>
    obtain ⟨hfirst, hothers⟩ := List.forall_mem_cons.mp h
    cases items with
    | nil => exact .rfl
    | cons j items =>
      rw [List.map_cons, spliceItems, List.forall_mem_cons] at hspliced
      obtain ⟨hj, hitems⟩ := List.forall_mem_cons.mp hitems
      rw [List.map_cons, spliceItems, tupleOf, tupleOf]
      exact (hfirst j hj hspliced.1).bind fun _ _ =>
        (ih hothers hitems hspliced.2 (i + 1)).bind fun _ _ => .rfl

/-- What is spliced for a value that is read as fields, by their names or in their order. -/
def spliceFields (book : Book ρ) (fields : List (Field ρ)) : Json → Json
  | .arr items => .arr (spliceItems book (fields.map fun f => some f.format) items)
  | .obj entries => .obj (spliceEntries book (Shape.fieldFormat? fields) entries)
  | j => j

theorem recordOf_splice {r : Record ρ} (h : ∀ f ∈ r.fields, Carries book n m inner inner' f.format)
    (hj : j.depth ≤ n) (hspliced : (spliceFields book r.fields j).depth ≤ m) (origin : Origin) :
    Agree (recordOf origin inner r j) (recordOf origin inner' r (spliceFields book r.fields j)) := by
  cases j with
  | null | bool | int | real | str => exact .rfl
  | obj entries =>
    exact (fieldsByName_splice h (Json.depth_obj_lt hj) (Json.depth_obj_lt hspliced) []).bind
      fun _ _ => .rfl
  | arr items =>
    have hfields := fieldsInOrder_splice h (Json.depth_arr_lt hj) (Json.depth_arr_lt hspliced)
      r.expecting 0
    simp only [recordOf, spliceFields, length_spliceItems]
    exact hfields.bind fun _ _ => .rfl

theorem bodyOf_splice {inner inner' : Inner ρ} {body : Option (Record ρ)}
    (h : ∀ f ∈ Shape.bodyFields body, Carries book n m (inner .ahead) (inner' .ahead) f.format)
    (hj : j.depth ≤ n) (hspliced : (spliceFields book (Shape.bodyFields body) j).depth ≤ m) :
    Agree (bodyOf inner body j) (bodyOf inner' body (spliceFields book (Shape.bodyFields body) j)) := by
  cases body with
  | some r => exact recordOf_splice h hj hspliced .ahead
  | none =>
    cases j with
    | null | bool | int | real | str | obj => exact .rfl
    | arr items => cases items <;> exact .rfl

theorem tagOf_ahead {β : Type} {origin : Origin} {cases : List (String × β)} {tag : Json}
    {c : String × β} (h : tagOf origin cases tag = .ok c) : tagOf .ahead cases tag = .ok c := by
  cases origin with
  | ahead => exact h
  | whole =>
    cases tag with
    | str s => exact h
    | null | bool | int | real | arr | obj => cases h

theorem mem_of_tagOf {β : Type} {origin : Origin} {cases : List (String × β)} {tag : Json}
    {c : String × β} (h : tagOf origin cases tag = .ok c) : c ∈ cases := by
  have h := tagOf_ahead h
  cases tag with
  | str s =>
    simp only [tagOf] at h
    split at h
    · rename_i hfind
      cases h
      exact List.mem_of_find?_eq_some hfind
    · cases h
  | int k =>
    simp only [tagOf] at h
    split at h
    · cases h
    · split at h
      · rename_i hget
        cases h
        exact List.mem_of_getElem? hget
      · cases h
  | null | bool | real | arr | obj => cases h

theorem fieldsOf_eq {origin : Origin} {cases : List (String × Option (Record ρ))} {tag : Json}
    {c : String × Option (Record ρ)} (h : tagOf origin cases tag = .ok c) :
    Shape.fieldsOf cases tag = Shape.bodyFields c.2 := by
  rw [Shape.fieldsOf, tagOf_ahead h]

/-- The entries under a key that is not spliced, and the others. -/
theorem filter_spliceEntries (book : Book ρ) {formatOf : String → Option (Format ρ)} {key : String}
    (hkey : formatOf key = none) (entries : List (String × Json)) :
    (spliceEntries book formatOf entries).filter (·.1 = key) = entries.filter (·.1 = key) ∧
      (spliceEntries book formatOf entries).filter (·.1 ≠ key) =
        spliceEntries book formatOf (entries.filter (·.1 ≠ key)) := by
  induction entries with
  | nil => exact ⟨rfl, rfl⟩
  | cons e entries ih =>
    rw [spliceEntries]
    by_cases he : e.1 = key
    · subst he
      simpa [hkey] using ih
    · simpa [he, spliceEntries] using ih

theorem spliceEntries_congr {formatOf formatOf' : String → Option (Format ρ)}
    (h : ∀ e ∈ entries, formatOf e.1 = formatOf' e.1) :
    spliceEntries book formatOf entries = spliceEntries book formatOf' entries := by
  rw [spliceEntries_eq, spliceEntries_eq]
  exact List.map_congr_left fun e he => by rw [h e he]

theorem taggedOf_splice {inner inner' : Inner ρ} {name : ρ} {title key : String}
    {cases : List (String × Option (Record ρ))} (hname : book name = .tagged title key cases)
    (h : ∀ c ∈ cases, ∀ f ∈ Shape.bodyFields c.2,
      Carries book n m (inner .ahead) (inner' .ahead) f.format)
    (hj : j.depth ≤ n) (hspliced : (splice book (named name) j).depth ≤ m) (origin : Origin) :
    Agree (taggedOf origin inner title key cases j)
      (taggedOf origin inner' title key cases (splice book (named name) j)) := by
  cases j with
  | null | bool | int | real | str => exact .rfl
  | obj entries =>
    have hkey : entryFormat? book (named name) entries key = none := by
      simp [entryFormat?, hname, Shape.entryFormat?]
    obtain ⟨htags, hothers⟩ := filter_spliceEntries book hkey entries
    rw [splice] at hspliced ⊢
    simp only [taggedOf, htags, hothers]
    cases hentries : entries.filter (·.1 = key) with
    | nil => exact .rfl
    | cons e more =>
      refine Agree.rfl.bind fun c htag => ?_
      cases more with
      | cons => exact .rfl
      | nil =>
        -- No other entry has the key of the tag, so the rest is read as the fields of its alternative.
        have hformats : spliceEntries book (entryFormat? book (named name) entries)
            (entries.filter (·.1 ≠ key)) =
            spliceEntries book (Shape.fieldFormat? (Shape.bodyFields c.2)) (entries.filter (·.1 ≠ key)) := by
          refine spliceEntries_congr fun e' he' => ?_
          have hne : e'.1 ≠ key := by simpa using (List.mem_filter.mp he').2
          have hfind : entries.find? (·.1 = key) = some e := by
            rw [← List.head?_filter, hentries]
            rfl
          simp [entryFormat?, hname, Shape.entryFormat?, hne, hfind, fieldsOf_eq htag]
        rw [← hothers] at hformats
        have hrest : (Json.obj (spliceEntries book (Shape.fieldFormat? (Shape.bodyFields c.2))
            (entries.filter (·.1 ≠ key)))).depth ≤ m :=
          hformats ▸ Json.depth_obj_le_of_subset List.filter_sublist.subset hspliced
        rw [← hothers, hformats]
        exact (bodyOf_splice (h c (mem_of_tagOf htag))
          (Json.depth_obj_le_of_subset List.filter_sublist.subset hj) hrest).bind fun _ _ => .rfl
  | arr items =>
    cases items with
    | nil =>
      rw [splice_named, spliceItems_nil]
      exact .rfl
    | cons tag items =>
      rw [splice_named, hname, Shape.itemFormats, spliceItems] at hspliced ⊢
      refine Agree.rfl.bind fun c htag => ?_
      rw [fieldsOf_eq htag] at hspliced ⊢
      exact (bodyOf_splice (h c (mem_of_tagOf htag))
        (Json.depth_arr_le_of_subset (List.subset_cons_self _ _) hj)
        (Json.depth_arr_le_of_subset (List.subset_cons_self _ _) hspliced)).bind fun _ _ => .rfl

theorem wrappedOf_splice {name : ρ} {cases : List (String × Format ρ)}
    (hname : book name = .wrapped cases) (h : ∀ c ∈ cases, Carries book n m inner inner' c.2)
    (hj : j.depth ≤ n) (hspliced : (splice book (named name) j).depth ≤ m) :
    Agree (wrappedOf inner cases j) (wrappedOf inner' cases (splice book (named name) j)) := by
  cases j with
  | null | bool | int | real | arr => exact .rfl
  | str tag =>
    simp only [wrappedOf, splice, soleEntry, Outcome.ok_bind]
    cases cases.find? (·.1 = tag) <;> exact .rfl
  | obj entries =>
    cases entries with
    | nil => exact .rfl
    | cons e others =>
      cases others with
      | cons => exact .rfl
      | nil =>
        rw [splice, spliceEntries, spliceEntries, entryFormat?, hname, Shape.entryFormat?] at hspliced ⊢
        simp only [wrappedOf, soleEntry, Outcome.ok_bind]
        cases hcase : cases.find? (·.1 = e.1) with
        | none => exact .rfl
        | some c =>
          rw [hcase] at hspliced
          have hvalue := h c (List.mem_of_find?_eq_some hcase) e.2
            (Json.depth_obj_lt hj _ List.mem_cons_self)
            (Json.depth_obj_lt hspliced _ List.mem_cons_self)
          exact hvalue.bind fun _ _ => .rfl

theorem ledOf_splice {name : ρ} {expecting : String} {cases : List (Option String × Option (Format ρ))}
    (hname : book name = .led expecting cases)
    (h : ∀ c ∈ cases, ∀ f ∈ c.2, Carries book n m inner inner' f)
    (hj : j.depth ≤ n) (hspliced : (splice book (named name) j).depth ≤ m) (origin : Origin) :
    Agree (ledOf origin inner expecting cases j)
      (ledOf origin inner' expecting cases (splice book (named name) j)) := by
  cases j with
  | null | bool | int | real | str | obj => exact .rfl
  | arr items =>
    cases items with
    | nil =>
      rw [splice_named, spliceItems_nil]
      exact .rfl
    | cons lead items =>
      rw [splice_named, hname, Shape.itemFormats, spliceItems] at hspliced ⊢
      refine Agree.rfl.bind fun tag hlead => Agree.rfl.bind fun operand hoperand => ?_
      have hformat : Shape.operandFormat? cases lead = operand := by
        rw [Shape.operandFormat?, hlead, Outcome.ok_bind, hoperand]
      rw [hformat] at hspliced ⊢
      cases operand with
      | none =>
        have hsame : spliceItems book [none] items = items := by cases items <;> simp [spliceItems]
        rw [hsame]
        cases items <;> exact .rfl
      | some f =>
        cases items with
        | nil => exact .rfl
        | cons j items =>
          rw [spliceItems, spliceItems_none] at hspliced ⊢
          have hvalue := h _ (mem_of_operandOf? hoperand) f rfl j
            (Json.depth_arr_lt hj _ (by simp)) (Json.depth_arr_lt hspliced _ (by simp))
          exact hvalue.bind fun _ _ => .rfl

/-- A bare word, and an object in its place, are left alone. -/
theorem splice_word {name : ρ} {words : List String} (hname : book name = .word words) :
    splice book (named name) j = j := by
  cases j with
  | null | bool | int | real | str => rfl
  | arr items => simp [splice_named, hname, Shape.itemFormats]
  | obj entries =>
    rw [splice, spliceEntries_eq]
    simp [entryFormat?, hname, Shape.entryFormat?, spliceAs]

theorem shapeOf_splice {inner inner' : Inner ρ} {name : ρ}
    (h : ∀ origin, ∀ f ∈ (book name).formats, Carries book n m (inner origin) (inner' origin) f)
    (hj : j.depth ≤ n) (hspliced : (splice book (named name) j).depth ≤ m) (origin : Origin) :
    Agree (shapeOf origin inner (book name) j)
      (shapeOf origin inner' (book name) (splice book (named name) j)) := by
  cases hname : book name with
  | word words =>
    rw [splice_word hname]
    exact .rfl
  | record r =>
    have hfields : ∀ f ∈ r.fields, Carries book n m (inner origin) (inner' origin) f.format :=
      fun f hf => h origin _ (by rw [hname]; exact List.mem_map_of_mem hf)
    have hsame : splice book (named name) j = spliceFields book r.fields j := by
      cases j with
      | null | bool | int | real | str => rfl
      | arr items => rw [splice_named, hname, Shape.itemFormats, spliceFields]
      | obj entries =>
        rw [splice, spliceFields]
        congr
        funext key
        rw [entryFormat?, hname, Shape.entryFormat?]
    rw [hsame] at hspliced ⊢
    exact (recordOf_splice hfields hj hspliced origin).bind fun _ _ => .rfl
  | tuple title formats =>
    cases j with
    | null | bool | int | real | str | obj => exact .rfl
    | arr items =>
      have hparts : ∀ f ∈ formats, Carries book n m (inner origin) (inner' origin) f :=
        fun f hf => h origin f (by rw [hname]; exact hf)
      rw [splice_named, hname, Shape.itemFormats] at hspliced ⊢
      have htuple := tupleOf_splice hparts (Json.depth_arr_lt hj) (Json.depth_arr_lt hspliced)
        (tupleExpecting title formats.length) 0
      simp only [shapeOf, length_spliceItems]
      exact htuple.bind fun _ _ => .rfl
  | wrapped cases =>
    refine wrappedOf_splice hname (fun c hc => h origin _ ?_) hj hspliced
    rw [hname]
    exact List.mem_map_of_mem hc
  | tagged title key cases =>
    refine taggedOf_splice hname (fun c hc f hf => h .ahead _ ?_) hj hspliced origin
    rw [hname]
    exact List.mem_flatMap.mpr ⟨c, hc, List.mem_map_of_mem hf⟩
  | led expecting cases =>
    refine ledOf_splice hname (fun c hc f hf => h origin f ?_) hj hspliced origin
    rw [hname]
    exact List.mem_filterMap.mpr ⟨c, hc, hf⟩

/-- Only objects stand in groups. -/
def GroupsObjects (book : Book ρ) : Format ρ → Prop
  | grouped item _ => (book item).IsObject
  | list item => item.GroupsObjects book
  | dict value => value.GroupsObjects book
  | _ => True

instance (shape : Shape ρ) : Decidable shape.IsObject :=
  match shape with
  | .record _ | .tagged .. => .isTrue trivial
  | .tuple .. | .word _ | .wrapped _ | .led .. => .isFalse id

instance decidableGroupsObjects (book : Book ρ) : (f : Format ρ) → Decidable (f.GroupsObjects book)
  | grouped item _ => inferInstanceAs (Decidable (book item).IsObject)
  | list item => decidableGroupsObjects book item
  | dict value => decidableGroupsObjects book value
  | bool | int _ | text | named _ => .isTrue trivial

/-- Where an object is expected, no value without values inside is read. -/
theorem plainIn_scalar {item : ρ} (hitem : (book item).IsObject) (hj : j.depth = 0) (origin : Origin) :
    ∃ e, plainIn book m origin (named item) j = .error e := by
  cases m with
  | zero => exact ⟨_, rfl⟩
  | succ m =>
    simp only [plainIn, ungrouped, valueAt]
    cases hname : book item with
    | record | tagged =>
      cases j with
      | arr | obj => cases hj
      | null | bool | int | real | str => exact ⟨_, rfl⟩
    | tuple | word | wrapped | led =>
      rw [hname] at hitem
      exact hitem.elim

/-- An item of a grouped list contributes what is read in its place once it is spliced. -/
theorem groupOf_splice {item : ρ} (expecting : String) {origin : Origin} (hitem : (book item).IsObject)
    (hinner : ∀ {m : Nat} {f : Format ρ}, f.GroupsObjects book →
      Carries book n m inner (plainIn book m origin) f)
    (hj : j.depth < n) (hspliced : (Json.arr (spliceGroups book item [j])).depth ≤ m) :
    Agree (groupOf inner item expecting j)
      ((spliceGroups book item [j]).mapM (plainIn book m origin (named item))) := by
  have hscalar := fun hzero => plainIn_scalar (m := m) (j := j) hitem hzero origin
  cases j with
  | arr group =>
    rw [spliceGroups, spliceGroups, List.append_nil] at hspliced ⊢
    have hgroup := hinner (m := m + 1) (f := grouped item expecting) hitem (.arr group) hj
      (Nat.lt_succ_of_le hspliced)
    have hitems : Agree (groupOf inner item expecting (.arr group)) _ :=
      hgroup.bind fun _ _ => .rfl
    refine hitems.trans ?_
    simp only [splice, plainIn, ungrouped, valueAt]
    cases (spliceGroups book item group).mapM (plainIn book m origin (named item)) <;> exact .rfl
  | obj entries =>
    have hobject := hinner (m := m) (f := named item) trivial (.obj entries) hj
      (Json.depth_arr_lt hspliced _ List.mem_cons_self)
    exact hobject.bind fun _ _ => .rfl
  | null | bool | int | real | str =>
    obtain ⟨e, he⟩ := hscalar rfl
    simp only [spliceGroups, splice, List.mapM_cons, he]
    exact agree_error _ _

/-- A grouped list gives what all its items contribute. -/
theorem mapM_groupOf_splice {item : ρ} (expecting : String) {origin : Origin}
    (hitem : (book item).IsObject)
    (hinner : ∀ {m : Nat} {f : Format ρ}, f.GroupsObjects book →
      Carries book n m inner (plainIn book m origin) f)
    (hitems : ∀ j ∈ items, j.depth < n)
    (hspliced : (Json.arr (spliceGroups book item items)).depth ≤ m) :
    Agree (items.mapM (groupOf inner item expecting) >>= fun ds => .ok ds.flatten)
      ((spliceGroups book item items).mapM (plainIn book m origin (named item))) := by
  induction items with
  | nil => exact .rfl
  | cons j items ih =>
    obtain ⟨hj, hitems⟩ := List.forall_mem_cons.mp hitems
    have happend := spliceGroups_append book item [j] items
    rw [List.singleton_append] at happend
    rw [happend] at hspliced ⊢
    have hfirst := groupOf_splice expecting hitem hinner hj
      (Json.depth_arr_le_of_subset (List.subset_append_left _ _) hspliced)
    have hothers := ih hitems (Json.depth_arr_le_of_subset (List.subset_append_right _ _) hspliced)
    rw [List.mapM_cons, List.mapM_append, bind_assoc]
    refine hfirst.bind fun ds _ => ?_
    have hall := hothers.bind (f := fun rest => .ok (ds ++ rest)) fun _ _ => .rfl
    rw [bind_assoc] at hall ⊢
    exact hall

/-- One step of reading, if the values inside are read so. -/
theorem valueAt_splice {inner : Inner ρ}
    (hbook : ∀ name, ∀ f ∈ (book name).formats, f.GroupsObjects book)
    (hinner : ∀ {m : Nat} (origin : Origin) {f : Format ρ}, f.GroupsObjects book →
      Carries book n m (inner origin) (plainIn book m origin) f)
    (hf : f.GroupsObjects book) (origin : Origin) :
    Carries book (n + 1) m (valueAt book inner origin) (plainIn book m origin) f := by
  intro j hj hspliced
  cases m with
  | zero => exact absurd hspliced (Nat.not_lt_zero _)
  | succ m =>
    have hj := Nat.le_of_lt_succ hj
    have hspliced := Nat.le_of_lt_succ hspliced
    cases f with
    | bool | int | text => cases j <;> exact .rfl
    | list item =>
      cases j with
      | null | bool | int | real | str | obj => exact .rfl
      | arr items =>
        rw [splice_list] at hspliced ⊢
        have hitems : ∀ j ∈ items, Agree (inner origin item j)
            (plainIn book m origin item (splice book item j)) := fun j hmem =>
          hinner origin (f := item) hf j (Json.depth_arr_lt hj j hmem)
            (Json.depth_arr_lt hspliced _ (List.mem_map_of_mem hmem))
        exact (Agree.mapM hitems).bind fun _ _ => .rfl
    | grouped item expecting =>
      cases j with
      | null | bool | int | real | str | obj => exact .rfl
      | arr items =>
        have hgroups := mapM_groupOf_splice expecting hf (hinner origin) (Json.depth_arr_lt hj) hspliced
        have hlist := hgroups.bind (f := fun ds => .ok (Datum.list ds)) fun _ _ => .rfl
        rw [bind_assoc] at hlist
        exact hlist
    | dict value =>
      cases j with
      | null | bool | int | real | str | arr => exact .rfl
      | obj entries =>
        rw [splice_dict] at hspliced ⊢
        have hvalues : ∀ e ∈ entries, Agree (do .ok (e.1, ← inner origin value e.2))
            (do .ok (e.1, ← plainIn book m origin value (splice book value e.2))) := fun e hmem =>
          (hinner origin (f := value) hf e.2 (Json.depth_obj_lt hj e hmem)
            (Json.depth_obj_lt hspliced _ (List.mem_map_of_mem hmem))).bind fun _ _ => .rfl
        exact (Agree.mapM (k := fun e : String × Json => (e.1, splice book value e.2)) hvalues).bind
          fun _ _ => .rfl
    | named name =>
      exact shapeOf_splice (fun origin f hf => hinner origin (hbook name f hf)) hj hspliced origin

theorem valueIn_splice (hbook : ∀ name, ∀ f ∈ (book name).formats, f.GroupsObjects book)
    (hf : f.GroupsObjects book) (origin : Origin) :
    Carries book n m (valueIn book n origin) (plainIn book m origin) f := by
  induction n generalizing m f origin with
  | zero =>
    intro j hj
    exact absurd hj (Nat.not_lt_zero _)
  | succ n ih => exact valueAt_splice hbook (fun origin f hf => ih hf origin) hf origin

/-- A value with groups is read as its spliced form is read without any. -/
theorem ofJson_splice (hbook : ∀ name, ∀ f ∈ (book name).formats, f.GroupsObjects book)
    (hf : f.GroupsObjects book) (origin : Origin) (j : Json) :
    Agree (ofJson book origin f j) (ofPlainJson book origin f (splice book f j)) :=
  valueIn_splice hbook hf origin j (Nat.lt_succ_self _) (Nat.lt_succ_self _)

/-- The levels that a value is read with do not matter: the values inside may have all of theirs. -/
theorem ofJson_eq_valueAt (hbook : ∀ name, ∀ f ∈ (book name).formats, f.GroupsObjects book)
    (hf : f.GroupsObjects book) (origin : Origin) (j : Json) :
    Agree (ofJson book origin f j) (valueAt book (ofJson book) origin f j) := by
  have hinner {m : Nat} (origin : Origin) {g : Format ρ} (hg : g.GroupsObjects book) :
      Carries book j.depth m (ofJson book origin) (plainIn book m origin) g :=
    fun k _ hspliced => valueIn_splice hbook hg origin k (Nat.lt_succ_self _) hspliced
  have hstep := valueAt_splice hbook hinner hf origin j (Nat.lt_succ_self _) (Nat.lt_succ_self _)
  exact (ofJson_splice hbook hf origin j).trans hstep.symm

end Narrative.Format
