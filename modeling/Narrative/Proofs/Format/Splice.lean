import Narrative.Proofs.Format.Value

namespace Narrative

variable {ρ : Type}

namespace Shape

open Format (tagOf leadOf operandOf?)

/-- The formats of the values inside a value of this shape. -/
def formats : Shape ρ → List (Format ρ)
  | .record r => r.fields.map Field.format
  | .tuple _ formats => formats
  | .word _ => []
  | .wrapped cases => cases.map Prod.snd
  | .tagged _ _ cases => cases.flatMap fun c => (bodyFields c.2).map Field.format
  | .led _ cases => cases.filterMap Prod.snd

/-- The format of the field of a name. -/
def fieldFormat? (fields : List (Field ρ)) (name : String) : Option (Format ρ) :=
  (fields.find? (·.name = name)).map Field.format

/-- The fields of the alternative that a tag stands for, be it a name or a number. -/
def fieldsOf (cases : List (String × Option (Record ρ))) (tag : Json) : List (Field ρ) :=
  match tagOf .ahead cases tag with
  | .ok c => bodyFields c.2
  | .error _ => []

/-- The format of the operand that a word asks for. -/
def operandFormat? (cases : List (Option String × Option (Format ρ))) (lead : Json) :
    Option (Format ρ) :=
  match leadOf lead >>= operandOf? cases with
  | .ok operand => operand
  | .error _ => none

/-- The formats that the items of a list are read under. What leads a list has none. -/
def itemFormats : Shape ρ → List Json → List (Option (Format ρ))
  | .record r, _ => r.fields.map fun f => some f.format
  | .tuple _ formats, _ => formats.map some
  | .tagged _ _ cases, tag :: _ => none :: (fieldsOf cases tag).map fun f => some f.format
  | .led _ cases, lead :: _ => [none, operandFormat? cases lead]
  | _, _ => []

/-- The format that the value under a key of an object is read under. -/
def entryFormat? (entries : List (String × Json)) (key : String) : Shape ρ → Option (Format ρ)
  | .record r => fieldFormat? r.fields key
  | .wrapped cases => (cases.find? (·.1 = key)).map Prod.snd
  | .tagged _ tagKey cases =>
    if key = tagKey then none
    else (entries.find? (·.1 = tagKey)).bind fun tag => fieldFormat? (fieldsOf cases tag.2) key
  | _ => none

end Shape

namespace Format

variable {book : Book ρ} {f : Format ρ} {j : Json} {items : List Json} {entries : List (String × Json)}

def itemFormats (book : Book ρ) (f : Format ρ) (items : List Json) : List (Option (Format ρ)) :=
  match f with
  | list item => .replicate items.length (some item)
  | named name => (book name).itemFormats items
  | _ => []

def entryFormat? (book : Book ρ) (f : Format ρ) (entries : List (String × Json)) (key : String) :
    Option (Format ρ) :=
  match f with
  | dict value => some value
  | named name => (book name).entryFormat? entries key
  | _ => none

mutual

/-- Replaces each list among the items of a grouped list by its own items, wherever the format has such a
list. -/
def splice (book : Book ρ) (f : Format ρ) : Json → Json
  | .arr items =>
    match f with
    | grouped item _ => .arr (spliceGroups book item items)
    | f => .arr (spliceItems book (itemFormats book f items) items)
  | .obj entries => .obj (spliceEntries book (entryFormat? book f entries) entries)
  | j => j

def spliceItems (book : Book ρ) : List (Option (Format ρ)) → List Json → List Json
  | some f :: formats, j :: items => splice book f j :: spliceItems book formats items
  | none :: formats, j :: items => j :: spliceItems book formats items
  | _, items => items

def spliceEntries (book : Book ρ) (formatOf : String → Option (Format ρ)) :
    List (String × Json) → List (String × Json)
  | [] => []
  | (key, j) :: entries =>
    (key, match formatOf key with | some f => splice book f j | none => j) ::
      spliceEntries book formatOf entries

/-- The items of a grouped list with those of the lists among them, each spliced in itself. -/
def spliceGroups (book : Book ρ) (item : ρ) : List Json → List Json
  | [] => []
  | .arr group :: items => spliceGroups book item group ++ spliceGroups book item items
  | j :: items => splice book (named item) j :: spliceGroups book item items

end

theorem splice_named (name : ρ) (items : List Json) :
    splice book (named name) (.arr items) =
      .arr (spliceItems book ((book name).itemFormats items) items) := rfl

@[simp]
theorem spliceItems_nil (formats : List (Option (Format ρ))) : spliceItems book formats [] = [] := by
  cases formats with
  | nil => rfl
  | cons f formats => cases f <;> rfl

@[simp]
theorem spliceItems_none (items : List Json) : spliceItems book [] items = items := by
  cases items <;> rfl

theorem spliceItems_replicate (item : Format ρ) (items : List Json) :
    spliceItems book (.replicate items.length (some item)) items = items.map (splice book item) := by
  induction items with
  | nil => rfl
  | cons j items ih => rw [List.length_cons, List.replicate_succ, spliceItems, ih, List.map_cons]

theorem splice_list (item : Format ρ) (items : List Json) :
    splice book (list item) (.arr items) = .arr (items.map (splice book item)) :=
  congrArg Json.arr (spliceItems_replicate item items)

theorem length_spliceItems (formats : List (Option (Format ρ))) (items : List Json) :
    (spliceItems book formats items).length = items.length := by
  induction formats generalizing items with
  | nil => rw [spliceItems_none]
  | cons f formats ih =>
    cases items with
    | nil => rw [spliceItems_nil]
    | cons j items => cases f <;> simp [spliceItems, ih]

/-- The value under a key, which may have no format. -/
def spliceAs (book : Book ρ) : Option (Format ρ) → Json → Json
  | some f, j => splice book f j
  | none, j => j

theorem spliceEntries_eq (formatOf : String → Option (Format ρ)) (entries : List (String × Json)) :
    spliceEntries book formatOf entries = entries.map fun e => (e.1, spliceAs book (formatOf e.1) e.2) := by
  induction entries with
  | nil => rfl
  | cons e entries ih =>
    rw [spliceEntries, ih, List.map_cons]
    cases formatOf e.1 <;> rfl

theorem splice_dict (value : Format ρ) (entries : List (String × Json)) :
    splice book (dict value) (.obj entries) =
      .obj (entries.map fun e => (e.1, splice book value e.2)) :=
  congrArg Json.obj (spliceEntries_eq (fun _ => some value) entries)

/-- An entry without a format is found as it was. -/
theorem find?_spliceEntries {formatOf : String → Option (Format ρ)} {key : String}
    (hkey : formatOf key = none) :
    (spliceEntries book formatOf entries).find? (·.1 = key) = entries.find? (·.1 = key) := by
  induction entries with
  | nil => rfl
  | cons e entries ih =>
    rw [spliceEntries, List.find?_cons, List.find?_cons, ih]
    by_cases he : e.1 = key
    · subst he
      simp [hkey]
    · simp [he]

theorem spliceGroups_append (book : Book ρ) (item : ρ) (a b : List Json) :
    spliceGroups book item (a ++ b) = spliceGroups book item a ++ spliceGroups book item b := by
  induction a with
  | nil => rfl
  | cons j a ih => cases j <;> simp [spliceGroups, ih]

theorem itemFormats_spliceItems (f : Format ρ) (items : List Json) :
    itemFormats book f (spliceItems book (itemFormats book f items) items) = itemFormats book f items := by
  cases f with
  | list item => simp [itemFormats, length_spliceItems]
  | bool | int | text | grouped | dict => rfl
  | named name =>
    simp only [itemFormats]
    cases book name with
    | record | tuple | word | wrapped => rfl
    | tagged title key cases => cases items <;> rfl
    | led expecting cases => cases items <;> rfl

theorem entryFormat?_spliceEntries (f : Format ρ) (entries : List (String × Json)) :
    entryFormat? book f (spliceEntries book (entryFormat? book f entries) entries) =
      entryFormat? book f entries := by
  cases f with
  | bool | int | text | list | grouped | dict => rfl
  | named name =>
    funext key
    cases hname : book name with
    | record | tuple | word | wrapped | led => simp only [entryFormat?, hname, Shape.entryFormat?]
    | tagged title tagKey cases =>
      have htag : entryFormat? book (named name) entries tagKey = none := by
        simp [entryFormat?, hname, Shape.entryFormat?]
      have hfind : (spliceEntries book (entryFormat? book (named name) entries) entries).find?
          (·.1 = tagKey) = entries.find? (·.1 = tagKey) := find?_spliceEntries htag
      rw [entryFormat?, entryFormat?, hname, Shape.entryFormat?, Shape.entryFormat?, hfind]

mutual

/-- Nothing is left to splice. -/
theorem splice_splice (f : Format ρ) : ∀ j, splice book f (splice book f j) = splice book f j
  | .null | .bool _ | .int _ | .real _ | .str _ => rfl
  | .obj entries => by
    rw [splice, splice, entryFormat?_spliceEntries, spliceEntries_spliceEntries]
  | .arr items => by
    cases f with
    | grouped item expecting => simp only [splice, spliceGroups_spliceGroups item items]
    | bool | int | text | list | dict | named =>
      simp only [splice, itemFormats_spliceItems, spliceItems_spliceItems _ items]

theorem spliceItems_spliceItems : ∀ (formats : List (Option (Format ρ))) (items : List Json),
    spliceItems book formats (spliceItems book formats items) = spliceItems book formats items
  | [], items => by rw [spliceItems_none, spliceItems_none]
  | none :: _, [] | some _ :: _, [] => rfl
  | none :: formats, j :: items => by
    rw [spliceItems, spliceItems, spliceItems_spliceItems formats items]
  | some f :: formats, j :: items => by
    rw [spliceItems, spliceItems, splice_splice f j, spliceItems_spliceItems formats items]

theorem spliceEntries_spliceEntries (formatOf : String → Option (Format ρ)) :
    ∀ entries, spliceEntries book formatOf (spliceEntries book formatOf entries) =
      spliceEntries book formatOf entries
  | [] => rfl
  | (key, j) :: entries => by
    rw [spliceEntries, spliceEntries, spliceEntries_spliceEntries formatOf entries]
    cases formatOf key with
    | none => rfl
    | some f => simp only [splice_splice f j]

theorem spliceGroups_spliceGroups (item : ρ) :
    ∀ items, spliceGroups book item (spliceGroups book item items) = spliceGroups book item items
  | [] => rfl
  | .arr group :: items => by
    rw [spliceGroups, spliceGroups_append, spliceGroups_spliceGroups item group,
      spliceGroups_spliceGroups item items]
  | .obj entries :: items => by
    have hfirst := splice_splice (named item) (.obj entries)
    simp only [spliceGroups, splice, spliceGroups_spliceGroups item items] at hfirst ⊢
    rw [hfirst]
  | .null :: items | .bool _ :: items | .int _ :: items | .real _ :: items | .str _ :: items => by
    simp only [spliceGroups, splice, spliceGroups_spliceGroups item items]

end

end Format

end Narrative
