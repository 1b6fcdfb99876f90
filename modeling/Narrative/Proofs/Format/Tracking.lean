import Narrative.Format.Reader
import Narrative.Proofs.Format.Grouping
import Narrative.Proofs.Json.Skip

namespace Narrative.Format

open Json (ItemsAt EntriesAt ValueAt skipBlank readColon)
open Outcome (Agree agree_error agree_ok)

variable {ρ : Type} {book : Book ρ} {nested : Nested ρ} {json : Reader Json} {s rest : List Char}
  {j : Json} {items : List Json} {entries : List (String × Json)} {first : Bool} {steps : Nat}

/-- A reader finds in a text what is found in the JSON value it is, and leaves the same rest. -/
def Tracks {α : Type} (json : Reader Json) (read : Reader α) (value : Json → Except Mismatch α) : Prop :=
  ∀ s j rest, json s = .ok (j, rest) → Agree (read s) (value j >>= fun a => .ok (a, rest))

variable {inner : Option (Reader Json)} {value : Inner ρ}

theorem readBool_of_valueAt (h : ValueAt inner (skipBlank s) j rest) :
    Agree (readBool s) (valueAt book value .whole .bool j >>= fun d => .ok (d, rest)) := by
  unfold readBool
  split
  · rename_i r hs
    obtain ⟨rfl, hword⟩ := (hs ▸ h).of_t
    rw [hword]
    exact agree_ok _
  · rename_i r hs
    obtain ⟨rfl, hword⟩ := (hs ▸ h).of_f
    rw [hword]
    exact agree_ok _
  · rename_i hyes hno
    cases j with
    | bool b => exact absurd rfl (h.ne_bool hyes hno b)
    | null | int | real | str | arr | obj => exact agree_error _ _

/-- A text stands in quotes. -/
theorem readText_of_valueAt (expected : String) (h : ValueAt inner (skipBlank s) j rest) :
    (∃ t, j = .str t ∧ readText expected s = .ok (t, rest)) ∨
      ((∀ t, j ≠ .str t) ∧ ∃ fault, readText expected s = .error fault) := by
  unfold readText
  split
  · rename_i r hs
    obtain ⟨t, rfl, hstring⟩ := (hs ▸ h).of_quote
    exact .inl ⟨t, rfl, hstring⟩
  · rename_i hquote
    exact .inr ⟨h.ne_str hquote, _, rfl⟩

theorem fitted_agree {α : Type} (x : Except Mismatch α) : Agree (fitted x) x := by
  cases x with
  | ok a => exact agree_ok a
  | error m => exact agree_error _ _

theorem fitted_eq_ok {α : Type} {x : Except Mismatch α} {a : α} (h : fitted x = .ok a) : x = .ok a :=
  (fitted_agree x a).mp h

theorem readInt_of_valueAt (width : Width) (h : ValueAt inner (skipBlank s) j rest) :
    Agree (readInt width s) (width.check j >>= fun d => .ok (d, rest)) := by
  unfold readInt
  extract_lets number
  have hnumber : Agree (number (.ok (j, rest))) (width.check j >>= fun d => .ok (d, rest)) :=
    (fitted_agree _).bind fun _ _ => agree_ok _
  split
  · rename_i r hs
    rw [hs] at h
    cases h with
    | scalar h =>
      cases h with
      | negative h => rwa [h]
      | number hdigit => cases hdigit
  · rename_i c r hminus hs
    rw [hs] at h
    split
    · rename_i hdigit
      cases h with
      | scalar h =>
        cases h with
        | number _ h => rwa [h]
        | null | true | false | str | negative => cases hdigit
      | arr | obj => cases hdigit
    · rename_i hdigit
      cases j with
      | int k =>
        cases h with
        | scalar h =>
          cases h with
          | negative => exact (hminus rfl).elim
          | number hc => exact absurd hc hdigit
      | null | bool | real | str | arr | obj => exact agree_error _ _
  · rename_i hs
    rw [hs] at h
    cases h with
    | scalar h => cases h

/-- Nested containers are read as JSON is, and what a format allows in them is found there. -/
structure Faithful (book : Book ρ) (nested : Nested ρ) : Prop where
  reads : ∃ levels, nested.json = Json.read levels
  tracks : ∀ f : Format ρ, f.GroupsObjects book →
    Tracks nested.json (nested.format f) (ofJson book .whole f)

theorem readItems_tracks {α : Type} {read : Reader α} {value : Json → Except Mismatch α}
    (hitem : Tracks json read value) (h : ItemsAt json first s items rest)
    (hsteps : items.length < steps) :
    Agree (Json.readItems read steps first s) (items.mapM value >>= fun as => .ok (as, rest)) := by
  induction h generalizing steps with
  | @close first s h =>
    obtain ⟨steps, rfl⟩ : ∃ k, steps = k + 1 := ⟨steps - 1, by omega⟩
    rw [Json.readItems, h]
    exact agree_ok _
  | @item first s start after rest j items hnext hread _ ih =>
    rw [List.length_cons] at hsteps
    obtain ⟨steps, rfl⟩ : ∃ k, steps = k + 1 := ⟨steps - 1, by omega⟩
    have hothers := ih (Nat.lt_of_succ_lt_succ hsteps)
    rw [Json.readItems, hnext, Outcome.ok_bind, List.mapM_cons, bind_assoc]
    refine (hitem _ _ _ hread).bind_after fun a => ?_
    rw [bind_assoc]
    exact hothers.bind_after fun as => agree_ok _

theorem foldEntries_tracks {σ : Type} {step : σ → String → Reader σ}
    {put : σ → String → Json → Except Mismatch σ}
    (hstep : ∀ acc key colon start j after, readColon colon = .ok start →
      json start = .ok (j, after) →
      Agree (step acc key colon) (put acc key j >>= fun acc => .ok (acc, after)))
    (h : EntriesAt json first s entries rest) (hsteps : entries.length < steps) (acc : σ) :
    Agree (Json.foldEntries step steps first acc s)
      (entries.foldlM (fun acc e => put acc e.1 e.2) acc >>= fun acc => .ok (acc, rest)) := by
  induction h generalizing steps acc with
  | @close first s h =>
    obtain ⟨steps, rfl⟩ : ∃ k, steps = k + 1 := ⟨steps - 1, by omega⟩
    rw [Json.foldEntries, h]
    exact agree_ok _
  | @entry first s colon start after rest key j entries hnext hcolon hread _ ih =>
    rw [List.length_cons] at hsteps
    obtain ⟨steps, rfl⟩ : ∃ k, steps = k + 1 := ⟨steps - 1, by omega⟩
    rw [Json.foldEntries, hnext, Outcome.ok_bind, List.foldlM_cons, bind_assoc]
    exact (hstep acc _ _ _ _ _ hcolon hread).bind_after fun acc => ih (by omega) acc

/-- Values put into a map one by one, as they are read. -/
theorem foldlM_insert (value : Json → Except Mismatch Datum) (entries : List (String × Json))
    (m : Keyed Datum) :
    entries.foldlM (fun m e => do .ok (Keyed.insert e.1 (← value e.2) m)) m =
      (entries.mapM fun e => do .ok (e.1, ← value e.2)) >>= fun pairs => .ok (Keyed.union m pairs) := by
  induction entries generalizing m with
  | nil => rfl
  | cons e entries ih =>
    rw [List.foldlM_cons, List.mapM_cons, bind_assoc]
    cases value e.2 with
    | error => rfl
    | ok d =>
      simp only [Outcome.ok_bind, ih, bind_assoc]
      rfl

/-- JSON is read the same with the blanks before it or without. -/
theorem Faithful.skipBlank (hnested : Faithful book nested) (s : List Char) :
    nested.json (skipBlank s) = nested.json s := by
  obtain ⟨levels, hlevels⟩ := hnested.reads
  have hblanks : ∀ c ∈ s.takeWhile Json.isBlank, Json.isBlank c = true :=
    fun c hc => List.mem_takeWhile_imp hc
  have hpatient := Json.patient_read levels _ hblanks (s.dropWhile Json.isBlank)
  rw [List.takeWhile_append_dropWhile] at hpatient
  rw [hlevels, Json.skipBlank, hpatient]

theorem Faithful.valueAt (hnested : Faithful book nested) (h : nested.json s = .ok (j, rest)) :
    ∃ inner, ValueAt inner (Json.skipBlank s) j rest := by
  obtain ⟨levels, hlevels⟩ := hnested.reads
  obtain ⟨inner, hinner⟩ := Json.exists_read levels
  rw [hlevels, hinner] at h
  exact ⟨inner, Json.valueAt_of_readAt h⟩

/-- Items that are read ahead as JSON. -/
theorem Faithful.readItems (hnested : Faithful book nested)
    (h : ItemsAt nested.json first s items rest) :
    Json.readItems nested.json (s.length + 1) first s = .ok (items, rest) := by
  obtain ⟨levels, hlevels⟩ := hnested.reads
  have hlength : items.length ≤ s.length := Json.length_le_of_itemsAt (hlevels ▸ h)
  have hjson : Tracks nested.json nested.json .ok := by
    intro s j rest hread
    rw [hread]
    exact agree_ok _
  have hall : items.mapM (.ok : Json → Except Mismatch Json) = .ok items :=
    (Outcome.mapM_eq_ok (g := id) fun _ _ => rfl).trans (by rw [List.map_id])
  refine (readItems_tracks hjson h (Nat.lt_succ_of_le hlength) _).mpr ?_
  rw [hall]
  rfl

theorem readField_tracks (hnested : Faithful book nested) {f : Field ρ}
    (hf : f.format.GroupsObjects book) :
    Tracks nested.json (readField nested f) (fieldOf (ofJson book .whole) f) := by
  intro s j rest h
  obtain ⟨inner, hat⟩ := hnested.valueAt h
  have hvalue := hnested.tracks f.format hf (Json.skipBlank s) j rest
    ((hnested.skipBlank s).trans h)
  unfold readField
  split
  · rename_i r hpresence hs
    obtain ⟨rfl, hword⟩ := (hs ▸ hat).of_n
    have hnull : fieldOf (ofJson book .whole) f .null = .ok .null := by simp [fieldOf, hpresence]
    rw [hword, hnull]
    exact agree_ok _
  · rename_i hother
    have hsame : fieldOf (ofJson book .whole) f j = ofJson book .whole f.format j := by
      rw [fieldOf]
      exact fun hpresence => hat.ne_null fun r => hother r hpresence
    rwa [hsame]

/-- An array of which no more items are wanted must end. -/
theorem closeArray_tracks {α : Type} (as : α) (h : ItemsAt json first s items rest) (fault : Mismatch) :
    Agree (do .ok (as, ← Json.closeArray s))
      (if 0 < items.length then .error fault else .ok (as, rest)) := by
  cases h with
  | close hnext =>
    obtain ⟨-, hclose⟩ | ⟨hsome, -⟩ := Json.closeArray_of_nextItem hnext
    · rw [hclose]
      exact agree_ok _
    · exact absurd rfl hsome
  | item hnext =>
    obtain ⟨hnone, -⟩ | ⟨-, fault, hclose⟩ := Json.closeArray_of_nextItem hnext
    · cases hnone
    · rw [hclose]
      exact agree_error _ _

/-- One value more in front of those before the end of an array. -/
theorem closeArray_cons (d : Datum) {x : Except Fault (List Datum × List Char)}
    {y : Except Mismatch (List Datum)} {p : Prop} [Decidable p] {fault : Mismatch}
    (h : Agree (do
        let r ← x
        .ok (r.1, ← Json.closeArray r.2)) (do
        let ds ← y
        if p then .error fault else .ok (ds, rest))) :
    Agree (do
        let r ← x
        .ok (d :: r.1, ← Json.closeArray r.2)) (do
        let ds ← y
        if p then .error fault else .ok (d :: ds, rest)) := by
  have hcons := h.map_fst (d :: ·)
  simp only [bind_assoc, Outcome.ok_bind] at hcons
  refine hcons.trans (Agree.rfl.bind fun ds _ => ?_)
  split <;> exact .rfl

theorem readFieldsInOrder_tracks (hnested : Faithful book nested) {fields : List (Field ρ)}
    (hfields : ∀ f ∈ fields, f.format.GroupsObjects book) (h : ItemsAt nested.json first s items rest)
    (expecting : String) (i : Nat) (fault : Mismatch) :
    Agree (readFieldsInOrder nested expecting i first fields s >>= fun r => do
        .ok (r.1, ← Json.closeArray r.2))
      (fieldsInOrder (ofJson book .whole) expecting i fields items >>= fun ds =>
        if fields.length < items.length then .error fault else .ok (ds, rest)) := by
  induction fields generalizing i first s items with
  | nil => exact closeArray_tracks [] h fault
  | cons f fields ih =>
    obtain ⟨hf, hfields⟩ := List.forall_mem_cons.mp hfields
    cases h with
    | close hnext =>
      have hrest := ih hfields (.close hnext) (i + 1)
      rw [readFieldsInOrder, fieldsInOrder, hnext, Outcome.ok_bind]
      cases f.absent? with
      | none => exact agree_error _ _
      | some d =>
        have hcons := closeArray_cons d hrest
        simp only [bind_assoc, Outcome.ok_bind, List.length_nil, Nat.not_lt_zero, if_false] at hcons ⊢
        exact hcons
    | item hnext hread hitems =>
      have hrest := ih hfields hitems (i + 1)
      rw [readFieldsInOrder, fieldsInOrder, hnext, Outcome.ok_bind]
      simp only [bind_assoc]
      refine (readField_tracks hnested hf _ _ _ hread).bind_after fun d => ?_
      simp only [Outcome.ok_bind, List.length_cons, Nat.add_lt_add_iff_right]
      exact closeArray_cons d hrest

theorem readTupleItems_tracks (hnested : Faithful book nested) {formats : List (Format ρ)}
    (hformats : ∀ f ∈ formats, f.GroupsObjects book) {i : Nat}
    (h : ItemsAt nested.json (i = 0) s items rest) (expecting : String) (fault : Mismatch) :
    Agree (readTupleItems nested expecting i formats s >>= fun r => do
        .ok (r.1, ← Json.closeArray r.2))
      (tupleOf (ofJson book .whole) expecting i formats items >>= fun ds =>
        if formats.length < items.length then .error fault else .ok (ds, rest)) := by
  induction formats generalizing i s items with
  | nil => exact closeArray_tracks [] h fault
  | cons f formats ih =>
    obtain ⟨hf, hformats⟩ := List.forall_mem_cons.mp hformats
    cases h with
    | close hnext =>
      rw [readTupleItems, tupleOf, hnext]
      exact agree_error _ _
    | item hnext hread hitems =>
      have hrest := ih hformats (i := i + 1) hitems
      rw [readTupleItems, tupleOf, hnext, Outcome.ok_bind]
      simp only [bind_assoc]
      refine (hnested.tracks f hf _ _ _ hread).bind_after fun d => ?_
      simp only [Outcome.ok_bind, List.length_cons, Nat.add_lt_add_iff_right]
      exact closeArray_cons d hrest

/-- One entry of a record; what no field is named for is passed over. -/
def putField (inner : Format ρ → Json → Except Mismatch Datum) (r : Record ρ)
    (found : List (String × Datum)) (key : String) (j : Json) :
    Except Mismatch (List (String × Datum)) :=
  match r.field? key with
  | none => .ok found
  | some f => do
    if found.any (·.1 = key) then .error (.repeatedField key)
    .ok ((key, ← fieldOf inner f j) :: found)

theorem fieldsByName_eq_foldlM (inner : Format ρ → Json → Except Mismatch Datum) (r : Record ρ)
    (found : List (String × Datum)) (entries : List (String × Json)) :
    fieldsByName inner r found entries =
      entries.foldlM (fun found e => putField inner r found e.1 e.2) found := by
  induction entries generalizing found with
  | nil => rfl
  | cons e entries ih =>
    rw [List.foldlM_cons, fieldsByName, putField]
    cases r.field? e.1 with
    | none => exact ih found
    | some f =>
      dsimp only
      split
      · rfl
      · cases fieldOf inner f e.2 with
        | error => rfl
        | ok d => exact ih _

theorem readFieldEntry_tracks (hnested : Faithful book nested) {r : Record ρ}
    (hfields : ∀ f ∈ r.fields, f.format.GroupsObjects book) (found : List (String × Datum))
    (key : String) (colon start : List Char) (j : Json) (after : List Char)
    (hcolon : readColon colon = .ok start) (hread : nested.json start = .ok (j, after)) :
    Agree (readFieldEntry nested r found key colon)
      (putField (ofJson book .whole) r found key j >>= fun found => .ok (found, after)) := by
  rw [readFieldEntry, putField, hcolon]
  cases hfield : r.field? key with
  | none =>
    obtain ⟨levels, hlevels⟩ := hnested.reads
    rw [hlevels] at hread
    simp only [Outcome.ok_bind, Json.skip_of_read hread]
    exact agree_ok _
  | some f =>
    have hvalue := readField_tracks hnested (hfields f (List.mem_of_find?_eq_some hfield)) _ _ _ hread
    dsimp only
    split
    · exact agree_error _ _
    · simp only [Outcome.ok_bind, bind_assoc]
      exact hvalue.bind_after fun d => agree_ok _

end Narrative.Format
