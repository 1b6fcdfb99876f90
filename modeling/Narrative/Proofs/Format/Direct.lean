import Narrative.Proofs.Format.Tracking

namespace Narrative.Format

open Json (EntriesAt ItemsAt ValueAt skipBlank readColon)
open Outcome (Agree agree_error agree_ok)

variable {ρ : Type} {book : Book ρ} {nested : Nested ρ} {outer : Option (Nested ρ)}
  {json : Reader Json} {inner : Option (Reader Json)} {s rest : List Char} {j : Json}
  {entries : List (String × Json)}

theorem readSoleKey_of_entriesAt (h : EntriesAt json true s entries rest) :
    (entries = [] ∧ ∃ fault, readSoleKey s = .error fault) ∨
      ∃ key colon start j after others, entries = (key, j) :: others ∧
        readSoleKey s = .ok (key, colon) ∧ readColon colon = .ok start ∧
        json start = .ok (j, after) ∧ EntriesAt json false after others rest := by
  cases h with
  | close hnext =>
    obtain ⟨r, hs⟩ := Json.nextKey_eq_none hnext
    exact .inl ⟨rfl, _, by rw [readSoleKey, hs]; rfl⟩
  | entry hnext hcolon hread hothers =>
    obtain ⟨c, r, t, hs, -, hstring, ⟨-, ht⟩ | ⟨hfirst, -⟩⟩ := Json.nextKey_eq_some hnext
    · refine .inr ⟨_, _, _, _, _, _, rfl, ?_, hcolon, hread, hothers⟩
      rw [readSoleKey, hs, ht]
      exact hstring
    · cases hfirst

theorem closeSole_of_entriesAt (h : EntriesAt json false s entries rest) :
    (entries = [] ∧ closeSole s = .ok rest) ∨ (entries ≠ [] ∧ ∃ fault, closeSole s = .error fault) := by
  cases h with
  | close hnext =>
    obtain ⟨r, hs⟩ := Json.nextKey_eq_none hnext
    refine .inl ⟨rfl, ?_⟩
    rw [closeSole, hs]
    rfl
  | entry hnext =>
    obtain ⟨c, r, t, hs, -, -, ⟨hfirst, -⟩ | ⟨-, rfl, -⟩⟩ := Json.nextKey_eq_some hnext
    · cases hfirst
    · refine .inr ⟨by simp, .after .noValue (',' :: r), ?_⟩
      rw [closeSole, hs]
      rfl

/-- What stands beside the only key is read, and nothing may follow it. -/
theorem closeSole_tracks {α : Type} {x : Except Fault (α × List Char)} {y : Except Mismatch α}
    {after : List Char} (h : Agree x (y >>= fun a => .ok (a, after)))
    (hothers : EntriesAt json false after entries rest) (e : Mismatch) :
    Agree (x >>= fun r => do .ok (r.1, ← closeSole r.2))
      (if entries = [] then y >>= fun a => .ok (a, rest) else .error e) := by
  obtain ⟨rfl, hclose⟩ | ⟨hmore, fault, hclose⟩ := closeSole_of_entriesAt hothers
  · rw [if_pos rfl]
    refine h.bind_after fun a => ?_
    rw [hclose]
    exact agree_ok _
  · have hnever : Agree (x >>= fun r => do .ok (r.1, ← closeSole r.2))
        (y >>= fun _ => (.error e : Except Mismatch (α × List Char))) := by
      refine h.bind_after fun a => ?_
      rw [hclose]
      exact agree_error _ _
    rw [if_neg hmore]
    refine hnever.trans ?_
    cases y <;> exact agree_error _ _

theorem readUnit_of_valueAt (h : ValueAt inner (skipBlank s) j rest) :
    Agree (do .ok ((), ← readUnit s)) (unitOf .whole j >>= fun u => .ok (u, rest)) := by
  unfold readUnit
  split
  · rename_i r hs
    obtain ⟨rfl, hword⟩ := (hs ▸ h).of_n
    rw [hword]
    exact agree_ok _
  · rename_i hnull
    cases j with
    | null => exact absurd rfl (h.ne_null hnull)
    | obj entries => cases entries <;> exact agree_error _ _
    | bool | int | real | str | arr => exact agree_error _ _

theorem readTag_of_valueAt {β : Type} (cases : List (String × β))
    (h : ValueAt inner (skipBlank s) j rest) :
    Agree (readTag cases s) (tagOf .whole cases j >>= fun c => .ok (c, rest)) := by
  obtain ⟨t, rfl, htext⟩ | ⟨hj, fault, htext⟩ := readText_of_valueAt "variant identifier" h
  · rw [readTag, htext]
    exact (fitted_agree _).bind fun c _ => agree_ok _
  · rw [readTag, htext]
    cases j with
    | str t => exact absurd rfl (hj t)
    | null | bool | int | real | arr | obj => exact agree_error _ _

theorem readLead_of_valueAt (h : ValueAt inner (skipBlank s) j rest) :
    Agree (readLead s) (leadOf j >>= fun tag => .ok (tag, rest)) := by
  unfold readLead
  split
  · rename_i r hs
    obtain ⟨rfl, hword⟩ := (hs ▸ h).of_n
    rw [hword]
    exact agree_ok _
  · rename_i hnull
    have hagain : ValueAt inner (skipBlank (skipBlank s)) j rest := by rwa [Json.skipBlank_skipBlank]
    obtain ⟨t, rfl, htext⟩ | ⟨hj, fault, htext⟩ := readText_of_valueAt "a string" hagain
    · rw [htext]
      exact agree_ok _
    · rw [htext]
      cases j with
      | null => exact absurd rfl (h.ne_null hnull)
      | str t => exact absurd rfl (hj t)
      | bool | int | real | arr | obj => exact agree_error _ _

/-- One entry of a tagged object: its tag, or an entry for later. -/
def putTagged {β : Type} (cases : List (String × β)) (tagKey : String)
    (acc : Option (String × β) × List (String × Json)) (key : String) (j : Json) :
    Except Mismatch (Option (String × β) × List (String × Json)) :=
  if key = tagKey then
    if acc.1.isSome then .error (.repeatedField tagKey) else do .ok (some (← tagOf .whole cases j), acc.2)
  else .ok (acc.1, (key, j) :: acc.2)

theorem readTaggedEntry_tracks {β : Type} (hnested : Faithful book nested) (tagKey : String)
    (cases : List (String × β)) (acc : Option (String × β) × List (String × Json)) (key : String)
    (colon start : List Char) (j : Json) (after : List Char) (hcolon : readColon colon = .ok start)
    (hread : nested.json start = .ok (j, after)) :
    Agree (readTaggedEntry nested tagKey cases acc key colon)
      (putTagged cases tagKey acc key j >>= fun acc => .ok (acc, after)) := by
  obtain ⟨inner, hat⟩ := hnested.valueAt hread
  rw [readTaggedEntry, putTagged, hcolon]
  split
  · split
    · exact agree_error _ _
    · simp only [Outcome.ok_bind, bind_assoc]
      exact (readTag_of_valueAt cases hat).bind_after fun c => agree_ok _
  · rw [Outcome.ok_bind, hread]
    exact agree_ok _

/-- Once there is a tag, there must be no other. -/
theorem foldlM_putTagged_some {β : Type} (cases : List (String × β)) (tagKey : String)
    (entries : List (String × Json)) (c : String × β) (others : List (String × Json)) :
    entries.foldlM (fun acc e => putTagged cases tagKey acc e.1 e.2) (some c, others) =
      if (entries.filter (·.1 = tagKey)).isEmpty then
        .ok (some c, (entries.filter (·.1 ≠ tagKey)).reverse ++ others)
      else .error (.repeatedField tagKey) := by
  induction entries generalizing others with
  | nil => rfl
  | cons e entries ih =>
    rw [List.foldlM_cons, putTagged]
    by_cases he : e.1 = tagKey
    · simp [he]
      rfl
    · rw [if_neg he, Outcome.ok_bind, ih, List.filter_cons_of_neg (by simpa using he),
        List.filter_cons_of_pos (by simpa using he)]
      simp

/-- The entries of a tagged object give its tag, and the others in the order they are read. -/
theorem foldlM_putTagged {β : Type} (cases : List (String × β)) (tagKey : String)
    (entries others : List (String × Json)) :
    entries.foldlM (fun acc e => putTagged cases tagKey acc e.1 e.2) (none, others) =
      (match entries.filter (·.1 = tagKey) with
      | [] => .ok (none, (entries.filter (·.1 ≠ tagKey)).reverse ++ others)
      | e :: more => do
        let c ← tagOf .whole cases e.2
        if ! more.isEmpty then .error (.repeatedField tagKey)
        .ok (some c, (entries.filter (·.1 ≠ tagKey)).reverse ++ others)) := by
  induction entries generalizing others with
  | nil => rfl
  | cons e entries ih =>
    rw [List.foldlM_cons, putTagged]
    by_cases he : e.1 = tagKey
    · rw [if_pos he, List.filter_cons_of_pos (by simpa using he),
        List.filter_cons_of_neg (by simpa using he)]
      simp only [Option.isSome_none, Bool.false_eq_true, if_false]
      cases tagOf .whole cases e.2 with
      | error => rfl
      | ok c =>
        simp only [Outcome.ok_bind]
        rw [foldlM_putTagged_some]
        cases entries.filter (·.1 = tagKey) <;> rfl
    · rw [if_neg he, Outcome.ok_bind, ih, List.filter_cons_of_neg (by simpa using he),
        List.filter_cons_of_pos (by simpa using he)]
      simp

section Containers

variable (houter : ∀ nested ∈ outer, Faithful book nested)

include houter

theorem opened_list {r : List Char} (h : ValueAt (outer.map Nested.json) ('[' :: r) j rest) :
    ∃ nested items, outer = some nested ∧ Faithful book nested ∧ j = .arr items ∧
      ItemsAt nested.json true r items rest ∧ items.length < r.length + 1 := by
  obtain ⟨json, items, hjson, rfl, hitems, hlength⟩ := h.of_list
  obtain ⟨nested, rfl, rfl⟩ := Option.map_eq_some_iff.mp hjson
  exact ⟨nested, items, rfl, houter nested rfl, rfl, hitems, hlength⟩

theorem opened_object {r : List Char} (h : ValueAt (outer.map Nested.json) ('\x7b' :: r) j rest) :
    ∃ nested entries, outer = some nested ∧ Faithful book nested ∧ j = .obj entries ∧
      EntriesAt nested.json true r entries rest ∧ entries.length < r.length + 1 := by
  obtain ⟨json, entries, hjson, rfl, hentries, hlength⟩ := h.of_object
  obtain ⟨nested, rfl, rfl⟩ := Option.map_eq_some_iff.mp hjson
  exact ⟨nested, entries, rfl, houter nested rfl, rfl, hentries, hlength⟩

variable (h : ValueAt (outer.map Nested.json) (skipBlank s) j rest)

include h

theorem readList_of_valueAt {α : Type} (item : Nested ρ → Reader α) {value : Json → Except Mismatch α}
    (hitem : ∀ nested, Faithful book nested → Tracks nested.json (item nested) value) :
    (∃ items, j = .arr items ∧
      Agree (readList outer item s) (items.mapM value >>= fun as => .ok (as, rest))) ∨
      ((∀ items, j ≠ .arr items) ∧ ∃ fault, readList outer item s = .error fault) := by
  unfold readList
  split
  · rename_i r hs
    obtain ⟨nested, items, rfl, hnested, rfl, hitems, hlength⟩ := opened_list houter (hs ▸ h)
    exact .inl ⟨items, rfl, readItems_tracks (hitem nested hnested) hitems hlength⟩
  · rename_i hlist
    exact .inr ⟨h.ne_arr hlist, _, rfl⟩

theorem readDict_of_valueAt {f : Format ρ} (hf : f.GroupsObjects book) :
    Agree (readDict outer f s)
      (valueAt book (ofJson book) .whole (dict f) j >>= fun d => .ok (d, rest)) := by
  unfold readDict
  split
  · rename_i r hs
    obtain ⟨nested, entries, rfl, hnested, rfl, hentries, hlength⟩ := opened_object houter (hs ▸ h)
    have hvalue := hnested.tracks f hf
    have hstep (m : Keyed Datum) (key : String) (colon start : List Char) (j : Json) (after : List Char)
        (hcolon : readColon colon = .ok start) (hread : nested.json start = .ok (j, after)) :
        Agree (do
          let r ← nested.format f (← readColon colon)
          .ok (Keyed.insert key r.1 m, r.2))
          ((do .ok (Keyed.insert key (← ofJson book .whole f j) m)) >>= fun m => .ok (m, after)) := by
      rw [hcolon, Outcome.ok_bind, bind_assoc]
      exact (hvalue _ _ _ hread).bind_after fun d => agree_ok _
    have hfold := foldEntries_tracks hstep hentries hlength []
    rw [foldlM_insert, bind_assoc] at hfold
    have hdict := hfold.map_fst Datum.dict
    simp only [valueAt, bind_assoc] at hdict ⊢
    exact hdict
  · rename_i hobject
    cases j with
    | obj entries => exact absurd rfl (h.ne_obj hobject entries)
    | null | bool | int | real | str | arr => exact agree_error _ _

theorem readRecord_of_valueAt {r : Record ρ} (hfields : ∀ f ∈ r.fields, f.format.GroupsObjects book) :
    Agree (readRecord outer r s)
      (shapeOf .whole (ofJson book) (.record r) j >>= fun d => .ok (d, rest)) := by
  unfold readRecord
  split
  · rename_i t hs
    obtain ⟨nested, entries, rfl, hnested, rfl, hentries, hlength⟩ := opened_object houter (hs ▸ h)
    have hfold := foldEntries_tracks (readFieldEntry_tracks hnested hfields) hentries
      hlength []
    rw [← fieldsByName_eq_foldlM] at hfold
    simp only [opening, Outcome.ok_bind, shapeOf, recordOf, bind_assoc]
    exact hfold.bind_after fun found => (fitted_agree _).bind fun ds _ => agree_ok _
  · rename_i t hs
    obtain ⟨nested, items, rfl, hnested, rfl, hitems, hlength⟩ := opened_list houter (hs ▸ h)
    have hordered := readFieldsInOrder_tracks hnested hfields hitems r.expecting 0
      (surplus .whole items.length r.fields.length)
    have hrecord := hordered.map_fst Datum.record
    simp only [opening, Outcome.ok_bind, shapeOf, recordOf, bind_assoc] at hrecord ⊢
    refine hrecord.trans (Agree.rfl.bind fun ds _ => ?_)
    split <;> exact .rfl
  · rename_i hobject hlist
    cases j with
    | obj entries => exact absurd rfl (h.ne_obj hobject entries)
    | arr items => exact absurd rfl (h.ne_arr hlist items)
    | null | bool | int | real | str => exact agree_error _ _

theorem readTuple_of_valueAt {title : String} {formats : List (Format ρ)}
    (hformats : ∀ f ∈ formats, f.GroupsObjects book) :
    Agree (readTuple outer title formats s)
      (shapeOf .whole (ofJson book) (.tuple title formats) j >>= fun d => .ok (d, rest)) := by
  unfold readTuple
  split
  · rename_i t hs
    obtain ⟨nested, items, rfl, hnested, rfl, hitems, hlength⟩ := opened_list houter (hs ▸ h)
    have htuple := readTupleItems_tracks hnested hformats (i := 0) hitems
      (tupleExpecting title formats.length) (surplus .whole items.length formats.length)
    have hrecord := htuple.map_fst Datum.record
    simp only [opening, Outcome.ok_bind, shapeOf, bind_assoc] at hrecord ⊢
    refine hrecord.trans (Agree.rfl.bind fun ds _ => ?_)
    split <;> exact .rfl
  · rename_i hlist
    cases j with
    | arr items => exact absurd rfl (h.ne_arr hlist items)
    | null | bool | int | real | str | obj => exact agree_error _ _

theorem readWordCase_of_valueAt (words : List String) :
    Agree (readWordCase outer words s) (wordOf .whole words j >>= fun d => .ok (d, rest)) := by
  unfold readWordCase
  split
  · rename_i t hs
    obtain ⟨w, rfl, hstring⟩ := (hs ▸ h).of_quote
    simp only [wordOf, soleEntry, hstring, Outcome.ok_bind]
    by_cases hw : w ∈ words
    · simp only [hw, not_true, if_true, if_false]
      exact agree_ok _
    · simp only [hw, not_false_eq_true, if_true, if_false]
      exact agree_error _ _
  · rename_i t hs
    obtain ⟨nested, entries, rfl, hnested, rfl, hentries, -⟩ := opened_object houter (hs ▸ h)
    obtain ⟨rfl, fault, hkey⟩ | ⟨key, colon, start, j, after, others, rfl, hkey, hcolon, hread, hothers⟩ :=
      readSoleKey_of_entriesAt hentries
    · simp only [opening, Outcome.ok_bind, hkey]
      exact agree_error _ _
    · obtain ⟨inner, hat⟩ := hnested.valueAt hread
      have hbeside := closeSole_tracks (readUnit_of_valueAt hat) hothers (.missingField key)
      simp only [bind_assoc, Outcome.ok_bind] at hbeside
      simp only [opening, Outcome.ok_bind, hkey, hcolon, wordOf]
      by_cases hw : key ∈ words
      · have hword := hbeside.map_fst fun _ => Datum.case (some key) []
        simp only [bind_assoc, Outcome.ok_bind] at hword
        simp only [hw, if_true, Outcome.ok_bind]
        refine hword.trans ?_
        cases others with
        | nil =>
          simp only [soleEntry, Outcome.ok_bind, hw, not_true, if_true, if_false, bind_assoc]
          exact .rfl
        | cons => exact agree_error _ _
      · simp only [hw, if_false]
        cases others with
        | nil =>
          simp only [hw, soleEntry, Outcome.ok_bind, not_false_eq_true, if_true]
          exact agree_error _ _
        | cons => exact agree_error _ _
  · rename_i hs
    rw [hs] at h
    cases h with
    | scalar h => cases h
  · rename_i hquote hobject _
    cases j with
    | str w => exact absurd rfl (h.ne_str hquote w)
    | obj entries => exact absurd rfl (h.ne_obj hobject entries)
    | null | bool | int | real | arr => exact agree_error _ _

theorem readWrapped_of_valueAt {cases : List (String × Format ρ)}
    (hcases : ∀ c ∈ cases, c.2.GroupsObjects book) :
    Agree (readWrapped outer cases s)
      (wrappedOf (ofJson book .whole) cases j >>= fun d => .ok (d, rest)) := by
  unfold readWrapped
  split
  · rename_i t hs
    obtain ⟨tag, rfl, hstring⟩ := (hs ▸ h).of_quote
    simp only [wrappedOf, soleEntry, hstring, Outcome.ok_bind]
    cases cases.find? (·.1 = tag) <;> exact agree_error _ _
  · rename_i t hs
    obtain ⟨nested, entries, rfl, hnested, rfl, hentries, -⟩ := opened_object houter (hs ▸ h)
    obtain ⟨rfl, fault, hkey⟩ | ⟨key, colon, start, j, after, others, rfl, hkey, hcolon, hread, hothers⟩ :=
      readSoleKey_of_entriesAt hentries
    · simp only [opening, Outcome.ok_bind, hkey]
      exact agree_error _ _
    · simp only [opening, Outcome.ok_bind, hkey, hcolon, wrappedOf]
      cases hcase : cases.find? (·.1 = key) with
      | none =>
        cases others with
        | nil =>
          simp only [soleEntry, Outcome.ok_bind, hcase]
          exact agree_error _ _
        | cons => exact agree_error _ _
      | some c =>
        have hvalue := hnested.tracks c.2 (hcases c (List.mem_of_find?_eq_some hcase)) _ _ _ hread
        have hcase' := (closeSole_tracks hvalue hothers (.missingField key)).map_fst fun d =>
          Datum.case (some key) [d]
        simp only [bind_assoc, Outcome.ok_bind] at hcase'
        refine hcase'.trans ?_
        cases others with
        | nil =>
          simp only [soleEntry, Outcome.ok_bind, hcase, if_true, bind_assoc]
          exact .rfl
        | cons => exact agree_error _ _
  · rename_i hs
    rw [hs] at h
    cases h with
    | scalar h => cases h
  · rename_i hquote hobject _
    cases j with
    | str w => exact absurd rfl (h.ne_str hquote w)
    | obj entries => exact absurd rfl (h.ne_obj hobject entries)
    | null | bool | int | real | arr => exact agree_error _ _

theorem readTagged_of_valueAt {title key : String} {cases : List (String × Option (Record ρ))} :
    Agree (readTagged book outer title key cases s)
      (shapeOf .whole (ofJson book) (.tagged title key cases) j >>= fun d => .ok (d, rest)) := by
  unfold readTagged
  extract_lets finish
  have hfinish (tag : String × Option (Record ρ)) (others : Json) : Agree
      (do .ok (← finish tag others, rest))
      (do .ok (Datum.case (some tag.1) (← bodyOf (ofJson book) tag.2 others), rest)) := by
    simp only [finish, bind_assoc]
    exact (fitted_agree _).bind fun _ _ => agree_ok _
  clear_value finish
  split
  · rename_i t hs
    obtain ⟨nested, entries, rfl, hnested, rfl, hentries, hlength⟩ := opened_object houter (hs ▸ h)
    have hfold := foldEntries_tracks (readTaggedEntry_tracks hnested key cases) hentries
      hlength (none, [])
    -- Whatever stands before the tag waits as JSON, so the order of the entries does not tell.
    rw [foldlM_putTagged] at hfold
    simp only [opening, Outcome.ok_bind, shapeOf, taggedOf]
    cases hfilter : entries.filter (·.1 = key) with
    | nil =>
      rw [hfilter] at hfold
      rw [(hfold _).mpr rfl]
      exact agree_error _ _
    | cons e more =>
      rw [hfilter] at hfold
      dsimp only at hfold ⊢
      cases htag : tagOf .whole cases e.2 with
      | error =>
        rw [htag] at hfold
        exact hfold.bind_error _
      | ok c =>
        rw [htag] at hfold
        cases more with
        | cons => exact hfold.bind_error _
        | nil =>
          rw [(hfold _).mpr rfl]
          simp only [List.append_nil, List.reverse_reverse, Outcome.ok_bind, List.isEmpty_nil,
            Bool.not_true, Bool.false_eq_true, if_false, bind_assoc]
          exact hfinish c _
  · rename_i t hs
    obtain ⟨nested, items, rfl, hnested, rfl, hitems, -⟩ := opened_list houter (hs ▸ h)
    simp only [opening, Outcome.ok_bind, shapeOf, taggedOf]
    cases hitems with
    | close hnext =>
      rw [hnext]
      exact agree_error _ _
    | item hnext hread hothers =>
      obtain ⟨inner, hat⟩ := hnested.valueAt hread
      rw [hnext]
      simp only [Outcome.ok_bind, bind_assoc]
      refine (readTag_of_valueAt cases hat).bind_after fun c => ?_
      rw [hnested.readItems hothers]
      exact hfinish c (.arr _)
  · rename_i hobject hlist
    cases j with
    | obj entries => exact absurd rfl (h.ne_obj hobject entries)
    | arr items => exact absurd rfl (h.ne_arr hlist items)
    | null | bool | int | real | str => exact agree_error _ _

theorem readLed_of_valueAt {expecting : String} {cases : List (Option String × Option (Format ρ))}
    (hcases : ∀ c ∈ cases, ∀ f ∈ c.2, f.GroupsObjects book) :
    Agree (readLed outer expecting cases s)
      (ledOf .whole (ofJson book .whole) expecting cases j >>= fun d => .ok (d, rest)) := by
  unfold readLed
  split
  · rename_i t hs
    obtain ⟨nested, items, rfl, hnested, rfl, hitems, -⟩ := opened_list houter (hs ▸ h)
    simp only [opening, Outcome.ok_bind]
    cases hitems with
    | close hnext =>
      rw [hnext]
      exact agree_error _ _
    | item hnext hread hothers =>
      obtain ⟨inner, hat⟩ := hnested.valueAt hread
      rw [hnext]
      simp only [ledOf, Outcome.ok_bind, bind_assoc]
      refine (readLead_of_valueAt hat).bind_after fun tag => ?_
      refine (fitted_agree _).bind fun operand hoperand => ?_
      cases operand with
      | none =>
        refine (closeArray_tracks (Datum.case tag []) hothers (.missingField "")).trans ?_
        cases hothers with
        | close => exact agree_ok _
        | item => exact agree_error _ _
      | some f =>
        have hf : f.GroupsObjects book := hcases _ (mem_of_operandOf? (fitted_eq_ok hoperand)) f rfl
        cases hothers with
        | close hnext' =>
          rw [hnext']
          exact agree_error _ _
        | item hnext' hread' hmore =>
          simp only [hnext', Outcome.ok_bind, bind_assoc]
          refine (hnested.tracks f hf _ _ _ hread').bind_after fun d => ?_
          refine (closeArray_tracks (Datum.case tag [d]) hmore (.missingField "")).trans ?_
          cases hmore with
          | close => exact agree_ok _
          | item => exact agree_error _ _
  · rename_i hlist
    cases j with
    | arr items => exact absurd rfl (h.ne_arr hlist items)
    | null | bool | int | real | str | obj => exact agree_error _ _

end Containers

theorem readGroup_tracks (hnested : Faithful book nested) {item : ρ} (hitem : (book item).IsObject)
    (expecting : String) :
    Tracks nested.json (readGroup nested item expecting) (groupOf (ofJson book .whole) item expecting) := by
  intro s j rest h
  obtain ⟨inner, hat⟩ := hnested.valueAt h
  have hvalue (f : Format ρ) (hf : f.GroupsObjects book) := hnested.tracks f hf (Json.skipBlank s) j rest
    ((hnested.skipBlank s).trans h)
  unfold readGroup
  split
  · rename_i t hs
    have hobject := hvalue (.named item) trivial
    obtain ⟨json, entries, -, rfl, -, -⟩ := (hs ▸ hat).of_object
    rw [hs] at hobject
    simp only [groupOf, bind_assoc, Outcome.ok_bind]
    exact hobject.bind_after fun d => agree_ok _
  · rename_i t hs
    have hgroup := hvalue (.grouped item expecting) hitem
    obtain ⟨json, items, -, rfl, -, -⟩ := (hs ▸ hat).of_list
    rw [hs] at hgroup
    simp only [groupOf, bind_assoc]
    refine hgroup.bind_after fun d => ?_
    cases d <;> exact agree_ok _
  · rename_i hobject hlist
    cases j with
    | obj entries => exact absurd rfl (hat.ne_obj hobject entries)
    | arr items => exact absurd rfl (hat.ne_arr hlist items)
    | null | bool | int | real | str => exact agree_error _ _

/-- One level of reading, if the levels inside are read so. -/
theorem readAt_of_valueAt (hbook : ∀ name, ∀ f ∈ (book name).formats, f.GroupsObjects book)
    (houter : ∀ nested ∈ outer, Faithful book nested) {f : Format ρ} (hf : f.GroupsObjects book)
    (h : ValueAt (outer.map Nested.json) (skipBlank s) j rest) :
    Agree (readAt book outer f s)
      (valueAt book (ofJson book) .whole f j >>= fun d => .ok (d, rest)) := by
  cases f with
  | bool => exact readBool_of_valueAt h
  | int w => exact readInt_of_valueAt w h
  | text =>
    obtain ⟨t, rfl, htext⟩ | ⟨hj, fault, htext⟩ := readText_of_valueAt "a string" h
    · simp only [readAt, htext]
      exact agree_ok _
    · simp only [readAt, htext]
      cases j with
      | str t => exact absurd rfl (hj t)
      | null | bool | int | real | arr | obj => exact agree_error _ _
  | list item =>
    obtain ⟨items, rfl, hlist⟩ | ⟨hj, fault, hlist⟩ := readList_of_valueAt houter h
      (fun nested => nested.format item) fun nested hnested => hnested.tracks item hf
    · simp only [readAt, valueAt, bind_assoc]
      exact hlist.bind_after fun ds => agree_ok _
    · simp only [readAt, hlist]
      cases j with
      | arr items => exact absurd rfl (hj items)
      | null | bool | int | real | str | obj => exact agree_error _ _
  | grouped item expecting =>
    obtain ⟨items, rfl, hlist⟩ | ⟨hj, fault, hlist⟩ := readList_of_valueAt houter h
      (fun nested => readGroup nested item expecting) fun nested hnested =>
        readGroup_tracks hnested hf expecting
    · simp only [readAt, valueAt, bind_assoc]
      exact hlist.bind_after fun ds => agree_ok _
    · simp only [readAt, hlist]
      cases j with
      | arr items => exact absurd rfl (hj items)
      | null | bool | int | real | str | obj => exact agree_error _ _
  | dict value => exact readDict_of_valueAt houter h hf
  | named name =>
    have hformats := hbook name
    rw [readAt, valueAt]
    cases hname : book name with
    | record r =>
      rw [hname] at hformats
      exact readRecord_of_valueAt houter h fun f hf => hformats _ (List.mem_map_of_mem hf)
    | tuple title formats =>
      rw [hname] at hformats
      exact readTuple_of_valueAt houter h hformats
    | word words => exact readWordCase_of_valueAt houter h words
    | wrapped cases =>
      rw [hname] at hformats
      exact readWrapped_of_valueAt houter h fun c hc => hformats _ (List.mem_map_of_mem hc)
    | tagged title key cases => exact readTagged_of_valueAt houter h
    | led expecting cases =>
      rw [hname] at hformats
      exact readLed_of_valueAt houter h fun c hc f hf =>
        hformats f (List.mem_filterMap.mpr ⟨c, hc, hf⟩)

/-- A document that is JSON is read as its value is. -/
theorem read_tracks (hbook : ∀ name, ∀ f ∈ (book name).formats, f.GroupsObjects book) (levels : Nat)
    {f : Format ρ} (hf : f.GroupsObjects book) :
    Tracks (Json.read levels) (read book levels f) (ofJson book .whole f) := by
  induction levels generalizing f with
  | zero =>
    intro s j rest h
    have houter : ∀ nested ∈ (none : Option (Nested ρ)), Faithful book nested := nofun
    have hread := readAt_of_valueAt hbook houter hf (Json.valueAt_of_readAt h)
    -- Values inside the JSON value are read with all the levels they need, not only those left.
    exact hread.trans ((ofJson_eq_valueAt hbook hf .whole j).symm.bind fun _ _ => .rfl)
  | succ levels ih =>
    intro s j rest h
    have houter : ∀ nested ∈ some ⟨read book levels, Json.read levels⟩, Faithful book nested := by
      rintro nested ⟨⟩
      exact ⟨⟨levels, rfl⟩, fun f hf => ih hf⟩
    have hread := readAt_of_valueAt hbook houter hf (Json.valueAt_of_readAt h)
    exact hread.trans ((ofJson_eq_valueAt hbook hf .whole j).symm.bind fun _ _ => .rfl)

/-- A text that is JSON says the same, whether it is read by a format at once or as JSON first. -/
theorem ofText_agree (hbook : ∀ name, ∀ f ∈ (book name).formats, f.GroupsObjects book) {f : Format ρ}
    (hf : f.GroupsObjects book) {text : String} (h : Json.ofText text = .ok j) :
    Agree (ofText book f text) (ofJson book .whole f j) := by
  obtain ⟨⟨k, rest⟩, hread, hfinish⟩ := Outcome.bind_eq_ok.mp h
  have htracks := read_tracks hbook Json.maxLevels hf _ _ _ hread
  obtain ⟨hend, rfl⟩ := Json.finish_eq_ok.mp hfinish
  have hdatum (d : Datum) : Json.finish (d, rest) = .ok d := Json.finish_eq_ok.mpr ⟨hend, rfl⟩
  have hall := htracks.bind_after (f := Json.finish) (g := .ok) fun d => hdatum d ▸ agree_ok d
  have hsame : (ofJson book .whole f k >>= .ok) = ofJson book .whole f k := bind_pure _
  rwa [hsame] at hall

end Narrative.Format
