import Narrative.Proofs.Save.Document
import Narrative.Proofs.Save.Record
import Narrative.Proofs.Save.SlotFiles

namespace Narrative

namespace Slots

open FileStep Slot

variable {f f₀ g : Folder} {slot : Slot} {bytes : Bytes} {name : String}

/-- There is nothing in a folder but the files of slots and the two directories they are in. -/
structure Tidy (f : Folder) : Prop where
  ordered : Keyed.Ordered f
  named : ∀ name item, Keyed.lookup name f = some item →
    (∃ r : Role, name = r.directory ∧ item = .directory) ∨
      ∃ (t : Slot) (r : Role) (bytes : Bytes), name = t.name r ∧ item = .file bytes

theorem Tidy.empty : Tidy [] where
  ordered := .nil
  named _ _ h := by cases h

theorem Tidy.insert_directory (h : Tidy f) (q : Role) :
    Tidy (Keyed.insert q.directory .directory f) where
  ordered := Keyed.ordered_insert _ _ h.ordered
  named name item hlookup := by
    rw [Keyed.lookup_insert] at hlookup
    split at hlookup
    · rename_i hname
      exact .inl ⟨q, hname.symm, (Option.some.inj hlookup).symm⟩
    · exact h.named name item hlookup

theorem Tidy.insert_file (h : Tidy f) (t : Slot) (r : Role) (bytes : Bytes) :
    Tidy (Keyed.insert (t.name r) (.file bytes) f) where
  ordered := Keyed.ordered_insert _ _ h.ordered
  named name item hlookup := by
    rw [Keyed.lookup_insert] at hlookup
    split at hlookup
    · rename_i hname
      exact .inr ⟨t, r, bytes, hname.symm, (Option.some.inj hlookup).symm⟩
    · exact h.named name item hlookup

theorem Tidy.erase (h : Tidy f) (k : String) : Tidy (Keyed.erase k f) where
  ordered := Keyed.ordered_erase k h.ordered
  named name item hlookup := by
    rw [Keyed.lookup_erase] at hlookup
    split at hlookup
    · cases hlookup
    · exact h.named name item hlookup

theorem Tidy.file (h : Tidy f) (t : Slot) (r : Role) :
    Keyed.lookup (t.name r) f ≠ some .directory := by
  intro hlookup
  rcases h.named _ _ hlookup with ⟨q, hname, -⟩ | ⟨_, _, _, -, hitem⟩
  · exact t.name_ne_directory r q hname
  · cases hitem

theorem Tidy.directory (h : Tidy f) (q : Role) (bytes : Bytes) :
    Keyed.lookup q.directory f ≠ some (.file bytes) := by
  intro hlookup
  rcases h.named _ _ hlookup with ⟨_, -, hitem⟩ | ⟨t, r, _, hname, -⟩
  · cases hitem
  · exact t.name_ne_directory r q hname.symm

theorem Tidy.place (h : Tidy f) (t : Slot) (r : Role) (bytes : Bytes) :
    FileStep.place f (t.name r) bytes = .ok (Keyed.insert (t.name r) (.file bytes) f) := by
  rw [FileStep.place]
  split
  · rename_i hlookup
    exact absurd hlookup (h.file t r)
  · rfl

theorem Tidy.createDirectory (h : Tidy f) (q : Role) :
    ∃ g, apply f (.createDirectory q.directory) = .ok g ∧ Tidy g ∧
      Keyed.lookup q.directory g = some .directory := by
  refine ⟨_, ?_, h.insert_directory q, by rw [Keyed.lookup_insert, if_pos rfl]⟩
  rw [apply]
  split
  · rename_i bytes hlookup
    exact absurd hlookup (h.directory q bytes)
  · rfl

theorem Tidy.write (h : Tidy f) (t : Slot) (r : Role) (bytes : Bytes) :
    ∃ g, apply f (.write (t.name r) bytes) = .ok g ∧ Tidy g :=
  ⟨_, h.place t r bytes, h.insert_file t r bytes⟩

theorem Tidy.copy (h : Tidy f) {source : String} (hsource : Keyed.lookup source f = some (.file bytes))
    (t : Slot) (r : Role) : ∃ g, apply f (.copy source (t.name r)) = .ok g ∧ Tidy g := by
  refine ⟨_, ?_, h.insert_file t r bytes⟩
  rw [apply, hsource]
  exact h.place t r bytes

theorem Tidy.remove (h : Tidy f) (hname : Keyed.lookup name f = some (.file bytes)) :
    ∃ g, apply f (.remove name) = .ok g ∧ Tidy g := by
  refine ⟨_, ?_, h.erase name⟩
  rw [apply, hname]

theorem Tidy.rename (h : Tidy f) {source : String}
    (hsource : Keyed.lookup source f = some (.file bytes)) (t : Slot) (r : Role) :
    ∃ g, apply f (.rename source (t.name r)) = .ok g ∧ Tidy g := by
  refine ⟨_, ?_, (h.erase source).insert_file t r bytes⟩
  rw [apply, hsource]
  exact (h.erase source).place t r bytes

theorem run_cons {step : FileStep} (h : apply f step = .ok g) (rest : List FileStep) :
    run f (step :: rest) = run g rest := by
  rw [run, h]

theorem Tidy.run_layout (h : Tidy f) :
    ∃ g, run f layout = (g, none) ∧ Tidy g ∧ ∀ q : Role, Keyed.lookup q.directory g = some .directory := by
  obtain ⟨f₁, hslots, h₁, hthere⟩ := h.createDirectory .save
  obtain ⟨f₂, hmeta, h₂, hthere'⟩ := h₁.createDirectory .label
  refine ⟨f₂, (run_cons hslots _).trans (run_cons hmeta _), h₂, fun q => ?_⟩
  cases q
  case save | backup | scratch => exact directory_apply hmeta hthere
  case label | labelBackup | labelScratch => exact hthere'

/-- A replacement comes to its end. -/
theorem Tidy.run_replace (h : Tidy f) (slot : Slot) {main kept temporary : Role}
    (hkin : Kin main kept temporary)
    (hthere : Keyed.contains (slot.name main) f₀ = Keyed.contains (slot.name main) f)
    (bytes : Bytes) :
    ∃ g, run f (replace f₀ main.directory (slot.name main) (slot.name temporary) bytes) =
        (g, none) ∧ Tidy g ∧ Keyed.lookup (slot.name main) g = some (.file bytes) := by
  have hne {r q : Role} (hrq : r ≠ q) : slot.name r ≠ slot.name q := slot.name_ne hrq
  have hdirectory : slot.name main ≠ main.directory := slot.name_ne_directory main main
  obtain ⟨f₁, hmade, h₁, -⟩ := h.createDirectory main
  have hmain : Keyed.lookup (slot.name main) f₁ = Keyed.lookup (slot.name main) f :=
    lookup_apply hmade (by simpa [touched] using hdirectory)
  -- The renaming is the same whether there was a file before or not.
  have hlast {f₂ : Folder} (h₂ : Tidy f₂)
      (hnew : Keyed.lookup (slot.name temporary) f₂ = some (.file bytes)) :
      ∃ g, run f₂ [.rename (slot.name temporary) (slot.name main)] = (g, none) ∧ Tidy g ∧
        Keyed.lookup (slot.name main) g = some (.file bytes) := by
    obtain ⟨g, hrenamed, hg⟩ := h₂.rename hnew slot main
    obtain ⟨moved, hsource, htarget⟩ := lookup_rename hrenamed
    obtain rfl : bytes = moved := by simpa [hnew] using hsource
    exact ⟨g, run_cons hrenamed [], hg, htarget⟩
  cases hold : Keyed.lookup (slot.name main) f with
  | none =>
    have habsent := hthere.trans (Keyed.not_contains_of_lookup hold)
    obtain ⟨f₂, hwritten, h₂⟩ := h₁.write slot temporary bytes
    obtain ⟨g, hrenamed, hg⟩ := hlast h₂ (lookup_write hwritten)
    refine ⟨g, ?_, hg⟩
    rw [replace, habsent]
    exact (run_cons hmade _).trans ((run_cons hwritten _).trans hrenamed)
  | some item =>
    have hpresent := hthere.trans (Keyed.contains_of_lookup hold)
    cases item with
    | directory => exact absurd hold (h.file slot main)
    | file old =>
      have hold₁ := hmain.trans hold
      obtain ⟨f₂, hcopied, h₂⟩ := h₁.copy hold₁ slot kept
      obtain ⟨f₃, hwritten, h₃⟩ := h₂.write slot temporary bytes
      have hold₃ : Keyed.lookup (slot.name main) f₃ = some (.file old) := by
        rw [lookup_apply hwritten (by simpa [touched] using hne hkin.ne_temporary),
          lookup_apply hcopied (by simpa [touched] using hne hkin.ne_kept), hold₁]
      obtain ⟨f₄, hremoved, h₄⟩ := h₃.remove hold₃
      have hnew : Keyed.lookup (slot.name temporary) f₄ = some (.file bytes) := by
        rw [lookup_apply hremoved (by simpa [touched] using hne hkin.ne_temporary.symm),
          lookup_write hwritten]
      obtain ⟨g, hrenamed, hg⟩ := hlast h₄ hnew
      refine ⟨g, ?_, hg⟩
      rw [hkin.name slot] at hcopied
      rw [replace, hpresent]
      exact (run_cons hmade _).trans ((run_cons hcopied _).trans ((run_cons hwritten _).trans
        ((run_cons hremoved _).trans hrenamed)))

/-- A save comes to its end and leaves the files of all other slots alone. -/
theorem Tidy.run_saveSteps (h : Tidy f) (slot : Slot) (bytes : Bytes) (label : SlotLabel) :
    ∃ g, run f (saveSteps f slot bytes label) = (g, none) ∧ Tidy g ∧
      (∀ q : Role, Keyed.lookup q.directory g = some .directory) ∧
      Keyed.lookup slot.file g = some (.file bytes) ∧
      Keyed.lookup slot.labelFile g = some (.file label.text.toUTF8.toList) ∧
      ∀ (t : Slot) (r : Role), t ≠ slot → Keyed.lookup (t.name r) g = Keyed.lookup (t.name r) f := by
  obtain ⟨f₁, hlayout, h₁, hthere⟩ := h.run_layout
  have hfirst (t : Slot) (r : Role) : Keyed.lookup (t.name r) f₁ = Keyed.lookup (t.name r) f :=
    lookup_run hlayout (untouched_layout t r)
  have hthere₁ : Keyed.contains (slot.name .save) f = Keyed.contains (slot.name .save) f₁ :=
    Keyed.contains_congr (hfirst slot .save).symm
  obtain ⟨f₂, hsave, h₂, hown⟩ := h₁.run_replace slot kin_save hthere₁ bytes
  have hsecond {t : Slot} {r : Role} (hother : t = slot → r ≠ .save ∧ r ≠ .backup ∧ r ≠ .scratch) :
      Keyed.lookup (t.name r) f₂ = Keyed.lookup (t.name r) f₁ :=
    lookup_run hsave (untouched_replace kin_save hother)
  have hthere₂ : Keyed.contains (slot.name .label) f = Keyed.contains (slot.name .label) f₂ :=
    Keyed.contains_congr ((hsecond (by simp)).trans (hfirst slot .label)).symm
  obtain ⟨g, hlabel, hg, hlabelled⟩ :=
    h₂.run_replace slot kin_label hthere₂ label.text.toUTF8.toList
  have hthird {t : Slot} {r : Role}
      (hother : t = slot → r ≠ .label ∧ r ≠ .labelBackup ∧ r ≠ .labelScratch) :
      Keyed.lookup (t.name r) g = Keyed.lookup (t.name r) f₂ :=
    lookup_run hlabel (untouched_replace kin_label hother)
  refine ⟨g, ?_, hg, fun q => directory_run hlabel (directory_run hsave (hthere q)), ?_, hlabelled, ?_⟩
  · have hboth : run f (layout ++ replace f "slots" slot.file slot.temporaryFile bytes) = (f₂, none) := by
      rw [run_append, hlayout]
      exact hsave
    rw [saveSteps, run_append, hboth]
    exact hlabel
  · exact (hthird (t := slot) (r := .save) (by simp)).trans hown
  · intro t r ht
    rw [hthird (absurd · ht), hsecond (absurd · ht), hfirst]

theorem Tidy.run_removal (h : Tidy f) (f₀ : Folder) (t : Slot) (r : Role)
    (hthere : Keyed.contains (t.name r) f₀ = Keyed.contains (t.name r) f) :
    ∃ g, run f (([t.name r].filter fun name => Keyed.contains name f₀).map .remove) = (g, none) ∧
      Tidy g ∧ ∀ name, Keyed.lookup name g = if name = t.name r then none else Keyed.lookup name f := by
  cases hlookup : Keyed.lookup (t.name r) f with
  | none =>
    have habsent := hthere.trans (Keyed.not_contains_of_lookup hlookup)
    refine ⟨f, ?_, h, fun name => ?_⟩
    · rw [List.filter_cons, habsent, if_neg Bool.false_ne_true]
      rfl
    · split
      · rename_i hname
        rw [hname, hlookup]
      · rfl
  | some item =>
    cases item with
    | directory => exact absurd hlookup (h.file t r)
    | file bytes =>
      have hpresent := hthere.trans (Keyed.contains_of_lookup hlookup)
      obtain ⟨g, hremoved, hg⟩ := h.remove hlookup
      refine ⟨g, ?_, hg, fun name => ?_⟩
      · rw [List.filter_cons, hpresent, if_pos rfl]
        exact run_cons hremoved []
      · split
        · rename_i hname
          rw [hname, lookup_remove hremoved]
        · rename_i hname
          exact lookup_apply hremoved (by simpa [touched] using hname)

/-- A removal comes to its end. It takes two files away and nothing else. -/
theorem Tidy.run_removeSteps (h : Tidy f) (slot : Slot) :
    ∃ g, run f (removeSteps f slot) = (g, none) ∧ Tidy g ∧
      ∀ name, Keyed.lookup name g =
        if name = slot.file ∨ name = slot.labelFile then none else Keyed.lookup name f := by
  obtain ⟨f₁, hsave, h₁, hown⟩ := h.run_removal f slot .save rfl
  have hthere : Keyed.lookup (slot.name .label) f₁ = Keyed.lookup (slot.name .label) f := by
    rw [hown, if_neg (slot.name_ne (by decide))]
  obtain ⟨g, hlabel, hg, hgone⟩ :=
    h₁.run_removal f slot .label (Keyed.contains_congr hthere.symm)
  have hsteps : removeSteps f slot =
      ([slot.name .save].filter fun name => Keyed.contains name f).map .remove ++
        ([slot.name .label].filter fun name => Keyed.contains name f).map .remove := by
    rw [← List.map_append, ← List.filter_append]
    rfl
  refine ⟨g, ?_, hg, fun name => ?_⟩
  · rw [hsteps, run_append, hsave]
    exact hlabel
  · rw [hgone, hown]
    by_cases hname : name = slot.name .label
    · rw [if_pos hname, if_pos (.inr hname)]
    · rw [if_neg hname]
      exact if_congr (or_iff_left hname).symm rfl rfl

end Slots

end Narrative
