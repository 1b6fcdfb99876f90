import Narrative.Proofs.Save.Record
import Narrative.Proofs.Save.SlotFiles

namespace Narrative

namespace FileStep

variable {f f' g : Folder} {step : FileStep} {steps more : List FileStep} {k : Nat}

/-- What may be left of a folder whose changes are cut off after so many, or by one that fails. -/
inductive Cut : Folder → List FileStep → Nat → Folder → Prop
  | done {f : Folder} {k : Nat} : Cut f [] k f
  | off {f : Folder} {steps : List FileStep} : Cut f steps 0 f
  | stuck {f : Folder} {step : FileStep} {rest : List FileStep} {k : Nat} {fault : FileFault}
    (h : apply f step = .error fault) : Cut f (step :: rest) (k + 1) f
  | on {f g g' : Folder} {step : FileStep} {rest : List FileStep} {k : Nat}
    (h : apply f step = .ok g) (more : Cut g rest k g') : Cut f (step :: rest) (k + 1) g'

theorem cut_run (f : Folder) (steps : List FileStep) (k : Nat) :
    Cut f steps k (run f (steps.take k)).1 := by
  induction steps generalizing f k with
  | nil =>
    rw [List.take_nil]
    exact .done
  | cons step rest ih =>
    cases k with
    | zero => exact .off
    | succ k =>
      rw [List.take_succ_cons, run]
      split
      · rename_i g h
        exact .on h (ih g k)
      · rename_i fault h
        exact .stuck h

/-- The first changes are cut off, or all of them are made and the others are cut off. -/
theorem cut_append (h : Cut f (steps ++ more) k g) :
    Cut f steps k g ∨
      ∃ f', steps.length ≤ k ∧ Cut f steps steps.length f' ∧ Cut f' more (k - steps.length) g := by
  induction steps generalizing f k with
  | nil => exact .inr ⟨f, Nat.zero_le k, .done, h⟩
  | cons step rest ih =>
    cases h with
    | off => exact .inl .off
    | stuck h => exact .inl (.stuck h)
    | @on _ f₁ _ _ _ k h hmore =>
      rcases ih hmore with hrest | ⟨f', hlength, hfirst, hthen⟩
      · exact .inl (.on h hrest)
      · refine .inr ⟨f', Nat.succ_le_succ hlength, .on h hfirst, ?_⟩
        rw [List.length_cons, Nat.add_sub_add_right]
        exact hthen

end FileStep

namespace Slots

open FileStep

variable {f f₀ g : Folder} {slot : Slot} {own backup : Option Folder.Item} {step : FileStep}
  {steps : List FileStep} {k : Nat} {r old new : SaveRecord} {bytes saved : Bytes}

/-- What a folder has under the names that a slot is loaded from. -/
structure Shows (f : Folder) (slot : Slot) (own backup : Option Folder.Item) : Prop where
  directory : Keyed.lookup "slots" f = some .directory
  own : Keyed.lookup slot.file f = own
  backup : Keyed.lookup (backupOf slot.file) f = backup

/-- What loading comes to, by what is there. -/
def loadFrom (own backup : Option Folder.Item) : Except StoreFault SaveRecord :=
  match own with
  | none => .error (.io .notFound)
  | some .directory => .error (.io .isADirectory)
  | some (.file bytes) =>
    match SaveRecord.ofBytes bytes, backup with
    | .ok r, _ => .ok r
    | .error primary, none => .error (.recoveryFailed primary none)
    | .error _, some .directory => .error (.io .isADirectory)
    | .error primary, some (.file bytes) =>
      match SaveRecord.ofBytes bytes with
      | .ok r => .ok r
      | .error backup => .error (.recoveryFailed primary (some backup))

theorem loadFrom_ok (h : SaveRecord.ofBytes saved = .ok r) (backup : Option Folder.Item) :
    loadFrom (some (.file saved)) backup = .ok r := by
  simp only [loadFrom, h]

theorem loadFrom_damaged {fault : RecordFault} (h : SaveRecord.ofBytes saved = .error fault) :
    loadFrom (some (.file saved)) (some (.file saved)) =
      .error (.recoveryFailed fault (some fault)) := by
  simp only [loadFrom, h]

theorem Shows.load (h : Shows f slot own backup) : Slots.load f slot = loadFrom own backup := by
  have hown : f.read slot.file = _ := read_name f slot .save
  have hbackup : f.read (backupOf slot.file) = _ := read_name f slot .backup
  simp only [Slot.name, Slot.Role.directory, h.directory, h.own, h.backup] at hown hbackup
  rw [Slots.load, hown, hbackup]
  cases own with
  | none => rfl
  | some item =>
    cases item with
    | directory => rfl
    | file bytes =>
      simp only [loadFrom]
      cases SaveRecord.ofBytes bytes with
      | ok r => rfl
      | error primary =>
        cases backup with
        | none => rfl
        | some item => cases item <;> rfl

theorem Shows.has (h : Shows f slot own backup) : Slots.has f slot = own.isSome := by
  rw [Slots.has, Keyed.contains, h.own]

/-- A slot that can be loaded has a file of its own. -/
theorem shows_of_load (h : Slots.load f slot = .ok r) :
    ∃ bytes backup, f.read slot.file = .ok bytes ∧ Shows f slot (some (.file bytes)) backup := by
  have hread : f.read slot.file = _ := read_name f slot .save
  rw [Slots.load] at h
  split at h
  · cases h
  · rename_i bytes hown
    refine ⟨bytes, Keyed.lookup (backupOf slot.file) f, hown, ?_, ?_, rfl⟩
    · rw [hown] at hread
      split at hread
      · cases hread
      · cases hread
      · assumption
    · rw [hown] at hread
      split at hread
      · cases hread
      · cases hread
      · split at hread
        · rename_i hlookup
          cases hread
          exact hlookup
        · cases hread
        · cases hread

/-- A step that leaves alone what a slot is loaded from. -/
structure Aside (slot : Slot) (step : FileStep) : Prop where
  own : slot.file ∉ step.touched
  backup : backupOf slot.file ∉ step.touched

theorem Shows.aside (h : Shows f slot own backup) (hstep : apply f step = .ok g)
    (haside : Aside slot step) : Shows g slot own backup where
  directory := directory_apply hstep h.directory
  own := (lookup_apply hstep haside.own).trans h.own
  backup := (lookup_apply hstep haside.backup).trans h.backup

theorem Shows.cut_aside (h : Shows f slot own backup) (hcut : Cut f steps k g)
    (haside : ∀ step ∈ steps, Aside slot step) : Shows g slot own backup := by
  induction hcut with
  | done => exact h
  | off => exact h
  | stuck => exact h
  | on hstep _ ih =>
    exact ih (h.aside hstep (haside _ List.mem_cons_self))
      fun step hmem => haside step (List.mem_cons_of_mem _ hmem)

theorem aside_layout : ∀ step ∈ layout, Aside slot step := fun step hmem =>
  ⟨untouched_layout slot .save step hmem, untouched_layout slot .backup step hmem⟩

/-- Whatever is done to labels, the slots are loaded as before. -/
theorem aside_label (t : Slot) : ∀ step ∈ replace f "meta" t.labelFile t.temporaryLabelFile bytes,
    Aside slot step := fun step hmem =>
  ⟨untouched_replace (r := .save) kin_label (by simp) step hmem,
    untouched_replace (r := .backup) kin_label (by simp) step hmem⟩

theorem Shows.copy (h : Shows f slot (some (.file saved)) backup)
    (hstep : apply f (.copy slot.file (backupOf slot.file)) = .ok g) :
    Shows g slot (some (.file saved)) (some (.file saved)) := by
  obtain ⟨copied, hsource, htarget⟩ := lookup_copy hstep
  obtain rfl : saved = copied := by simpa [h.own] using hsource
  refine ⟨directory_apply hstep h.directory, ?_, htarget⟩
  exact (lookup_apply hstep (slot.name_not_mem .save [.backup] (by decide))).trans h.own

theorem Shows.remove (h : Shows f slot own backup) (hstep : apply f (.remove slot.file) = .ok g) :
    Shows g slot none backup := by
  refine ⟨directory_apply hstep h.directory, lookup_remove hstep, ?_⟩
  exact (lookup_apply hstep (slot.name_not_mem .backup [.save] (by decide))).trans h.backup

theorem Shows.rename (h : Shows f slot own backup)
    (hscratch : Keyed.lookup slot.temporaryFile f = some (.file bytes))
    (hstep : apply f (.rename slot.temporaryFile slot.file) = .ok g) :
    Shows g slot (some (.file bytes)) backup := by
  obtain ⟨moved, hsource, htarget⟩ := lookup_rename hstep
  obtain rfl : bytes = moved := by simpa [hscratch] using hsource
  refine ⟨directory_apply hstep h.directory, htarget, ?_⟩
  exact (lookup_apply hstep (slot.name_not_mem .backup [.scratch, .save] (by decide))).trans h.backup

/-- What a cut off change of the file of a slot leaves: all as it was, the old file copied and the
backup before it lost, the old file gone with the new one under a name that is not looked at, or
all of it done. -/
theorem Shows.cut_replace (h : Shows f slot (some (.file saved)) backup)
    (hthere : Keyed.contains slot.file f₀ = true)
    (hcut : Cut f (replace f₀ "slots" slot.file slot.temporaryFile bytes) k g) :
    Shows g slot (some (.file saved)) backup ∨
    (2 ≤ k ∧ Shows g slot (some (.file saved)) (some (.file saved))) ∨
    (k = 4 ∧ Shows g slot none (some (.file saved)) ∧
      Keyed.lookup slot.temporaryFile g = some (.file bytes)) ∨
    (5 ≤ k ∧ Shows g slot (some (.file bytes)) (some (.file saved))) := by
  have hdirectory : Aside slot (.createDirectory "slots") :=
    ⟨fun hmem => slot.name_ne_directory .save .save (List.mem_singleton.mp hmem),
      fun hmem => slot.name_ne_directory .backup .save (List.mem_singleton.mp hmem)⟩
  have hscratch : Aside slot (.write slot.temporaryFile bytes) :=
    ⟨slot.name_not_mem .save [.scratch] (by decide), slot.name_not_mem .backup [.scratch] (by decide)⟩
  simp only [replace, hthere, if_true, List.cons_append, List.nil_append] at hcut
  cases hcut with
  | off => exact .inl h
  | stuck => exact .inl h
  | @on _ f₁ _ _ _ _ hmade hcut =>
  have h₁ := h.aside hmade hdirectory
  cases hcut with
  | off => exact .inl h₁
  | stuck => exact .inl h₁
  | @on _ f₂ _ _ _ _ hcopied hcut =>
  -- What the backup held before is lost with this step.
  have h₂ := h₁.copy hcopied
  cases hcut with
  | off => exact .inr (.inl ⟨by omega, h₂⟩)
  | stuck => exact .inr (.inl ⟨by omega, h₂⟩)
  | @on _ f₃ _ _ _ _ hwritten hcut =>
  have h₃ := h₂.aside hwritten hscratch
  cases hcut with
  | off => exact .inr (.inl ⟨by omega, h₃⟩)
  | stuck => exact .inr (.inl ⟨by omega, h₃⟩)
  | @on _ f₄ _ _ _ _ hremoved hcut =>
  have h₄ := h₃.remove hremoved
  have hnew : Keyed.lookup slot.temporaryFile f₄ = some (.file bytes) :=
    (lookup_apply hremoved (slot.name_not_mem .scratch [.save] (by decide))).trans
      (lookup_write hwritten)
  -- The new file cannot fail to take the place of the old one, only be too late for it.
  cases hcut with
  | off => exact .inr (.inr (.inl ⟨rfl, h₄, hnew⟩))
  | stuck hstuck =>
    have hfree : Keyed.lookup slot.file (Keyed.erase slot.temporaryFile g) = none := by
      rw [Keyed.lookup_erase, h₄.own, ite_self]
    simp [apply, hnew, place, hfree] at hstuck
  | @on _ f₅ _ _ _ _ hrenamed hcut =>
  have h₅ := h₄.rename hnew hrenamed
  cases hcut with
  | done => exact .inr (.inr (.inr ⟨by omega, h₅⟩))
  | off => exact .inr (.inr (.inr ⟨by omega, h₅⟩))

theorem Shows.cut_save (h : Shows f slot (some (.file saved)) backup) {label : SlotLabel}
    (hcut : Cut f (saveSteps f slot bytes label) k g) :
    Shows g slot (some (.file saved)) backup ∨
    (4 ≤ k ∧ Shows g slot (some (.file saved)) (some (.file saved))) ∨
    (k = 6 ∧ Shows g slot none (some (.file saved)) ∧
      Keyed.lookup slot.temporaryFile g = some (.file bytes)) ∨
    (7 ≤ k ∧ Shows g slot (some (.file bytes)) (some (.file saved))) := by
  have hthere : Keyed.contains slot.file f = true := Keyed.contains_of_lookup h.own
  have hlayout {k : Nat} {g : Folder} (hcut : Cut f layout k g) :
      Shows g slot (some (.file saved)) backup := h.cut_aside hcut aside_layout
  rw [saveSteps] at hcut
  rcases cut_append hcut with hcut | ⟨f₁, hk, hfirst, hlabel⟩
  · rcases cut_append hcut with hcut | ⟨f₁, hk, hfirst, hcut⟩
    · exact .inl (hlayout hcut)
    · change 2 ≤ k at hk
      change Cut f₁ _ (k - 2) g at hcut
      rcases (hlayout hfirst).cut_replace hthere hcut with h | ⟨hk', h⟩ | ⟨hk', h⟩ | ⟨hk', h⟩
      · exact .inl h
      · exact .inr (.inl ⟨by omega, h⟩)
      · exact .inr (.inr (.inl ⟨by omega, h⟩))
      · exact .inr (.inr (.inr ⟨by omega, h⟩))
  · have hlength : (layout ++ replace f "slots" slot.file slot.temporaryFile bytes).length = 7 := by
      simp [layout, replace, hthere]
    rw [hlength] at hk hfirst
    have hlast {own backup : Option Folder.Item} (h : Shows f₁ slot own backup) :
        Shows g slot own backup := h.cut_aside hlabel (aside_label slot)
    rcases cut_append hfirst with hcut | ⟨f₂, -, hfirst, hcut⟩
    · exact .inl (hlast (hlayout hcut))
    · change Cut f₂ _ 5 f₁ at hcut
      rcases (hlayout hfirst).cut_replace hthere hcut with h | ⟨-, h⟩ | ⟨hk', -⟩ | ⟨-, h⟩
      · exact .inl (hlast h)
      · exact .inr (.inl ⟨by omega, hlast h⟩)
      · omega
      · exact .inr (.inr (.inr ⟨by omega, hlast h⟩))

/-- What a save leaves of a folder that is cut off after so many steps. -/
def saveCut (f : Folder) (slot : Slot) (r : SaveRecord) (now : UInt64) (k : Nat) : Folder :=
  match r.toBytes with
  | .error _ => (run f (layout.take k)).1
  | .ok bytes =>
    (run f ((saveSteps f slot bytes (.ofRecord slot.number slot.isQuick now r)).take k)).1

theorem fst_after {α : Type} (f : Folder) (steps : List FileStep)
    (result : Folder → Except StoreFault α) : (after f steps result).1 = (run f steps).1 := by
  rw [after]
  split
  · rename_i hrun
    rw [hrun]
  · rename_i hrun
    rw [hrun]

/-- No save has more than twelve steps. -/
theorem saveCut_whole (f : Folder) (slot : Slot) (r : SaveRecord) (now : UInt64) {k : Nat}
    (h : 12 ≤ k) : saveCut f slot r now k = (save f slot r now).1 := by
  have hreplace (directory name temporary : String) (bytes : Bytes) :
      (replace f directory name temporary bytes).length ≤ 5 := by
    rw [replace]
    split <;> simp
  rw [saveCut, save]
  cases r.toBytes with
  | error cause =>
    dsimp only
    rw [fst_after, List.take_of_length_le]
    exact Nat.le_trans (by decide) h
  | ok bytes =>
    dsimp only
    rw [fst_after, List.take_of_length_le]
    have hsave := hreplace "slots" slot.file slot.temporaryFile bytes
    have hlabel := hreplace "meta" slot.labelFile slot.temporaryLabelFile
      (SlotLabel.ofRecord slot.number slot.isQuick now r).text.toUTF8.toList
    simp only [saveSteps, layout, List.length_append, List.length_cons, List.length_nil]
    omega

/-- How a slot that held one record may be found when a save of another is cut off. -/
inductive AfterCut (f g : Folder) (slot : Slot) (old new : SaveRecord) (bytes : Bytes) (k : Nat) :
    Prop
  | kept (hload : Slots.load g slot = .ok old) (hhas : Slots.has g slot = true)
  | changed (hk : 7 ≤ k) (hload : Slots.load g slot = .ok new) (hhas : Slots.has g slot = true)
  /-- The file of the slot is gone. The old one is left as a backup that is not looked at without
  it, the new one under its temporary name. -/
  | gone (hk : k = 6) (hload : Slots.load g slot = .error (.io .notFound))
    (hhas : Slots.has g slot = false) (hbackup : g.read (backupOf slot.file) = f.read slot.file)
    (hnew : g.read slot.temporaryFile = .ok bytes)
  /-- The file of the slot was damaged before, and it is now in place of the backup that the old
  record was in. -/
  | spoilt (hk : 4 ≤ k) (damaged : Bytes) (fault : RecordFault) (hread : f.read slot.file = .ok damaged)
    (hdamaged : SaveRecord.ofBytes damaged = .error fault)
    (hload : Slots.load g slot = .error (.recoveryFailed fault (some fault)))
    (hhas : Slots.has g slot = true)

/-- A cut save of a slot loses neither record, unless it is cut between its removal of the old file and
its renaming of the new one, or the old file was damaged. After twelve steps no save is cut. -/
theorem afterCut_of_load (hold : Slots.load f slot = .ok old) (hnew : new.toBytes = .ok bytes)
    (now : UInt64) (k : Nat) :
    AfterCut f (saveCut f slot new now k) slot old new bytes k ∧
      (12 ≤ k → saveCut f slot new now k = (save f slot new now).1) := by
  refine ⟨?_, saveCut_whole f slot new now⟩
  obtain ⟨saved, backup, hread, hshows⟩ := shows_of_load hold
  have hcut : Cut f (saveSteps f slot bytes (.ofRecord slot.number slot.isQuick now new)) k
      (saveCut f slot new now k) := by
    rw [saveCut, hnew]
    exact cut_run f _ k
  rcases hshows.cut_save hcut with h | ⟨hk, h⟩ | ⟨hk, h, hscratch⟩ | ⟨hk, h⟩
  · refine .kept ?_ h.has
    rw [h.load, ← hshows.load, hold]
  · cases hown : SaveRecord.ofBytes saved with
    | ok r =>
      refine .kept ?_ h.has
      rw [← hold, h.load, hshows.load, loadFrom_ok hown, loadFrom_ok hown]
    | error fault =>
      refine .spoilt hk saved fault hread hown ?_ h.has
      rw [h.load, loadFrom_damaged hown]
  · have hbackup : Folder.read _ (backupOf slot.file) = .ok saved :=
      read_file (r := .backup) h.directory h.backup
    have hscratch : Folder.read _ slot.temporaryFile = .ok bytes :=
      read_file (r := .scratch) h.directory hscratch
    exact .gone hk h.load h.has (hbackup.trans hread.symm) hscratch
  · refine .changed hk ?_ h.has
    rw [h.load, loadFrom_ok (SaveRecord.ofBytes_of_toBytes hnew)]

/-- A folder of one slot. -/
def holding (slot : Slot) (bytes : Bytes) : Folder :=
  [("slots", .directory), (slot.file, .file bytes)]

theorem load_holding (slot : Slot) (h : r.toBytes = .ok bytes) :
    Slots.load (holding slot bytes) slot = .ok r := by
  have hown : "slots" ≠ slot.file := (slot.name_ne_directory .save .save).symm
  have hbackup : "slots" ≠ backupOf slot.file := (slot.name_ne_directory .backup .save).symm
  have hne : slot.file ≠ backupOf slot.file := slot.name_ne (r := .save) (q := .backup) (by simp)
  have hshows : Shows (holding slot bytes) slot (some (.file bytes)) none := by
    refine ⟨rfl, ?_, ?_⟩
    · rw [holding, Keyed.lookup_cons, if_neg hown, Keyed.lookup_cons, if_pos rfl]
    · rw [holding, Keyed.lookup_cons, if_neg hbackup, Keyed.lookup_cons, if_neg hne]
      rfl
  rw [hshows.load, loadFrom_ok (SaveRecord.ofBytes_of_toBytes h)]

def sampleFile : Bytes :=
  (RecordHeader.guarding SaveRecord.sample.payload).toBytes ++ SaveRecord.sample.payload

theorem toBytes_sample : SaveRecord.sample.toBytes = .ok sampleFile :=
  SaveRecord.toBytes_eq_ok (by decide +kernel)

theorem afterCut_of_load_sample :
    let f := holding .quick sampleFile
    Slots.load f .quick = .ok .sample ∧ SaveRecord.sample.toBytes = .ok sampleFile ∧
      AfterCut f (saveCut f .quick .sample 0 5) .quick .sample .sample sampleFile 5 ∧
      saveCut f .quick .sample 0 12 = (save f .quick .sample 0).1 := by
  have hload := load_holding .quick toBytes_sample
  exact ⟨hload, toBytes_sample, (afterCut_of_load hload toBytes_sample 0 5).1,
    (afterCut_of_load hload toBytes_sample 0 12).2 (by decide)⟩

/-- Six of the steps of a save leave a slot without its file. -/
theorem slot_gone_after_six :
    let f := holding .quick sampleFile
    let g := saveCut f .quick .sample 0 6
    Slots.load f .quick = .ok .sample ∧ SaveRecord.sample.toBytes = .ok sampleFile ∧
      Slots.load g .quick = .error (.io .notFound) ∧ Slots.has g .quick = false := by
  have hgone : Shows (saveCut (holding .quick sampleFile) .quick .sample 0 6) .quick none _ :=
    ⟨by decide +kernel, by decide +kernel, rfl⟩
  exact ⟨load_holding .quick toBytes_sample, toBytes_sample, hgone.load, hgone.has⟩

end Slots

end Narrative
