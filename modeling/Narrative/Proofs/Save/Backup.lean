import Mathlib.Data.List.Induction
import Narrative.Proofs.Save.Interrupted
import Narrative.Proofs.Save.Shelf

namespace Narrative

namespace FileStep

variable {f f₀ g : Folder} {step : FileStep} {steps more rest : List FileStep}

theorem of_run_cons (h : run f (step :: rest) = (g, none)) :
    ∃ f', apply f step = .ok f' ∧ run f' rest = (g, none) := by
  rw [run] at h
  split at h
  · exact ⟨_, ‹_›, h⟩
  · cases h

theorem of_run_append (h : run f (steps ++ more) = (g, none)) :
    ∃ f', run f steps = (f', none) ∧ run f' more = (g, none) := by
  rw [run_append] at h
  split at h
  · exact ⟨_, ‹_›, h⟩
  · cases h

end FileStep

namespace Slots

open FileStep Slot

variable {f f₀ g : Folder} {s : Shelf} {slot : Slot} {r : SaveRecord} {bytes damaged : Bytes}
  {requests : List Request}

/-- A replacement keeps what was there as the backup, and an older backup only if nothing was. -/
theorem lookup_kept {main kept temporary : Role} (hkin : Kin main kept temporary)
    (hkept : kept ≠ temporary)
    (hthere : Keyed.contains (slot.name main) f₀ = Keyed.contains (slot.name main) f)
    (h : run f (replace f₀ main.directory (slot.name main) (slot.name temporary) bytes) = (g, none)) :
    Keyed.lookup (slot.name kept) g =
      (Keyed.lookup (slot.name main) f).or (Keyed.lookup (slot.name kept) f) := by
  have hdirectory (r : Role) : slot.name r ≠ main.directory := slot.name_ne_directory r main
  cases hmain : Keyed.lookup (slot.name main) f with
  | none =>
    have habsent := hthere.trans (Keyed.not_contains_of_lookup hmain)
    simp only [replace, habsent, Bool.false_eq_true, if_false, List.append_nil, List.cons_append,
      List.nil_append] at h
    rw [Option.none_or]
    refine lookup_run h fun step hstep => ?_
    simp only [List.mem_cons, List.not_mem_nil, or_false] at hstep
    rcases hstep with rfl | rfl | rfl
    · simpa [touched] using hdirectory kept
    · simpa [touched] using slot.name_ne hkept
    · simpa [touched] using ⟨slot.name_ne hkept, slot.name_ne hkin.ne_kept.symm⟩
  | some item =>
    have hpresent := hthere.trans (Keyed.contains_of_lookup hmain)
    simp only [replace, hpresent, if_true, List.cons_append, List.nil_append] at h
    obtain ⟨f₁, hmade, h⟩ := of_run_cons h
    obtain ⟨f₂, hcopied, h⟩ := of_run_cons h
    rw [← hkin.name] at hcopied
    obtain ⟨old, hsource, htarget⟩ := lookup_copy hcopied
    have hsame : Keyed.lookup (slot.name main) f₁ = Keyed.lookup (slot.name main) f :=
      lookup_apply hmade (by simpa [touched] using hdirectory main)
    rw [Option.some_or, ← hmain, ← hsame, hsource, ← htarget]
    refine lookup_run h fun step hstep => ?_
    simp only [List.mem_cons, List.not_mem_nil, or_false] at hstep
    rcases hstep with rfl | rfl | rfl
    · simpa [touched] using slot.name_ne hkept
    · simpa [touched] using slot.name_ne hkin.ne_kept.symm
    · simpa [touched] using ⟨slot.name_ne hkept, slot.name_ne hkin.ne_kept.symm⟩

theorem lookup_backup_saveSteps {label : SlotLabel}
    (h : run f (saveSteps f slot bytes label) = (g, none)) :
    Keyed.lookup (slot.name .backup) g =
      (Keyed.lookup (slot.name .save) f).or (Keyed.lookup (slot.name .backup) f) := by
  obtain ⟨f₂, hfirst, hlabel⟩ := of_run_append h
  obtain ⟨f₁, hlayout, hsave⟩ := of_run_append hfirst
  have hsame (r : Role) : Keyed.lookup (slot.name r) f₁ = Keyed.lookup (slot.name r) f :=
    lookup_run hlayout (untouched_layout slot r)
  have hkept := lookup_kept kin_save (by decide) (Keyed.contains_congr (hsame .save).symm) hsave
  rw [lookup_run hlabel (untouched_replace (r := .backup) kin_label (by simp)), hkept, hsame, hsame]

/-- What stands in the backup of a slot. -/
def Backed (f : Folder) (slot : Slot) : Option SaveRecord → Prop
  | none => Keyed.lookup (slot.name .backup) f = none
  | some r => ∃ bytes, r.toBytes = .ok bytes ∧
      Keyed.lookup (slot.name .backup) f = some (.file bytes)

theorem Backed.congr {old : Option SaveRecord} (h : Backed f slot old)
    (hsame : Keyed.lookup (slot.name .backup) g = Keyed.lookup (slot.name .backup) f) :
    Backed g slot old := by
  cases old with
  | none => exact hsame.trans h
  | some r =>
    obtain ⟨bytes, hbytes, hfile⟩ := h
    exact ⟨bytes, hbytes, hsame.trans hfile⟩

/-- What a request makes of what a slot holds, if it changes it. -/
def Request.change? (slot : Slot) : Request → Option (Option SaveRecord)
  | .save t r _ =>
    match r.toBytes with
    | .ok _ => if t = slot then some (some r) else none
    | .error _ => none
  | .remove t => if t = slot then some none else none
  | .load _ | .has _ | .list => none

/-- All that a slot has held, the latest first; nothing where it was removed. -/
def changes (slot : Slot) (requests : List Request) : List (Option SaveRecord) :=
  (requests.filterMap (Request.change? slot)).reverse

/-- The record that the latest overwriting save took the place of. -/
def displaced? : List (Option SaveRecord) → Option SaveRecord
  | some _ :: some old :: _ => some old
  | _ :: earlier => displaced? earlier
  | [] => none

theorem displaced?_none_cons (earlier : List (Option SaveRecord)) :
    displaced? (none :: earlier) = displaced? earlier := by
  rw [displaced?]
  simp

theorem displaced?_some_cons (r : SaveRecord) (earlier : List (Option SaveRecord)) :
    displaced? (some r :: earlier) = earlier.head?.join.or (displaced? earlier) := by
  cases earlier with
  | nil => rfl
  | cons change earlier => cases change <;> rfl

/-- A slot falls back on nothing just if no save of it was made over another. -/
theorem displaced?_eq_none {held : List (Option SaveRecord)} :
    displaced? held = none ↔ ∀ r old : SaveRecord, ¬ [some r, some old] <:+: held := by
  induction held with
  | nil => simp [displaced?]
  | cons change earlier ih =>
    simp only [List.infix_cons_iff, not_or, forall_and, ← ih]
    cases change with
    | none => simp [displaced?_none_cons]
    | some r =>
      rw [displaced?_some_cons, Option.or_eq_none_iff]
      refine and_congr_left fun _ => ?_
      cases earlier with
      | nil => simp
      | cons change earlier => cases change <;> simp

theorem Request.shelf_eq (request : Request) (s : Shelf) (slot : Slot) :
    (request.shelf s slot).map Prod.fst =
      (request.change? slot).getD ((s slot).map Prod.fst) := by
  cases request with
  | save t r now =>
    rw [shelf, change?]
    cases r.toBytes with
    | ok bytes =>
      dsimp only
      by_cases ht : t = slot
      · rw [if_pos ht.symm, if_pos ht]
        rfl
      · rw [if_neg (Ne.symm ht), if_neg ht]
        rfl
    | error cause => rfl
  | remove t =>
    rw [shelf, change?]
    dsimp only
    by_cases ht : t = slot
    · rw [if_pos ht.symm, if_pos ht]
      rfl
    · rw [if_neg (Ne.symm ht), if_neg ht]
      rfl
  | load t => rfl
  | has t => rfl
  | list => rfl

/-- What one request does to a backup. Only a save changes it: the record it overwrites is put there, and
if there is none, what is there stays. -/
theorem Keeps.backed (h : Keeps f s) {held : List (Option SaveRecord)}
    (hheld : (s slot).map Prod.fst = held.head?.join) (hbacked : Backed f slot (displaced? held))
    (request : Request) :
    Backed (request.folder f) slot (displaced? ((request.change? slot).toList ++ held)) := by
  have hlayout {g : Folder} (hrun : FileStep.run f Slots.layout = (g, none)) :
      Backed g slot (displaced? held) :=
    hbacked.congr (lookup_run hrun (untouched_layout slot .backup))
  cases request with
  | save t r now =>
    rw [Request.folder, Request.change?, Slots.save]
    cases hbytes : r.toBytes with
    | error cause =>
      obtain ⟨g, hrun, -⟩ := h.layout
      dsimp only
      rw [after_eq hrun]
      exact hlayout hrun
    | ok bytes =>
      obtain ⟨g, hrun, -, -, -, -, hothers⟩ := h.tidy.run_saveSteps t bytes
        (SlotLabel.ofRecord t.number t.isQuick now r)
      dsimp only
      rw [after_eq hrun]
      by_cases ht : t = slot
      · subst ht
        rw [if_pos rfl, Option.toList_some, List.singleton_append, displaced?_some_cons, ← hheld]
        have hkept := lookup_backup_saveSteps hrun
        have hholds := h.holds t
        cases hs : s t with
        | none =>
          rw [hs] at hholds
          have hfree : Keyed.lookup (t.name .save) f = none := hholds.1
          rw [hfree, Option.none_or] at hkept
          exact hbacked.congr hkept
        | some e =>
          rw [hs] at hholds
          obtain ⟨-, ⟨saved, hsaved, hown⟩, -⟩ := hholds
          have hown : Keyed.lookup (t.name .save) f = some (.file saved) := hown
          rw [hown, Option.some_or] at hkept
          exact ⟨saved, hsaved, hkept⟩
      · rw [if_neg ht, Option.toList_none, List.nil_append]
        exact hbacked.congr (hothers slot .backup (Ne.symm ht))
  | remove t =>
    obtain ⟨g, hrun, -, hgone⟩ := h.tidy.run_removeSteps t
    have hsame : Keyed.lookup (slot.name .backup) g = Keyed.lookup (slot.name .backup) f := by
      rw [hgone, if_neg]
      rintro (heq | heq)
      · cases (name_inj (q := .save).mp heq).2
      · cases (name_inj (q := .label).mp heq).2
    rw [Request.folder, Request.change?, Slots.remove, after_eq hrun]
    split
    · rw [Option.toList_some, List.singleton_append, displaced?_none_cons]
      exact hbacked.congr hsame
    · exact hbacked.congr hsame
  | load t => exact hbacked
  | has t => exact hbacked
  | list =>
    obtain ⟨g, hrun, -⟩ := h.layout
    rw [Request.folder, Slots.list, after_eq hrun]
    exact hlayout hrun

theorem folderAfter_concat (requests : List Request) (request : Request) :
    folderAfter (requests ++ [request]) = request.folder (folderAfter requests) := by
  rw [folderAfter, folderAfter, List.foldl_append]
  rfl

theorem changes_concat (slot : Slot) (requests : List Request) (request : Request) :
    changes slot (requests ++ [request]) = (request.change? slot).toList ++ changes slot requests := by
  rw [changes, changes, List.filterMap_append, List.reverse_append, List.filterMap_cons]
  cases request.change? slot <;> rfl

theorem shelfAfter_eq_head (requests : List Request) (slot : Slot) :
    (shelfAfter requests slot).map Prod.fst = (changes slot requests).head?.join := by
  induction requests using List.reverseRecOn with
  | nil => rfl
  | append_singleton requests request ih =>
    rw [shelfAfter, List.foldl_append, changes_concat]
    change (request.shelf (shelfAfter requests) slot).map Prod.fst = _
    rw [request.shelf_eq, ih]
    cases request.change? slot <;> rfl

theorem backed_after (requests : List Request) (slot : Slot) :
    Backed (folderAfter requests) slot (displaced? (changes slot requests)) := by
  induction requests using List.reverseRecOn with
  | nil => rfl
  | append_singleton requests request ih =>
    have hkeeps : Keeps (folderAfter requests) (shelfAfter requests) := Keeps.empty.run requests
    rw [folderAfter_concat, changes_concat]
    exact hkeeps.backed (shelfAfter_eq_head requests slot) ih request

/-- What a slot with a damaged file loads, by what it falls back on. -/
def fallBack (fault : RecordFault) : Option SaveRecord → Except StoreFault SaveRecord
  | some r => .ok r
  | none => .error (.recoveryFailed fault none)

/-- A slot that holds something falls back on its backup when its file is overwritten. -/
theorem Keeps.load_damaged (h : Keeps f s) {old : Option SaveRecord} {fault : RecordFault}
    (hheld : (s slot).isSome) (hbacked : Backed f slot old)
    (hdamaged : SaveRecord.ofBytes damaged = .error fault) :
    ∃ g, apply f (.write slot.file damaged) = .ok g ∧ Slots.load g slot = fallBack fault old := by
  have hholds := h.holds slot
  obtain ⟨e, he⟩ := Option.isSome_iff_exists.mp hheld
  rw [he] at hholds
  obtain ⟨g, hwritten, -⟩ := h.tidy.write slot .save damaged
  have hsame : Keyed.lookup (slot.name .backup) g = Keyed.lookup (slot.name .backup) f :=
    lookup_apply hwritten (slot.name_not_mem .backup [.save] (by decide))
  have hshows {backup : Option Folder.Item}
      (hbackup : Keyed.lookup (slot.name .backup) f = backup) :
      Shows g slot (some (.file damaged)) backup :=
    ⟨directory_apply hwritten hholds.1, lookup_write hwritten, hsame.trans hbackup⟩
  refine ⟨g, hwritten, ?_⟩
  cases old with
  | none =>
    rw [(hshows hbacked).load]
    simp only [loadFrom, hdamaged, fallBack]
  | some r =>
    obtain ⟨bytes, hbytes, hfile⟩ := hbacked
    rw [(hshows hfile).load]
    simp only [loadFrom, hdamaged, SaveRecord.ofBytes_of_toBytes hbytes, fallBack]

theorem load_damaged_of_changes {earlier : List (Option SaveRecord)} {fault : RecordFault}
    (hsaved : changes slot requests = some r :: earlier)
    (hdamaged : SaveRecord.ofBytes damaged = .error fault) :
    ∃ g, apply (folderAfter requests) (.write slot.file damaged) = .ok g ∧
      Slots.load g slot = fallBack fault (displaced? (some r :: earlier)) := by
  have hkeeps : Keeps (folderAfter requests) (shelfAfter requests) := Keeps.empty.run requests
  have hheld : (shelfAfter requests slot).isSome := by
    rw [← Option.isSome_map, shelfAfter_eq_head, hsaved]
    rfl
  have hbacked := backed_after requests slot
  rw [hsaved] at hbacked
  exact hkeeps.load_damaged hheld hbacked hdamaged

/-- A slot whose file is damaged falls back on the record that its latest overwriting save took the place
of. This is the save before the last if nothing was removed between the two; otherwise it is one from
before the removal, and there is none only if no save was ever made over another. -/
theorem load_displaced {earlier : List (Option SaveRecord)} {fault : RecordFault}
    (hsaved : changes slot requests = some r :: earlier)
    (hdamaged : SaveRecord.ofBytes damaged = .error fault) :
    ∃ g, apply (folderAfter requests) (.write slot.file damaged) = .ok g ∧
      Slots.load g slot = fallBack fault (displaced? (some r :: earlier)) ∧
      (∀ old before, earlier = some old :: before → Slots.load g slot = .ok old) ∧
      (Slots.load g slot = .error (.recoveryFailed fault none) ↔
        ∀ new old : SaveRecord, ¬ [some new, some old] <:+: some r :: earlier) := by
  obtain ⟨g, hwritten, hload⟩ := load_damaged_of_changes hsaved hdamaged
  refine ⟨g, hwritten, hload, ?_, ?_⟩
  · rintro old before rfl
    exact hload
  · rw [hload, ← displaced?_eq_none]
    cases displaced? (some r :: earlier) <;> simp [fallBack]

/-- The sample save as it would be at some other time. -/
def sampleAt (time : UInt64) : SaveRecord :=
  { SaveRecord.sample with save := { SaveRecord.sample.save with time := time } }

theorem load_displaced_sample :
    let requests := [.save .quick (sampleAt 1) 1, .save .quick (sampleAt 2) 2]
    changes .quick requests = [some (sampleAt 2), some (sampleAt 1)] ∧
      SaveRecord.ofBytes [] = .error .tooSmall ∧
      ∃ g, apply (folderAfter requests) (.write Slot.quick.file []) = .ok g ∧
        Slots.load g .quick = .ok (sampleAt 1) := by
  intro requests
  have hsaved : changes .quick requests = [some (sampleAt 2), some (sampleAt 1)] := by
    decide +kernel
  have hdamaged : SaveRecord.ofBytes [] = .error .tooSmall := rfl
  obtain ⟨g, hwritten, -, hload, -⟩ := load_displaced hsaved hdamaged
  exact ⟨hsaved, hdamaged, g, hwritten, hload _ _ rfl⟩

/-- A slot is saved twice, removed and saved once more; what it falls back on is the first save of all. -/
theorem load_from_before_removal :
    let slot := Slot.numbered 1
    let requests := [.save slot (sampleAt 1) 1, .save slot (sampleAt 2) 2, .remove slot,
      .save slot (sampleAt 3) 3]
    changes slot requests =
        [some (sampleAt 3), none, some (sampleAt 2), some (sampleAt 1)] ∧
      SaveRecord.ofBytes [] = .error .tooSmall ∧
      ∃ g, apply (folderAfter requests) (.write slot.file []) = .ok g ∧
        Slots.load g slot = .ok (sampleAt 1) ∧
        Slots.load g slot ≠ .error (.recoveryFailed .tooSmall none) := by
  intro slot requests
  have hsaved : changes slot requests =
      [some (sampleAt 3), none, some (sampleAt 2), some (sampleAt 1)] := by
    decide +kernel
  have hdamaged : SaveRecord.ofBytes [] = .error .tooSmall := rfl
  obtain ⟨g, hwritten, hload⟩ := load_damaged_of_changes hsaved hdamaged
  have hfirst : Slots.load g slot = .ok (sampleAt 1) := hload
  refine ⟨hsaved, hdamaged, g, hwritten, hfirst, ?_⟩
  rw [hfirst]
  exact nofun

end Slots

end Narrative
