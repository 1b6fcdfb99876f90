import Mathlib.Data.List.Basic
import Narrative.Proofs.Folder
import Narrative.Proofs.Lists
import Narrative.Proofs.Text
import Narrative.Save.Slots

namespace Narrative

namespace Slot

open Text.Decimal

/-- What a file is there for. -/
inductive Role
  | save
  | backup
  | scratch
  | label
  | labelBackup
  | labelScratch
  deriving DecidableEq, Repr

def name (s : Slot) : Role → String
  | .save => s.file
  | .backup => backupOf s.file
  | .scratch => s.temporaryFile
  | .label => s.labelFile
  | .labelBackup => backupOf s.labelFile
  | .labelScratch => s.temporaryLabelFile

def Role.directory : Role → String
  | .save | .backup | .scratch => "slots"
  | .label | .labelBackup | .labelScratch => "meta"

def Role.ending : Role → List Char
  | .save => ['v', 'n', 'p', 's']
  | .backup => ['v', 'n', 'p', 's', '.', 'b', 'a', 'k']
  | .scratch | .labelScratch => ['t', 'm', 'p']
  | .label => ['j', 's', 'o', 'n']
  | .labelBackup => ['j', 's', 'o', 'n', '.', 'b', 'a', 'k']

/-- The name of a file inside its directory. -/
def base (s : Slot) (r : Role) : String := String.ofList (s.stem.toList ++ '.' :: r.ending)

theorem name_eq (s : Slot) (r : Role) : s.name r = r.directory ++ "/" ++ s.base r := by
  rw [← String.toList_inj]
  cases r <;> simp [name, file, labelFile, temporaryFile, temporaryLabelFile, backupOf, base,
    Role.directory, Role.ending]

theorem Role.eq_of_parts {r q : Role} (hdirectory : r.directory = q.directory)
    (hending : r.ending = q.ending) : r = q := by
  revert hdirectory hending
  cases r <;> cases q <;> decide

theorem valueFrom_zeros (count : Nat) (s : List Char) :
    valueFrom 0 (List.replicate count '0' ++ s) = valueFrom 0 s := by
  induction count with
  | zero => rfl
  | succ count ih => exact ih

theorem digits_injective {n m : UInt16} (h : digits n = digits m) : n = m := by
  have hvalue (n : UInt16) : valueFrom 0 (digits n) = n.toNat := by
    rw [digits, valueFrom_zeros, valueFrom_digits]
  have hsame : n.toNat = m.toNat := by rw [← hvalue, ← hvalue, h]
  exact UInt16.toNat_inj.mp hsame

theorem stem_injective {s t : Slot} (h : s.stem = t.stem) : s = t := by
  rw [← String.toList_inj] at h
  cases s <;> cases t <;> simp [stem] at h
  · rw [digits_injective h]
  · rfl

theorem isDigit_of_mem {n : UInt16} {c : Char} (hc : c ∈ digits n) : isDigit c = true := by
  rw [digits, List.mem_append] at hc
  rcases hc with hc | hc
  · rw [List.eq_of_mem_replicate hc]
    rfl
  · exact isDigit_of_mem_digits hc

/-- A stem has no marks in it that a name is divided at. -/
theorem stem_plain (s : Slot) {c : Char} (hc : c ∈ s.stem.toList) : c ≠ '.' ∧ c ≠ '/' := by
  have hquick : "quicksave".toList.all (fun c => c ≠ '.' ∧ c ≠ '/') = true := by decide
  have hnumbered : "slot_".toList.all (fun c => c ≠ '.' ∧ c ≠ '/') = true := by decide
  cases s with
  | quick => simpa using List.all_eq_true.mp hquick c hc
  | numbered n =>
    rw [stem, String.toList_append, List.mem_append] at hc
    rcases hc with hc | hc
    · simpa using List.all_eq_true.mp hnumbered c hc
    · rw [String.toList_ofList] at hc
      have hdigit := isDigit_of_mem hc
      constructor
      · rintro rfl
        cases hdigit
      · rintro rfl
        cases hdigit

theorem stem_ne_nil (s : Slot) : s.stem.toList ≠ [] := by
  cases s <;> simp [stem]

theorem isPart_directory (r : Role) : FileName.IsPart r.directory := by
  cases r <;> exact ⟨by decide, by decide, by decide, by decide⟩

theorem isPart_base (s : Slot) (r : Role) : FileName.IsPart (s.base r) := by
  have hlist : (s.base r).toList = s.stem.toList ++ '.' :: r.ending := String.toList_ofList
  obtain ⟨c, rest, hstem⟩ := List.exists_cons_of_ne_nil s.stem_ne_nil
  have hc : c ≠ '.' := (s.stem_plain (hstem ▸ List.mem_cons_self)).1
  refine ⟨?_, ?_, ?_, ?_⟩
  · rw [hlist, List.mem_append, not_or]
    refine ⟨fun hslash => (s.stem_plain hslash).2 rfl, ?_⟩
    cases r <;> decide
  all_goals
    rw [Ne, ← String.toList_inj, hlist, hstem]
    simp [hc]

/-- No two slots share a file, and each file of a slot has one part to play. -/
theorem name_injective {s t : Slot} {r q : Role} (h : s.name r = t.name q) : s = t ∧ r = q := by
  have hparts : (s.name r).splitOn "/" = (t.name q).splitOn "/" := by rw [h]
  rw [name_eq, name_eq, FileName.splitOn_inside (isPart_directory r) (s.isPart_base r),
    FileName.splitOn_inside (isPart_directory q) (t.isPart_base q), List.cons.injEq,
    List.cons.injEq] at hparts
  obtain ⟨hdirectory, hbase, -⟩ := hparts
  rw [base, base, ← String.toList_inj, String.toList_ofList, String.toList_ofList] at hbase
  obtain ⟨hstem, hending⟩ := eq_of_append_mark (fun h => (s.stem_plain h).1 rfl)
    (fun h => (t.stem_plain h).1 rfl) hbase
  exact ⟨stem_injective (String.toList_inj.mp hstem), Role.eq_of_parts hdirectory hending⟩

theorem name_inj {s t : Slot} {r q : Role} : s.name r = t.name q ↔ s = t ∧ r = q :=
  ⟨name_injective, fun ⟨hs, hr⟩ => hs ▸ hr ▸ rfl⟩

theorem name_ne (s : Slot) {r q : Role} (h : r ≠ q) : s.name r ≠ s.name q :=
  fun heq => h (name_injective heq).2

/-- No file of a slot is one of the two directories. -/
theorem name_ne_directory (s : Slot) (r q : Role) : s.name r ≠ q.directory := by
  intro h
  have hslash : '/' ∈ (s.name r).toList := by
    rw [name_eq]
    simp
  rw [h] at hslash
  exact (isPart_directory q).plain hslash

theorem name_not_mem (s : Slot) (r : Role) (roles : List Role) (h : r ∉ roles) :
    s.name r ∉ roles.map s.name := by
  intro hmem
  obtain ⟨q, hq, heq⟩ := List.mem_map.mp hmem
  exact h ((name_injective heq).2 ▸ hq)

end Slot

namespace FileStep

variable {f g : Folder} {step : FileStep} {steps more : List FileStep} {name : String}

/-- The names that a step may change. -/
def touched : FileStep → List String
  | createDirectory name | write name _ | remove name => [name]
  | copy _ target => [target]
  | rename source target => [source, target]

/-- What a step that can be made comes to. -/
inductive Made (f : Folder) : FileStep → Folder → Prop
  | createDirectory {name : String} :
    Made f (.createDirectory name) (Keyed.insert name .directory f)
  | copy {source target : String} {bytes : Bytes}
    (hsource : Keyed.lookup source f = some (.file bytes))
    (htarget : Keyed.lookup target f ≠ some .directory) :
    Made f (.copy source target) (Keyed.insert target (.file bytes) f)
  | write {name : String} {bytes : Bytes} (hname : Keyed.lookup name f ≠ some .directory) :
    Made f (.write name bytes) (Keyed.insert name (.file bytes) f)
  | remove {name : String} {bytes : Bytes} (hname : Keyed.lookup name f = some (.file bytes)) :
    Made f (.remove name) (Keyed.erase name f)
  | rename {source target : String} {bytes : Bytes}
    (hsource : Keyed.lookup source f = some (.file bytes))
    (htarget : Keyed.lookup target (Keyed.erase source f) ≠ some .directory) :
    Made f (.rename source target) (Keyed.insert target (.file bytes) (Keyed.erase source f))

theorem place_eq_ok {bytes : Bytes} (h : place f name bytes = .ok g) :
    Keyed.lookup name f ≠ some .directory ∧ g = Keyed.insert name (.file bytes) f := by
  rw [place] at h
  split at h
  · cases h
  · rename_i hname
    cases h
    exact ⟨hname, rfl⟩

theorem made_of_apply (h : apply f step = .ok g) : Made f step g := by
  cases step with
  | createDirectory name =>
    rw [apply] at h
    split at h
    · cases h
    · cases h
      exact .createDirectory
  | copy source target =>
    rw [apply] at h
    split at h
    · rename_i hsource
      obtain ⟨htarget, rfl⟩ := place_eq_ok h
      exact .copy hsource htarget
    · cases h
    · cases h
  | write name bytes =>
    obtain ⟨hname, rfl⟩ := place_eq_ok h
    exact .write hname
  | remove name =>
    rw [apply] at h
    split at h
    · rename_i hname
      cases h
      exact .remove hname
    · cases h
    · cases h
  | rename source target =>
    rw [apply] at h
    split at h
    · rename_i hsource
      obtain ⟨htarget, rfl⟩ := place_eq_ok h
      exact .rename hsource htarget
    · cases h
    · cases h

theorem lookup_apply (h : apply f step = .ok g) (hname : name ∉ step.touched) :
    Keyed.lookup name g = Keyed.lookup name f := by
  cases made_of_apply h <;>
    simp only [touched, List.mem_cons, List.not_mem_nil, or_false, not_or] at hname
  case createDirectory => rw [Keyed.lookup_insert, if_neg (Ne.symm hname)]
  case copy => rw [Keyed.lookup_insert, if_neg (Ne.symm hname)]
  case write => rw [Keyed.lookup_insert, if_neg (Ne.symm hname)]
  case remove => rw [Keyed.lookup_erase, if_neg (Ne.symm hname)]
  case rename =>
    rw [Keyed.lookup_insert, if_neg (Ne.symm hname.2), Keyed.lookup_erase,
      if_neg (Ne.symm hname.1)]

theorem directory_insert {target : String} {bytes : Bytes}
    (htarget : Keyed.lookup target f ≠ some .directory)
    (hname : Keyed.lookup name f = some .directory) :
    Keyed.lookup name (Keyed.insert target (.file bytes) f) = some .directory := by
  rw [Keyed.lookup_insert, if_neg, hname]
  rintro rfl
  exact htarget hname

theorem directory_erase {target : String} {bytes : Bytes}
    (htarget : Keyed.lookup target f = some (.file bytes))
    (hname : Keyed.lookup name f = some .directory) :
    Keyed.lookup name (Keyed.erase target f) = some .directory := by
  rw [Keyed.lookup_erase, if_neg, hname]
  rintro rfl
  rw [hname] at htarget
  cases htarget

/-- No step takes a directory away. -/
theorem directory_apply (h : apply f step = .ok g) (hname : Keyed.lookup name f = some .directory) :
    Keyed.lookup name g = some .directory := by
  cases made_of_apply h with
  | createDirectory => rw [Keyed.lookup_insert, hname, ite_self]
  | copy _ htarget => exact directory_insert htarget hname
  | write htarget => exact directory_insert htarget hname
  | remove htarget => exact directory_erase htarget hname
  | rename hsource htarget => exact directory_insert htarget (directory_erase hsource hname)

theorem lookup_copy {source target : String} (h : apply f (.copy source target) = .ok g) :
    ∃ bytes, Keyed.lookup source f = some (.file bytes) ∧
      Keyed.lookup target g = some (.file bytes) := by
  cases made_of_apply h with
  | copy hsource => exact ⟨_, hsource, by rw [Keyed.lookup_insert, if_pos rfl]⟩

theorem lookup_write {bytes : Bytes} (h : apply f (.write name bytes) = .ok g) :
    Keyed.lookup name g = some (.file bytes) := by
  cases made_of_apply h with
  | write => rw [Keyed.lookup_insert, if_pos rfl]

theorem lookup_remove (h : apply f (.remove name) = .ok g) : Keyed.lookup name g = none := by
  cases made_of_apply h with
  | remove => rw [Keyed.lookup_erase, if_pos rfl]

theorem lookup_rename {source target : String} (h : apply f (.rename source target) = .ok g) :
    ∃ bytes, Keyed.lookup source f = some (.file bytes) ∧
      Keyed.lookup target g = some (.file bytes) := by
  cases made_of_apply h with
  | rename hsource => exact ⟨_, hsource, by rw [Keyed.lookup_insert, if_pos rfl]⟩

theorem eq_or_touched_of_mem_replace {directory temporary : String} {bytes : Bytes}
    (h : step ∈ replace f directory name temporary bytes) :
    step = .createDirectory directory ∨
      ∀ other ∈ step.touched, other = name ∨ other = backupOf name ∨ other = temporary := by
  have hcases : step = .createDirectory directory ∨ step = .copy name (backupOf name) ∨
      step = .write temporary bytes ∨ step = .remove name ∨ step = .rename temporary name := by
    rw [replace] at h
    split at h <;> simp at h <;> tauto
  rcases hcases with rfl | rfl | rfl | rfl | rfl
  · exact .inl rfl
  all_goals
    refine .inr fun other hother => ?_
    simp only [touched, List.mem_cons, List.not_mem_nil, or_false] at hother
    tauto

theorem lookup_run (h : run f steps = (g, none)) (hname : ∀ step ∈ steps, name ∉ step.touched) :
    Keyed.lookup name g = Keyed.lookup name f := by
  induction steps generalizing f with
  | nil =>
    cases h
    rfl
  | cons step rest ih =>
    rw [run] at h
    split at h
    · rename_i f' hstep
      rw [ih h fun step hmem => hname step (List.mem_cons_of_mem _ hmem),
        lookup_apply hstep (hname step List.mem_cons_self)]
    · cases h

theorem directory_run (h : run f steps = (g, none))
    (hname : Keyed.lookup name f = some .directory) : Keyed.lookup name g = some .directory := by
  induction steps generalizing f with
  | nil =>
    cases h
    exact hname
  | cons step rest ih =>
    rw [run] at h
    split at h
    · rename_i f' hstep
      exact ih h (directory_apply hstep hname)
    · cases h

theorem run_append (f : Folder) (steps more : List FileStep) :
    run f (steps ++ more) =
      match run f steps with
      | (g, none) => run g more
      | (g, some fault) => (g, some fault) := by
  induction steps generalizing f with
  | nil => rfl
  | cons step rest ih =>
    rw [List.cons_append, run, run]
    split
    · exact ih _
    · rfl

end FileStep

namespace Slots

open FileStep Slot

variable {f : Folder} {slot : Slot} {bytes : Bytes}

theorem untouched_layout (t : Slot) (r : Role) : ∀ step ∈ layout, t.name r ∉ step.touched := by
  intro step hstep hname
  rw [layout, List.mem_cons, List.mem_singleton] at hstep
  rcases hstep with rfl | rfl
  · exact t.name_ne_directory r .save (List.mem_singleton.mp hname)
  · exact t.name_ne_directory r .label (List.mem_singleton.mp hname)

/-- What a file and the two beside it have to do with each other. -/
structure Kin (main kept temporary : Role) : Prop where
  name : ∀ t : Slot, t.name kept = backupOf (t.name main)
  ne_kept : main ≠ kept
  ne_temporary : main ≠ temporary

theorem kin_save : Kin .save .backup .scratch := ⟨fun _ => rfl, by decide, by decide⟩

theorem kin_label : Kin .label .labelBackup .labelScratch :=
  ⟨fun _ => rfl, by decide, by decide⟩

theorem untouched_replace {main kept temporary : Role} (hkin : Kin main kept temporary) {t : Slot}
    {r : Role} (hother : t = slot → r ≠ main ∧ r ≠ kept ∧ r ≠ temporary) :
    ∀ step ∈ replace f main.directory (slot.name main) (slot.name temporary) bytes,
      t.name r ∉ step.touched := by
  intro step hstep hname
  rcases eq_or_touched_of_mem_replace hstep with rfl | htouched
  · exact t.name_ne_directory r main (List.mem_singleton.mp hname)
  · rcases htouched _ hname with heq | heq | heq
    · obtain ⟨rfl, rfl⟩ := name_inj.mp heq
      exact (hother rfl).1 rfl
    · rw [← hkin.name] at heq
      obtain ⟨rfl, rfl⟩ := name_inj.mp heq
      exact (hother rfl).2.1 rfl
    · obtain ⟨rfl, rfl⟩ := name_inj.mp heq
      exact (hother rfl).2.2 rfl

theorem read_name (f : Folder) (slot : Slot) (r : Slot.Role) :
    f.read (slot.name r) =
      match Keyed.lookup r.directory f with
      | none => .error .notFound
      | some (.file _) => .error .notADirectory
      | some .directory =>
        match Keyed.lookup (slot.name r) f with
        | some (.file bytes) => .ok bytes
        | some .directory => .error .isADirectory
        | none => .error .notFound := by
  rw [Slot.name_eq]
  exact Folder.read_inside (Slot.isPart_directory r) (slot.isPart_base r)

theorem read_file {f : Folder} {slot : Slot} {r : Slot.Role} {bytes : Bytes}
    (hdirectory : Keyed.lookup r.directory f = some .directory)
    (hfile : Keyed.lookup (slot.name r) f = some (.file bytes)) :
    f.read (slot.name r) = .ok bytes := by
  rw [read_name, hdirectory, hfile]

end Slots

end Narrative
