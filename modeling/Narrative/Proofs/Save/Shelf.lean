import Narrative.Proofs.Save.Store

namespace Narrative

/-- What each slot holds, and when it was saved. -/
abbrev Shelf := Slot → Option (SaveRecord × UInt64)

namespace Slots

open FileStep Slot

/-- One use of a folder of slots. -/
inductive Request
  | save (slot : Slot) (r : SaveRecord) (now : UInt64)
  | load (slot : Slot)
  | has (slot : Slot)
  | remove (slot : Slot)
  | list

namespace Request

/-- The slot that a request is about. -/
def slot? : Request → Option Slot
  | save slot _ _ | load slot | has slot | remove slot => some slot
  | list => none

/-- What a request leaves of a folder. -/
def folder (f : Folder) : Request → Folder
  | save slot r now => (Slots.save f slot r now).1
  | remove slot => (Slots.remove f slot).1
  | list => (Slots.list f).1
  | load _ | has _ => f

/-- What a request does to a map. A record too large to be written is not saved. -/
def shelf (s : Shelf) : Request → Shelf
  | save slot r now =>
    match r.toBytes with
    | .ok _ => fun t => if t = slot then some (r, now) else s t
    | .error _ => s
  | remove slot => fun t => if t = slot then none else s t
  | load _ | has _ | list => s

end Request

def folderAfter (requests : List Request) : Folder := requests.foldl Request.folder []

def shelfAfter (requests : List Request) : Shelf := requests.foldl Request.shelf fun _ => none

/-- Whether a request puts something into a slot or takes it away. -/
def Request.Changes (slot : Slot) : Request → Prop
  | .save t r _ => t = slot ∧ ∃ bytes, r.toBytes = .ok bytes
  | .remove t => t = slot
  | _ => False

theorem Request.not_changes (request : Request) {slot : Slot} (h : request.slot? ≠ some slot) :
    ¬ request.Changes slot := by
  cases request with
  | save t r now => exact fun hchanges => h (congrArg some hchanges.1)
  | remove t => exact fun hchanges => h (congrArg some hchanges)
  | load t => exact id
  | has t => exact id
  | list => exact id

/-- What a slot holds after a request has just been put into it, or has been left there. -/
theorem Request.shelf_eq_some (request : Request) {s : Shelf} {slot : Slot}
    {e : SaveRecord × UInt64} :
    request.shelf s slot = some e ↔
      (request = .save slot e.1 e.2 ∧ ∃ bytes, e.1.toBytes = .ok bytes) ∨
        (s slot = some e ∧ ¬ request.Changes slot) := by
  cases request with
  | save t r now =>
    rw [shelf]
    cases hbytes : r.toBytes with
    | ok bytes =>
      by_cases ht : slot = t
      · subst ht
        simp only [if_true, Changes, Request.save.injEq, Option.some.injEq, true_and]
        constructor
        · rintro rfl
          exact .inl ⟨⟨rfl, rfl⟩, bytes, hbytes⟩
        · rintro (⟨⟨rfl, rfl⟩, -⟩ | ⟨-, hnot⟩)
          · rfl
          · exact absurd ⟨bytes, hbytes⟩ hnot
      · simp [Changes, ht, Ne.symm ht]
    | error cause =>
      simp only [Changes, hbytes, reduceCtorEq, exists_false, and_false, not_false_eq_true, and_true]
      refine ⟨.inr, ?_⟩
      rintro (⟨heq, bytes, he⟩ | h)
      · rw [(Request.save.inj heq).2.1, he] at hbytes
        cases hbytes
      · exact h
  | remove t =>
    by_cases ht : slot = t
    · simp [shelf, Changes, ht]
    · simp [shelf, Changes, ht, Ne.symm ht]
  | load t => simp [shelf, Changes]
  | has t => simp [shelf, Changes]
  | list => simp [shelf, Changes]

theorem Request.shelf_of_slot? (request : Request) (s : Shelf) {slot : Slot}
    (h : request.slot? ≠ some slot) : request.shelf s slot = s slot := by
  refine Option.ext fun e => ?_
  rw [shelf_eq_some]
  constructor
  · rintro (⟨rfl, -⟩ | ⟨he, -⟩)
    · exact absurd rfl h
    · exact he
  · exact fun he => .inr ⟨he, request.not_changes h⟩

/-- The last request that changed a slot was to save this. -/
def Latest (requests : List Request) (slot : Slot) (e : SaveRecord × UInt64) : Prop :=
  ∃ before later, requests = before ++ .save slot e.1 e.2 :: later ∧
    (∃ bytes, e.1.toBytes = .ok bytes) ∧ ∀ request ∈ later, ¬ request.Changes slot

theorem latest_cons {request : Request} {requests : List Request} {slot : Slot}
    {e : SaveRecord × UInt64} :
    Latest (request :: requests) slot e ↔
      ((request = .save slot e.1 e.2 ∧ ∃ bytes, e.1.toBytes = .ok bytes) ∧
        ∀ request ∈ requests, ¬ request.Changes slot) ∨ Latest requests slot e := by
  constructor
  · rintro ⟨before, later, hsplit, hbytes, hlater⟩
    rcases List.cons_eq_append_iff.mp hsplit with ⟨-, hhead⟩ | ⟨before', -, hrest⟩
    · obtain ⟨rfl, rfl⟩ := List.cons.inj hhead
      exact .inl ⟨⟨rfl, hbytes⟩, hlater⟩
    · exact .inr ⟨before', later, hrest, hbytes, hlater⟩
  · rintro (⟨⟨rfl, hbytes⟩, hrest⟩ | ⟨before, later, rfl, hbytes, hlater⟩)
    · exact ⟨[], requests, rfl, hbytes, hrest⟩
    · exact ⟨request :: before, later, rfl, hbytes, hlater⟩

theorem foldl_shelf_eq_some {requests : List Request} {s : Shelf} {slot : Slot}
    {e : SaveRecord × UInt64} :
    requests.foldl Request.shelf s slot = some e ↔
      Latest requests slot e ∨ (s slot = some e ∧ ∀ request ∈ requests, ¬ request.Changes slot) := by
  induction requests generalizing s with
  | nil => simp [Latest]
  | cons request requests ih =>
    rw [List.foldl_cons, ih, request.shelf_eq_some, latest_cons, List.forall_mem_cons]
    tauto

/-- A slot holds what was saved in it last, unless it has been removed since. -/
theorem shelfAfter_eq_some {requests : List Request} {slot : Slot} {e : SaveRecord × UInt64} :
    shelfAfter requests slot = some e ↔ Latest requests slot e := by
  rw [shelfAfter, foldl_shelf_eq_some]
  simp

variable {f g : Folder} {s : Shelf} {slot : Slot} {r : SaveRecord} {now : UInt64}

def labelBytes (slot : Slot) (r : SaveRecord) (now : UInt64) : Bytes :=
  (SlotLabel.ofRecord slot.number slot.isQuick now r).text.toUTF8.toList

/-- The files of a slot are those of what it holds. -/
def Holds (f : Folder) (slot : Slot) : Option (SaveRecord × UInt64) → Prop
  | none => Keyed.lookup slot.file f = none ∧ Keyed.lookup slot.labelFile f = none
  | some (r, now) =>
    Keyed.lookup Role.save.directory f = some .directory ∧
      (∃ bytes, r.toBytes = .ok bytes ∧ Keyed.lookup slot.file f = some (.file bytes)) ∧
      Keyed.lookup slot.labelFile f = some (.file (labelBytes slot r now))

theorem Holds.congr {held : Option (SaveRecord × UInt64)} (h : Holds f slot held)
    (hsame : ∀ r, Keyed.lookup (slot.name r) g = Keyed.lookup (slot.name r) f)
    (hdirectory : Keyed.lookup Role.save.directory f = some .directory →
      Keyed.lookup Role.save.directory g = some .directory) : Holds g slot held := by
  have hsave : Keyed.lookup slot.file g = Keyed.lookup slot.file f := hsame .save
  have hlabel : Keyed.lookup slot.labelFile g = Keyed.lookup slot.labelFile f := hsame .label
  cases held with
  | none => exact ⟨hsave.trans h.1, hlabel.trans h.2⟩
  | some e =>
    obtain ⟨hthere, ⟨bytes, hbytes, hown⟩, hlabelled⟩ := h
    exact ⟨hdirectory hthere, ⟨bytes, hbytes, hsave.trans hown⟩, hlabel.trans hlabelled⟩

structure Keeps (f : Folder) (s : Shelf) : Prop where
  tidy : Tidy f
  holds : ∀ slot, Holds f slot (s slot)

theorem Keeps.empty : Keeps [] fun _ => none := ⟨.empty, fun _ => ⟨rfl, rfl⟩⟩

theorem after_eq {α : Type} {steps : List FileStep} (h : run f steps = (g, none))
    (result : Folder → Except StoreFault α) : after f steps result = (g, result g) := by
  rw [after, h]

theorem Keeps.layout (h : Keeps f s) : ∃ g, run f layout = (g, none) ∧ Keeps g s := by
  obtain ⟨g, hrun, hg, hthere⟩ := h.tidy.run_layout
  exact ⟨g, hrun, hg, fun slot => (h.holds slot).congr
    (fun r => lookup_run hrun (untouched_layout slot r)) fun _ => hthere .save⟩

theorem Keeps.save (h : Keeps f s) (slot : Slot) (r : SaveRecord) (now : UInt64) :
    Keeps (Slots.save f slot r now).1 (Request.shelf s (.save slot r now)) ∧
      (Slots.save f slot r now).2 =
        (match r.toBytes with
        | .ok _ => .ok ⟨SlotLabel.ofRecord slot.number slot.isQuick now r, slot.file⟩
        | .error cause => .error (.save cause)) := by
  rw [Slots.save, Request.shelf]
  cases hbytes : r.toBytes with
  | error cause =>
    obtain ⟨g, hrun, hg⟩ := h.layout
    dsimp only
    rw [after_eq hrun]
    exact ⟨hg, rfl⟩
  | ok bytes =>
    obtain ⟨g, hrun, hg, hthere, hown, hlabel, hothers⟩ := h.tidy.run_saveSteps slot bytes
      (SlotLabel.ofRecord slot.number slot.isQuick now r)
    dsimp only
    rw [after_eq hrun]
    refine ⟨⟨hg, fun t => ?_⟩, rfl⟩
    dsimp only
    split
    · rename_i ht
      subst ht
      exact ⟨hthere .save, ⟨bytes, hbytes, hown⟩, hlabel⟩
    · rename_i ht
      exact (h.holds t).congr (fun r => hothers t r ht) fun _ => hthere .save

theorem Keeps.remove (h : Keeps f s) (slot : Slot) :
    Keeps (Slots.remove f slot).1 (Request.shelf s (.remove slot)) ∧
      (Slots.remove f slot).2 = .ok () := by
  obtain ⟨g, hrun, hg, hgone⟩ := h.tidy.run_removeSteps slot
  rw [Slots.remove, Request.shelf, after_eq hrun]
  refine ⟨⟨hg, fun t => ?_⟩, rfl⟩
  dsimp only
  split
  · rename_i ht
    subst ht
    constructor
    · rw [hgone, if_pos (.inl rfl)]
    · rw [hgone, if_pos (.inr rfl)]
  · rename_i ht
    refine (h.holds t).congr (fun r => ?_) fun hthere => ?_
    · rw [hgone, if_neg]
      rintro (heq | heq)
      · exact ht (name_inj (q := .save).mp heq).1
      · exact ht (name_inj (q := .label).mp heq).1
    · rw [hgone, if_neg, hthere]
      rintro (heq | heq)
      · exact slot.name_ne_directory .save .save heq.symm
      · exact slot.name_ne_directory .label .save heq.symm

/-- Each request keeps a folder and a map in step. -/
theorem Keeps.request (h : Keeps f s) (request : Request) :
    Keeps (request.folder f) (request.shelf s) := by
  cases request with
  | save slot r now => exact (h.save slot r now).1
  | load slot => exact h
  | has slot => exact h
  | remove slot => exact (h.remove slot).1
  | list =>
    obtain ⟨g, hrun, hg⟩ := h.layout
    rw [Request.folder, Slots.list, after_eq hrun]
    exact hg

theorem Keeps.run (h : Keeps f s) (requests : List Request) :
    Keeps (requests.foldl Request.folder f) (requests.foldl Request.shelf s) := by
  induction requests generalizing f s with
  | nil => exact h
  | cons request rest ih => exact ih (h.request request)

theorem Keeps.has (h : Keeps f s) (slot : Slot) : Slots.has f slot = (s slot).isSome := by
  have hholds := h.holds slot
  cases hslot : s slot with
  | none =>
    rw [hslot] at hholds
    exact Keyed.not_contains_of_lookup hholds.1
  | some e =>
    rw [hslot] at hholds
    obtain ⟨-, ⟨bytes, -, hown⟩, -⟩ := hholds
    exact Keyed.contains_of_lookup hown

theorem Keeps.load (h : Keeps f s) (slot : Slot) :
    Slots.load f slot =
      match s slot with
      | none => .error (.io .notFound)
      | some (r, _) => .ok r := by
  have hholds := h.holds slot
  cases hslot : s slot with
  | none =>
    rw [hslot] at hholds
    have hread : f.read slot.file = .error .notFound := by
      have hname : f.read slot.file = _ := read_name f slot .save
      rw [hname]
      have hnone : Keyed.lookup (slot.name .save) f = none := hholds.1
      cases hdirectory : Keyed.lookup Role.save.directory f with
      | none => rfl
      | some item =>
        cases item with
        | file bytes => exact absurd hdirectory (h.tidy.directory .save bytes)
        | directory => simp only [hnone]
    rw [Slots.load, hread]
  | some e =>
    rw [hslot] at hholds
    obtain ⟨hthere, ⟨bytes, hbytes, hown⟩, -⟩ := hholds
    have hread : f.read slot.file = .ok bytes := read_file (r := .save) hthere hown
    rw [Slots.load, hread]
    dsimp only
    rw [SaveRecord.ofBytes_of_toBytes hbytes]

/-- What a listing says is so. -/
structure Tells (l : Listing) (slot : Slot) (r : SaveRecord) (now : UInt64) : Prop where
  number : l.label.slot = slot.number
  quick : l.label.quick = slot.isQuick
  updated : l.label.updated = now
  scriptId : l.label.scriptId = Text.Hex.ofBytes r.scriptId.toList
  scriptIdDigits : Text.Hex.Writes l.label.scriptId r.scriptId.toList
  kind : l.label.kind = r.save.kind
  scene : l.label.scene = Path.scene? r.save.path
  pathLength : l.label.pathLength.toNat = r.save.path.length
  snapshotCount : l.label.snapshotCount.toNat = r.save.snapshots.length
  file : l.file = slot.file

/-- The slots that hold something, each once, the latest first. -/
structure Listed (s : Shelf) (ls : List Listing) : Prop where
  latestFirst : ls.Pairwise fun a b => b.label.updated ≤ a.label.updated
  once : (ls.map fun l => ofLabel l.label).Nodup
  held : ∀ slot, slot ∈ ls.map (fun l => ofLabel l.label) ↔ (s slot).isSome
  tells : ∀ l ∈ ls, ∃ slot r now, s slot = some (r, now) ∧ Tells l slot r now

def listingOf (slot : Slot) (e : SaveRecord × UInt64) : Listing :=
  ⟨.ofRecord slot.number slot.isQuick e.2 e.1, slot.file⟩

theorem ofLabel_listingOf (slot : Slot) (e : SaveRecord × UInt64) :
    ofLabel (listingOf slot e).label = slot := by
  cases slot <;> rfl

theorem lengths_lt {bytes : Bytes} (h : r.toBytes = .ok bytes) :
    r.save.path.length < UInt64.size ∧ r.save.snapshots.length < UInt64.size := by
  obtain ⟨-, hsize⟩ := SaveRecord.of_toBytes_eq_ok h
  have hpath := length_le_flatMap Payload.lossless_pathItem.ne_nil r.save.path
  have hsnapshots := length_le_flatMap Payload.lossless_state.ne_nil r.save.snapshots
  have hword : UInt32.size < UInt64.size := by decide
  rw [SaveRecord.payload, Payload.save, Payload.path, Payload.list, Payload.list] at hsize
  simp only [List.length_append] at hsize
  omega

theorem tells_listingOf {bytes : Bytes} (h : r.toBytes = .ok bytes) (slot : Slot) (now : UInt64) :
    Tells (listingOf slot (r, now)) slot r now where
  number := rfl
  quick := rfl
  updated := rfl
  scriptId := rfl
  scriptIdDigits := Text.Hex.writes_ofBytes _
  kind := rfl
  scene := rfl
  pathLength := UInt64.toNat_ofNat_of_lt' (lengths_lt h).1
  snapshotCount := UInt64.toNat_ofNat_of_lt' (lengths_lt h).2
  file := rfl

theorem not_suffix_json {c : Char} (hc : c ≠ 'n') (x : List Char) :
    ¬ ['.', 'j', 's', 'o', 'n'] <:+ x ++ [c] := by
  rintro ⟨before, heq⟩
  have hend := congrArg List.getLast? heq
  simp [hc.symm] at hend

theorem isLabelName_name (t : Slot) (q : Role) : isLabelName (t.name q) = true ↔ q = .label := by
  have hplain : '/' ∉ t.stem.toList := fun h => (t.stem_plain h).2 rfl
  have hsome := List.length_pos_of_ne_nil t.stem_ne_nil
  have hlist : (t.name q).toList =
      q.directory.toList ++ '/' :: (t.stem.toList ++ '.' :: q.ending) := by
    rw [name_eq]
    simp [base]
  simp only [isLabelName, hlist]
  cases q
  case save | backup | scratch => simp [Role.directory]
  case label => simp [Role.directory, Role.ending, hplain]; omega
  case labelBackup =>
    have hnot := not_suffix_json (c := 'k') (by decide)
      (t.stem.toList ++ ['.', 'j', 's', 'o', 'n', '.', 'b', 'a'])
    simp only [List.append_assoc, List.cons_append, List.nil_append] at hnot
    simp [Role.directory, Role.ending, hnot]
  case labelScratch =>
    have hnot := not_suffix_json (c := 'p') (by decide) (t.stem.toList ++ ['.', 't', 'm'])
    simp only [List.append_assoc, List.cons_append, List.nil_append] at hnot
    simp [Role.directory, Role.ending, hnot]

theorem not_isLabelName_directory (q : Role) : isLabelName q.directory = false := by
  cases q <;> decide

/-- A label that stands in a folder, as an entry. -/
def labelEntry (row : Slot × SaveRecord × UInt64) : String × Folder.Item :=
  (row.1.labelFile, .file (labelBytes row.1 row.2.1 row.2.2))

theorem Keeps.labelEntry_of_mem (h : Keeps f s) {e : String × Folder.Item}
    (he : e ∈ f.filter fun e => isLabelName e.1) :
    ∃ row : Slot × SaveRecord × UInt64, s row.1 = some row.2 ∧ e = labelEntry row := by
  obtain ⟨hmem, hlabel⟩ := List.mem_filter.mp he
  have hlookup := Keyed.lookup_of_mem h.tidy.ordered hmem
  rcases h.tidy.named _ _ hlookup with ⟨q, hname, -⟩ | ⟨t, q, bytes, hname, -⟩
  · rw [hname, not_isLabelName_directory] at hlabel
    cases hlabel
  · rw [hname] at hlabel hlookup
    rw [(isLabelName_name t q).mp hlabel] at hname hlookup
    have hholds := h.holds t
    cases ht : s t with
    | none =>
      rw [ht] at hholds
      exact absurd (hlookup.symm.trans hholds.2) (by simp)
    | some held =>
      rw [ht] at hholds
      refine ⟨(t, held), ht, ?_⟩
      exact Prod.ext hname (Option.some.inj (hlookup.symm.trans hholds.2.2))

theorem Keeps.mem_labels (h : Keeps f s) {slot : Slot} {e : SaveRecord × UInt64}
    (he : s slot = some e) : labelEntry (slot, e) ∈ f.filter fun e => isLabelName e.1 := by
  have hholds := h.holds slot
  rw [he] at hholds
  exact List.mem_filter.mpr
    ⟨Keyed.mem_of_lookup hholds.2.2, (isLabelName_name slot .label).mpr rfl⟩

/-- The labels in a folder are those of the slots that hold something, each once. -/
theorem Keeps.labels (h : Keeps f s) :
    ∃ rows : List (Slot × SaveRecord × UInt64),
      f.filter (fun e => isLabelName e.1) = rows.map labelEntry ∧
        (rows.map Prod.fst).Nodup ∧ ∀ slot e, (slot, e) ∈ rows ↔ s slot = some e := by
  obtain ⟨rows, hrows, hheld⟩ := exists_map_of_forall fun e he => h.labelEntry_of_mem he
  refine ⟨rows, hrows, ?_, fun slot e => ⟨hheld (slot, e), fun he => ?_⟩⟩
  · have hnames : ((f.filter fun e => isLabelName e.1).map Prod.fst).Nodup := by
      rw [List.Nodup, List.pairwise_map]
      exact (h.tidy.ordered.filter _).imp fun hlt => hlt.ne
    have hfiles : (rows.map labelEntry).map Prod.fst = (rows.map Prod.fst).map Slot.labelFile := by
      rw [List.map_map, List.map_map]
      rfl
    rw [hrows, hfiles] at hnames
    exact hnames.of_map
  · have hmem := h.mem_labels he
    rw [hrows] at hmem
    obtain ⟨⟨t, held⟩, hrow, heq⟩ := List.mem_map.mp hmem
    have hname : t.name .label = slot.name .label := congrArg Prod.fst heq
    obtain ⟨rfl, -⟩ := name_inj.mp hname
    rw [hheld _ hrow] at he
    obtain rfl := Option.some.inj he
    exact hrow

theorem Keeps.listing? (h : Keeps f s) {slot : Slot} {e : SaveRecord × UInt64}
    (he : s slot = some e) :
    Slots.listing? f (labelBytes slot e.1 e.2) = some (listingOf slot e) := by
  have hhas : Slots.has f slot = true := by
    rw [h.has, he]
    rfl
  have hslot : ofLabel (SlotLabel.ofRecord slot.number slot.isQuick e.2 e.1) = slot :=
    ofLabel_listingOf slot e
  rw [Slots.listing?, labelBytes, SlotLabel.ofBytes?_text]
  change (if Slots.has f (ofLabel _) then _ else none) = _
  rw [hslot, hhas, if_pos rfl]
  rfl

theorem Keeps.listAll (h : Keeps f s) : ∃ ls, Slots.listAll f = .ok ls ∧ Listed s ls := by
  obtain ⟨rows, hrows, honce, hheld⟩ := h.labels
  let later (a b : Listing) : Bool := b.label.updated ≤ a.label.updated
  let told := rows.map fun row => listingOf row.1 row.2
  have htold : (rows.map fun row => labelBytes row.1 row.2.1 row.2.2).filterMap
      (Slots.listing? f) = told := by
    rw [List.filterMap_map, List.filterMap_eq_map_iff_forall_eq_some]
    exact fun row hrow => h.listing? ((hheld row.1 row.2).mp hrow)
  have htrans : ∀ a b c, later a b → later b c → later a c := by
    intro a b c hab hbc
    exact decide_eq_true (UInt64.le_trans (of_decide_eq_true hbc) (of_decide_eq_true hab))
  have htotal : ∀ a b, later a b || later b a := by
    intro a b
    rw [Bool.or_eq_true, decide_eq_true_iff, decide_eq_true_iff]
    exact UInt64.le_total _ _
  have hperm : (told.mergeSort later).Perm told := List.mergeSort_perm told later
  have hslots : (told.map fun l => ofLabel l.label) = rows.map Prod.fst := by
    rw [List.map_map]
    exact List.map_congr_left fun row _ => ofLabel_listingOf row.1 row.2
  -- Sorting changes neither which slots are told of nor how often.
  refine ⟨told.mergeSort later, ?_, ?_, ?_, ?_, ?_⟩
  · rw [Slots.listAll, hrows, List.mapM_map, Outcome.mapM_eq_ok, Outcome.ok_bind, htold]
    exact fun row _ => rfl
  · exact (List.pairwise_mergeSort htrans htotal told).imp fun hle => of_decide_eq_true hle
  · rw [(hperm.map _).nodup_iff, hslots]
    exact honce
  · intro slot
    rw [(hperm.map _).mem_iff, hslots, List.mem_map, Option.isSome_iff_exists]
    constructor
    · rintro ⟨⟨_, e⟩, hrow, rfl⟩
      exact ⟨e, (hheld _ e).mp hrow⟩
    · rintro ⟨e, he⟩
      exact ⟨(slot, e), (hheld slot e).mpr he, rfl⟩
  · intro l hl
    obtain ⟨⟨slot, r, now⟩, hrow, rfl⟩ := List.mem_map.mp (hperm.mem_iff.mp hl)
    have he := (hheld slot (r, now)).mp hrow
    have hholds := h.holds slot
    rw [he] at hholds
    obtain ⟨-, ⟨bytes, hbytes, -⟩, -⟩ := hholds
    exact ⟨slot, r, now, he, tells_listingOf hbytes slot now⟩

theorem Keeps.list (h : Keeps f s) : ∃ ls, (Slots.list f).2 = .ok ls ∧ Listed s ls := by
  obtain ⟨g, hrun, hg⟩ := h.layout
  rw [Slots.list, after_eq hrun]
  exact hg.listAll

/-- A folder of slots is a map from slots to records, whatever has been asked of it. Requests to one slot
do not change what another loads. -/
theorem keeps_shelf (requests : List Request) :
    (∀ slot e, shelfAfter requests slot = some e ↔ Latest requests slot e) ∧
    (∀ slot, Slots.load (folderAfter requests) slot =
      match shelfAfter requests slot with
      | none => .error (.io .notFound)
      | some (r, _) => .ok r) ∧
    (∀ slot, Slots.has (folderAfter requests) slot = (shelfAfter requests slot).isSome) ∧
    (∃ ls, (Slots.list (folderAfter requests)).2 = .ok ls ∧ Listed (shelfAfter requests) ls) ∧
    (∀ slot r now, (Slots.save (folderAfter requests) slot r now).2 =
      match r.toBytes with
      | .ok _ => .ok ⟨SlotLabel.ofRecord slot.number slot.isQuick now r, slot.file⟩
      | .error cause => .error (.save cause)) ∧
    (∀ slot, (Slots.remove (folderAfter requests) slot).2 = .ok ()) ∧
    ∀ (request : Request) (slot : Slot), request.slot? ≠ some slot →
      Slots.load (folderAfter (requests ++ [request])) slot =
        Slots.load (folderAfter requests) slot := by
  have h : Keeps (folderAfter requests) (shelfAfter requests) := Keeps.empty.run requests
  refine ⟨fun _ _ => shelfAfter_eq_some, h.load, h.has, h.list, fun slot r now => (h.save slot r now).2,
    fun slot => (h.remove slot).2, fun request slot hslot => ?_⟩
  have hnext : Keeps (folderAfter (requests ++ [request])) (shelfAfter (requests ++ [request])) :=
    Keeps.empty.run (requests ++ [request])
  have hsame : shelfAfter (requests ++ [request]) slot = shelfAfter requests slot := by
    rw [shelfAfter, List.foldl_append]
    exact request.shelf_of_slot? _ hslot
  rw [hnext.load, h.load, hsame]

end Slots

end Narrative
