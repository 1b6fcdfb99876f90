import Mathlib.Data.List.Induction
import Mathlib.Data.String.Basic
import Narrative.Folder
import Narrative.Proofs.Keyed
import Narrative.Proofs.Outcome

namespace Narrative

namespace FileName

open String

/-- A text is divided as the list of its characters is. -/
theorem splitOnAux_ofList (c : Char) (passed part rest : List Char) (parts : List String) :
    (ofList (passed ++ part ++ rest)).splitOnAux (singleton c) ⟨utf8Len passed⟩
        ⟨utf8Len passed + utf8Len part⟩ 0 parts =
      parts.reverse ++ (List.splitOnPPrepend (· == c) rest part.reverse).map ofList := by
  have hseparator : Pos.Raw.get (singleton c) 0 = c := get_of_valid [] [c]
  have hpast : Pos.Raw.next (singleton c) 0 = ⟨c.utf8Size⟩ := by
    simpa using next_of_valid [] c []
  have hend : Pos.Raw.atEnd (singleton c) ⟨c.utf8Size⟩ = true := by
    simpa using atEnd_of_valid [c] []
  induction rest generalizing passed part parts with
  | nil =>
    have hdone := (atEnd_of_valid (passed ++ part) []).mpr rfl
    have hpart := extract_of_valid passed part []
    rw [utf8Len_append, List.append_nil] at hdone
    rw [List.append_nil] at hpart
    rw [splitOnAux, List.append_nil, if_pos hdone, hpart, List.splitOnPPrepend_nil,
      List.reverse_reverse, List.reverse_cons]
    rfl
  | cons d rest ih =>
    have hmore := (atEnd_of_valid (passed ++ part) (d :: rest)).not.mpr (List.cons_ne_nil d rest)
    have hget := get_of_valid (passed ++ part) (d :: rest)
    have hnext := next_of_valid (passed ++ part) d rest
    have hpart := extract_of_valid passed part (d :: rest)
    have hstay (n : Nat) : (⟨n⟩ : Pos.Raw).unoffsetBy 0 = ⟨n⟩ := rfl
    rw [utf8Len_append] at hmore hget hnext
    rw [splitOnAux, if_neg hmore, hget, hseparator, List.headD_cons, hnext, hpast, hstay, hnext,
      List.splitOnPPrepend_cons_eq_if]
    dsimp only
    rw [hend, if_pos rfl]
    by_cases hd : d = c
    · have hback : (⟨utf8Len passed + utf8Len part + d.utf8Size⟩ : Pos.Raw).unoffsetBy ⟨c.utf8Size⟩ =
          ⟨utf8Len passed + utf8Len part⟩ := by
        rw [hd, Pos.Raw.unoffsetBy, Nat.add_sub_cancel]
      have hrest := ih (passed ++ part ++ [d]) [] (ofList part :: parts)
      have hlong : passed ++ part ++ [d] ++ [] ++ rest = passed ++ part ++ d :: rest := by simp
      have hpos : utf8Len (passed ++ part ++ [d]) = utf8Len passed + utf8Len part + d.utf8Size := by
        simp [Nat.add_assoc]
      rw [hlong, hpos, utf8Len_nil, Nat.add_zero, List.reverse_nil,
        List.splitOnPPrepend_nil_right] at hrest
      rw [if_pos (beq_iff_eq.mpr hd), if_pos (beq_iff_eq.mpr hd), hback, hpart, hrest,
        List.reverse_reverse, List.map_cons, List.reverse_cons, List.append_assoc]
      rfl
    · have hrest := ih passed (part ++ [d]) parts
      have hlong : passed ++ (part ++ [d]) ++ rest = passed ++ part ++ d :: rest := by simp
      have hpos : utf8Len passed + utf8Len (part ++ [d]) =
          utf8Len passed + utf8Len part + d.utf8Size := by
        simp [Nat.add_assoc]
      rw [hlong, hpos, List.reverse_append] at hrest
      rw [if_neg (by simpa using hd), if_neg (by simpa using hd), hrest]
      rfl

theorem splitOn_singleton (c : Char) (name : String) :
    name.splitOn (singleton c) = (name.toList.splitOnP (· == c)).map ofList := by
  have h := splitOnAux_ofList c [] [] name.toList []
  have hsome : ¬ (singleton c == "") = true := by simp
  rw [List.nil_append, List.nil_append, ofList_toList] at h
  rw [splitOn, if_neg hsome]
  exact h

theorem splitOn_slash (name : String) :
    name.splitOn "/" = (name.toList.splitOnP (· == '/')).map ofList :=
  splitOn_singleton '/' name

/-- One part of a name, which leads down. -/
structure IsPart (part : String) : Prop where
  plain : '/' ∉ part.toList
  some : part ≠ ""
  moves : part ≠ "."
  down : part ≠ ".."

instance : DecidablePred IsPart := fun part =>
  decidable_of_iff ('/' ∉ part.toList ∧ part ≠ "" ∧ part ≠ "." ∧ part ≠ "..")
    ⟨fun h => ⟨h.1, h.2.1, h.2.2.1, h.2.2.2⟩, fun h => ⟨h.plain, h.some, h.moves, h.down⟩⟩

variable {directory base : String}

theorem splitOn_inside (hdirectory : IsPart directory) (hbase : IsPart base) :
    (directory ++ "/" ++ base).splitOn "/" = [directory, base] := by
  have hplain (part : String) (hpart : IsPart part) : ∀ c ∈ part.toList, (c == '/') = false := by
    intro c hc
    rw [beq_eq_false_iff_ne]
    rintro rfl
    exact hpart.plain hc
  have hlist : (directory ++ "/" ++ base).toList = directory.toList ++ '/' :: base.toList := by simp
  rw [splitOn_slash, hlist,
    List.splitOnP_append_cons_of_forall_mem (hplain directory hdirectory) '/' (by decide),
    List.splitOnP_eq_singleton (hplain base hbase)]
  simp

theorem not_startsWith_slash (hdirectory : IsPart directory) (base : String) :
    (directory ++ "/" ++ base).startsWith "/" = false := by
  rw [Bool.eq_false_iff, Ne, startsWith_string_iff]
  intro hslash
  have hplain := hdirectory.plain
  have hsome := hdirectory.some
  rw [Ne, ← toList_inj] at hsome
  cases hlist : directory.toList with
  | nil => exact hsome hlist
  | cons c rest =>
    have hc : '/' = c := by simpa [hlist] using hslash
    rw [hlist, ← hc] at hplain
    exact hplain List.mem_cons_self

/-- Parts that lead down can be told from the name that they make. -/
theorem parts_ofParts {ps : List String} (hsome : ps ≠ []) (hparts : ∀ part ∈ ps, IsPart part) :
    parts (ofParts ps) = ps := by
  have hplain : ∀ cs ∈ ps.map String.toList, '/' ∉ cs := by
    intro cs hcs
    obtain ⟨part, hpart, rfl⟩ := List.mem_map.mp hcs
    exact (hparts part hpart).plain
  have hsplit : (ofParts ps).splitOn "/" = ps := by
    have hlists := List.splitOn_intercalate '/' hplain (by simpa using hsome)
    have hchars : (ofParts ps).toList = ['/'].intercalate (ps.map String.toList) :=
      String.toList_intercalate
    rw [splitOn_slash, hchars]
    refine (congrArg (List.map ofList) hlists).trans ?_
    rw [List.map_map]
    exact List.map_id'' (fun _ => ofList_toList) ps
  rw [parts, hsplit, List.filter_eq_self]
  intro part hpart
  simp [(hparts part hpart).some, (hparts part hpart).moves]

/-- The extension is that of the last part. -/
theorem extension?_ofParts {ps : List String} (hsome : ps ≠ []) (hparts : ∀ part ∈ ps, IsPart part) :
    extension? (ofParts ps) = ps.getLast?.bind fun part =>
      match ((part.toList.splitOnP (· == '.')).map ofList).reverse with
      | last :: first :: more => if more = [] && first = "" then none else some last
      | _ => none := by
  rw [extension?, parts_ofParts hsome hparts]
  cases hlast : ps.getLast? with
  | none => rfl
  | some part =>
    have hpart : IsPart part := hparts part (List.mem_of_getLast? hlast)
    have hpoint : part.splitOn "." = (part.toList.splitOnP (· == '.')).map ofList :=
      splitOn_singleton '.' part
    dsimp only
    rw [if_neg hpart.down, hpoint]
    rfl

end FileName

namespace Folder

open FileName

variable {f : Folder} {directory base : String}

/-- Going to a file inside a directory needs the directory, and not the file. -/
theorem locate_inside (hdirectory : IsPart directory) (hbase : IsPart base) :
    f.locate (directory ++ "/" ++ base) =
      match Keyed.lookup directory f with
      | none => .error .notFound
      | some (.file _) => .error .notADirectory
      | some .directory => .ok [directory, base] := by
  have hone : ofParts [directory] = directory := by rw [ofParts, String.intercalate_singleton]
  have hsome : directory ++ "/" ++ base ≠ "" := fun hempty =>
    hdirectory.some (String.append_eq_empty_iff.mp (String.append_eq_empty_iff.mp hempty).1).1
  have hroot : f.descend [] [directory, base] = f.descend [directory] [base] := by
    rw [descend, item?, List.isEmpty_nil, if_pos rfl]
    dsimp only
    rw [if_neg (by simp [hdirectory.some, hdirectory.moves]), if_neg hdirectory.down]
    rfl
  rw [locate, not_startsWith_slash hdirectory, splitOn_inside hdirectory hbase, hroot, descend,
    item?, List.isEmpty_cons, if_neg Bool.false_ne_true, hone, if_neg (by simp [hsome])]
  cases Keyed.lookup directory f with
  | none => rfl
  | some item =>
    cases item with
    | file bytes => rfl
    | directory =>
      dsimp only
      rw [if_neg (by simp [hbase.some, hbase.moves]), if_neg hbase.down]
      rfl

/-- What reading a file inside a directory comes to. -/
theorem read_inside (hdirectory : IsPart directory) (hbase : IsPart base) :
    f.read (directory ++ "/" ++ base) =
      match Keyed.lookup directory f with
      | none => .error .notFound
      | some (.file _) => .error .notADirectory
      | some .directory =>
        match Keyed.lookup (directory ++ "/" ++ base) f with
        | some (.file bytes) => .ok bytes
        | some .directory => .error .isADirectory
        | none => .error .notFound := by
  have hitem : f.item? [directory, base] = Keyed.lookup (directory ++ "/" ++ base) f := by
    rw [item?, List.isEmpty_cons, if_neg Bool.false_ne_true, ofParts,
      String.intercalate_cons_cons, String.intercalate_singleton]
  rw [read, locate_inside hdirectory hbase]
  cases Keyed.lookup directory f with
  | none => rfl
  | some item =>
    cases item with
    | file bytes => rfl
    | directory =>
      cases hfile : Keyed.lookup (directory ++ "/" ++ base) f with
      | none => simp only [Outcome.ok_bind, hitem, hfile]
      | some item => cases item <;> simp only [Outcome.ok_bind, hitem, hfile]

/-- A point leads nowhere else. -/
theorem locate_point (f : Folder) : f.locate "." = .ok [] := by
  have hpoint : ".".splitOn "/" = ["."] := by
    rw [splitOn_slash]
    decide
  have hslash : ¬ ".".startsWith "/" = true := by
    rw [String.startsWith_string_iff]
    decide
  have hroot : f.item? [] = some .directory := rfl
  rw [locate, hpoint, descend, hroot, if_neg (by simp [hslash])]
  rfl

/-- Files that can stand side by side: their parts lead down, and none is where another one is or needs a
directory. -/
structure SideBySide (files : List (List String × Bytes)) : Prop where
  some : ∀ e ∈ files, e.1 ≠ []
  parts : ∀ e ∈ files, ∀ part ∈ e.1, IsPart part
  apart : files.Pairwise fun d e => ¬ d.1 <+: e.1 ∧ ¬ e.1 <+: d.1

/-- A file under its whole name. -/
def named (e : List String × Bytes) : String × Bytes := (ofParts e.1, e.2)

theorem SideBySide.perm {files walk : List (List String × Bytes)} (h : SideBySide files)
    (hwalk : walk.Perm files) : SideBySide walk where
  some e he := h.some e (hwalk.mem_iff.mp he)
  parts e he := h.parts e (hwalk.mem_iff.mp he)
  apart := (hwalk.pairwise_iff fun h => ⟨h.2, h.1⟩).mpr h.apart

theorem ofParts_inj {ps qs : List String} (hps : ps ≠ []) (hqs : qs ≠ [])
    (hpparts : ∀ part ∈ ps, IsPart part) (hqparts : ∀ part ∈ qs, IsPart part)
    (h : ofParts ps = ofParts qs) : ps = qs := by
  rw [← parts_ofParts hps hpparts, h, parts_ofParts hqs hqparts]

theorem SideBySide.before {done : List (List String × Bytes)} {e : List String × Bytes}
    (h : SideBySide (done ++ [e])) : SideBySide done where
  some d hd := h.some d (List.mem_append_left _ hd)
  parts d hd := h.parts d (List.mem_append_left _ hd)
  apart := (List.pairwise_append.mp h.apart).1

theorem SideBySide.nodup_named {files : List (List String × Bytes)} (h : SideBySide files) :
    (files.map named).Nodup := by
  have hnodup : files.Nodup := by
    refine h.apart.imp ?_
    rintro d _ hapart rfl
    exact hapart.1 List.prefix_rfl
  refine List.Nodup.map_on (fun d hd e he heq => ?_) hnodup
  have hparts := ofParts_inj (h.some d hd) (h.some e he) (h.parts d hd) (h.parts e he)
    (congrArg Prod.fst heq)
  exact Prod.ext hparts (congrArg (Prod.snd : String × Bytes → Bytes) heq)

theorem lookup_makeDirectories (f : Folder) (ps : List String) (name : String) :
    Keyed.lookup name (f.makeDirectories ps) =
      if ∃ n < ps.length, ofParts (ps.take (n + 1)) = name then some .directory
      else Keyed.lookup name f := by
  have hfold (steps : List Nat) (f : Folder) :
      Keyed.lookup name (steps.foldl
        (fun f n => Keyed.insert (ofParts (ps.take (n + 1))) .directory f) f) =
      if ∃ n ∈ steps, ofParts (ps.take (n + 1)) = name then some .directory
      else Keyed.lookup name f := by
    induction steps generalizing f with
    | nil => simp
    | cons n rest ih =>
      rw [List.foldl_cons, ih, Keyed.lookup_insert]
      simp only [List.exists_mem_cons_iff]
      by_cases hrest : ∃ n ∈ rest, ofParts (ps.take (n + 1)) = name
      · rw [if_pos hrest, if_pos (.inr hrest)]
      · simp only [if_neg hrest, or_iff_left hrest]
  rw [makeDirectories, hfold]
  simp only [List.mem_range]

theorem ordered_makeDirectories {f : Folder} (hf : Keyed.Ordered f) (ps : List String) :
    Keyed.Ordered (f.makeDirectories ps) := by
  rw [makeDirectories]
  induction List.range ps.length generalizing f with
  | nil => exact hf
  | cons n rest ih => exact ih (Keyed.ordered_insert _ _ hf)

theorem lookup_put (f : Folder) (ps : List String) (bytes : Bytes) (name : String) :
    Keyed.lookup name (f.put ps bytes) =
      if ofParts ps = name then some (.file bytes)
      else if ∃ n < ps.dropLast.length, ofParts (ps.dropLast.take (n + 1)) = name then some .directory
      else Keyed.lookup name f := by
  rw [put, Keyed.lookup_insert, lookup_makeDirectories]

/-- A file is put in the way of no file that stands beside it. -/
theorem lookup_file_put {f : Folder} {done : List (List String × Bytes)} {e : List String × Bytes}
    (h : SideBySide (done ++ [e]))
    (hdone : ∀ name bytes, Keyed.lookup name f = some (.file bytes) ↔
      (name, bytes) ∈ done.map named) (name : String) (bytes : Bytes) :
    Keyed.lookup name (f.put e.1 e.2) = some (.file bytes) ↔
      (name, bytes) ∈ (done ++ [e]).map named := by
  obtain ⟨-, -, hacross⟩ := List.pairwise_append.mp h.apart
  have he : e ∈ done ++ [e] := List.mem_append_right _ (List.mem_singleton_self e)
  have hbeside {qs : List String} (hqs : qs ≠ []) (hlead : qs <+: e.1) :
      ∀ bytes, (ofParts qs, bytes) ∉ done.map named := by
    intro bytes hmem
    obtain ⟨d, hd, hname⟩ := List.mem_map.mp hmem
    have hd' : d ∈ done ++ [e] := List.mem_append_left _ hd
    have hparts : d.1 = qs := ofParts_inj (h.some d hd') hqs (h.parts d hd')
      (fun part hpart => h.parts e he part (hlead.subset hpart)) (congrArg Prod.fst hname)
    exact (hacross d hd e (List.mem_singleton_self e)).1 (hparts ▸ hlead)
  rw [lookup_put, List.map_append, List.mem_append, List.map_singleton, List.mem_singleton]
  by_cases hfile : ofParts e.1 = name
  · subst hfile
    have hnone := hbeside (h.some e he) List.prefix_rfl bytes
    simp [hnone, named, eq_comm]
  · have hother : (name, bytes) ≠ named e := fun heq => hfile (congrArg Prod.fst heq).symm
    rw [if_neg hfile, or_iff_left hother]
    by_cases hway : ∃ n < e.1.dropLast.length, ofParts (e.1.dropLast.take (n + 1)) = name
    · rw [if_pos hway]
      obtain ⟨n, hn, rfl⟩ := hway
      have hsome : e.1.dropLast.take (n + 1) ≠ [] := by
        rw [← List.length_pos_iff, List.length_take]
        omega
      have hnone := hbeside hsome ((List.take_prefix _ _).trans (List.dropLast_prefix _)) bytes
      simp [hnone]
    · rw [if_neg hway]
      exact hdone name bytes

theorem ordered_ofFiles (files : List (String × Bytes)) : Keyed.Ordered (ofFiles files) := by
  induction files using List.reverseRecOn with
  | nil => exact .nil
  | append_singleton done e ih =>
    rw [ofFiles, List.foldl_append, List.foldl_cons, List.foldl_nil]
    exact Keyed.ordered_insert _ _ (ordered_makeDirectories ih _)

theorem lookup_file_ofFiles {files : List (List String × Bytes)} (h : SideBySide files)
    (name : String) (bytes : Bytes) :
    Keyed.lookup name (ofFiles (files.map named)) = some (.file bytes) ↔
      (name, bytes) ∈ files.map named := by
  induction files using List.reverseRecOn generalizing name bytes with
  | nil => simp [ofFiles, Keyed.lookup]
  | append_singleton done e ih =>
    have he : e ∈ done ++ [e] := List.mem_append_right _ (List.mem_singleton_self e)
    have hparts : FileName.parts (ofParts e.1) = e.1 := parts_ofParts (h.some e he) (h.parts e he)
    have hput : ofFiles ((done ++ [e]).map named) = (ofFiles (done.map named)).put e.1 e.2 := by
      rw [List.map_append, ofFiles, List.foldl_append, List.map_singleton, List.foldl_cons,
        List.foldl_nil, named, hparts]
      rfl
    rw [hput]
    exact lookup_file_put h (ih h.before) name bytes

theorem mem_contents (hf : Keyed.Ordered f) (e : String × Bytes) :
    e ∈ contents f ↔ Keyed.lookup e.1 f = some (.file e.2) := by
  rw [contents, List.mem_filterMap]
  constructor
  · rintro ⟨⟨name, item⟩, hitem, heq⟩
    cases item with
    | directory => cases heq
    | file bytes =>
      cases heq
      exact Keyed.lookup_of_mem hf hitem
  · intro hlookup
    exact ⟨_, Keyed.mem_of_lookup hlookup, rfl⟩

theorem nodup_contents (hf : Keyed.Ordered f) : (contents f).Nodup := by
  refine List.Pairwise.filterMap _ (fun d e hlt x hx y hy heq => ?_) hf
  obtain ⟨name, item⟩ := d
  obtain ⟨name', item'⟩ := e
  subst heq
  cases item with
  | directory => cases hx
  | file bytes =>
    cases item' with
    | directory => cases hy
    | file bytes' =>
      cases hx
      cases hy
      exact String.lt_irrefl _ hlt

/-- A folder made of files holds these files, and no others. -/
theorem contents_ofFiles {files : List (List String × Bytes)} (h : SideBySide files) :
    (contents (ofFiles (files.map named))).Perm (files.map named) := by
  have hordered := ordered_ofFiles (files.map named)
  refine (List.perm_ext_iff_of_nodup (nodup_contents hordered) h.nodup_named).mpr fun e => ?_
  rw [mem_contents hordered, lookup_file_ofFiles h]

end Folder

end Narrative
